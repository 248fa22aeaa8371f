import Mathlib.Data.List.Sort
import Mathlib.Data.List.DropRight
import Symphony.Rust.Basic
/-!
# Reading a ClientHello

The hello parser, the SNI and ALPN readers and the two fingerprints. A
`Parser` is the bytes it has not read yet: the source's `buf[pos..]`. The hash
functions are the `md5` and `sha2` crates', a parameter (`Crypto`).
-/

namespace Symphony.Sni

/-- The digests the fingerprints use, with their sizes. -/
structure Crypto where
  md5 : Bytes → Bytes
  sha256 : Bytes → Bytes
  md5_length : ∀ d, (md5 d).length = 16
  sha256_length : ∀ d, (sha256 d).length = 32

/-- Rolling sums in place of the digests, to evaluate the model with. -/
def Crypto.sums : Crypto where
  md5 data := (List.range 16).map fun i => data.foldl (31 * · + ·) (UInt8.ofNat i)
  sha256 data := (List.range 32).map fun i => data.foldl (33 * · + ·) (UInt8.ofNat i)
  md5_length _ := by simp
  sha256_length _ := by simp

/-! ## Parser -/

abbrev Parser := Bytes

def read_u8 : Parser → Option (UInt8 × Parser)
  | a :: p => some (a, p)
  | _ => none

def read_u16 : Parser → Option (Nat × Parser)
  | a :: b :: p => some (be16 a b, p)
  | _ => none

def read_u24 : Parser → Option (Nat × Parser)
  | a :: b :: c :: p => some (a.toNat * 65536 + be16 b c, p)
  | _ => none

def read_bytes (n : Nat) (p : Parser) : Option (Bytes × Parser) :=
  if p.length < n then none else some (p.take n, p.drop n)

def skip (n : Nat) (p : Parser) : Option Parser :=
  if p.length < n then none else some (p.drop n)

structure ClientHello where
  legacy_version : Nat
  cipher_suites : Bytes
  extensions : Bytes
  deriving DecidableEq, Repr

/-- `Parser::parse_client_hello` after the record and handshake headers. -/
def Parser.parse_hello_body (p : Parser) : Option ClientHello := do
  let (legacy_version, p) ← read_u16 p
  let p ← skip 32 p
  let (session_id_len, p) ← read_u8 p
  let p ← skip session_id_len.toNat p
  let (cs_len, p) ← read_u16 p
  let (cipher_suites, p) ← read_bytes cs_len p
  let (cm_len, p) ← read_u8 p
  let p ← skip cm_len.toNat p
  if p.length < 2 then
    some ⟨legacy_version, cipher_suites, []⟩
  else
    let (ext_len, p) ← read_u16 p
    let (extensions, _) ← read_bytes (min ext_len p.length) p
    some ⟨legacy_version, cipher_suites, extensions⟩

/-- `Parser::parse_client_hello`. -/
def Parser.parse_client_hello (p : Parser) : Option ClientHello := do
  let (content_type, p) ← read_u8 p
  if content_type != 0x16 then none
  let p ← skip 2 p
  let (_record_len, p) ← read_u16 p
  let (msg_type, p) ← read_u8 p
  if msg_type != 0x01 then none
  let (_hs_len, p) ← read_u24 p
  p.parse_hello_body

/-! ## Which bodies parse -/

/-- The fields of a hello body before its extensions. -/
structure HelloFields where
  version : Nat
  random : Bytes
  session_id : Bytes
  cipher_suites : Bytes
  compression : Bytes
  version_fits : version < 65536
  random_length : random.length = 32
  session_id_fits : session_id.length < 256
  cipher_suites_fits : cipher_suites.length < 65536
  compression_fits : compression.length < 256

def HelloFields.encode (f : HelloFields) : Bytes :=
  to_be16 f.version ++ f.random ++ UInt8.ofNat f.session_id.length :: f.session_id ++
    to_be16 f.cipher_suites.length ++ f.cipher_suites ++ UInt8.ofNat f.compression.length :: f.compression

/-- The body starts with all the fields; anything may follow them. -/
def WellFormed (body : Bytes) : Prop := ∃ (f : HelloFields) (rest : Bytes), body = f.encode ++ rest

theorem read_u16_to_be16 {n : Nat} (h : n < 65536) (p : Parser) : read_u16 (to_be16 n ++ p) = some (n, p) := by
  simp [to_be16, read_u16, be16_to_be16 h]

theorem skip_append (d p : Bytes) : skip d.length (d ++ p) = some p := by
  simp [skip]

theorem read_bytes_append (d p : Bytes) : read_bytes d.length (d ++ p) = some (d, p) := by
  simp [read_bytes]

theorem read_u8_inv {p q : Parser} {a : UInt8} (h : read_u8 p = some (a, q)) : p = a :: q := by
  match p, h with
  | _ :: _, rfl => rfl

theorem read_u16_inv {p q : Parser} {n : Nat} (h : read_u16 p = some (n, q)) : n < 65536 ∧ p = to_be16 n ++ q := by
  match p, h with
  | a :: b :: _, rfl => exact ⟨be16_lt a b, by rw [to_be16_be16]; rfl⟩

theorem skip_inv {n : Nat} {p q : Parser} (h : skip n p = some q) : ∃ d, d.length = n ∧ p = d ++ q := by
  unfold skip at h
  split at h
  · cases h
  · simp only [Option.some.injEq] at h
    exact ⟨p.take n, by rw [List.length_take]; omega, by rw [← h, List.take_append_drop]⟩

theorem read_bytes_inv {n : Nat} {p q : Parser} {d : Bytes} (h : read_bytes n p = some (d, q)) :
    d.length = n ∧ p = d ++ q := by
  unfold read_bytes at h
  split at h
  · cases h
  · simp only [Option.some.injEq, Prod.mk.injEq] at h
    exact ⟨by rw [← h.1, List.length_take]; omega, by rw [← h.1, ← h.2, List.take_append_drop]⟩

/-- The extension bytes of what follows the fields: as many of the declared ones as there
are. -/
def extensions_of (rest : Bytes) : Bytes :=
  match read_u16 rest with
  | none => []
  | some (ext_len, p) => p.take ext_len

theorem parse_hello_body_fields (f : HelloFields) (rest : Bytes) :
    Parser.parse_hello_body (f.encode ++ rest) = some ⟨f.version, f.cipher_suites, extensions_of rest⟩ := by
  have hs : (UInt8.ofNat f.session_id.length).toNat = f.session_id.length := by
    simpa using Nat.mod_eq_of_lt f.session_id_fits
  have hm : (UInt8.ofNat f.compression.length).toNat = f.compression.length := by
    simpa using Nat.mod_eq_of_lt f.compression_fits
  have hr : ∀ p, skip 32 (f.random ++ p) = some p := fun p => by rw [← f.random_length, skip_append]
  simp only [Parser.parse_hello_body, HelloFields.encode, List.append_assoc, List.cons_append,
    read_u16_to_be16 f.version_fits, hr, read_u8, hs, skip_append, read_u16_to_be16 f.cipher_suites_fits,
    read_bytes_append, hm, Option.bind_eq_bind, Option.bind_some]
  match rest with
  | [] | [_] => rfl
  | a :: b :: rest =>
    rw [if_neg (by simp)]
    simp [read_u16, read_bytes, extensions_of, List.take_eq_take_iff]

/-- A hello body parses exactly when it has all its fields. -/
theorem parse_hello_body_isSome (body : Bytes) :
    (Parser.parse_hello_body body).isSome ↔ WellFormed body := by
  constructor
  · intro h
    obtain ⟨hello, h⟩ := Option.isSome_iff_exists.1 h
    simp only [Parser.parse_hello_body, Option.bind_eq_bind, Option.bind_eq_some_iff, Prod.exists] at h
    obtain ⟨v, p₁, h₁, p₂, h₂, sl, p₃, h₃, p₄, h₄, cl, p₅, h₅, cs, p₆, h₆, ml, p₇, h₇, p₈, h₈, -⟩ := h
    obtain ⟨hv, rfl⟩ := read_u16_inv h₁
    obtain ⟨random, hr, rfl⟩ := skip_inv h₂
    obtain rfl := read_u8_inv h₃
    obtain ⟨sid, hs, rfl⟩ := skip_inv h₄
    obtain ⟨hc, rfl⟩ := read_u16_inv h₅
    obtain ⟨rfl, rfl⟩ := read_bytes_inv h₆
    obtain rfl := read_u8_inv h₇
    obtain ⟨comp, hm, rfl⟩ := skip_inv h₈
    have := sl.toNat_lt
    have := ml.toNat_lt
    refine ⟨⟨v, random, sid, cs, comp, hv, hr, by omega, hc, by omega⟩, p₈, ?_⟩
    simp [HelloFields.encode, hs, hm]
  · rintro ⟨f, rest, rfl⟩
    rw [parse_hello_body_fields]
    rfl

/-! ## ALPN offer -/

/-- The protocols of an ALPN list: does one of them read `h2`? -/
def protocols_offer_h2 (p : Parser) : Bool :=
  match p with
  | [] => false
  | len :: p =>
    if p.length < len.toNat then false
    else if p.take len.toNat == bytes "h2" then true
    else protocols_offer_h2 (p.drop len.toNat)
termination_by p.length
decreasing_by simp only [List.length_drop, List.length_cons]; omega

def alpn_offers_h2 (extensions : Parser) : Bool :=
  match extensions with
  | t1 :: t0 :: l1 :: l0 :: p =>
    if p.length < be16 l1 l0 then false
    else if be16 t1 t0 ≠ 0x0010 then alpn_offers_h2 (p.drop (be16 l1 l0))
    else match (read_u16 (p.take (be16 l1 l0))).bind fun (list_len, data) => read_bytes list_len data with
      | none => false
      | some (list, _) => protocols_offer_h2 list
  | _ => false
termination_by extensions.length
decreasing_by simp only [List.length_drop, List.length_cons]; omega

/-! ## SNI extraction -/

/-- The entries of a server_name list. `none`: an entry runs past the list;
`some none`: no host_name among them. -/
def host_name_entry (sp : Parser) : Option (Option Bytes) :=
  match sp with
  | name_type :: n1 :: n0 :: sp =>
    if sp.length < be16 n1 n0 then none
    else if name_type == 0x00 then some (some (sp.take (be16 n1 n0)))
    else host_name_entry (sp.drop (be16 n1 n0))
  | _ => some none
termination_by sp.length
decreasing_by simp only [List.length_drop, List.length_cons]; omega

/-- The bytes of the hello's first host_name, as the client spelled it. -/
def host_name (extensions : Parser) : Option Bytes :=
  match extensions with
  | t1 :: t0 :: l1 :: l0 :: p =>
    if p.length < be16 l1 l0 then none
    else if be16 t1 t0 ≠ 0x0000 then host_name (p.drop (be16 l1 l0))
    else match read_u16 (p.take (be16 l1 l0)) with
      | none => none
      | some (_list_len, sp) =>
        match host_name_entry sp with
        | none => none
        | some (some name_data) => some name_data
        | some none => host_name (p.drop (be16 l1 l0))
  | _ => none
termination_by extensions.length
decreasing_by all_goals simp only [List.length_drop, List.length_cons]; omega

/-- `str::trim_end_matches('.')`. -/
def trim_end_dots (s : Bytes) : Bytes := s.rdropWhile (· == 46)

/-- The checks `extract_sni` makes on the name it found. -/
def normalize_sni (name_data : Bytes) : Option Bytes := do
  let raw ← from_utf8 name_data
  let sni := trim_end_dots raw
  if sni.isEmpty || sni.length > 253 || sni.contains 58 || sni.contains 47 then none
  some sni

def extract_sni (extensions : Bytes) : Option Bytes := (host_name extensions).bind normalize_sni

/-! ## Fingerprints -/

/-- `is_grease`: both bytes equal, low nibble `0xA`. -/
def is_grease (v : Nat) : Bool := v / 256 == v % 256 && v % 16 == 10

/-- `chunks_exact(2)` read as big-endian `u16`s. -/
def u16s : Bytes → List Nat
  | a :: b :: t => be16 a b :: u16s t
  | _ => []

/-- The extensions the fingerprint loops see: they stop at the first one that
runs past the buffer. -/
def extension_list (p : Parser) : List (Nat × Bytes) :=
  match p with
  | t1 :: t0 :: l1 :: l0 :: p =>
    if p.length < be16 l1 l0 then []
    else (be16 t1 t0, p.take (be16 l1 l0)) :: extension_list (p.drop (be16 l1 l0))
  | _ => []
termination_by p.length
decreasing_by simp only [List.length_drop, List.length_cons]; omega

/-- One lowercase hex digit. -/
def hex_char (n : Nat) : UInt8 := UInt8.ofNat (if n < 10 then 48 + n else 87 + n)

def bytes_to_hex (bs : Bytes) : Bytes := bs.flatMap fun b => [hex_char (b.toNat / 16), hex_char (b.toNat % 16)]

/-- `{v:04x}`. -/
def hex4 (v : Nat) : Bytes :=
  [hex_char (v / 4096 % 16), hex_char (v / 256 % 16), hex_char (v / 16 % 16), hex_char (v % 16)]

/-- `{n}` and `{n:02}`. -/
def decimal (n : Nat) : Bytes := (Nat.toDigits 10 n).map fun c => UInt8.ofNat c.toNat
def decimal2 (n : Nat) : Bytes := if n < 10 then 48 :: decimal n else decimal n

def join_hex4 (values : List Nat) : Bytes := (values.map hex4).intersperse [44] |>.flatten

/-- `join_u16` and `join_u8`. -/
def join_dec (values : List Nat) : Bytes := (values.map decimal).intersperse [45] |>.flatten

def md5_hex (C : Crypto) (data : Bytes) : Bytes := bytes_to_hex (C.md5 data)

def sha256_hex12 (C : Crypto) (data : Bytes) : Bytes := bytes_to_hex ((C.sha256 data).take 6)

/-- A list with a 2-byte length before it, cut to the bytes that are there. -/
def list16 (ext_data : Bytes) : Bytes :=
  match read_u16 ext_data with
  | none => []
  | some (list_len, rest) => rest.take list_len

/-- A list with a 1-byte length before it, cut to the bytes that are there. -/
def list8 (ext_data : Bytes) : Bytes :=
  match ext_data with
  | [] => []
  | list_len :: rest => rest.take list_len.toNat

/-- Data of the extensions of type `t`, in order. -/
def ext_data_of (t : Nat) (exts : List (Nat × Bytes)) : List Bytes :=
  (exts.filter fun e => e.1 == t).map (·.2)

def no_grease (vs : List Nat) : List Nat := vs.filter fun v => !is_grease v

def compute_ja3 (C : Crypto) (legacy_version : Nat) (cipher_suites extensions : Bytes) : Bytes :=
  let ciphers := no_grease (u16s cipher_suites)
  let exts := extension_list extensions
  let ext_types := no_grease (exts.map (·.1))
  let elliptic_curves := (ext_data_of 0x000A exts).flatMap fun d => no_grease (u16s (list16 d))
  let ec_point_formats := (ext_data_of 0x000B exts).flatMap fun d => (list8 d).map (·.toNat)
  let ja3_str := decimal legacy_version ++ [44] ++ join_dec ciphers ++ [44] ++ join_dec ext_types ++ [44] ++
    join_dec elliptic_curves ++ [44] ++ join_dec ec_point_formats
  md5_hex C ja3_str

/-- The first protocol of an ALPN extension, unless empty or cut short. -/
def alpn_proto (ext_data : Bytes) : Option Bytes :=
  match list16 ext_data with
  | [] => none
  | proto_len :: list => if 0 < proto_len.toNat ∧ proto_len.toNat ≤ list.length then some
    (list.take proto_len.toNat) else none

/-- The last ALPN extension with a usable first protocol decides. -/
def alpn_first (exts : List (Nat × Bytes)) : Option Bytes :=
  (ext_data_of 0x0010 exts).foldl (fun acc d => (alpn_proto d).or acc) none

def ver_str (tls_version : Nat) : Bytes :=
  match tls_version with
  | 0x0304 => bytes "13"
  | 0x0303 => bytes "12"
  | 0x0302 => bytes "11"
  | 0x0301 => bytes "10"
  | _ => bytes "00"

def alpn_chars : Option Bytes → Bytes
  | none => bytes "00"
  | some [] => bytes "00"
  | some (first :: rest) =>
    let last := rest.getLastD first
    if is_ascii_alphanumeric first && is_ascii_alphanumeric last then
      [to_ascii_lowercase first, to_ascii_lowercase last]
    else [hex_char (first.toNat / 16), hex_char (last.toNat % 16)]

def compute_ja4 (C : Crypto) (legacy_version : Nat) (cipher_suites extensions : Bytes) : Bytes :=
  let exts := (extension_list extensions).filter fun e => !is_grease e.1
  let ext_ids := exts.map (·.1)
  let supported_versions := (ext_data_of 0x002B exts).flatMap fun d => no_grease (u16s (list8 d))
  let sig_algs := (ext_data_of 0x000D exts).flatMap fun d => no_grease (u16s (list16 d))
  let tls_version := supported_versions.max?.getD legacy_version
  let sni_char := if ext_ids.contains 0x0000 then bytes "d" else bytes "i"
  let ciphers := (no_grease (u16s cipher_suites)).insertionSort (· ≤ ·)
  let cipher_count := min ciphers.length 99
  let ext_count := min ext_ids.length 99
  let part_a := bytes "t" ++ ver_str tls_version ++ sni_char ++ decimal2 cipher_count ++ decimal2 ext_count ++
    alpn_chars (alpn_first exts)
  let part_b := if ciphers.isEmpty then bytes "000000000000" else sha256_hex12 C (join_hex4 ciphers)
  let ext_for_hash := (ext_ids.filter fun t => t != 0x0000 && t != 0x0010).insertionSort (· ≤ ·)
  let ext_str := join_hex4 ext_for_hash
  let hash_input := if sig_algs.isEmpty then ext_str else ext_str ++ [95] ++ join_hex4 sig_algs
  let part_c := if hash_input.isEmpty then bytes "000000000000" else sha256_hex12 C hash_input
  part_a ++ [95] ++ part_b ++ [95] ++ part_c

theorem bytes_to_hex_length (bs : Bytes) : (bytes_to_hex bs).length = 2 * bs.length := by
  induction bs with
  | nil => rfl
  | cons b bs ih =>
    simp only [bytes_to_hex, List.flatMap_cons, List.length_append, List.length_cons, List.length_nil] at ih ⊢
    omega

theorem compute_ja3_length (C : Crypto) (v : Nat) (cs exts : Bytes) : (compute_ja3 C v cs exts).length = 32 := by
  simp [compute_ja3, md5_hex, bytes_to_hex_length, C.md5_length]

theorem compute_ja4_ne_nil (C : Crypto) (v : Nat) (cs exts : Bytes) : compute_ja4 C v cs exts ≠ [] := by
  simp [compute_ja4]

/-! ## What a peek reports -/

structure PeekInfo where
  sni : Option Bytes
  ja3 : Bytes
  ja4 : Bytes
  complete : Bool
  hello_len : Nat
  offers_h2 : Bool
  deriving DecidableEq, Repr

/-- The derived `Default`. -/
def PeekInfo.default : PeekInfo := ⟨none, [], [], false, 0, false⟩

def parse_client_hello (C : Crypto) (buf : Bytes) : PeekInfo :=
  match Parser.parse_client_hello buf with
  | none => PeekInfo.default
  | some hello =>
    { sni := extract_sni hello.extensions
      ja3 := compute_ja3 C hello.legacy_version hello.cipher_suites hello.extensions
      ja4 := compute_ja4 C hello.legacy_version hello.cipher_suites hello.extensions
      complete := false
      hello_len := 0
      offers_h2 := alpn_offers_h2 hello.extensions }

end Symphony.Sni
