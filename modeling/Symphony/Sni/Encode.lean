import Mathlib.Data.List.Sort
import Mathlib.Data.List.DropRight
import Symphony.Rust.Basic
import Symphony.Sni.Records
import Symphony.Sni.Hello
import Symphony.Sni.Peek
/-!
# Encoding a ClientHello

A ClientHello as a value and its encoding: extensions, the server_name and ALPN
lists inside them, the message and the single record around it. The readers of
`Sni.Hello` are inverse to it: each reads one encoded item off the front of any
bytes, so a list of them by induction.
-/

namespace Symphony.Sni

/-! ## Extensions -/

structure Extension where
  type : Nat
  data : Bytes
  type_fits : type < 65536
  data_fits : data.length < 65536
  deriving DecidableEq

def Extension.encode (e : Extension) : Bytes := to_be16 e.type ++ to_be16 e.data.length ++ e.data

/-- An extension as the readers see it. -/
def Extension.entry (e : Extension) : Nat × Bytes := (e.type, e.data)

def encodeExtensions (es : List Extension) : Bytes := es.flatMap Extension.encode

def DistinctTypes (es : List Extension) : Prop := (es.map Extension.type).Nodup

variable {e : Extension} {es : List Extension} {name : Bytes}

theorem extension_list_encode (e : Extension) (p : Bytes) :
    extension_list (e.encode ++ p) = e.entry :: extension_list p := by
  rw [extension_list.eq_def]
  simp [Extension.encode, Extension.entry, to_be16, be16_to_be16 e.type_fits, be16_to_be16 e.data_fits]

theorem host_name_encode_ne (h : e.type ≠ 0x0000) (p : Bytes) :
    host_name (e.encode ++ p) = host_name p := by
  rw [host_name.eq_def]
  simp only [Extension.encode, to_be16, List.cons_append, List.nil_append,
    be16_to_be16 e.type_fits, be16_to_be16 e.data_fits, List.drop_left]
  rw [if_neg (by simp), if_pos h]

theorem extension_list_encodeExtensions (es : List Extension) :
    extension_list (encodeExtensions es) = es.map Extension.entry := by
  induction es with
  | nil => simp [encodeExtensions, extension_list]
  | cons e es ih => exact (extension_list_encode e _).trans (congrArg _ ih)

/-- Among distinct types, nothing before an extension has its type. -/
theorem DistinctTypes.split (hd : DistinctTypes es) (he : e ∈ es) :
    ∃ pre post, es = pre ++ e :: post ∧ ∀ x ∈ pre, x.type ≠ e.type := by
  obtain ⟨pre, post, rfl⟩ := List.append_of_mem he
  refine ⟨pre, post, rfl, fun x hx heq => ?_⟩
  rw [DistinctTypes, List.map_append, List.nodup_append] at hd
  exact hd.2.2 x.type (List.mem_map_of_mem hx) e.type (by simp) heq

/-! ## The server_name list -/

structure ServerName where
  name_type : UInt8
  name : Bytes
  fits : name.length < 65536

def ServerName.encode (n : ServerName) : Bytes := n.name_type :: to_be16 n.name.length ++ n.name

def encodeNames (names : List ServerName) : Bytes :=
  to_be16 (names.flatMap ServerName.encode).length ++ names.flatMap ServerName.encode

/-- The host_name entries of a list. -/
def hostNames (names : List ServerName) : List Bytes := (names.filter (·.name_type == 0x00)).map (·.name)

theorem host_name_entry_encode (n : ServerName) (p : Bytes) :
    host_name_entry (n.encode ++ p) = if n.name_type == 0x00 then some (some n.name) else host_name_entry p := by
  rw [host_name_entry.eq_def]
  simp [ServerName.encode, to_be16, be16_to_be16 n.fits]

theorem host_name_entry_names (names : List ServerName) :
    host_name_entry (names.flatMap ServerName.encode) = some (hostNames names).head? := by
  induction names with
  | nil => simp [host_name_entry, hostNames]
  | cons n names ih =>
    rw [List.flatMap_cons, host_name_entry_encode]
    by_cases h : n.name_type == 0x00
    · simp [hostNames, h]
    · simpa [hostNames, h] using ih

theorem host_name_encode (h : e.type = 0x0000) {names : List ServerName} (hdata : e.data = encodeNames names)
    (hname : (hostNames names).head? = some name) (p : Bytes) :
    host_name (e.encode ++ p) = some name := by
  have hfits : (names.flatMap ServerName.encode).length < 65536 := by
    have := e.data_fits
    rw [hdata, encodeNames, List.length_append] at this
    omega
  rw [host_name.eq_def]
  simp only [Extension.encode, to_be16, List.cons_append, List.nil_append,
    be16_to_be16 e.type_fits, be16_to_be16 e.data_fits, List.take_left]
  rw [if_neg (by simp), if_neg (by simp [h]), hdata, encodeNames, read_u16_to_be16 hfits]
  simp only [host_name_entry_names, hname]

theorem host_name_skip {pre : List Extension} (h : ∀ x ∈ pre, x.type ≠ 0x0000) (p : Bytes) :
    host_name (encodeExtensions pre ++ p) = host_name p := by
  induction pre with
  | nil => rfl
  | cons e pre ih =>
    have hrest := ih fun x hx => h x (by simp [hx])
    rw [encodeExtensions, List.flatMap_cons, List.append_assoc, host_name_encode_ne (h e (by simp))]
    exact hrest

theorem host_name_of_mem (hd : DistinctTypes es) (he : e ∈ es) (ht : e.type = 0x0000) {names : List ServerName}
    (hdata : e.data = encodeNames names) (hname : (hostNames names).head? = some name) :
    host_name (encodeExtensions es) = some name := by
  obtain ⟨pre, post, rfl, hpre⟩ := hd.split he
  rw [encodeExtensions, List.flatMap_append]
  refine (host_name_skip (fun x hx => ht ▸ hpre x hx) _).trans ?_
  exact host_name_encode ht hdata hname _

/-! ## The ALPN protocol list -/

structure Protocol where
  name : Bytes
  fits : name.length < 256

def Protocol.encode (p : Protocol) : Bytes := UInt8.ofNat p.name.length :: p.name

def encodeProtocols (ps : List Protocol) : Bytes :=
  to_be16 (ps.flatMap Protocol.encode).length ++ ps.flatMap Protocol.encode

theorem protocols_offer_h2_encode (q : Protocol) (p : Bytes) :
    protocols_offer_h2 (q.encode ++ p) = (q.name == bytes "h2" || protocols_offer_h2 p) := by
  have hl : (UInt8.ofNat q.name.length).toNat = q.name.length := by simpa using Nat.mod_eq_of_lt q.fits
  rw [protocols_offer_h2.eq_def]
  simp only [Protocol.encode, List.cons_append, hl, List.take_left, List.drop_left]
  rw [if_neg (by simp)]
  by_cases h : q.name == bytes "h2" <;> simp [h]

theorem protocols_offer_h2_iff (ps : List Protocol) :
    protocols_offer_h2 (ps.flatMap Protocol.encode) = true ↔ bytes "h2" ∈ ps.map Protocol.name := by
  induction ps with
  | nil => simp [protocols_offer_h2]
  | cons q ps ih =>
    rw [List.flatMap_cons, protocols_offer_h2_encode, Bool.or_eq_true, ih, List.map_cons, List.mem_cons,
      beq_iff_eq]
    exact or_congr eq_comm Iff.rfl

theorem alpn_offers_h2_encode_ne (h : e.type ≠ 0x0010) (p : Bytes) :
    alpn_offers_h2 (e.encode ++ p) = alpn_offers_h2 p := by
  rw [alpn_offers_h2.eq_def]
  simp only [Extension.encode, to_be16, List.cons_append, List.nil_append,
    be16_to_be16 e.type_fits, be16_to_be16 e.data_fits, List.drop_left]
  rw [if_neg (by simp), if_pos h]

theorem alpn_offers_h2_encode (h : e.type = 0x0010) {ps : List Protocol} (hdata : e.data = encodeProtocols ps)
    (p : Bytes) :
    alpn_offers_h2 (e.encode ++ p) = protocols_offer_h2 (ps.flatMap Protocol.encode) := by
  have hfits : (ps.flatMap Protocol.encode).length < 65536 := by
    have := e.data_fits
    rw [hdata, encodeProtocols, List.length_append] at this
    omega
  have hread : read_bytes (ps.flatMap Protocol.encode).length (ps.flatMap Protocol.encode) =
      some (ps.flatMap Protocol.encode, []) := by
    simpa using read_bytes_append (ps.flatMap Protocol.encode) []
  rw [alpn_offers_h2.eq_def]
  simp only [Extension.encode, to_be16, List.cons_append, List.nil_append,
    be16_to_be16 e.type_fits, be16_to_be16 e.data_fits, List.take_left]
  rw [if_neg (by simp), if_neg (by simp [h]), hdata, encodeProtocols, read_u16_to_be16 hfits, Option.bind_some,
    hread]

theorem alpn_offers_h2_skip {pre : List Extension} (h : ∀ x ∈ pre, x.type ≠ 0x0010) (p : Bytes) :
    alpn_offers_h2 (encodeExtensions pre ++ p) = alpn_offers_h2 p := by
  induction pre with
  | nil => rfl
  | cons e pre ih =>
    have hrest := ih fun x hx => h x (by simp [hx])
    rw [encodeExtensions, List.flatMap_cons, List.append_assoc, alpn_offers_h2_encode_ne (h e (by simp))]
    exact hrest

theorem alpn_offers_h2_of_mem (hd : DistinctTypes es) (he : e ∈ es) (ht : e.type = 0x0010) {ps : List Protocol}
    (hdata : e.data = encodeProtocols ps) :
    alpn_offers_h2 (encodeExtensions es) = true ↔ bytes "h2" ∈ ps.map Protocol.name := by
  obtain ⟨pre, post, rfl, hpre⟩ := hd.split he
  have hread : alpn_offers_h2 (encodeExtensions (pre ++ e :: post)) = protocols_offer_h2
    (ps.flatMap Protocol.encode) := by
    rw [encodeExtensions, List.flatMap_append]
    refine (alpn_offers_h2_skip (fun x hx => ht ▸ hpre x hx) _).trans ?_
    exact alpn_offers_h2_encode ht hdata _
  rw [hread, protocols_offer_h2_iff]

theorem alpn_offers_h2_none (h : ∀ e ∈ es, e.type ≠ 0x0010) :
    alpn_offers_h2 (encodeExtensions es) = false := by
  have := alpn_offers_h2_skip h []
  rw [List.append_nil] at this
  rw [this, alpn_offers_h2.eq_def]

/-! ## Hellos -/

/-- A ClientHello. TLS lets a client leave the whole extension block out (`none`). -/
structure Hello where
  version : Nat
  random : Bytes
  session_id : Bytes
  ciphers : List Nat
  compression : Bytes
  block : Option (List Extension)
  version_fits : version < 65536
  random_length : random.length = 32
  session_id_fits : session_id.length < 256
  ciphers_fit : ∀ v ∈ ciphers, v < 65536
  ciphers_length : 2 * ciphers.length < 65536
  compression_fits : compression.length < 256
  extensions_fit : (encodeExtensions (block.getD [])).length < 65536

/-- 16-bit values, one after the other. -/
def encodeU16s (vs : List Nat) : Bytes := vs.flatMap to_be16

theorem encodeU16s_length (vs : List Nat) : (encodeU16s vs).length = 2 * vs.length := by
  induction vs with
  | nil => rfl
  | cons v vs ih =>
    simp only [encodeU16s, List.flatMap_cons, List.length_append, List.length_cons, to_be16] at ih ⊢
    rw [ih]
    simp only [List.length_nil]
    omega

theorem u16s_encodeU16s {vs : List Nat} (h : ∀ v ∈ vs, v < 65536) : u16s (encodeU16s vs) = vs := by
  induction vs with
  | nil => rfl
  | cons v vs ih =>
    have hv : be16 (UInt8.ofNat (v / 256)) (UInt8.ofNat v) = v := be16_to_be16 (h v (by simp))
    have ih := ih fun w hw => h w (by simp [hw])
    simp only [encodeU16s] at ih
    simp [encodeU16s, to_be16, u16s, hv, ih]

namespace Hello

def extensions (h : Hello) : List Extension := h.block.getD []

def extension_bytes (h : Hello) : Bytes := encodeExtensions h.extensions

def cipher_bytes (h : Hello) : Bytes := encodeU16s h.ciphers

def fields (h : Hello) : HelloFields where
  version := h.version
  random := h.random
  session_id := h.session_id
  cipher_suites := h.cipher_bytes
  compression := h.compression
  version_fits := h.version_fits
  random_length := h.random_length
  session_id_fits := h.session_id_fits
  cipher_suites_fits := by rw [cipher_bytes, encodeU16s_length]; exact h.ciphers_length
  compression_fits := h.compression_fits

def encodeBlock : Option (List Extension) → Bytes
  | none => []
  | some es => to_be16 (encodeExtensions es).length ++ encodeExtensions es

def body (h : Hello) : Bytes := h.fields.encode ++ encodeBlock h.block

theorem extensions_of_block (h : Hello) : extensions_of (encodeBlock h.block) = h.extension_bytes := by
  have hfit := h.extensions_fit
  unfold extension_bytes extensions
  generalize h.block = block at hfit ⊢
  cases block with
  | none => rfl
  | some es =>
    simp only [Option.getD_some] at hfit ⊢
    rw [encodeBlock, extensions_of, read_u16_to_be16 hfit]
    exact List.take_length

theorem fields_length (f : HelloFields) :
    f.encode.length = 38 + f.session_id.length + f.cipher_suites.length + f.compression.length := by
  simp only [HelloFields.encode, to_be16, List.length_append, List.length_cons, List.length_nil, f.random_length]
  omega

theorem block_length (h : Hello) : (encodeBlock h.block).length ≤ 2 + h.extension_bytes.length := by
  unfold extension_bytes extensions
  cases h.block <;> simp [encodeBlock, encodeExtensions, to_be16]
  omega

theorem body_fits (h : Hello) : h.body.length < 0x1000000 := by
  have := h.block_length
  have := h.extensions_fit
  have := h.fields.session_id_fits
  have := h.fields.cipher_suites_fits
  have := h.fields.compression_fits
  simp only [extension_bytes, extensions] at *
  rw [body, List.length_append, fields_length]
  omega

def message (h : Hello) : HelloMessage := ⟨h.body, h.body_fits⟩

theorem parse_body (h : Hello) :
    Parser.parse_hello_body h.message.body = some ⟨h.version, h.cipher_bytes, h.extension_bytes⟩ := by
  rw [← h.extensions_of_block]
  exact parse_hello_body_fields h.fields _

end Hello

/-! ## Reading it back -/

/-- The record's header is skipped, whatever it holds. -/
theorem parse_record {r : Record} {m : HelloMessage} (h : r.payload = m.encode) :
    Parser.parse_client_hello r.encode = Parser.parse_hello_body m.body := by
  have hskip : ∀ a b p, skip 2 (a :: b :: p) = some p := fun a b p => skip_append [a, b] p
  simp [Parser.parse_client_hello, Record.encode, h, HelloMessage.encode, to_be16, read_u8, read_u16, read_u24, hskip]

/-- What a name without its trailing dots must be to be used. -/
def UsableName (name : Bytes) : Prop :=
  utf8_ok name = true ∧ name ≠ [] ∧ name.length ≤ 253 ∧ 58 ∉ name ∧ 47 ∉ name

theorem utf8_ok_trim_end_dots (name : Bytes) : utf8_ok (trim_end_dots name) = utf8_ok name := by
  induction name using List.reverseRecOn with
  | nil => rfl
  | append_singleton name b ih =>
    unfold trim_end_dots at ih ⊢
    by_cases h : b = 46
    · rw [List.rdropWhile_concat_pos _ _ _ (by simp [h]), ih, h, utf8_ok_around (by decide), utf8_ok, Bool.and_true]
    · rw [List.rdropWhile_concat_neg _ _ _ (by simp [h])]

theorem normalize_sni_usable (h : UsableName (trim_end_dots name)) :
    normalize_sni name = some (trim_end_dots name) := by
  obtain ⟨hu, hne, hlen, hcolon, hslash⟩ := h
  rw [utf8_ok_trim_end_dots] at hu
  simp [normalize_sni, from_utf8, hu, hne, hlen, hcolon, hslash]

theorem normalize_sni_unusable (h : ¬UsableName (trim_end_dots name)) : normalize_sni name = none := by
  unfold UsableName at h
  rw [utf8_ok_trim_end_dots] at h
  by_cases hu : utf8_ok name
  · simp only [normalize_sni, from_utf8, hu, if_true, Option.bind_eq_bind, Option.bind_some]
    rw [if_pos]
    · rfl
    · by_contra hc
      refine h ⟨hu, ?_⟩
      simpa [and_assoc] using hc
  · simp [normalize_sni, from_utf8, hu]

/-- The server_name and ALPN extensions of a hello encode lists. -/
structure ListsEncoded (es : List Extension) : Prop where
  server_name : ∀ e ∈ es, e.type = 0x0000 → ∃ names, e.data = encodeNames names
  alpn : ∀ e ∈ es, e.type = 0x0010 → ∃ ps, e.data = encodeProtocols ps

theorem hello_read_back (h : Hello) (hd : DistinctTypes h.extensions) (hlists : ListsEncoded h.extensions) :
    (∀ r : Record, r.payload = h.message.encode →
      Parser.parse_client_hello r.encode = some ⟨h.version, h.cipher_bytes, h.extension_bytes⟩) ∧
    (∀ e ∈ h.extensions, e.type = 0x0000 → ∀ names name, e.data = encodeNames names → hostNames names = [name] →
      (UsableName (trim_end_dots name) → extract_sni h.extension_bytes = some (trim_end_dots name)) ∧
      (¬UsableName (trim_end_dots name) → extract_sni h.extension_bytes = none)) ∧
    (alpn_offers_h2 h.extension_bytes = true ↔
      ∃ e ∈ h.extensions, e.type = 0x0010 ∧ ∃ ps, e.data = encodeProtocols ps ∧ bytes "h2" ∈ ps.map Protocol.name) := by
  refine ⟨fun r hr => ?_, fun e he ht names name hdata hname => ?_, ?_, ?_⟩
  · rw [parse_record hr]
    exact h.parse_body
  · have hread : host_name h.extension_bytes = some name := host_name_of_mem hd he ht hdata (by rw [hname]; rfl)
    rw [extract_sni, hread]
    exact ⟨normalize_sni_usable, normalize_sni_unusable⟩
  · intro hoffer
    by_cases hnone : ∀ e ∈ h.extensions, e.type ≠ 0x0010
    · rw [Hello.extension_bytes, alpn_offers_h2_none hnone] at hoffer
      cases hoffer
    · push Not at hnone
      obtain ⟨e, he, ht⟩ := hnone
      obtain ⟨ps, hdata⟩ := hlists.alpn e he ht
      exact ⟨e, he, ht, ps, hdata, (alpn_offers_h2_of_mem hd he ht hdata).1 hoffer⟩
  · rintro ⟨e, he, ht, ps, hdata, hmem⟩
    exact (alpn_offers_h2_of_mem hd he ht hdata).2 hmem

/-- A hello for `a.test.` that offers `h2`. -/
def Hello.aTest : Hello where
  version := 0x0303
  random := List.replicate 32 7
  session_id := []
  ciphers := [0x1301, 0xc02f]
  compression := [0]
  block := some
    [⟨0x0010, encodeProtocols [⟨bytes "h2", by decide +kernel⟩], by decide, by decide +kernel⟩,
     ⟨0x0000, encodeNames [⟨0, bytes "a.test.", by decide +kernel⟩], by decide, by decide +kernel⟩]
  version_fits := by decide
  random_length := by decide
  session_id_fits := by decide
  ciphers_fit := by decide
  ciphers_length := by decide
  compression_fits := by decide
  extensions_fit := by decide +kernel

theorem hello_read_back_aTest : extract_sni Hello.aTest.extension_bytes = some (bytes "a.test") ∧
    alpn_offers_h2 Hello.aTest.extension_bytes = true := by
  have h := hello_read_back Hello.aTest (by unfold DistinctTypes; decide +kernel)
    ⟨fun e he ht => ?_, fun e he ht => ?_⟩
  · have htrim : trim_end_dots (bytes "a.test.") = bytes "a.test" := by decide +kernel
    have husable : UsableName (bytes "a.test") := by unfold UsableName; decide +kernel
    refine ⟨?_, h.2.2.2 ⟨_, List.mem_cons_self, rfl, _, rfl, by simp⟩⟩
    have hname := h.2.1 _ (List.mem_cons_of_mem _ List.mem_cons_self) rfl _ _ rfl rfl
    exact htrim ▸ hname.1 (htrim ▸ husable)
  · simp only [Hello.extensions, Hello.aTest, Option.getD_some, List.mem_cons, List.not_mem_nil, or_false] at he
    obtain rfl | rfl := he
    · cases ht
    · exact ⟨_, rfl⟩
  · simp only [Hello.extensions, Hello.aTest, Option.getD_some, List.mem_cons, List.not_mem_nil, or_false] at he
    obtain rfl | rfl := he
    · exact ⟨_, rfl⟩
    · cases ht

end Symphony.Sni
