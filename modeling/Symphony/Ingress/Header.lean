import Mathlib.Tactic.Ring
import Symphony.Lib.Incoming
import Symphony.Failover.Policy
import Symphony.Upstream.ProxyV2
/-!
# The header of a forwarded connection

`read_proxy_v2`, the receiving end of `write_proxy_v2_header`: what it accepts, and
that it reads exactly one header. The stream is what arrives and when; a read that is
not done at the limit ends in `Timeout`, one that meets the end of the stream in
`Invalid`.
-/

namespace Symphony.Ingress

open Lib (Incoming ReadError)
open Failover (Duration)
open Upstream (V2Addr normalize_v2_addr address_block tlv_block write_proxy_v2_header)

/-! ## The reader -/

def SIGNATURE : Bytes := [0x0D, 0x0A, 0x0D, 0x0A, 0x00, 0x0D, 0x0A, 0x51, 0x55, 0x49, 0x54, 0x0A]
def MAX_PAYLOAD : Nat := 512
def LOAD_QUERY_TLV : UInt8 := 0xE3
def MAX_QUERY_NAMES : Nat := 64
def MAX_NAME_LEN : Nat := 253
def MAX_LOCAL_PAYLOAD : Nat := MAX_QUERY_NAMES * (3 + MAX_NAME_LEN)

inductive Header where
  /-- A forwarded client connection, from this source address. -/
  | Proxy (source : SocketAddr)
  /-- A peer's load query: one entry per name, `none` for one that cannot be a route's. -/
  | LoadQuery (names : List (Option Bytes))
  deriving DecidableEq, Repr

inductive HeaderReject where
  | Invalid
  | Local
  | V1
  | Timeout
  deriving DecidableEq, Repr

inductive Command where
  | Proxy (len : Nat)
  | Local (len : Nat)
  deriving DecidableEq, Repr

def address_len (family : UInt8) : Option Nat :=
  if family = 0x00 then some 0 else if family = 0x11 then some 12 else if family = 0x21 then some 36 else none

/-- The first 16 bytes. -/
def parse_fixed (fixed : Bytes) : Except HeaderReject Command :=
  let ver_cmd := fixed.getD 12 0
  let family := fixed.getD 13 0
  if (bytes "PROXY ").isPrefixOf fixed then .error .V1
  else if fixed.take 12 ≠ SIGNATURE ∨ ver_cmd >>> 4 ≠ 2 then .error .Invalid
  else
    let len := be16 (fixed.getD 14 0) (fixed.getD 15 0)
    if ver_cmd &&& 0x0F = 0x1 then
      -- TCP over IPv4 or IPv6; the other families are for LOCAL only
      match if family = 0x11 then some 12 else if family = 0x21 then some 36 else none with
      | none => .error .Invalid
      | some min => if len < min ∨ len > MAX_PAYLOAD then .error .Invalid else .ok (.Proxy len)
    else if ver_cmd &&& 0x0F = 0x0 then
      match address_len family with
      | none => .error .Invalid
      | some addr_len => if addr_len ≤ len ∧ len ≤ MAX_LOCAL_PAYLOAD then .ok (.Local len) else .error .Invalid
    else .error .Invalid

/-- The name of a query entry, if it can be one. -/
def valid_name (value : Bytes) : Option Bytes :=
  if 1 ≤ value.length ∧ value.length ≤ MAX_NAME_LEN then from_utf8 value else none

/-- The loop of `parse_load_query` over the TLVs, onto the names read so far. -/
def query_names (names : List (Option Bytes)) (tlvs : Bytes) : Except HeaderReject (List (Option Bytes)) :=
  match tlvs with
  | [] => .ok names
  | kind :: hi :: lo :: rest =>
    let len := be16 hi lo
    if rest.length < len then .error .Invalid
    else if kind = LOAD_QUERY_TLV then
      if names.length = MAX_QUERY_NAMES then .error .Invalid
      else query_names (names ++ [valid_name (rest.take len)]) (rest.drop len)
    else query_names names (rest.drop len)
  | _ => .error .Invalid
  termination_by tlvs.length
  decreasing_by all_goals (simp only [List.length_drop, List.length_cons]; omega)

def parse_load_query (family : UInt8) (payload : Bytes) : Except HeaderReject (List (Option Bytes)) :=
  match address_len family with
  | none => .error .Invalid
  | some n =>
    match query_names [] (payload.drop n) with
    | .error e => .error e
    | .ok [] => .error .Local
    | .ok names => .ok names

def parse_source (family : UInt8) (payload : Bytes) : Except HeaderReject SocketAddr :=
  let port (at_ : Nat) := be16 (payload.getD at_ 0) (payload.getD (at_ + 1) 0)
  if family = 0x11 then .ok (.new (.V4 (.ofNat 32 (IpAddr.from_octets 0 (payload.take 4)))) (port 8))
  else if family = 0x21 then
    .ok (.new (IpAddr.V6 (.ofNat 128 (IpAddr.from_octets 0 (payload.take 16)))).to_canonical (port 32))
  else .error .Invalid

/-- `stream.read_exact`, under the limit of the whole read. -/
def read_exact (limit : Duration) (n : Nat) (s : Incoming UInt8) : Except HeaderReject (Bytes × Incoming UInt8) :=
  match s.readExact limit n with
  | .ok r => .ok r
  | .error .ended => .error .Invalid
  | .error .late => .error .Timeout

/-- The loop that reads past the TLVs, 64 bytes at a time. -/
def discard (limit : Duration) (tlvs : Nat) (s : Incoming UInt8) : Except HeaderReject (Incoming UInt8) :=
  if tlvs = 0 then .ok s
  else
    match read_exact limit (min tlvs 64) s with
    | .error e => .error e
    | .ok r => discard limit (tlvs - min tlvs 64) r.2
  termination_by tlvs
  decreasing_by omega

/-- The rest of a header with the PROXY command. -/
def read_source (limit : Duration) (family : UInt8) (len : Nat) (s : Incoming UInt8) :
    Except HeaderReject (Header × Incoming UInt8) :=
  let addr_len := if family = 0x11 then 12 else 36
  match read_exact limit addr_len s with
  | .error e => .error e
  | .ok (addresses, s) =>
    match discard limit (len - addr_len) s with
    | .error e => .error e
    | .ok s => (parse_source family addresses).map fun source => (.Proxy source, s)

/-- The header, and the stream after it. -/
def read_proxy_v2 (limit : Duration) (s : Incoming UInt8) : Except HeaderReject (Header × Incoming UInt8) :=
  match read_exact limit 16 s with
  | .error e => .error e
  | .ok (fixed, s) =>
    match parse_fixed fixed with
    | .error e => .error e
    | .ok (.Proxy len) => read_source limit (fixed.getD 13 0) len s
    | .ok (.Local len) =>
      match read_exact limit len s with
      | .error e => .error e
      | .ok (payload, s) => (parse_load_query (fixed.getD 13 0) payload).map fun names => (.LoadQuery names, s)

/-! ## Reading what was sent -/

section Reading

variable {limit : Duration} {l : Bytes} {s rest : Incoming UInt8}

theorem read_exact_begins (h : Incoming.Begins limit l s rest) : read_exact limit l.length s = .ok (l, rest) := by
  unfold read_exact
  rw [h.readExact]

theorem begins_of_read_exact {n : Nat} (h : read_exact limit n s = .ok (l, rest)) :
    Incoming.Begins limit l s rest ∧ l.length = n := by
  unfold read_exact at h
  split at h
  · next hread =>
    cases h
    exact Incoming.begins_of_readExact hread
  · cases h
  · cases h

/-- The TLVs are read past to their last byte, block by block. -/
theorem discard_begins (h : Incoming.Begins limit l s rest) : discard limit l.length s = .ok rest := by
  induction hn : l.length using Nat.strong_induction_on generalizing l s with
  | _ n ih =>
    unfold discard
    split
    · next h0 =>
      have hnil : l = [] := List.eq_nil_of_length_eq_zero (hn.trans h0)
      subst hnil
      rw [Incoming.Begins.nil_iff.1 h]
    · next h0 =>
      have hblock : (l.take (min n 64)).length = min n 64 := by
        rw [List.length_take]
        omega
      have hsplit : Incoming.Begins limit (l.take (min n 64) ++ l.drop (min n 64)) s rest := by
        rw [List.take_append_drop]
        exact h
      obtain ⟨mid, hfirst, hrest⟩ := hsplit.split
      have hread := read_exact_begins hfirst
      rw [hblock] at hread
      rw [hread]
      refine ih (n - min n 64) (by omega) hrest ?_
      rw [List.length_drop, hn]

end Reading

/-! ## Addresses -/

theorem from_octets_octets (n a acc : Nat) :
    IpAddr.from_octets acc (IpAddr.octets n a) = acc * 256 ^ n + a % 256 ^ n := by
  induction n generalizing acc with
  | zero => simp [IpAddr.octets, IpAddr.from_octets, Nat.mod_one]
  | succ n ih =>
    have hbyte : (UInt8.ofNat (a >>> (8 * n))).toNat = a / 256 ^ n % 256 := by
      rw [UInt8.toNat_ofNat', Nat.shiftRight_eq_div_pow, Nat.pow_mul]
    rw [IpAddr.octets, IpAddr.from_octets, ih, hbyte, Nat.mod_pow_succ, Nat.pow_succ]
    ring

theorem ofNat_from_octets (n : Nat) {w : Nat} (hw : 2 ^ w = 256 ^ n) (a : BitVec w) :
    BitVec.ofNat w (IpAddr.from_octets 0 (IpAddr.octets n a.toNat)) = a := by
  rw [from_octets_octets, ← hw, Nat.mod_eq_of_lt a.isLt]
  simp

theorem port_at {pre ports : Bytes} {port n : Nat} (hport : port < 65536) (hn : pre.length = n) :
    be16 ((pre ++ (to_be16 port ++ ports)).getD n 0) ((pre ++ (to_be16 port ++ ports)).getD (n + 1) 0) = port := by
  subst hn
  simp only [to_be16, List.cons_append, List.nil_append, List.getD_eq_getElem?_getD, List.getElem?_append_right,
    Nat.le_refl, Nat.le_add_right, Nat.sub_self, Nat.add_sub_cancel_left, List.getElem?_cons_zero,
    List.getElem?_cons_succ, Option.getD_some]
  exact be16_to_be16 hport

/-- The source of a written block is the client, by its canonical address. -/
theorem parse_source_address_block {peer_addr : SocketAddr} (hport : peer_addr.port ≤ U16_MAX)
    (local_addr : Option SocketAddr) :
    parse_source (address_block peer_addr local_addr).1 (address_block peer_addr local_addr).2 =
      .ok (.new peer_addr.ip.to_canonical peer_addr.port) := by
  have hport' : peer_addr.port < 65536 := Nat.lt_succ_of_le hport
  obtain ⟨a, dst, ports, ha, hd, -, h⟩ | ⟨a, dst, ports, ha, hmapped, hd, -, h⟩ :=
    Upstream.address_block_cases peer_addr local_addr
  · have hpre : (IpAddr.octets 4 a.toNat ++ dst).length = 8 := by simp [hd]
    have hip : (IpAddr.octets 4 a.toNat ++ dst ++ (to_be16 peer_addr.port ++ ports)).take 4 =
      IpAddr.octets 4 a.toNat := by
      simp
    rw [h, ha]
    simp only [parse_source, if_true, hip, port_at hport' hpre, ofNat_from_octets 4 (by norm_num) a]
  · have hpre : (IpAddr.octets 16 a.toNat ++ dst).length = 32 := by simp [hd]
    have hip : (IpAddr.octets 16 a.toNat ++ dst ++ (to_be16 peer_addr.port ++ ports)).take 16 =
        IpAddr.octets 16 a.toNat := by
      simp
    have hcanonical : (IpAddr.V6 a).to_canonical = .V6 a := by simp [IpAddr.to_canonical, hmapped]
    rw [h, ha]
    have hne : ¬ (0x21 : UInt8) = 0x11 := by decide
    simp only [parse_source, hne, if_false, if_true, hip, port_at hport' hpre, ofNat_from_octets 16 (by norm_num) a,
      hcanonical]

/-! ## Written headers -/

/-- The 16 bytes before the address block. -/
def fixed_part (ver_cmd family : UInt8) (len : Nat) : Bytes := SIGNATURE ++ [ver_cmd, family] ++ to_be16 len

theorem fixed_part_length (ver_cmd family : UInt8) (len : Nat) : (fixed_part ver_cmd family len).length = 16 := rfl

/-- A written header: the fixed part, the block of a family that is read, and the TLVs. -/
theorem written_header {peer_addr : SocketAddr} {local_addr : Option SocketAddr} {tlvs : List (UInt8 × Bytes)}
    {header : Bytes} (h : write_proxy_v2_header peer_addr local_addr tlvs = .ok header) :
    ∃ tlv, header = fixed_part 0x21 (address_block peer_addr local_addr).1
        ((address_block peer_addr local_addr).2.length + tlv.length) ++
          ((address_block peer_addr local_addr).2 ++ tlv) ∧
      (address_block peer_addr local_addr).2.length + tlv.length ≤ U16_MAX := by
  unfold write_proxy_v2_header at h
  generalize address_block peer_addr local_addr = block at h ⊢
  simp only [bind, Except.bind] at h
  split at h
  · cases h
  · next tlv htlv =>
    split at h
    · cases h
    · next hlen =>
      cases h
      refine ⟨tlv, ?_, by omega⟩
      simp [fixed_part, SIGNATURE, Upstream.PROXY_V2_SIGNATURE]

section FixedPart

variable (ver_cmd family : UInt8) (len : Nat)

@[simp] theorem fixed_part_v1 : (bytes "PROXY ").isPrefixOf (fixed_part ver_cmd family len) = false := rfl
@[simp] theorem fixed_part_signature : (fixed_part ver_cmd family len).take 12 = SIGNATURE := rfl
@[simp] theorem fixed_part_ver_cmd : (fixed_part ver_cmd family len).getD 12 0 = ver_cmd := rfl
@[simp] theorem fixed_part_family : (fixed_part ver_cmd family len).getD 13 0 = family := rfl

theorem fixed_part_len {len : Nat} (h : len ≤ U16_MAX) :
    be16 ((fixed_part ver_cmd family len).getD 14 0) ((fixed_part ver_cmd family len).getD 15 0) = len :=
  be16_to_be16 (Nat.lt_succ_of_le h)

end FixedPart

theorem parse_fixed_proxy {family : UInt8} {len : Nat} (hlen : len ≤ MAX_PAYLOAD)
    (hfamily : family = 0x11 ∧ 12 ≤ len ∨ family = 0x21 ∧ 36 ≤ len) :
    parse_fixed (fixed_part 0x21 family len) = .ok (.Proxy len) := by
  have hbe := fixed_part_len 0x21 family (hlen.trans (by decide))
  have hver : (0x21 : UInt8) >>> 4 = 2 := by decide
  have hcmd : (0x21 : UInt8) &&& 0x0F = 0x1 := by decide
  simp only [parse_fixed, fixed_part_v1, fixed_part_signature, fixed_part_ver_cmd, fixed_part_family, hbe, hver, hcmd,
    ne_eq, not_true_eq_false, or_self, if_false, if_true, Bool.false_eq_true]
  rcases hfamily with ⟨rfl, hmin⟩ | ⟨rfl, hmin⟩
  · exact if_neg (by omega)
  · exact if_neg (by omega)

theorem parse_fixed_local {len : Nat} (hlen : len ≤ MAX_LOCAL_PAYLOAD) :
    parse_fixed (fixed_part 0x20 0x00 len) = .ok (.Local len) := by
  have hbe := fixed_part_len 0x20 0x00 (hlen.trans (by decide))
  have hver : (0x20 : UInt8) >>> 4 = 2 := by decide
  have hcmd : (0x20 : UInt8) &&& 0x0F = 0x0 := by decide
  have hne : ¬ (0x0 : UInt8) = 0x1 := by decide
  simp only [parse_fixed, fixed_part_v1, fixed_part_signature, fixed_part_ver_cmd, fixed_part_family, hbe, hver,
    hcmd, hne,
    ne_eq, not_true_eq_false, or_self, if_false, if_true, Bool.false_eq_true]
  exact if_pos ⟨Nat.zero_le _, hlen⟩

/-- The two families of a written block, with the length of their addresses. -/
def Sized (family : UInt8) (addresses : Bytes) : Prop :=
  family = 0x11 ∧ addresses.length = 12 ∨ family = 0x21 ∧ addresses.length = 36

theorem address_block_sized (peer_addr : SocketAddr) (local_addr : Option SocketAddr) :
    Sized (address_block peer_addr local_addr).1 (address_block peer_addr local_addr).2 :=
  Upstream.address_block_family peer_addr local_addr

theorem read_source_begins {limit : Duration} {family : UInt8} {addresses tlv : Bytes} {source : SocketAddr}
    {s rest : Incoming UInt8} (hsized : Sized family addresses) (hsource : parse_source family addresses = .ok source)
    (hs : Incoming.Begins limit (addresses ++ tlv) s rest) :
    read_source limit family (addresses.length + tlv.length) s = .ok (.Proxy source, rest) := by
  obtain ⟨mid, hblock, htlv⟩ := hs.split
  have hread := read_exact_begins hblock
  have hlen : addresses.length + tlv.length - addresses.length = tlv.length := Nat.add_sub_cancel_left ..
  have haddr : (if family = 0x11 then 12 else 36) = addresses.length := by
    rcases hsized with ⟨rfl, hl⟩ | ⟨rfl, hl⟩
    · exact hl.symm
    · exact hl.symm
  unfold read_source
  dsimp only
  rw [haddr, hread, hlen]
  dsimp only
  rw [discard_begins htlv, hsource]
  rfl

/-- For every client, destination, TLVs that are written in at most 512 bytes after
the fixed part, and bytes that follow: the header is read back as the client's
canonical address and port, and what follows is left unread. -/
theorem read_written_header {peer_addr : SocketAddr} (hport : peer_addr.port ≤ U16_MAX)
    {local_addr : Option SocketAddr} {tlvs : List (UInt8 × Bytes)} {header : Bytes}
    (hw : write_proxy_v2_header peer_addr local_addr tlvs = .ok header) (hlen : header.length ≤ 16 + MAX_PAYLOAD)
    {limit : Duration} {s rest : Incoming UInt8} (hs : Incoming.Begins limit header s rest) :
    read_proxy_v2 limit s = .ok (.Proxy (.new peer_addr.ip.to_canonical peer_addr.port), rest) := by
  obtain ⟨tlv, rfl, -⟩ := written_header hw
  have hsized := address_block_sized peer_addr local_addr
  have hsource := parse_source_address_block hport local_addr
  generalize (address_block peer_addr local_addr).1 = family at *
  generalize (address_block peer_addr local_addr).2 = addresses at *
  rw [List.length_append, fixed_part_length, List.length_append] at hlen
  have hparse : parse_fixed (fixed_part 0x21 family (addresses.length + tlv.length)) =
      .ok (.Proxy (addresses.length + tlv.length)) := by
    refine parse_fixed_proxy (Nat.le_of_add_le_add_left hlen) ?_
    exact hsized.imp (fun h => ⟨h.1, by omega⟩) fun h => ⟨h.1, by omega⟩
  obtain ⟨mid, hfixed, hrest⟩ := hs.split
  have hread := read_exact_begins hfixed
  rw [fixed_part_length] at hread
  unfold read_proxy_v2
  rw [hread]
  dsimp only
  rw [hparse]
  dsimp only
  rw [fixed_part_family]
  exact read_source_begins hsized hsource hrest

/-- A client known by its IPv4-mapped address, a TLV, and a byte after the header. -/
theorem read_written_header_mapped :
    ∃ s rest : Incoming UInt8, rest.arriving = [(7, 0x16)] ∧
      read_proxy_v2 5 s = .ok (.Proxy (.new (.V4 0xC6336407) 50000), rest) := by
  have hw : ∃ header, write_proxy_v2_header (.new (.V6 0xFFFFC6336407) 50000) (some (.new (.V6 1) 443))
      [(0x01, bytes "h2")] = .ok header ∧ header.length ≤ 16 + MAX_PAYLOAD :=
    ⟨_, rfl, by decide +kernel⟩
  obtain ⟨header, hw, hlen⟩ := hw
  have hs : Incoming.Begins 5 header ⟨header.map (Prod.mk 3) ++ [(7, 0x16)], some 9⟩ ⟨[(7, 0x16)], some 9⟩ := by
    refine ⟨header.map (Prod.mk 3), by simp, ?_, rfl⟩
    simp only [List.mem_map, forall_exists_index, and_imp, forall_apply_eq_imp_iff₂]
    intros
    decide
  refine ⟨_, ⟨[(7, 0x16)], some 9⟩, rfl, (read_written_header (by decide) hw hlen hs).trans ?_⟩
  rfl

end Symphony.Ingress
