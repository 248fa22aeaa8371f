import Mathlib.Algebra.GroupWithZero.Nat
import Symphony.Rust.Net
/-!
# The PROXY protocol v2 header

`write_proxy_v2_header`: the signature, the version and command, the family, a
16-bit length, the address block and the type/length/value entries. The family is
the client's, with an IPv4-mapped address read as IPv4; a destination that is
absent or of the other family is replaced by the loopback address. A reader that
follows the format gets back the address block and the entries that are not empty.
-/

namespace Symphony.Upstream

def PROXY_V2_SIGNATURE : Bytes := [0x0D, 0x0A, 0x0D, 0x0A, 0x00, 0x0D, 0x0A, 0x51, 0x55, 0x49, 0x54, 0x0A]

/-- The address bytes of one family. -/
inductive V2Addr where
  | V4 (octets : Bytes)
  | V6 (octets : Bytes)
  deriving DecidableEq, Repr

def normalize_v2_addr : IpAddr → V2Addr
  | .V4 v4 => .V4 (IpAddr.octets 4 v4.toNat)
  | .V6 v6 => match IpAddr.to_ipv4_mapped v6 with
    | some v4 => .V4 (IpAddr.octets 4 v4.toNat)
    | none => .V6 (IpAddr.octets 16 v6.toNat)

/-- Why a header is not written. -/
inductive HeaderError where
  /-- "PROXY v2 TLV value exceeds 65535 bytes" -/
  | tlvLength
  /-- "PROXY v2 header exceeds 65535 bytes" -/
  | headerLength
  deriving DecidableEq, Repr

/-- The family byte and the address block. The source's family wins. -/
def address_block (peer_addr : SocketAddr) (local_addr : Option SocketAddr) : UInt8 × Bytes :=
  let dst := local_addr.map fun a => normalize_v2_addr a.ip
  let ports := to_be16 peer_addr.port ++ to_be16 ((local_addr.map (·.port)).getD 0)
  match normalize_v2_addr peer_addr.ip with
  | .V4 src_ip =>
    let dst_ip := match dst with
      | some (.V4 ip) => ip
      | _ => [127, 0, 0, 1]
    (0x11, src_ip ++ dst_ip ++ ports)
  | .V6 src_ip =>
    let dst_ip := match dst with
      | some (.V6 ip) => ip
      | _ => IpAddr.octets 16 1
    (0x21, src_ip ++ dst_ip ++ ports)

/-- The TLV section; an empty value is skipped, one that does not fit is refused. -/
def tlv_block : List (UInt8 × Bytes) → Except HeaderError Bytes
  | [] => .ok []
  | (ty, value) :: tlvs =>
    if value = [] then tlv_block tlvs
    else if value.length > U16_MAX then .error .tlvLength
    else return ty :: to_be16 value.length ++ value ++ (← tlv_block tlvs)

/-- What `write_proxy_v2_header` hands to `write_all`. -/
def write_proxy_v2_header (peer_addr : SocketAddr) (local_addr : Option SocketAddr) (tlvs : List (UInt8 × Bytes)) :
    Except HeaderError Bytes := do
  let (family, addr_block) := address_block peer_addr local_addr
  let tlv_block ← tlv_block tlvs
  if addr_block.length + tlv_block.length > U16_MAX then throw .headerLength
  return PROXY_V2_SIGNATURE ++ [0x21, family] ++ to_be16 (addr_block.length + tlv_block.length) ++ addr_block ++
    tlv_block

/-! ## The address block -/

variable (peer_addr : SocketAddr) (local_addr : Option SocketAddr)

theorem normalize_v2_addr_cases (ip : IpAddr) :
    (∃ a, ip.to_canonical = .V4 a ∧ normalize_v2_addr ip = .V4 (IpAddr.octets 4 a.toNat)) ∨
      ∃ a, ip.to_canonical = .V6 a ∧ IpAddr.to_ipv4_mapped a = none ∧
        normalize_v2_addr ip = .V6 (IpAddr.octets 16 a.toNat) := by
  cases ip with
  | V4 a => exact .inl ⟨a, rfl, rfl⟩
  | V6 a =>
    cases h : IpAddr.to_ipv4_mapped a with
    | some v4 => exact .inl ⟨v4, by simp [IpAddr.to_canonical, h], by simp [normalize_v2_addr, h]⟩
    | none => exact .inr ⟨a, by simp [IpAddr.to_canonical, h], h, by simp [normalize_v2_addr, h]⟩

/-- The family byte and the block: the client's canonical address, an address of the
same family, the client's port and two more bytes. -/
theorem address_block_cases :
    (∃ a dst ports, peer_addr.ip.to_canonical = .V4 a ∧ dst.length = 4 ∧ ports.length = 2 ∧
      address_block peer_addr local_addr =
        (0x11, IpAddr.octets 4 a.toNat ++ dst ++ (to_be16 peer_addr.port ++ ports))) ∨
    ∃ a dst ports, peer_addr.ip.to_canonical = .V6 a ∧ IpAddr.to_ipv4_mapped a = none ∧ dst.length = 16 ∧
      ports.length = 2 ∧ address_block peer_addr local_addr =
        (0x21, IpAddr.octets 16 a.toNat ++ dst ++ (to_be16 peer_addr.port ++ ports)) := by
  obtain ⟨a, ha, hn⟩ | ⟨a, ha, hmapped, hn⟩ := normalize_v2_addr_cases peer_addr.ip
  · refine .inl ⟨a, _, _, ha, ?_, ?_, by simp only [address_block, hn]; exact rfl⟩
    · cases local_addr with
      | none => rfl
      | some b => obtain ⟨c, -, hc⟩ | ⟨c, -, -, hc⟩ := normalize_v2_addr_cases b.ip <;> simp [hc]
    · rfl
  · refine .inr ⟨a, _, _, ha, hmapped, ?_, ?_, by simp only [address_block, hn]; exact rfl⟩
    · cases local_addr with
      | none => rfl
      | some b => obtain ⟨c, -, hc⟩ | ⟨c, -, -, hc⟩ := normalize_v2_addr_cases b.ip <;> simp [hc]
    · rfl

theorem address_block_family :
    ((address_block peer_addr local_addr).1 = 0x11 ∧ (address_block peer_addr local_addr).2.length = 12) ∨
      ((address_block peer_addr local_addr).1 = 0x21 ∧ (address_block peer_addr local_addr).2.length = 36) := by
  obtain ⟨a, dst, ports, -, hd, hp, h⟩ | ⟨a, dst, ports, -, -, hd, hp, h⟩ := address_block_cases peer_addr local_addr
  · exact .inl ⟨by rw [h], by simp [h, hd, hp, to_be16]⟩
  · exact .inr ⟨by rw [h], by simp [h, hd, hp, to_be16]⟩

theorem address_block_length :
    (address_block peer_addr local_addr).2.length = 12 ∨ (address_block peer_addr local_addr).2.length = 36 := by
  rcases address_block_family peer_addr local_addr with h | h
  · exact .inl h.2
  · exact .inr h.2

/-! ## Without TLVs -/

/-- Without TLVs a header is always written; the longest has 52 bytes. -/
theorem write_proxy_v2_header_bare :
    ∃ header, write_proxy_v2_header peer_addr local_addr [] = .ok header ∧ header.length ≤ 52 := by
  have hlen : (address_block peer_addr local_addr).2.length ≤ 36 := by
    rcases address_block_length peer_addr local_addr with h | h <;> omega
  have hfits : ¬(address_block peer_addr local_addr).2.length > U16_MAX := by
    simp only [U16_MAX]
    omega
  refine ⟨PROXY_V2_SIGNATURE ++ [0x21, (address_block peer_addr local_addr).1] ++
    to_be16 (address_block peer_addr local_addr).2.length ++ (address_block peer_addr local_addr).2, ?_, ?_⟩
  · simp [write_proxy_v2_header, tlv_block, hfits, pure, Except.pure, bind, Except.bind]
  · simp only [List.length_append, PROXY_V2_SIGNATURE, to_be16, List.length_cons, List.length_nil]
    omega

/-! ## Reading it back -/

/-- The entries of a TLV section. -/
def read_tlvs (section_ : Bytes) : Option (List (UInt8 × Bytes)) :=
  match section_ with
  | [] => some []
  | ty :: hi :: lo :: rest =>
    if rest.length < be16 hi lo then none
    else (read_tlvs (rest.drop (be16 hi lo))).map ((ty, rest.take (be16 hi lo)) :: ·)
  | _ => none
  termination_by section_.length
  decreasing_by simp only [List.length_drop, List.length_cons]; omega

/-- One entry, as it is written. -/
def tlv (ty : UInt8) (value : Bytes) : Bytes := ty :: to_be16 value.length ++ value

theorem read_tlvs_cons (ty : UInt8) {value : Bytes} (h : value.length ≤ U16_MAX) (rest : Bytes) :
    read_tlvs (tlv ty value ++ rest) = (read_tlvs rest).map ((ty, value) :: ·) := by
  have hlen : be16 (UInt8.ofNat (value.length / 256)) (UInt8.ofNat value.length) = value.length :=
    be16_to_be16 (Nat.lt_succ_of_le h)
  have hfits : ¬ (value ++ rest).length < value.length := by simp
  simp only [tlv, to_be16, List.cons_append, List.nil_append]
  rw [read_tlvs, hlen, if_neg hfits, List.take_left, List.drop_left]

/-- A section that is written holds the entries that are not empty, in order. -/
theorem read_tlvs_tlv_block {tlvs : List (UInt8 × Bytes)} {section_ : Bytes} (h : tlv_block tlvs = .ok section_) :
    read_tlvs section_ = some (tlvs.filter fun e => e.2 ≠ []) := by
  induction tlvs generalizing section_ with
  | nil =>
    cases h
    simp [read_tlvs]
  | cons e tlvs ih =>
    obtain ⟨ty, value⟩ := e
    unfold tlv_block at h
    split at h
    · rename_i hnil
      rw [ih h]
      simp [hnil]
    · rename_i hne
      split at h
      · cases h
      · rename_i hlen
        cases hrest : tlv_block tlvs with
        | error e =>
          rw [hrest] at h
          cases h
        | ok rest =>
          rw [hrest] at h
          cases h
          have hread := read_tlvs_cons ty (Nat.le_of_not_lt hlen) rest
          rw [ih hrest] at hread
          simpa [tlv, hne] using hread

/-- The room that entries take, at most. -/
def tlvs_length (tlvs : List (UInt8 × Bytes)) : Nat := (tlvs.map fun e => 3 + e.2.length).sum

/-- A section is written whose values fit, in that room. -/
theorem tlv_block_ok {tlvs : List (UInt8 × Bytes)} (h : ∀ e ∈ tlvs, e.2.length ≤ U16_MAX) :
    ∃ section_, tlv_block tlvs = .ok section_ ∧ section_.length ≤ tlvs_length tlvs := by
  induction tlvs with
  | nil => exact ⟨[], rfl, Nat.zero_le _⟩
  | cons e tlvs ih =>
    obtain ⟨ty, value⟩ := e
    obtain ⟨rest, hrest, hlen⟩ := ih fun e he => h e (List.mem_cons_of_mem _ he)
    have hvalue : ¬ value.length > U16_MAX := Nat.not_lt.2 (h _ List.mem_cons_self)
    have hsum : tlvs_length ((ty, value) :: tlvs) = 3 + value.length + tlvs_length tlvs := by simp [tlvs_length]
    unfold tlv_block
    split
    · exact ⟨rest, hrest, by omega⟩
    · rw [hrest]
      refine ⟨_, rfl, ?_⟩
      simp only [to_be16, List.length_append, List.length_cons, List.length_nil]
      omega

/-- What a reader takes a header apart into. -/
structure V2Header where
  family : UInt8
  addresses : Bytes
  tlvs : List (UInt8 × Bytes)
  deriving DecidableEq, Repr

/-- The length that a header declares. -/
def declared_length (header : Bytes) : Nat := be16 (header.getD 14 0) (header.getD 15 0)

/-- The size of the addresses of a family. -/
def address_size (family : UInt8) : Option Nat :=
  if family = 0x11 then some 12 else if family = 0x21 then some 36 else none

/-- A reader of headers with the PROXY command: the declared length is that of the rest,
and after the addresses of the family come the entries. -/
def read_v2 (header : Bytes) : Option V2Header :=
  let family := header.getD 13 0
  let payload := header.drop 16
  if header.take 13 = PROXY_V2_SIGNATURE ++ [0x21] ∧ declared_length header = payload.length then
    match address_size family with
    | none => none
    | some n =>
      if payload.length < n then none
      else (read_tlvs (payload.drop n)).map fun tlvs => ⟨family, payload.take n, tlvs⟩
  else none

section Written

variable {family : UInt8} {addresses section_ : Bytes}

/-- A header, as it is written. -/
def written (family : UInt8) (addresses section_ : Bytes) : Bytes :=
  PROXY_V2_SIGNATURE ++ [0x21, family] ++ to_be16 (addresses.length + section_.length) ++ addresses ++ section_

theorem written_payload : (written family addresses section_).drop 16 = addresses ++ section_ := by
  unfold written
  rw [List.append_assoc]
  rfl

theorem written_declared (h : addresses.length + section_.length ≤ U16_MAX) :
    declared_length (written family addresses section_) = ((written family addresses section_).drop 16).length := by
  have hdeclared : be16 (UInt8.ofNat ((addresses.length + section_.length) / 256))
      (UInt8.ofNat (addresses.length + section_.length)) = addresses.length + section_.length :=
    be16_to_be16 (Nat.lt_succ_of_le h)
  rw [written_payload, List.length_append]
  exact hdeclared

theorem read_v2_written (h : addresses.length + section_.length ≤ U16_MAX)
    (hfamily : address_size family = some addresses.length) :
    read_v2 (written family addresses section_) =
      (read_tlvs section_).map fun tlvs => ⟨family, addresses, tlvs⟩ := by
  have hroom : ¬ (addresses ++ section_).length < addresses.length := by simp
  have hat : (written family addresses section_).getD 13 0 = family := rfl
  have hstart : (written family addresses section_).take 13 = PROXY_V2_SIGNATURE ++ [0x21] := rfl
  unfold read_v2
  dsimp only
  rw [if_pos ⟨hstart, written_declared h⟩, hat, hfamily, written_payload]
  dsimp only
  rw [if_neg hroom, List.take_left, List.drop_left]

end Written

/-- **A header that fits is written, and is read back.** -/
theorem write_proxy_v2_header_fits {tlvs : List (UInt8 × Bytes)} (hvalues : ∀ e ∈ tlvs, e.2.length ≤ U16_MAX)
    (hfits : tlvs_length tlvs + 36 ≤ U16_MAX) :
    ∃ header, write_proxy_v2_header peer_addr local_addr tlvs = .ok header ∧
      declared_length header = (header.drop 16).length ∧
      read_v2 header = some ⟨(address_block peer_addr local_addr).1, (address_block peer_addr local_addr).2,
        tlvs.filter fun e => e.2 ≠ []⟩ := by
  obtain ⟨section_, hsection, hlen⟩ := tlv_block_ok hvalues
  have hfamily := address_block_family peer_addr local_addr
  unfold write_proxy_v2_header
  generalize address_block peer_addr local_addr = block at hfamily ⊢
  obtain ⟨family, addresses⟩ := block
  dsimp only at hfamily ⊢
  have hsize : addresses.length + section_.length ≤ U16_MAX := by omega
  have haddresses : address_size family = some addresses.length := by
    rcases hfamily with ⟨rfl, h⟩ | ⟨rfl, h⟩
    · rw [h]
      rfl
    · rw [h]
      rfl
  rw [hsection]
  simp only [bind, Except.bind, Nat.not_lt.2 hsize, if_false]
  refine ⟨written family addresses section_, rfl, written_declared hsize, ?_⟩
  rw [read_v2_written hsize haddresses, read_tlvs_tlv_block hsection, Option.map_some]

end Symphony.Upstream
