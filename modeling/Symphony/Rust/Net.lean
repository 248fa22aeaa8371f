import Symphony.Rust.Basic
/-!
# Addresses and networks

`std::net` addresses with their textual forms, and `ipnetwork` CIDR blocks.
Reading a CIDR block from text is the crate's own, so it stays a parameter
(`Crates.parse_network`) of the functions that use it; containment is a prefix
match inside one address family.
-/

namespace Symphony

inductive IpAddr where
  | V4 (a : BitVec 32)
  | V6 (a : BitVec 128)
  deriving DecidableEq, Repr

namespace IpAddr

/-- `Ipv6Addr::to_ipv4_mapped`: the IPv4 address of `::ffff:a.b.c.d`. -/
def to_ipv4_mapped (a : BitVec 128) : Option (BitVec 32) :=
  if a.extractLsb' 32 96 = 0xffff#96 then some (a.extractLsb' 0 32) else none

/-- `IpAddr::to_canonical`: an IPv4-mapped address is read as IPv4. -/
def to_canonical : IpAddr → IpAddr
  | .V4 a => .V4 a
  | .V6 a => match to_ipv4_mapped a with
    | some v4 => .V4 v4
    | none => .V6 a

/-- `Ipv4Addr::octets` and `Ipv6Addr::octets`: the `n` bytes of an address, the
most significant first. -/
def octets : Nat → Nat → Bytes
  | 0, _ => []
  | n + 1, a => UInt8.ofNat (a >>> (8 * n)) :: octets n a

@[simp] theorem length_octets (n a : Nat) : (octets n a).length = n := by
  induction n with
  | zero => rfl
  | succ n ih => simp [octets, ih]

/-- `Ipv4Addr::from` and `Ipv6Addr::from` of octets: the number they spell, read onto
`acc`. -/
def from_octets : Nat → Bytes → Nat
  | acc, [] => acc
  | acc, b :: t => from_octets (acc * 256 + b.toNat) t

end IpAddr

/-- `SocketAddr`. The scope id is 0 for IPv4. -/
structure SocketAddr where
  ip : IpAddr
  port : Nat
  scope_id : Nat
  deriving DecidableEq, Repr

/-- `SocketAddr::new`. -/
def SocketAddr.new (ip : IpAddr) (port : Nat) : SocketAddr := ⟨ip, port, 0⟩

/-! ## Writing addresses -/

namespace IpAddr

/-- The digits of a number, as `Display` and `LowerHex` write it. -/
def digits (radix n : Nat) : Bytes := (Nat.toDigits radix n).map fun c => UInt8.ofNat c.toNat

/-- `Ipv4Addr::to_string`. -/
def ipv4_to_string (a : BitVec 32) : Bytes := [46].intercalate ((octets 4 a.toNat).map fun b => digits 10 b.toNat)

/-- `Ipv6Addr::segments`. -/
def segments (a : BitVec 128) : List Nat := (List.range 8).map fun i => a.toNat >>> (16 * (7 - i)) % 65536

/-- Where the longest run of zero segments starts, the first of several, and its length. -/
def zeroes (segments : List Nat) : Nat × Nat :=
  (segments.zipIdx.foldl (fun (longest, current) (segment, i) =>
    if segment = 0 then
      let current : Nat × Nat := (if current.2 = 0 then i else current.1, current.2 + 1)
      (if current.2 > longest.2 then current else longest, current)
    else (longest, (0, 0))) (((0, 0), (0, 0)) : (Nat × Nat) × (Nat × Nat))).1

/-- `fmt_subslice`. -/
def fmt_subslice (chunk : List Nat) : Bytes := [58].intercalate (chunk.map (digits 16))

/-- `Ipv6Addr::to_string`. -/
def ipv6_to_string (a : BitVec 128) : Bytes :=
  match to_ipv4_mapped a with
  | some v4 => bytes "::ffff:" ++ ipv4_to_string v4
  | none =>
    let (start, len) := zeroes (segments a)
    if len > 1 then
      fmt_subslice ((segments a).take start) ++ bytes "::" ++ fmt_subslice ((segments a).drop (start + len))
    else fmt_subslice (segments a)

example : ipv6_to_string 0x20010db8000000000000000000000001#128 = bytes "2001:db8::1" := by decide

end IpAddr

/-! ## Reading addresses -/

/-- The standard library's number reader: at most `max_digits` digits, no
leading zero unless allowed, at most `top`. -/
def read_number (radix max_digits : Nat) (allow_leading_zero : Bool) (top : Nat) (s : Bytes) : Option (Nat × Bytes) :=
  let digits := s.takeWhile fun b => (to_digit radix b).isSome
  if digits = [] || digits.length > max_digits then none
  else if !allow_leading_zero && digits.head? == some 48 && digits.length > 1 then none
  else (parse_digits radix top 0 digits).map fun n => (n, s.drop digits.length)

/-- `read_given_char`. -/
def read_given_char (c : UInt8) : Bytes → Option Bytes
  | [] => none
  | b :: t => if b == c then some t else none

/-- `read_separator`: the separator, except before the first item, then the item. -/
def read_separator {α : Type} (sep : UInt8) (index : Nat) (inner : Bytes → Option (α × Bytes)) (s : Bytes) :
    Option (α × Bytes) :=
  if index > 0 then (read_given_char sep s).bind inner else inner s

def read_ipv4_octets : Nat → Nat → BitVec 32 → Bytes → Option (BitVec 32 × Bytes)
  | 0, _, acc, s => some (acc, s)
  | n + 1, i, acc, s => do
    let (octet, s) ← read_separator 46 i (read_number 10 3 false 255) s
    read_ipv4_octets n (i + 1) (acc <<< 8 ||| BitVec.ofNat 32 octet) s

/-- `read_ipv4_addr`. -/
def read_ipv4_addr (s : Bytes) : Option (BitVec 32 × Bytes) := read_ipv4_octets 4 0 0#32 s

/-- `read_groups`: up to `n` more 16-bit groups from index `i` on, the last two
possibly written as an IPv4 address; returns the groups and whether they were. -/
def read_groups : Nat → Nat → Bytes → List Nat × Bool × Bytes
  | 0, _, s => ([], false, s)
  | n + 1, i, s =>
    match if n ≥ 1 then read_separator 58 i read_ipv4_addr s else none with
    | some (v4, s) => ([(v4.extractLsb' 16 16).toNat, (v4.extractLsb' 0 16).toNat], true, s)
    | none =>
      match read_separator 58 i (read_number 16 4 true U16_MAX) s with
      | none => ([], false, s)
      | some (g, s) =>
        let (gs, ipv4, s) := read_groups n (i + 1) s
        (g :: gs, ipv4, s)

def groups_to_bits (gs : List Nat) : BitVec 128 :=
  gs.foldl (fun acc g => acc <<< 16 ||| BitVec.ofNat 128 g) 0#128

/-- `read_ipv6_addr`. -/
def read_ipv6_addr (s : Bytes) : Option (BitVec 128 × Bytes) :=
  let (head, head_ipv4, s) := read_groups 8 0 s
  if head.length = 8 then some (groups_to_bits head, s)
  else if head_ipv4 then none
  else do
    let s ← read_given_char 58 s
    let s ← read_given_char 58 s
    let (tail, _, s) := read_groups (8 - (head.length + 1)) 0 s
    some (groups_to_bits (head ++ List.replicate (8 - head.length - tail.length) 0 ++ tail), s)

/-- The whole input, read by `p`. -/
def read_all {α : Type} (p : Bytes → Option (α × Bytes)) (s : Bytes) : Option α :=
  (p s).bind fun (a, rest) => if rest = [] then some a else none

/-- `str::parse::<IpAddr>`. -/
def parse_ip (s : Bytes) : Option IpAddr :=
  match read_all read_ipv4_addr s with
  | some a => some (.V4 a)
  | none => (read_all read_ipv6_addr s).map .V6

/-- `:port`, at the end of a socket address. -/
def read_port (s : Bytes) : Option (Nat × Bytes) :=
  (read_given_char 58 s).bind (read_number 10 s.length true U16_MAX)

/-- `%scope`, optional. -/
def read_scope_id (s : Bytes) : Option (Nat × Bytes) :=
  (read_given_char 37 s).bind (read_number 10 s.length true U32_MAX)

/-- `str::parse::<SocketAddr>`. -/
def parse_socket_addr (s : Bytes) : Option SocketAddr :=
  let v4 := do
    let (a, s) ← read_ipv4_addr s
    let (port, s) ← read_port s
    if s = [] then some (⟨.V4 a, port, 0⟩ : SocketAddr) else none
  let v6 := do
    let s ← read_given_char 91 s
    let (a, s) ← read_ipv6_addr s
    let (scope, s) := (read_scope_id s).getD (0, s)
    let s ← read_given_char 93 s
    let (port, s) ← read_port s
    if s = [] then some (⟨.V6 a, port, scope⟩ : SocketAddr) else none
  v4.orElse fun _ => v6

/-! ## Networks -/

/-- `ipnetwork::IpNetwork`; the prefix length is within the family's width. -/
inductive IpNetwork where
  | V4 (ip : BitVec 32) (len : Fin 33)
  | V6 (ip : BitVec 128) (len : Fin 129)
  deriving DecidableEq, Repr

/-- `IpNetwork::contains`: the same family and the same leading bits. -/
def IpNetwork.contains : IpNetwork → IpAddr → Bool
  | .V4 ip len, .V4 a => a >>> (32 - len.val) == ip >>> (32 - len.val)
  | .V6 ip len, .V6 a => a >>> (128 - len.val) == ip >>> (128 - len.val)
  | _, _ => false

end Symphony
