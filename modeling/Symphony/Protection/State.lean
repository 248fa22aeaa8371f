import Symphony.Lib.Bucket
import Symphony.Lib.Runs
import Symphony.Lib.Table
import Symphony.Rust.Net
import Symphony.Sni.Hello
/-!
# Per-IP protection

`check_at`, `evict_at` and `release`. The result of every f64 operation is rounded by
`round`, which is exact arithmetic where it is not given. An `Arc<IpState>` is an index
into `states`, so a connection keeps the object it was admitted with even after its table
entry is evicted. Each call runs atomically.
-/

namespace Symphony.Protection

open Lib (Bucket Machine Table)
open Sni (PeekInfo)

/-! ## Configuration -/

structure ProtectionConfig where
  rate_limit_cps : Option ℚ := none
  rate_limit_burst : Option ℚ := none
  sustained_cpm : Option ℚ := none
  sustained_burst : Option ℚ := none
  penalty_box_duration_ms : Nat := 0
  max_concurrent_per_ip : Nat := 0
  ja3_blocklist : List Bytes := []
  ja4_blocklist : List Bytes := []
  tls_handshake_timeout_ms : Nat := 0
  require_sni : Bool := false
  allowlist : List IpNetwork := []
  blocklist : List IpNetwork := []
  tokens_per_ns : ℚ := 0
  burst_fp : Nat := 0
  sustained_tokens_per_ns : ℚ := 0
  sustained_burst_fp : Nat := 0

/-- `as u32` of a number that is not NaN: truncation, saturating at both ends. -/
def as_u32 (q : ℚ) : Nat := min ⌊q⌋₊ U32_MAX

/-- `ProtectionConfig::precompute`: the derived fields from the configured ones. -/
def ProtectionConfig.precompute (c : ProtectionConfig) (round : ℚ → ℚ := id) : ProtectionConfig :=
  { c with
    burst_fp := as_u32 (round ((c.rate_limit_burst.or c.rate_limit_cps).getD 0 * 1000))
    tokens_per_ns := c.rate_limit_cps.elim 0 (round <| · / 1000000000)
    sustained_burst_fp := as_u32 (round ((c.sustained_burst.or c.sustained_cpm).getD 0 * 1000))
    sustained_tokens_per_ns := c.sustained_cpm.elim 0 (round <| · / 60000000000) }

/-- The two rate limits. -/
inductive Limit where
  | perSecond
  | sustained
  deriving DecidableEq, Repr

def ProtectionConfig.rate (cfg : ProtectionConfig) : Limit → ℚ
  | .perSecond => cfg.tokens_per_ns
  | .sustained => cfg.sustained_tokens_per_ns

def ProtectionConfig.ceiling (cfg : ProtectionConfig) : Limit → Nat
  | .perSecond => cfg.burst_fp
  | .sustained => cfg.sustained_burst_fp

/-! ## Per-IP state -/

structure IpState where
  tokens : Nat
  last_refill_ns : Nat
  sustained_tokens : Nat
  sustained_last_refill_ns : Nat
  active : Nat
  penalty_deadline_ns : Nat
  deriving DecidableEq, Repr

/-- `IpState::new`, at clock reading `now`. -/
def IpState.new (burst_fp sustained_burst_fp now : Nat) : IpState :=
  ⟨burst_fp, now, sustained_burst_fp, now, 0, 0⟩

/-- `IpState::release`. -/
def IpState.release (s : IpState) : IpState := { s with active := s.active - 1 }

def IpState.bucket (s : IpState) : Limit → Bucket
  | .perSecond => ⟨s.tokens, s.last_refill_ns⟩
  | .sustained => ⟨s.sustained_tokens, s.sustained_last_refill_ns⟩

def IpState.setBucket (s : IpState) (b : Bucket) : Limit → IpState
  | .perSecond => { s with tokens := b.units, last_refill_ns := b.last }
  | .sustained => { s with sustained_tokens := b.units, sustained_last_refill_ns := b.last }

def ONE_TOKEN : Nat := 1000

/-- `((elapsed as f64) * rate_per_ns * 1000.0) as u32`. -/
def refillFor (round : ℚ → ℚ) (rate_per_ns : ℚ) (elapsed : Nat) : Nat :=
  as_u32 (round (round (round elapsed * rate_per_ns) * 1000))

/-- `refill_and_consume` by one caller. -/
def refill_and_consume (b : Bucket) (now : Nat) (rate_per_ns : ℚ) (burst_fp : Nat) (round : ℚ → ℚ := id) :
    Bool × Bucket :=
  let refill := refillFor round rate_per_ns (now - b.last)
  let b := if refill = 0 then b else ⟨min (sat_add32 b.units refill) burst_fp, now⟩
  if b.units < ONE_TOKEN then (false, b) else (true, { b with units := b.units - ONE_TOKEN })

/-- Debit one limit of an entry; a limit that is off always passes. -/
def consume (cfg : ProtectionConfig) (k : Limit) (now : Nat) (s : IpState) (round : ℚ → ℚ := id) : Bool × IpState :=
  if 0 < cfg.rate k then
    let (ok, b) := refill_and_consume (s.bucket k) now (cfg.rate k) (cfg.ceiling k) round
    (ok, s.setBucket b k)
  else (true, s)

/-- `penalty_deadline_ns.fetch_max(now + penalty)`. -/
def extend_penalty (cfg : ProtectionConfig) (now : Nat) (s : IpState) : IpState :=
  { s with
    penalty_deadline_ns :=
      max s.penalty_deadline_ns (sat_add64 now (sat_mul64 cfg.penalty_box_duration_ms 1000000)) }

/-! ## Decisions -/

inductive BlockReason where
  | CidrBlocked
  | Ja3Blocked
  | Ja4Blocked
  | IncompleteHandshake
  | NoSni
  | RateLimited
  | TooManyConnections
  | PenaltyBoxed
  deriving DecidableEq, Repr

/-- `Allow` carries the entry the connection was admitted with. -/
inductive Decision where
  | Allow (id : Nat)
  | AllowBypassed
  | Block (reason : BlockReason)
  deriving DecidableEq, Repr

/-- The entry is in the penalty box at `now`. -/
def boxed (cfg : ProtectionConfig) (now : Nat) (s : IpState) : Bool :=
  0 < cfg.penalty_box_duration_ms && 0 < s.penalty_deadline_ns && now < s.penalty_deadline_ns

/-- A limit was found empty: the penalty box, when there is one. -/
def penalize (cfg : ProtectionConfig) (now : Nat) (s : IpState) : IpState :=
  if 0 < cfg.penalty_box_duration_ms then extend_penalty cfg now s else s

/-- Steps 5 to 8 of `check_at`, on the peer's entry; `none` admits. -/
def ip_check (cfg : ProtectionConfig) (now : Nat) (s : IpState) (round : ℚ → ℚ := id) :
    Option BlockReason × IpState :=
  if boxed cfg now s then
    -- Both limits are debited, to see whether the peer is still over them.
    let (ok₁, s) := consume cfg .perSecond now s round
    let (ok₂, s) := consume cfg .sustained now s round
    (some .PenaltyBoxed, if ok₁ && ok₂ then s else extend_penalty cfg now s)
  else
    let (ok₁, s) := consume cfg .perSecond now s round
    if !ok₁ then (some .RateLimited, penalize cfg now s)
    else
      let (ok₂, s) := consume cfg .sustained now s round
      if !ok₂ then (some .RateLimited, penalize cfg now s)
      else if 0 < cfg.max_concurrent_per_ip then
        if s.active < cfg.max_concurrent_per_ip then (none, { s with active := s.active + 1 })
        else (some .TooManyConnections, s)
      else (none, { s with active := (s.active + 1) % 2 ^ 32 })

/-! ## The table of peers -/

structure ProtectionState where
  config : ProtectionConfig
  ip_table : Table IpAddr Nat
  states : Nat → IpState
  next : Nat

/-- A state with this configuration and no entry. -/
def ProtectionState.fresh (cfg : ProtectionConfig) : ProtectionState :=
  ⟨cfg, ∅, fun _ => IpState.new 0 0 0, 0⟩

/-- `ProtectionState::new`. -/
def ProtectionState.new (config : ProtectionConfig) (round : ℚ → ℚ := id) : ProtectionState :=
  .fresh (config.precompute round)

def ProtectionState.setState (st : ProtectionState) (id : Nat) (s : IpState) : ProtectionState :=
  { st with states := Function.update st.states id s }

/-- The entry's index; where there is none one is created, and `IpState::new` reads `created`. -/
def get_or_create_state (st : ProtectionState) (ip : IpAddr) (burst_fp sustained_burst_fp created : Nat) :
    Nat × ProtectionState :=
  match st.ip_table.lookup ip with
  | some id => (id, st)
  | none =>
    (st.next, { st with
      ip_table := st.ip_table.insert ip st.next
      states := Function.update st.states st.next (IpState.new burst_fp sustained_burst_fp created)
      next := st.next + 1 })

/-- `from_hex_digit`. -/
def from_hex_digit (b : UInt8) : Option UInt8 :=
  if 48 ≤ b && b ≤ 57 then some (b - 48)
  else if 97 ≤ b && b ≤ 102 then some (b - 97 + 10)
  else if 65 ≤ b && b ≤ 70 then some (b - 65 + 10)
  else none

/-- The bytes of pairs of hex digits. -/
def hex_pairs : Bytes → Option Bytes
  | hi :: lo :: t => do
    let hi ← from_hex_digit hi
    let lo ← from_hex_digit lo
    let rest ← hex_pairs t
    some ((hi <<< 4 ||| lo) :: rest)
  | _ => some []

def hex_to_bytes16 (hex : Bytes) : Option Bytes := if hex.length ≠ 32 then none else hex_pairs hex

/-- The fingerprint is one of the blocked digests. -/
def ja3_blocked (cfg : ProtectionConfig) (peek_info : PeekInfo) : Bool :=
  !cfg.ja3_blocklist.isEmpty && peek_info.ja3.length == 32 &&
    (hex_to_bytes16 peek_info.ja3).any cfg.ja3_blocklist.contains

def ja4_blocked (cfg : ProtectionConfig) (peek_info : PeekInfo) : Bool :=
  !cfg.ja4_blocklist.isEmpty && !peek_info.ja4.isEmpty && cfg.ja4_blocklist.contains peek_info.ja4

def fingerprint_enforced (cfg : ProtectionConfig) : Bool :=
  !cfg.ja3_blocklist.isEmpty || !cfg.ja4_blocklist.isEmpty

/-- Steps 1 to 4 of `check_at`, which look only at the peer and its hello. -/
def static_check (cfg : ProtectionConfig) (peer_ip : IpAddr) (peek_info : PeekInfo) : Option Decision :=
  if cfg.allowlist.any (·.contains peer_ip) then some .AllowBypassed
  else if cfg.blocklist.any (·.contains peer_ip) then some (.Block .CidrBlocked)
  else if fingerprint_enforced cfg && !peek_info.complete then some (.Block .IncompleteHandshake)
  else if ja3_blocked cfg peek_info then some (.Block .Ja3Blocked)
  else if ja4_blocked cfg peek_info then some (.Block .Ja4Blocked)
  else if cfg.require_sni && peek_info.sni.isNone then some (.Block .NoSni)
  else none

/-- `check_at`. A new entry is dated by a reading of its own, the check's where it is not given. -/
def check_at (st : ProtectionState) (peer_ip : IpAddr) (peek_info : PeekInfo) (now : Nat) (created : Nat := now)
    (round : ℚ → ℚ := id) : Decision × ProtectionState :=
  let peer_ip := peer_ip.to_canonical
  let cfg := st.config
  match static_check cfg peer_ip peek_info with
  | some d => (d, st)
  | none =>
    let (id, st) := get_or_create_state st peer_ip cfg.burst_fp cfg.sustained_burst_fp created
    match ip_check cfg now (st.states id) round with
    | (none, s) => (.Allow id, st.setState id s)
    | (some reason, s) => (.Block reason, st.setState id s)

/-- The bucket after the refill it is owed at `now`. -/
def projected (cfg : ProtectionConfig) (k : Limit) (now : Nat) (s : IpState) (round : ℚ → ℚ := id) : Nat :=
  let refill := refillFor round (cfg.rate k) (now - (s.bucket k).last)
  min (sat_add32 (s.bucket k).units refill) (cfg.ceiling k)

/-- Which entries `evict_at` keeps. -/
def retained (cfg : ProtectionConfig) (now : Nat) (s : IpState) (round : ℚ → ℚ := id) : Bool :=
  boxed cfg now s || 0 < s.active ||
    (0 < cfg.rate .perSecond && projected cfg .perSecond now s round < cfg.ceiling .perSecond) ||
    (0 < cfg.rate .sustained && projected cfg .sustained now s round < cfg.ceiling .sustained)

def evict_at (st : ProtectionState) (now : Nat) (round : ℚ → ℚ := id) : ProtectionState :=
  { st with ip_table := Table.retain (fun id => retained st.config now (st.states id) round) st.ip_table }

/-- A closed connection releases the entry it was admitted with. -/
def release (st : ProtectionState) (id : Nat) : ProtectionState := st.setState id (st.states id).release

/-! ## Runs -/

inductive Event where
  | check (peer_ip : IpAddr) (peek_info : PeekInfo) (now : Nat)
  | evict (now : Nat)
  | release (id : Nat)

/-- The protection state as a machine: checks answer, evictions and releases do not. -/
def machine : Machine ProtectionState Event (Option Decision) where
  step st
    | .check peer_ip peek_info now =>
      (some (check_at st peer_ip peek_info now).1, (check_at st peer_ip peek_info now).2)
    | .evict now => (none, evict_at st now)
    | .release id => (none, Protection.release st id)
  reading
    | .check _ _ now => some now
    | .evict now => some now
    | .release _ => none

end Symphony.Protection
