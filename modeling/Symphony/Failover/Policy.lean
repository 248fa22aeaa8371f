import Mathlib.Algebra.Order.Floor.Semiring
import Mathlib.Data.Rat.Floor
import Symphony.Rust.Net
/-!
# Failover policies

`FailoverSpec::parse` and `SpillSpec::parse`: a route's `failover` block, checked
and with its defaults filled in. A finite `f64` is an exact rational. An error
carries what its text interpolates.
-/

namespace Symphony

/-- An `f64`, with finite values exact. -/
inductive F64 where
  | finite (q : ℚ)
  | infinite (negative : Bool)
  | nan
  deriving DecidableEq, Repr

/-- The value of a finite number within `lo..=hi`: what a check
`!v.is_finite() || v < lo || v > hi` lets through. -/
def F64.within (lo hi : ℚ) : F64 → Option ℚ
  | .finite q => if lo ≤ q ∧ q ≤ hi then some q else none
  | _ => none

/-- `f64::round` of a number that is not negative. -/
def round (q : ℚ) : Nat := ⌊q + 1 / 2⌋₊

namespace Failover

/-- A `Duration`, in nanoseconds. -/
abbrev Duration := Nat

/-- `Duration::from_millis`. -/
def from_millis (ms : Nat) : Duration := ms * 1000000

/-- Why a policy is invalid. -/
inductive PolicyError where
  /-- "failover.peers must name at least one peer" -/
  | noPeers
  /-- "failover peer host '{host}' must be an IP literal (symphony does not resolve names)" -/
  | peerHost (host : Bytes)
  /-- "failover peer '{host}' needs a non-zero port" -/
  | peerPort (host : Bytes)
  /-- "failover peer '{addr}' is listed twice" -/
  | peerTwice (addr : SocketAddr)
  /-- "failover.{label} must be between {min} and {MAX_INTERVAL_MS} ms, got {ms}" -/
  | interval (label : Bytes) (min : ℚ) (ms : F64)
  /-- "failover.peerCooldownMs.max must be at least min" -/
  | cooldownOrder
  /-- "failover.spill.{label} must be between {min} and 1, got {v}" -/
  | fraction (label : Bytes) (min : ℚ) (v : F64)
  /-- "failover.spill.maxPeerRttMs must be in (0, {MAX_PEER_RTT_MS}], got {ms}" -/
  | peerRtt (ms : F64)
  /-- "failover is not supported on the default route" -/
  | onDefaultRoute
  /-- "failover.spill is supported on exact-SNI routes only" -/
  | spillOnWildcard
  deriving DecidableEq, Repr

/-! ## Spill-over -/

def MAX_PEER_RTT_MS : ℚ := 60000

structure SpillSpec where
  high_water : Option F64 := none
  margin : Option F64 := none
  step : Option F64 := none
  max_fraction : Option F64 := none
  max_peer_rtt_ms : Option F64 := none
  deriving DecidableEq, Repr

/-- Thresholds in permille of one core per thread; `step` in permille per second. -/
structure SpillPolicy where
  high_water : Nat
  margin : Nat
  step : ℚ
  max_fraction : Nat
  max_peer_rtt : Option Duration
  deriving DecidableEq, Repr

/-- The closure `fraction` of `SpillSpec::parse`: the setting in permille. -/
def fraction (value : Option F64) (default min : ℚ) (label : Bytes) : Except PolicyError ℚ :=
  let v := value.getD (.finite default)
  match v.within min 1 with
  | some q => .ok (q * 1000)
  | none => .error (.fraction label min v)

/-- `maxPeerRttMs`: absent, or positive and at most `MAX_PEER_RTT_MS`. -/
def max_peer_rtt : Option F64 → Except PolicyError (Option Duration)
  | none => .ok none
  | some ms =>
    match ms.within 0 MAX_PEER_RTT_MS with
    | some q => if q = 0 then .error (.peerRtt ms) else .ok (some (round (q * 1000000)))
    | none => .error (.peerRtt ms)

def SpillSpec.parse (s : SpillSpec) : Except PolicyError SpillPolicy := do
  let rtt ← max_peer_rtt s.max_peer_rtt_ms
  let high_water ← fraction s.high_water (75 / 100) (1 / 1000) (bytes "highWater")
  let margin ← fraction s.margin (20 / 100) (2 / 1000) (bytes "margin")
  let step ← fraction s.step (5 / 100) (1 / 1000) (bytes "step")
  let max_fraction ← fraction s.max_fraction (50 / 100) (1 / 1000) (bytes "maxFraction")
  return ⟨round high_water, round margin, step, round max_fraction, rtt⟩

theorem fraction_bounds {value : Option F64} {default min : ℚ} {label : Bytes} {q : ℚ}
    (h : fraction value default min label = .ok q) : min * 1000 ≤ q ∧ q ≤ 1000 := by
  unfold fraction at h
  dsimp only at h
  split at h
  · next v hv =>
    cases h
    unfold F64.within at hv
    split at hv
    · split at hv
      · next hb =>
        cases hv
        constructor <;> linarith [hb.1, hb.2]
      · cases hv
    · cases hv
  · cases h

theorem SpillSpec.parse_share {s : SpillSpec} {p : SpillPolicy} (h : s.parse = .ok p) :
    0 ≤ p.step ∧ p.max_fraction ≤ 1000 := by
  unfold SpillSpec.parse at h
  simp only [bind, Except.bind, pure, Except.pure] at h
  split at h
  · cases h
  split at h
  · cases h
  split at h
  · cases h
  split at h
  · cases h
  rename_i step hstep
  split at h
  · cases h
  rename_i max_fraction hmax
  cases h
  refine ⟨by linarith [(fraction_bounds hstep).1], ?_⟩
  have hlt : ⌊max_fraction + 1 / 2⌋₊ < 1001 := by
    have hb := fraction_bounds hmax
    rw [Nat.floor_lt (by linarith)]
    push_cast
    linarith
  exact Nat.lt_succ_iff.1 hlt

/-! ## Failover -/

def DEFAULT_PROBE_INTERVAL_MS : ℚ := 1000
def DEFAULT_COOLDOWN_MIN_MS : ℚ := 5000
def DEFAULT_COOLDOWN_MAX_MS : ℚ := 60000
def MIN_PROBE_INTERVAL_MS : ℚ := 10
def MAX_INTERVAL_MS : ℚ := 86400000

structure FailoverSpec where
  peers : List (Bytes × Nat)
  drain : Bool
  probe_interval_ms : Option F64 := none
  cooldown_min_ms : Option F64 := none
  cooldown_max_ms : Option F64 := none
  spill : Option SpillSpec := none
  deriving DecidableEq, Repr

structure FailoverPolicy where
  peers : List SocketAddr
  drain : Bool
  probe_interval : Duration
  cooldown_min : Duration
  cooldown_max : Duration
  spill : Option SpillPolicy
  deriving DecidableEq, Repr

def bounded_ms (value : Option F64) (default min : ℚ) (label : Bytes) : Except PolicyError Duration :=
  let ms := value.getD (.finite default)
  match ms.within min MAX_INTERVAL_MS with
  | some q => .ok (from_millis ⌊q⌋₊)
  | none => .error (.interval label min ms)

/-- The peer loop of `FailoverSpec::parse`, onto the addresses read so far. -/
def parse_peers : List (Bytes × Nat) → List SocketAddr → Except PolicyError (List SocketAddr)
  | [], peers => .ok peers
  | (host, port) :: rest, peers =>
    match parse_ip host with
    | none => .error (.peerHost host)
    | some ip =>
      if port = 0 then .error (.peerPort host)
      else if SocketAddr.new ip port ∈ peers then .error (.peerTwice (SocketAddr.new ip port))
      else parse_peers rest (peers ++ [SocketAddr.new ip port])

def FailoverSpec.parse (f : FailoverSpec) : Except PolicyError FailoverPolicy := do
  if f.peers = [] then throw .noPeers
  let peers ← parse_peers f.peers []
  let probe_interval ← bounded_ms f.probe_interval_ms DEFAULT_PROBE_INTERVAL_MS MIN_PROBE_INTERVAL_MS
    (bytes "probeIntervalMs")
  let cooldown_min ← bounded_ms f.cooldown_min_ms DEFAULT_COOLDOWN_MIN_MS 1 (bytes "peerCooldownMs.min")
  let cooldown_max ← bounded_ms f.cooldown_max_ms (max DEFAULT_COOLDOWN_MAX_MS (cooldown_min / 1000000 : Nat)) 1
    (bytes "peerCooldownMs.max")
  if cooldown_max < cooldown_min then throw .cooldownOrder
  return ⟨peers, f.drain, probe_interval, cooldown_min, cooldown_max, none⟩

/-! ## What a valid policy holds -/

/-- The addresses a spec's peers are written as. -/
def FailoverSpec.addrs (f : FailoverSpec) : Option (List SocketAddr) :=
  f.peers.mapM fun (host, port) => (parse_ip host).map fun ip => SocketAddr.new ip port

variable {f : FailoverSpec} {p : FailoverPolicy}

theorem parse_peers_addrs {l : List (Bytes × Nat)} {acc peers : List SocketAddr} (h : parse_peers l acc = .ok peers) :
    ∃ addrs, l.mapM (fun (host, port) => (parse_ip host).map fun ip => SocketAddr.new ip port) = some addrs ∧
      peers = acc ++ addrs := by
  induction l generalizing acc with
  | nil =>
    cases h
    exact ⟨[], rfl, by simp⟩
  | cons p rest ih =>
    obtain ⟨host, port⟩ := p
    unfold parse_peers at h
    split at h
    · cases h
    · rename_i ip hip
      split at h
      · cases h
      split at h
      · cases h
      obtain ⟨addrs, hm, rfl⟩ := ih h
      refine ⟨SocketAddr.new ip port :: addrs, ?_, by simp⟩
      rw [List.mapM_cons, hm]
      dsimp only
      rw [hip]
      rfl

theorem parse_peers_nodup {l : List (Bytes × Nat)} {acc peers : List SocketAddr} (h : parse_peers l acc = .ok peers)
    (hacc : acc.Nodup) : peers.Nodup := by
  induction l generalizing acc with
  | nil =>
    cases h
    exact hacc
  | cons p rest ih =>
    obtain ⟨host, port⟩ := p
    unfold parse_peers at h
    split at h
    · cases h
    · split at h
      · cases h
      split at h
      · cases h
      · next hnot =>
        refine ih h (List.nodup_append.2 ⟨hacc, by simp, fun a ha b hb hab => hnot ?_⟩)
        rwa [← List.mem_singleton.1 hb, ← hab]

theorem FailoverSpec.parse_cases (h : f.parse = .ok p) :
    f.peers ≠ [] ∧ parse_peers f.peers [] = .ok p.peers ∧ p.drain = f.drain ∧ p.spill = none := by
  unfold FailoverSpec.parse at h
  simp only [bind, Except.bind, pure, Except.pure, throw, throwThe, MonadExceptOf.throw] at h
  split at h
  · cases h
  rename_i hne
  split at h
  · cases h
  rename_i peers hp
  split at h
  · cases h
  split at h
  · cases h
  split at h
  · cases h
  split at h
  · cases h
  cases h
  exact ⟨hne, hp, rfl, rfl⟩

theorem FailoverSpec.parse_keeps (h : f.parse = .ok p) :
    f.addrs = some p.peers ∧ p.drain = f.drain := by
  obtain ⟨-, hp, hdrain, -⟩ := parse_cases h
  obtain ⟨addrs, hm, hpeers⟩ := parse_peers_addrs hp
  rw [List.nil_append] at hpeers
  exact ⟨hpeers ▸ hm, hdrain⟩

theorem FailoverSpec.parse_distinct (h : f.parse = .ok p) :
    p.peers ≠ [] ∧ p.peers.Nodup := by
  obtain ⟨hne, hp, -⟩ := parse_cases h
  refine ⟨?_, parse_peers_nodup hp .nil⟩
  rintro hnil
  rw [hnil] at hp
  obtain ⟨addrs, hm, hpeers⟩ := parse_peers_addrs hp
  obtain rfl : addrs = [] := by simpa using hpeers.symm
  cases hl : f.peers with
  | nil => exact hne hl
  | cons q rest =>
    rw [hl, List.mapM_cons] at hm
    simp [Option.bind_eq_some_iff] at hm

/-- Without a `max`, the cooldown order check passes for every accepted `min`. -/
theorem default_cooldown_max {value : Option F64} {default : ℚ} {label label' : Bytes} {cooldown_min : Duration}
    (h : bounded_ms value default 1 label = .ok cooldown_min) :
    ∃ cooldown_max, bounded_ms none (max DEFAULT_COOLDOWN_MAX_MS (cooldown_min / 1000000 : Nat)) 1 label' =
      .ok cooldown_max ∧ cooldown_min ≤ cooldown_max := by
  unfold bounded_ms at h
  dsimp only at h
  split at h
  · rename_i q hq
    cases h
    have hmax : q ≤ MAX_INTERVAL_MS := by
      unfold F64.within at hq
      split at hq
      · split at hq
        · rename_i hb
          cases hq
          exact hb.2
        · cases hq
      · cases hq
    have hdiv : from_millis ⌊q⌋₊ / 1000000 = ⌊q⌋₊ := Nat.mul_div_cancel _ (by decide)
    have hfloor : (⌊q⌋₊ : ℚ) ≤ MAX_INTERVAL_MS := by
      rcases le_total 0 q with hq0 | hq0
      · exact (Nat.floor_le hq0).trans hmax
      · rw [Nat.floor_of_nonpos hq0]
        decide +kernel
    have hin : 1 ≤ max DEFAULT_COOLDOWN_MAX_MS (⌊q⌋₊ : ℚ) ∧ max DEFAULT_COOLDOWN_MAX_MS (⌊q⌋₊ : ℚ) ≤ MAX_INTERVAL_MS :=
      ⟨le_max_of_le_left (by decide +kernel), max_le (by decide +kernel) hfloor⟩
    refine ⟨from_millis ⌊max DEFAULT_COOLDOWN_MAX_MS (⌊q⌋₊ : ℚ)⌋₊, ?_, ?_⟩
    · rw [hdiv]
      simp [bounded_ms, F64.within, hin]
    · apply Nat.mul_le_mul_right
      exact Nat.le_floor (le_max_right _ _)
  · cases h

example : FailoverSpec.parse { peers := [(bytes "10.0.0.2", 8443)], drain := true } =
    .ok ⟨[⟨.V4 0x0a000002, 8443, 0⟩], true, from_millis 1000, from_millis 5000, from_millis 60000, none⟩ := by
  decide +kernel

end Failover

end Symphony
