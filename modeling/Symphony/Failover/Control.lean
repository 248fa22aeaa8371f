import Symphony.Failover.Assess
import Symphony.Failover.Rotation
import Symphony.Router.Reload
/-!
# The spill-over controller

A pass of the controller (`control`) moves the share of spilled connections and packs
what it admits into one word. A connection (`spill_target`) reads the word, the clock
and the target's cooldown, in this order, and nothing else. The state goes on across
reloads only under the same policy, peers and load source. Over every run of passes,
reports, cooldowns and reloads, a connection is spilled only to the peer the last pass
named, while what the pass rested on is current.
-/

namespace Symphony.Failover

open Lib (Machine)
open Router (FailoverPeer Heap RouteSpec read_failover)

/-! ## The admission word -/

structure Admission where
  fraction : Nat
  target : Nat
  until_ms : Nat
  deriving DecidableEq, Repr

/-- Fraction in bits 0–9, target in bits 10–25, end in bits 26–63. -/
def Admission.pack (a : Admission) : Nat :=
  (a.until_ms <<< 26) % (U64_MAX + 1) ||| (a.target &&& 0xFFFF) <<< 10 ||| min a.fraction 1000

def Admission.unpack (packed : Nat) : Option Admission :=
  if packed &&& 0x3FF = 0 then none
  else some ⟨packed &&& 0x3FF, (packed >>> 10) &&& 0xFFFF, packed >>> 26⟩

/-- The fields fit their bits. -/
structure Admission.Fits (a : Admission) : Prop where
  fraction : a.fraction ≤ 1000
  target : a.target < 65536
  until_ms : a.until_ms < 2 ^ 38

theorem Admission.pack_eq {a : Admission} (h : a.Fits) :
    a.pack = a.until_ms * 67108864 + a.target * 1024 + a.fraction := by
  have hu := h.until_ms
  have ht := h.target
  have hf := h.fraction
  have htarget : a.target &&& 0xFFFF = a.target := by
    rw [Nat.and_two_pow_sub_one_eq_mod (n := 16)]
    exact Nat.mod_eq_of_lt ht
  have hlow : a.target <<< 10 ||| a.fraction = a.target * 1024 + a.fraction := by
    rw [← Nat.shiftLeft_add_eq_or_of_lt (i := 10) (by omega), Nat.shiftLeft_eq]
  have hhigh : (a.until_ms <<< 26) % (U64_MAX + 1) = a.until_ms <<< 26 := by
    refine Nat.mod_eq_of_lt ?_
    rw [Nat.shiftLeft_eq]
    simp only [U64_MAX]
    omega
  unfold pack
  rw [hhigh, htarget, Nat.min_eq_left hf, Nat.or_assoc, hlow,
    ← Nat.shiftLeft_add_eq_or_of_lt (i := 26) (by omega), Nat.shiftLeft_eq]
  omega

theorem Admission.unpack_pack {a : Admission} (h : a.Fits) (hpos : 0 < a.fraction) : unpack a.pack = some a := by
  have hu := h.until_ms
  have ht := h.target
  have hf := h.fraction
  have hfraction : a.pack &&& 0x3FF = a.fraction := by
    rw [pack_eq h, Nat.and_two_pow_sub_one_eq_mod (n := 10)]
    omega
  have htarget : (a.pack >>> 10) &&& 0xFFFF = a.target := by
    rw [pack_eq h, Nat.and_two_pow_sub_one_eq_mod (n := 16), Nat.shiftRight_eq_div_pow]
    omega
  have huntil : a.pack >>> 26 = a.until_ms := by
    rw [pack_eq h, Nat.shiftRight_eq_div_pow]
    omega
  unfold unpack
  rw [hfraction, htarget, huntil, if_neg (by omega)]

/-! ## Reports -/

/-- The report word of `set_report`. -/
def pack_report (load : Option Nat) (now_ms : Nat) : Nat :=
  load.elim 0 fun l => (max now_ms 1 <<< 10) % (U64_MAX + 1) ||| min l 1000

/-- `FailoverPeer::report`, of the word: the load and the ms it arrived. -/
def read_report (packed : Nat) : Option (Nat × Nat) :=
  if packed = 0 then none else some (packed &&& 0x3FF, packed >>> 10)

/-- A report is read back as it was set; its arrival is never 0. -/
theorem read_pack_report (load : Option Nat) {now_ms : Nat} (h : now_ms < 2 ^ 38) :
    read_report (pack_report load now_ms) = load.map fun l => (min l 1000, max now_ms 1) := by
  cases load with
  | none => rfl
  | some l =>
    have hfits : (max now_ms 1 <<< 10) % (U64_MAX + 1) = max now_ms 1 <<< 10 := by
      refine Nat.mod_eq_of_lt ?_
      rw [Nat.shiftLeft_eq]
      simp only [U64_MAX]
      omega
    have hword : pack_report (some l) now_ms = max now_ms 1 * 1024 + min l 1000 := by
      simp only [pack_report, Option.elim]
      rw [hfits, ← Nat.shiftLeft_add_eq_or_of_lt (i := 10) (by omega), Nat.shiftLeft_eq]
    have hload : (max now_ms 1 * 1024 + min l 1000) &&& 0x3FF = min l 1000 := by
      rw [Nat.and_two_pow_sub_one_eq_mod (n := 10)]
      omega
    have hat : (max now_ms 1 * 1024 + min l 1000) >>> 10 = max now_ms 1 := by
      rw [Nat.shiftRight_eq_div_pow]
      omega
    rw [hword, read_report, hload, hat, if_neg (by omega)]
    rfl

/-- `record_rtt`, of the smoothed value in microseconds, 0 before the first sample. -/
def record_rtt (prev : Nat) (sample : Duration) : Nat :=
  let sample : ℚ := (max 1 (min (sample / 1000) U32_MAX) : Nat)
  let smoothed : ℚ := if prev = 0 then sample else prev + 1 / 4 * (sample - prev)
  max (round smoothed) 1

/-- `FailoverPeer::rtt`. -/
def read_rtt (us : Nat) : Option Duration := if us = 0 then none else some (us * 1000)

/-! ## The controller -/

def MAX_CONTROL_STEP_NS : Nat := 1000000000
def MIN_REPORT_TTL_NS : Nat := 3000000000

/-- The admission word and the controller of one spill-over. -/
structure SpillState where
  admission : Nat := 0
  fraction : ℚ := 0
  last_ns : Nat := 0
  deriving DecidableEq

/-- How long since the last pass, at most one step. -/
def SpillState.elapsed (s : SpillState) (now_ns : Nat) : Nat :=
  if s.last_ns = 0 then 0 else min (now_ns - s.last_ns) MAX_CONTROL_STEP_NS

/-- `clamp(0.0, max)`. -/
def clamp (max_fraction : Nat) (q : ℚ) : ℚ := max 0 (min q max_fraction)

/-- The share after a pass. -/
def moved (policy : SpillPolicy) (trend : Trend) (s : SpillState) (now_ns : Nat) : ℚ :=
  let delta := policy.step * s.elapsed now_ns / 1000000000
  clamp policy.max_fraction (match trend with
    | .Rise => s.fraction + delta
    | .Hold => s.fraction
    | .Decay => s.fraction - delta)

/-- What a pass admits: nothing without a target, or when the share rounds to 0. -/
def admitted (fraction : ℚ) (target : Option (Nat × Nat)) : Option Admission :=
  (target.map fun t => (⟨round fraction, t.1, t.2⟩ : Admission)).filter fun a => a.fraction > 0

def control (policy : SpillPolicy) (s : SpillState) (reading : Option (Nat × Nat)) (peers : List PeerView)
    (now_ns : Nat) : Option Admission × SpillState :=
  let assessed := assess policy reading peers (now_ns / 1000000)
  let fraction := moved policy assessed.1 s now_ns
  let admission := admitted fraction assessed.2
  (admission, ⟨admission.elim 0 Admission.pack, fraction, now_ns⟩)

def report_ttl_ms (failover : Router.Failover) : Nat :=
  max (3 * failover.probe_interval) MIN_REPORT_TTL_NS / 1000000

/-- `spill_target`, of the admission word it loaded, the clock it then read, the
cooldown words it then saw and the client's hash. -/
def spill_target (failover : Router.Failover) (packed now : Nat) (word : FailoverPeer → Nat) (hash : Nat) :
    Option Nat := do
  let admission ← Admission.unpack packed
  if now / 1000000 ≥ admission.until_ms then none
  else
    let peer ← failover.peers[admission.target]?
    if hash % 1000 < admission.fraction ∧ ¬ Cooling now (word peer) then some admission.target else none

/-- The word after a connection has seen it: an admission that has ended is cleared. -/
def seen_admission (packed now : Nat) : Nat :=
  if (Admission.unpack packed).any fun a => now / 1000000 ≥ a.until_ms then 0 else packed

/-! ## One pass -/

/-- What a valid policy says of the share (`SpillSpec.parse_share`). -/
structure ValidShare (policy : SpillPolicy) : Prop where
  step : 0 ≤ policy.step
  max_fraction : policy.max_fraction ≤ 1000

variable {s : SpillState} {a : Admission} {policy : FailoverPolicy} {reading : Option (Nat × Nat)} {heap : Heap}

theorem clamp_mem (max_fraction : Nat) (q : ℚ) : 0 ≤ clamp max_fraction q ∧ clamp max_fraction q ≤ max_fraction :=
  ⟨le_max_left _ _, max_le (Nat.cast_nonneg _) (min_le_right _ _)⟩

/-- Clamping moves a share that is in range no further than it was moved. -/
theorem abs_clamp_sub_le {max_fraction : Nat} {f q : ℚ} (h0 : 0 ≤ f) (h1 : f ≤ max_fraction) :
    |clamp max_fraction q - f| ≤ |q - f| := by
  unfold clamp
  rcases le_total q 0 with hq | hq
  · have hm : max 0 (min q (max_fraction : ℚ)) = 0 := max_eq_left ((min_le_left _ _).trans hq)
    rw [hm, abs_of_nonpos (by linarith), abs_of_nonpos (by linarith)]
    linarith
  · rcases le_total q max_fraction with hq1 | hq1
    · rw [min_eq_left hq1, max_eq_right hq]
    · rw [min_eq_right hq1, max_eq_right (Nat.cast_nonneg _), abs_of_nonneg (by linarith), abs_of_nonneg (by linarith)]
      linarith

theorem moved_le {policy : SpillPolicy} (hp : ValidShare policy) (h0 : 0 ≤ s.fraction)
    (h1 : s.fraction ≤ policy.max_fraction) (trend : Trend) (now_ns : Nat) :
    |moved policy trend s now_ns - s.fraction| ≤ policy.step * s.elapsed now_ns / 1000000000 := by
  have hd : 0 ≤ policy.step * s.elapsed now_ns / 1000000000 := by
    have := hp.step
    positivity
  refine (abs_clamp_sub_le h0 h1).trans ?_
  cases trend with
  | Rise => simp [abs_of_nonneg hd]
  | Hold => simpa using hd
  | Decay => simp [abs_of_nonneg hd]

theorem round_le {q : ℚ} {n : Nat} (h : q ≤ n) : round q ≤ n := by
  unfold round
  rcases le_total 0 (q + 1 / 2) with h0 | h0
  · have : ⌊q + 1 / 2⌋₊ < n + 1 := by
      rw [Nat.floor_lt h0]
      push_cast
      linarith
    omega
  · rw [Nat.floor_of_nonpos h0]
    exact Nat.zero_le _

/-- An admission holds the target and the end of its pass, and a share within bounds. -/
theorem admitted_eq_some {fraction : ℚ} {target : Option (Nat × Nat)} {max_fraction : Nat}
    (hmax : fraction ≤ max_fraction) (h : admitted fraction target = some a) :
    target = some (a.target, a.until_ms) ∧ 1 ≤ a.fraction ∧ a.fraction ≤ max_fraction := by
  obtain ⟨hmap, hpos⟩ := Option.filter_eq_some_iff.1 h
  obtain ⟨⟨i, until_ms⟩, rfl, rfl⟩ := Option.map_eq_some_iff.1 hmap
  exact ⟨rfl, of_decide_eq_true hpos, round_le hmax⟩

/-! ## The objects a reload builds -/

/-- The policy of an accepted spec: distinct peers, and a valid share. -/
theorem read_failover_policy {spec : RouteSpec} (h : (read_failover spec).policy = some policy) :
    policy.peers.Nodup ∧ ∀ spill, policy.spill = some spill → ValidShare spill := by
  unfold read_failover at h
  split at h
  · cases h
  · next f hf =>
    split at h
    · cases h
    · next p hp =>
      have hparse : f.parse = .ok p := by
        unfold Router.parse_failover at hp
        split at hp
        · cases hp
        · exact hp
      have hnone : p.spill = none := (FailoverSpec.parse_cases hparse).2.2.2
      have hnodup := (FailoverSpec.parse_distinct hparse).2
      split at h
      · cases h
        exact ⟨hnodup, fun spill hs => by simp [hnone] at hs⟩
      · next spill hspill =>
        cases h
        refine ⟨hnodup, fun spill' hs => ?_⟩
        cases hs
        obtain ⟨s, -, hs⟩ := Option.map_eq_some_iff.1 hspill
        unfold Router.parse_spill at hs
        split at hs
        · cases hs
        · obtain ⟨hstep, hmax⟩ := SpillSpec.parse_share hs
          exact ⟨hstep, hmax⟩
      · cases h
        exact ⟨hnodup, fun spill hs => by simp [hnone] at hs⟩

theorem mapM_alloc_pure {α β γ : Type} {f : β → Router.Alloc γ} {g : α → β} {k : α → γ} (l : List α)
    (hf : ∀ a ∈ l, f (g a) = pure (k a)) (h : Heap) : (l.map g).mapM f h = (l.map k, h) := by
  induction l generalizing h with
  | nil => rfl
  | cons a l ih =>
    rw [List.map_cons, List.mapM_cons, hf a List.mem_cons_self]
    change (k a :: ((l.map g).mapM f h).1, ((l.map g).mapM f h).2) = _
    rw [ih fun b hb => hf b (List.mem_cons_of_mem _ hb)]
    rfl

/-- Under the same addresses the peers are the predecessor's own. -/
theorem inherited_peers {p : Router.Failover} (hp : (p.peers.map (·.addr)).Nodup) (h : Heap) :
    (p.peers.map (·.addr)).mapM (Router.Failover.new_peer (some p)) h = (p.peers, h) := by
  have hfind : ∀ peer ∈ p.peers, Router.Failover.new_peer (some p) peer.addr = pure (id peer) := by
    intro peer hmem
    have hf : p.peers.find? (fun q => decide (q.addr = peer.addr)) = some peer := by
      obtain ⟨q, hq⟩ := Option.isSome_iff_exists.1
        (List.find?_isSome.2 ⟨peer, hmem, by simp⟩ : (p.peers.find? fun q => decide (q.addr = peer.addr)).isSome = true)
      have haddr : q.addr = peer.addr := by simpa using List.find?_some hq
      rw [hq, List.inj_on_of_nodup_map hp (List.mem_of_find?_eq_some hq) hmem haddr]
    simp only [Router.Failover.new_peer, Option.bind_some, hf]
    rfl
  rw [mapM_alloc_pure p.peers hfind h, List.map_id]

/-- What becomes of a spill-over in a new failover object: the predecessor's state
under the same policy, for the same peers, or a state of its own. -/
inductive Spilled (h h' : Heap) (policy : FailoverPolicy) (previous : Option Router.Failover)
    (f : Router.Failover) : Prop
  | none : f.spill = none → Spilled h h' policy previous f
  | inherited {p : Router.Failover} {spill : Router.Spill} : previous = some p → p.spill = some spill →
      f.spill = some spill → f.peers = p.peers → Spilled h h' policy previous f
  | fresh {spill : SpillPolicy} {state : Nat} : policy.spill = some spill → f.spill = some ⟨spill, state⟩ →
      h.next ≤ state → state < h'.next → Spilled h h' policy previous f

theorem inherited_spill_eq_some {spill : SpillPolicy} {previous : Option Router.Failover} {same_load_source : Bool}
    {state : Nat} (h : Router.Failover.inherited_spill policy spill previous same_load_source = some state) :
    ∃ p, previous = some p ∧ p.spill = some ⟨spill, state⟩ ∧ p.peers.map (·.addr) = policy.peers := by
  obtain ⟨p, rfl, h⟩ := Option.bind_eq_some_iff.1 h
  obtain ⟨⟨spill', state'⟩, hs, h⟩ := Option.bind_eq_some_iff.1 h
  split at h
  · next hsame =>
    simp only [Bool.and_eq_true, decide_eq_true_eq] at hsame
    cases h
    exact ⟨p, rfl, hsame.1.2 ▸ hs, hsame.2⟩
  · cases h

theorem failover_new_spilled (policy : FailoverPolicy) (previous : Option Router.Failover)
    (hprev : ∀ p, previous = some p → (p.peers.map (·.addr)).Nodup) (tcp_health : Option Router.SlotHealth)
    (same_load_source : Bool) (h : Heap) :
    Spilled h (Router.Failover.new policy previous tcp_health same_load_source h).2 policy previous
      (Router.Failover.new policy previous tcp_health same_load_source h).1 := by
  -- the heap after the peers, which the state is allocated in
  let h₁ := (policy.peers.mapM (Router.Failover.new_peer previous) h).2
  have hgrow : h.next ≤ h₁.next := (Router.grows_mapM (Router.grows_new_peer previous) policy.peers h).next
  have hspill : (Router.Failover.new policy previous tcp_health same_load_source h).1.spill =
      (Router.Failover.new_spill policy previous same_load_source h₁).1 := rfl
  cases hp : policy.spill with
  | none =>
    refine .none ?_
    rw [hspill, Router.Failover.new_spill, hp]
    rfl
  | some spill =>
    cases hi : Router.Failover.inherited_spill policy spill previous same_load_source with
    | some state =>
      obtain ⟨p, rfl, hs, haddrs⟩ := inherited_spill_eq_some hi
      refine .inherited rfl hs ?_ ?_
      · rw [hspill, Router.Failover.new_spill, hp]
        simp only [hi]
        rfl
      · change (policy.peers.mapM (Router.Failover.new_peer (some p)) h).1 = p.peers
        rw [← haddrs, inherited_peers (hprev p rfl)]
    | none =>
      have hnew : Router.Failover.new_spill policy previous same_load_source h₁ =
          (some ⟨spill, h₁.next⟩, { h₁ with next := h₁.next + 1 }) := by
        rw [Router.Failover.new_spill, hp]
        simp only [hi]
        rfl
      refine .fresh hp (by rw [hspill, hnew]) hgrow ?_
      have hrest := (Router.grows_new_status previous
        (Router.Failover.new_spill policy previous same_load_source h₁).2).next
      change h₁.next < (Router.Failover.new_status previous
        (Router.Failover.new_spill policy previous same_load_source h₁).2).2.next + 1
      rw [hnew] at hrest ⊢
      exact Nat.lt_succ_of_le ((Nat.le_succ _).trans hrest)

/-! ## Runs -/

/-- A control pass, as it was made: on which peers and policy, from which reading and
reports, and the share it left. -/
structure Pass where
  peers : List FailoverPeer
  policy : SpillPolicy
  ttl_ms : Nat
  reading : Option (Nat × Nat)
  report : FailoverPeer → Option (Nat × Nat)
  views : List PeerView
  now_ns : Nat
  fraction : ℚ

/-- Every failover object built so far, the shared states and peers, by identity, and
the last pass on each state. -/
structure SpillWorld where
  heap : Heap
  built : List Router.Failover
  state : Nat → SpillState
  word : FailoverPeer → Nat
  report : FailoverPeer → Nat
  rtt_us : FailoverPeer → Nat
  last : Nat → Option Pass

/-- Before the first route is built. -/
def SpillWorld.start (heap : Heap) : SpillWorld :=
  ⟨heap, [], fun _ => {}, fun _ => 0, fun _ => 0, fun _ => 0, fun _ => none⟩

inductive SpillEvent where
  /-- `control_all` comes to the spill-over of the failover built as number `k`. -/
  | control (k : Nat) (reading : Option (Nat × Nat)) (now_ns : Nat)
  /-- A connection consults the failover built as number `k`. -/
  | consult (k : Nat) (now_ns hash : Nat)
  | set_report (peer : FailoverPeer) (load : Option Nat) (now_ms : Nat)
  | record_rtt (peer : FailoverPeer) (sample : Duration)
  | cooldown (e : Interference)
  /-- A reload builds a failover from its predecessor. -/
  | reload (previous : Option Nat) (spec : RouteSpec) (tcp_health : Option Nat) (same_load_source : Bool)

namespace SpillWorld

variable (w : SpillWorld)

/-- What `control_all` knows of a peer. -/
def view (ttl_ms now_ns : Nat) (peer : FailoverPeer) : PeerView :=
  let report := read_report (w.report peer)
  ⟨report.map (·.1), report.elim 0 (·.2 + ttl_ms), Cooling now_ns (w.word peer), read_rtt (w.rtt_us peer)⟩

def pass (f : Router.Failover) (spill : Router.Spill) (reading : Option (Nat × Nat)) (now_ns : Nat) : SpillWorld :=
  let ttl_ms := report_ttl_ms f
  let views := f.peers.map (w.view ttl_ms now_ns)
  let s := (control spill.policy (w.state spill.state) reading views now_ns).2
  { w with
    state := Function.update w.state spill.state s
    last := Function.update w.last spill.state
      (some ⟨f.peers, spill.policy, ttl_ms, reading, fun p => read_report (w.report p), views, now_ns, s.fraction⟩) }

/-- The admission word of a state after a connection has seen it. -/
def see (state now_ns : Nat) : SpillWorld :=
  { w with
    state := Function.update w.state state
      { w.state state with admission := seen_admission (w.state state).admission now_ns } }

def reload (previous : Option Nat) (spec : RouteSpec) (tcp_health : Option Nat) (same_load_source : Bool) :
    SpillWorld :=
  match (read_failover spec).policy with
  | none => w
  | some policy =>
    let r := Router.Failover.new policy (previous.bind (w.built[·]?)) tcp_health same_load_source w.heap
    { w with heap := r.2, built := w.built ++ [r.1] }

/-- The failover built as number `k`, if it spills over. -/
def spilling (k : Nat) : Option (Router.Failover × Router.Spill) := do
  let f ← w.built[k]?
  let spill ← f.spill
  return (f, spill)

end SpillWorld

def spill_step (w : SpillWorld) : SpillEvent → Option Nat × SpillWorld
  | .control k reading now_ns => (none, (w.spilling k).elim w fun p => w.pass p.1 p.2 reading now_ns)
  | .consult k now_ns hash =>
    ((w.spilling k).bind fun p => spill_target p.1 (w.state p.2.state).admission now_ns w.word hash,
      (w.spilling k).elim w fun p => w.see p.2.state now_ns)
  | .set_report peer load now_ms => (none, { w with report := Function.update w.report peer (pack_report load now_ms) })
  | .record_rtt peer sample =>
    (none, { w with rtt_us := Function.update w.rtt_us peer (record_rtt (w.rtt_us peer) sample) })
  | .cooldown e => (none, { w with word := e.act w.word })
  | .reload previous spec tcp_health same_load_source => (none, w.reload previous spec tcp_health same_load_source)

/-- The passes and the connections read the clock. -/
def spilling_machine : Machine SpillWorld SpillEvent (Option Nat) where
  step := spill_step
  reading
    | .control _ _ now_ns => some now_ns
    | .consult _ now_ns _ => some now_ns
    | _ => none

/-- The bounds of the packed fields: readings end before 2^38 ms, and no route has
more than 65536 peers. -/
def InRange (_ : SpillWorld) : SpillEvent → Prop
  | .control _ reading _ => ∀ r ∈ reading, r.2 < 2 ^ 38
  | .reload _ spec _ _ => ∀ policy ∈ (read_failover spec).policy, policy.peers.length ≤ 65536
  | _ => True

instance (w : SpillWorld) : (e : SpillEvent) → Decidable (InRange w e)
  | .control _ reading _ => inferInstanceAs (Decidable (∀ r ∈ reading, r.2 < 2 ^ 38))
  | .reload _ spec _ _ => inferInstanceAs
    (Decidable (∀ policy ∈ (read_failover spec).policy, policy.peers.length ≤ 65536))
  | .consult .. | .set_report .. | .record_rtt .. | .cooldown _ => .isTrue trivial

/-! ## What every run keeps -/

/-- An admission that a pass has made. -/
def Pass.Admits (p : Pass) (a : Admission) : Prop :=
  (∃ trend, assess p.policy p.reading p.views (p.now_ns / 1000000) = (trend, some (a.target, a.until_ms))) ∧
    1 ≤ a.fraction ∧ a.fraction ≤ p.policy.max_fraction

/-- The state and the last pass of a spill-over belong together. -/
structure Kept (f : Router.Failover) (spill : Router.Spill) (s : SpillState) (last : Option Pass) : Prop where
  nonneg : 0 ≤ s.fraction
  le_max : s.fraction ≤ spill.policy.max_fraction
  unused : last = none → s = {}
  passed : ∀ p, last = some p → s.last_ns = p.now_ns ∧ s.fraction = p.fraction ∧ p.peers = f.peers ∧
    p.policy = spill.policy ∧ (∃ w : SpillWorld, p.report = (fun q => read_report (w.report q)) ∧
      p.views = p.peers.map (w.view p.ttl_ms p.now_ns)) ∧ ∀ a, Admission.unpack s.admission = some a → p.Admits a

structure SpillInv (w : SpillWorld) : Prop where
  allocated : ∀ f ∈ w.built, ∀ spill, f.spill = some spill → spill.state < w.heap.next
  unused : ∀ state, w.heap.next ≤ state → w.state state = {} ∧ w.last state = none
  shared : ∀ f ∈ w.built, ∀ g ∈ w.built, ∀ spill spill', f.spill = some spill → g.spill = some spill' →
    spill.state = spill'.state → spill = spill' ∧ f.peers = g.peers
  distinct : ∀ f ∈ w.built, (f.peers.map (·.addr)).Nodup
  valid : ∀ f ∈ w.built, ∀ spill, f.spill = some spill → ValidShare spill.policy ∧ f.peers.length ≤ 65536
  kept : ∀ f ∈ w.built, ∀ spill, f.spill = some spill → Kept f spill (w.state spill.state) (w.last spill.state)

/-- What a pass packs is read back as what it admitted. -/
theorem control_admits {policy : SpillPolicy} (hp : ValidShare policy) (s : SpillState) {views : List PeerView}
    {now_ns : Nat} (hviews : views.length ≤ 65536) (hreading : ∀ r, reading = some r → r.2 < 2 ^ 38)
    (h : Admission.unpack (control policy s reading views now_ns).2.admission = some a) :
    (∃ trend, assess policy reading views (now_ns / 1000000) = (trend, some (a.target, a.until_ms))) ∧
      1 ≤ a.fraction ∧ a.fraction ≤ policy.max_fraction := by
  simp only [control] at h
  generalize hm : moved policy (assess policy reading views (now_ns / 1000000)).1 s now_ns = fraction at h
  have hmax : fraction ≤ policy.max_fraction := hm ▸ (clamp_mem _ _).2
  cases ha : admitted fraction (assess policy reading views (now_ns / 1000000)).2 with
  | none =>
    rw [ha] at h
    cases h
  | some b =>
    obtain ⟨htarget, hpos, hle⟩ := admitted_eq_some hmax ha
    have hassess : assess policy reading views (now_ns / 1000000) =
        ((assess policy reading views (now_ns / 1000000)).1, some (b.target, b.until_ms)) := Prod.ext rfl htarget
    obtain ⟨load, local_until_ms, peer_load, view, hb, huntil⟩ := assess_target hassess
    have hfits : b.Fits := by
      refine ⟨hle.trans hp.max_fraction, ?_, ?_⟩
      · exact (List.getElem?_eq_some_iff.1 hb.seen).1.trans_le hviews
      · rw [huntil]
        exact lt_of_le_of_lt (min_le_left _ _) (hreading _ hb.measured)
    rw [ha] at h
    change Admission.unpack b.pack = some a at h
    rw [Admission.unpack_pack hfits hpos] at h
    cases h
    exact ⟨⟨_, hassess⟩, hpos, hle⟩

/-- After a pass, the state and the pass belong together. -/
theorem kept_control {f : Router.Failover} {spill : Router.Spill} (s : SpillState) (hp : ValidShare spill.policy)
    (w : SpillWorld) (now_ns : Nat) (hpeers : f.peers.length ≤ 65536)
    (hreading : ∀ r, reading = some r → r.2 < 2 ^ 38) :
    let views := f.peers.map (w.view (report_ttl_ms f) now_ns)
    let s' := (control spill.policy s reading views now_ns).2
    Kept f spill s' (some ⟨f.peers, spill.policy, report_ttl_ms f, reading, fun p => read_report (w.report p), views,
      now_ns, s'.fraction⟩) := by
  intro views s'
  refine ⟨(clamp_mem _ _).1, (clamp_mem _ _).2, nofun, ?_⟩
  rintro p ⟨⟩
  refine ⟨rfl, rfl, rfl, rfl, ⟨w, rfl, rfl⟩, fun a ha => ?_⟩
  exact control_admits hp s (by simpa [views] using hpeers) hreading ha

theorem unpack_seen {packed now_ns : Nat} (h : Admission.unpack (seen_admission packed now_ns) = some a) :
    Admission.unpack packed = some a := by
  unfold seen_admission at h
  split at h
  · cases h
  · exact h

theorem Kept.see {f : Router.Failover} {spill : Router.Spill} {last : Option Pass} (h : Kept f spill s last)
    (now_ns : Nat) :
    Kept f spill { s with admission := seen_admission s.admission now_ns } last := by
  refine ⟨h.nonneg, h.le_max, fun hnone => ?_, fun p hp => ?_⟩
  · rw [h.unused hnone]
    rfl
  · obtain ⟨hlast, hfraction, hpeers, hpolicy, hviews, hadmits⟩ := h.passed p hp
    exact ⟨hlast, hfraction, hpeers, hpolicy, hviews, fun a ha => hadmits a (unpack_seen ha)⟩

theorem Kept.congr {f g : Router.Failover} {spill : Router.Spill} {last : Option Pass} (h : Kept f spill s last)
    (hpeers : f.peers = g.peers) : Kept g spill s last :=
  ⟨h.nonneg, h.le_max, h.unused, hpeers ▸ h.passed⟩

theorem spilling_eq_some {w : SpillWorld} {k : Nat} {f : Router.Failover} {spill : Router.Spill}
    (h : w.spilling k = some (f, spill)) : f ∈ w.built ∧ f.spill = some spill := by
  obtain ⟨f', hf, h⟩ := Option.bind_eq_some_iff.1 h
  obtain ⟨spill', hs, h⟩ := Option.bind_eq_some_iff.1 h
  cases h
  exact ⟨List.mem_of_getElem? hf, hs⟩

section Steps

variable {w : SpillWorld}

variable {f : Router.Failover} {spill : Router.Spill}

/-- A step that touches the state and the last pass of one spill-over only. -/
theorem SpillInv.touch (h : SpillInv w) (hf : f ∈ w.built) (hs : f.spill = some spill) {last : Option Pass}
    (hk : Kept f spill s last) {w' : SpillWorld} (hheap : w'.heap = w.heap) (hbuilt : w'.built = w.built)
    (hstate : w'.state = Function.update w.state spill.state s)
    (hlast : w'.last = Function.update w.last spill.state last) : SpillInv w' := by
  have hlt := h.allocated f hf spill hs
  refine ⟨?_, ?_, ?_, ?_, ?_, ?_⟩
  · rw [hbuilt, hheap]
    exact h.allocated
  · intro state hstate'
    rw [hheap] at hstate'
    have hne : state ≠ spill.state := by omega
    simpa [hstate, hlast, hne] using h.unused state hstate'
  · rw [hbuilt]
    exact h.shared
  · rw [hbuilt]
    exact h.distinct
  · rw [hbuilt]
    exact h.valid
  · rw [hbuilt, hstate, hlast]
    intro g hg spill' hs'
    by_cases he : spill'.state = spill.state
    · obtain ⟨rfl, hpeers⟩ := h.shared g hg f hf spill' spill hs' hs he
      simpa using hk.congr hpeers.symm
    · simpa [he] using h.kept g hg spill' hs'

theorem SpillInv.pass (h : SpillInv w) (hf : f ∈ w.built) (hs : f.spill = some spill)
    (hreading : ∀ r, reading = some r → r.2 < 2 ^ 38) (now_ns : Nat) : SpillInv (w.pass f spill reading now_ns) := by
  obtain ⟨hvalid, hpeers⟩ := h.valid f hf spill hs
  exact h.touch hf hs (kept_control (w.state spill.state) hvalid w now_ns hpeers hreading) rfl rfl rfl rfl

theorem SpillInv.see (h : SpillInv w) (hf : f ∈ w.built) (hs : f.spill = some spill) (now_ns : Nat) :
    SpillInv (w.see spill.state now_ns) :=
  h.touch hf hs ((h.kept f hf spill hs).see now_ns) rfl rfl rfl (Function.update_eq_self _ _).symm

/-- What a new failover object has to be to go with those there are. -/
structure Joins (w : SpillWorld) (heap : Heap) (f : Router.Failover) (spill : Router.Spill) : Prop where
  allocated : spill.state < heap.next
  shared : ∀ g ∈ w.built, ∀ spill', g.spill = some spill' → spill.state = spill'.state →
    spill = spill' ∧ f.peers = g.peers
  valid : ValidShare spill.policy ∧ f.peers.length ≤ 65536
  kept : Kept f spill (w.state spill.state) (w.last spill.state)

theorem SpillInv.join (h : SpillInv w) (hgrow : w.heap.next ≤ heap.next) (hdistinct : (f.peers.map (·.addr)).Nodup)
    (hjoins : ∀ spill, f.spill = some spill → Joins w heap f spill) :
    SpillInv { w with heap := heap, built := w.built ++ [f] } := by
  have hnew {g : Router.Failover} (hg : g ∈ w.built ++ [f]) : g ∈ w.built ∨ g = f := by simpa using hg
  refine ⟨?_, fun state hstate => h.unused state (hgrow.trans hstate), ?_, ?_, ?_, ?_⟩
  · intro g hg spill hs
    rcases hnew hg with hg | rfl
    · exact (h.allocated g hg spill hs).trans_le hgrow
    · exact (hjoins spill hs).allocated
  · intro g hg g' hg' spill spill' hs hs' he
    rcases hnew hg with hin | rfl <;> rcases hnew hg' with hin' | rfl
    · exact h.shared g hin g' hin' spill spill' hs hs' he
    · obtain ⟨hspill, hpeers⟩ := (hjoins spill' hs').shared g hin spill hs he.symm
      exact ⟨hspill.symm, hpeers.symm⟩
    · exact (hjoins spill hs).shared g' hin' spill' hs' he
    · rw [hs] at hs'
      cases hs'
      exact ⟨rfl, rfl⟩
  · intro g hg
    rcases hnew hg with hg | rfl
    · exact h.distinct g hg
    · exact hdistinct
  · intro g hg spill hs
    rcases hnew hg with hg | rfl
    · exact h.valid g hg spill hs
    · exact (hjoins spill hs).valid
  · intro g hg spill hs
    rcases hnew hg with hg | rfl
    · exact h.kept g hg spill hs
    · exact (hjoins spill hs).kept

/-- The predecessor's state for the same peers, or a state nobody has used. -/
theorem SpillInv.spilled_joins (h : SpillInv w) {previous : Option Router.Failover} (hgrow : w.heap.next ≤ heap.next)
    (hprev : ∀ p, previous = some p → p ∈ w.built) (hlen : f.peers.length ≤ 65536)
    (hshare : ∀ spill, policy.spill = some spill → ValidShare spill) (hspilled : Spilled w.heap heap policy previous f)
    (spill : Router.Spill) (hs : f.spill = some spill) :
    Joins w heap f spill := by
  cases hspilled with
  | none hnone =>
    rw [hnone] at hs
    cases hs
  | @inherited p spill' hp hps hfs hpeers =>
    rw [hfs] at hs
    cases hs
    have hmem := hprev p hp
    refine ⟨(h.allocated p hmem spill hps).trans_le hgrow, fun g hg spill' hgs he => ?_,
      ⟨(h.valid p hmem spill hps).1, hlen⟩, (h.kept p hmem spill hps).congr hpeers.symm⟩
    rw [hpeers]
    exact h.shared p hmem g hg spill spill' hps hgs he
  | @fresh policy' state hpolicy hfs hle hlt =>
    rw [hfs] at hs
    cases hs
    obtain ⟨hstate, hlast⟩ := h.unused state hle
    refine ⟨hlt, fun g hg spill' hgs he => ?_, ⟨hshare _ hpolicy, hlen⟩, ?_⟩
    · have := h.allocated g hg spill' hgs
      simp only at he
      omega
    · simp only [hstate, hlast]
      exact ⟨le_refl _, Nat.cast_nonneg _, fun _ => rfl, nofun⟩

theorem SpillInv.reload (h : SpillInv w) {previous : Option Nat} {spec : RouteSpec} {tcp_health : Option Nat}
    {same_load_source : Bool}
    (hlen : ∀ policy, (read_failover spec).policy = some policy → policy.peers.length ≤ 65536) :
    SpillInv (w.reload previous spec tcp_health same_load_source) := by
  unfold SpillWorld.reload
  split
  · exact h
  · next policy hpolicy =>
    obtain ⟨hnodup, hshare⟩ := read_failover_policy hpolicy
    have hprev : ∀ p, previous.bind (w.built[·]?) = some p → p ∈ w.built := by
      intro p hp
      obtain ⟨k, -, hk⟩ := Option.bind_eq_some_iff.1 hp
      exact List.mem_of_getElem? hk
    have hpeers := (Router.Failover.new_peers policy (previous.bind (w.built[·]?)) tcp_health same_load_source w.heap).1
    have hgrow := (Router.grows_failover policy (previous.bind (w.built[·]?)) tcp_health same_load_source w.heap).next
    have hspilled := failover_new_spilled policy (previous.bind (w.built[·]?)) (fun p hp => h.distinct p (hprev p hp))
      tcp_health same_load_source w.heap
    refine h.join hgrow (hpeers ▸ hnodup) (h.spilled_joins hgrow hprev ?_ hshare hspilled)
    rw [← List.length_map (·.addr), hpeers]
    exact hlen policy hpolicy

theorem SpillInv.step (h : SpillInv w) {e : SpillEvent} (he : InRange w e) : SpillInv (spill_step w e).2 := by
  cases e with
  | control k reading now_ns =>
    simp only [spill_step]
    cases hk : w.spilling k with
    | none => exact h
    | some p => exact h.pass (spilling_eq_some hk).1 (spilling_eq_some hk).2 he now_ns
  | consult k now_ns hash =>
    simp only [spill_step]
    cases hk : w.spilling k with
    | none => exact h
    | some p => exact h.see (spilling_eq_some hk).1 (spilling_eq_some hk).2 now_ns
  | reload previous spec tcp_health same_load_source => exact h.reload he
  | _ => exact ⟨h.allocated, h.unused, h.shared, h.distinct, h.valid, h.kept⟩

end Steps

theorem spill_inv_start (heap : Heap) : SpillInv (SpillWorld.start heap) where
  allocated := nofun
  unused _ _ := ⟨rfl, rfl⟩
  shared := nofun
  distinct := nofun
  valid := nofun
  kept := nofun

theorem spill_inv {w : SpillWorld} {clock : Nat} {log : List (SpillEvent × Option Nat)}
    (h : spilling_machine.RunWhere InRange (SpillWorld.start heap) w clock log) : SpillInv w :=
  h.inv (fun w _ _ => SpillInv w) (spill_inv_start heap) fun _ _ _ _ hw he _ => hw.step he

/-! ## What a connection may rely on -/

/-- What a spilled connection rests on: the pass named its target for these very
peers, and neither its reading nor the target's report has ended. -/
structure Justified (f : Router.Failover) (spill : Router.Spill) (p : Pass) (a : Admission) (now_ms : Nat)
    (peer : FailoverPeer) : Prop where
  peers : p.peers = f.peers
  policy : p.policy = spill.policy
  named : ∃ trend, assess p.policy p.reading p.views (p.now_ns / 1000000) = (trend, some (a.target, a.until_ms))
  target : f.peers[a.target]? = some peer
  reading : ∃ load until_ms, p.reading = some (load, until_ms) ∧ now_ms < until_ms
  report : ∃ load at_ms, p.report peer = some (load, at_ms) ∧ now_ms < at_ms + p.ttl_ms
  fraction : 1 ≤ a.fraction ∧ a.fraction ≤ spill.policy.max_fraction

theorem spill_target_eq_some {f : Router.Failover} {packed now : Nat} {word : FailoverPeer → Nat} {hash i : Nat}
    (h : spill_target f packed now word hash = some i) :
    ∃ a peer, Admission.unpack packed = some a ∧ a.target = i ∧ now / 1000000 < a.until_ms ∧
      f.peers[a.target]? = some peer ∧ hash % 1000 < a.fraction ∧ ¬ Cooling now (word peer) := by
  obtain ⟨a, ha, h⟩ := Option.bind_eq_some_iff.1 h
  split at h
  · cases h
  · next hnow =>
    obtain ⟨peer, hpeer, h⟩ := Option.bind_eq_some_iff.1 h
    split at h
    · next hadmit =>
      cases h
      exact ⟨a, peer, ha, rfl, by omega, hpeer, hadmit.1, hadmit.2⟩
    · cases h

/-- The last pass justifies what is read from its admission before that ends. -/
theorem Kept.justified {f : Router.Failover} {spill : Router.Spill} {last : Option Pass} (h : Kept f spill s last)
    (ha : Admission.unpack s.admission = some a) {peer : FailoverPeer} (hpeer : f.peers[a.target]? = some peer)
    {now_ms : Nat} (hnow : now_ms < a.until_ms) :
    ∃ p, last = some p ∧ Justified f spill p a now_ms peer := by
  cases hl : last with
  | none =>
    rw [h.unused hl] at ha
    cases ha
  | some p =>
    obtain ⟨-, -, hpeers, hpolicy, ⟨w, hreport, hviews⟩, hadmits⟩ := h.passed p hl
    obtain ⟨hnamed, hfraction⟩ := hadmits a ha
    have hnamed' := hnamed
    obtain ⟨trend, hassess⟩ := hnamed'
    obtain ⟨load, local_until_ms, peer_load, view, hb, huntil⟩ := assess_target hassess
    rw [huntil] at hnow
    refine ⟨p, rfl, hpeers, hpolicy, hnamed, hpeer, ⟨load, local_until_ms, hb.measured, ?_⟩, ?_, hpolicy ▸ hfraction⟩
    · exact hnow.trans_le (min_le_left _ _)
    · -- the view at the target's index is that of the peer with this index
      have hview : view = w.view p.ttl_ms p.now_ns peer := by
        have hseen := hb.seen
        rw [hviews, hpeers, List.getElem?_map, hpeer] at hseen
        exact (Option.some.inj hseen).symm
      subst hview
      have hend := hnow.trans_le (min_le_right _ _)
      cases hr : read_report (w.report peer) with
      | none => simp [SpillWorld.view, hr] at hend
      | some r =>
        refine ⟨r.1, r.2, by rw [hreport]; exact hr, ?_⟩
        simpa [SpillWorld.view, hr] using hend

/-- In every run of passes, reports, cooldowns and reloads: the share of every
spill-over stays within its policy's bounds, and moves from one pass to the next by no
more than the step allows. A connection that read the admission word, and after it the
clock and the cooldown words, goes to the peer that the last pass on this state named
for these peers, while the reading and the report behind it are current, under a share
of at least 1 permille, and not while that peer is cooling down. -/
theorem spill_only_what_the_controller_justified {heap : Heap} {w : SpillWorld} {clock : Nat}
    {log : List (SpillEvent × Option Nat)} (h : spilling_machine.RunWhere InRange (SpillWorld.start heap) w clock log)
    {f : Router.Failover} {spill : Router.Spill} (hf : f ∈ w.built) (hs : f.spill = some spill) :
    (0 ≤ (w.state spill.state).fraction ∧ (w.state spill.state).fraction ≤ spill.policy.max_fraction) ∧
    (∀ p reading now_ns, w.last spill.state = some p →
      |((w.pass f spill reading now_ns).state spill.state).fraction - p.fraction| ≤
        spill.policy.step * min (now_ns - p.now_ns) MAX_CONTROL_STEP_NS / 1000000000) ∧
    ∀ now_ns word hash i, spill_target f (w.state spill.state).admission now_ns word hash = some i →
      ∃ p a peer, w.last spill.state = some p ∧ Admission.unpack (w.state spill.state).admission = some a ∧
        a.target = i ∧ Justified f spill p a (now_ns / 1000000) peer ∧ ¬ Cooling now_ns (word peer) := by
  have hinv := spill_inv h
  have hk := hinv.kept f hf spill hs
  have hvalid := (hinv.valid f hf spill hs).1
  refine ⟨⟨hk.nonneg, hk.le_max⟩, fun p reading now_ns hp => ?_, fun now_ns word hash i hi => ?_⟩
  · obtain ⟨hlast, hfraction, -⟩ := hk.passed p hp
    have hmoved := moved_le hvalid hk.nonneg hk.le_max
      (assess spill.policy reading (f.peers.map (w.view (report_ttl_ms f) now_ns)) (now_ns / 1000000)).1 now_ns
    have hstate : ((w.pass f spill reading now_ns).state spill.state).fraction = moved spill.policy
        (assess spill.policy reading (f.peers.map (w.view (report_ttl_ms f) now_ns)) (now_ns / 1000000)).1
        (w.state spill.state) now_ns := by
      simp [SpillWorld.pass, control]
    have helapsed : (w.state spill.state).elapsed now_ns ≤ min (now_ns - p.now_ns) MAX_CONTROL_STEP_NS := by
      unfold SpillState.elapsed
      rw [hlast]
      split
      · exact Nat.zero_le _
      · exact le_refl _
    rw [hstate, ← hfraction]
    refine hmoved.trans ?_
    have hstep := hvalid.step
    have hcast : ((w.state spill.state).elapsed now_ns : ℚ) ≤ (min (now_ns - p.now_ns) MAX_CONTROL_STEP_NS : Nat) := by
      exact_mod_cast helapsed
    gcongr
  · obtain ⟨a, peer, ha, rfl, hnow, hpeer, -, hcool⟩ := spill_target_eq_some hi
    obtain ⟨p, hp, hj⟩ := hk.justified ha hpeer hnow
    exact ⟨p, a, peer, hp, ha, rfl, hj, hcool⟩

/-- A route with one peer and spill-over by default. -/
def spilling_spec : RouteSpec :=
  { sni := bytes "a", failover := some { peers := [(bytes "10.0.0.2", 8443)], drain := false, spill := some {} } }

/-- The route is built, its peer reports 100 permille, and two passes a second apart
find 900 permille here. -/
def busy_events : List SpillEvent :=
  [.reload none spilling_spec none false, .set_report ⟨0, .new (.V4 0x0a000002) 8443⟩ (some 100) 1,
    .control 0 (some (900, 3000)) 5000000, .control 0 (some (900, 3000)) 1005000000]

/-- A client with a small hash is spilled to the peer, 50 permille of the clients being
admitted. -/
theorem spill_only_what_the_controller_justified_busy :
    ∃ w clock log f spill p a peer, spilling_machine.RunWhere InRange (SpillWorld.start {}) w clock log ∧
      f ∈ w.built ∧ f.spill = some spill ∧
      spill_target f (w.state spill.state).admission 1006000000 w.word 7 = some 0 ∧
      w.last spill.state = some p ∧ a.fraction = 50 ∧ Justified f spill p a 1006 peer := by
  have hok : spilling_machine.Admissible InRange (SpillWorld.start {}) 0 busy_events := by decide +kernel
  have h₀ : spilling_machine.RunWhere InRange (SpillWorld.start {}) (SpillWorld.start {}) 0 [] := .nil
  obtain ⟨clock, h⟩ := h₀.exec hok
  generalize hw : (spilling_machine.exec (SpillWorld.start {}) busy_events).2 = w at h
  let f : Router.Failover := ⟨3, false, from_millis 1000, from_millis 5000, from_millis 60000,
    [⟨0, .new (.V4 0x0a000002) 8443⟩], none, 2, some ⟨⟨750, 200, 50, 500, none⟩, 1⟩⟩
  have hf : w.built = [f] := by
    rw [← hw]
    decide +kernel
  have hmem : f ∈ w.built := by simp [hf]
  have hword : Admission.unpack (w.state 1).admission = some ⟨50, 0, 3000⟩ := by
    rw [← hw]
    decide +kernel
  have htarget : spill_target f (w.state 1).admission 1006000000 w.word 7 = some 0 := by
    rw [← hw]
    decide +kernel
  obtain ⟨-, -, hspilled⟩ := spill_only_what_the_controller_justified h hmem rfl
  obtain ⟨p, a, peer, hp, ha, -, hj, -⟩ := hspilled 1006000000 w.word 7 0 htarget
  obtain rfl : a = ⟨50, 0, 3000⟩ := Option.some.inj (ha.symm.trans hword)
  exact ⟨w, clock, _, f, _, p, _, peer, h, hmem, rfl, htarget, hp, rfl, hj⟩

end Symphony.Failover
