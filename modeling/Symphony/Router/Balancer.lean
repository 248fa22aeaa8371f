import Mathlib.Data.List.MinMax
import Mathlib.Data.Prod.Lex
import Mathlib.Order.Lattice.Nat
import Symphony.Lib.Runs
import Symphony.Lib.Table
import Symphony.Router.Route
/-!
# Choosing a UDS slot

The part of `balancer.rs` that runs while connections are served. A slot is chosen
by its index and counted by its path: `increment` and `decrement` act on the first
slot with the path they are given. So the counters are those of the connections, and
the choice is the least loaded slot, exactly when no two slots share a path.
-/

namespace Symphony.Router

open Lib (Machine Table)

/-- What a slot is judged by: the refusal time of each health cell, the active count of
each slot and the sampled utilisation of each worker thread. -/
structure Gauges where
  refused_at : SlotHealth → Nat
  active : Nat → Nat
  util_permille : ThreadCpu → Nat

structure AffinityEntry where
  socket_idx : Nat
  last_seen_ns : Nat
  deriving DecidableEq, Repr

abbrev AffinityEntries := Table IpAddr AffinityEntry

/-- `SlotHealth::mark_refused`. -/
def Gauges.mark_refused (g : Gauges) (cell : SlotHealth) (now_ns : Nat) : Gauges :=
  { g with refused_at := Function.update g.refused_at cell (max now_ns 1) }

namespace UdsBalancer

variable {b : UdsBalancer} {g : Gauges}

def slot_count (b : UdsBalancer) : Nat := b.sockets.length

/-! ## The choice -/

def health (b : UdsBalancer) (idx : Nat) : Option SlotHealth := b.sockets[idx]?.bind (·.health)

/-- `UdsSlot::refusing`. -/
def refusing (b : UdsBalancer) (g : Gauges) (idx : Nat) : Bool := (b.health idx).any (g.refused_at · ≠ 0)

def cpu_score (b : UdsBalancer) (g : Gauges) (idx : Nat) : Nat :=
  (b.sockets[idx]?.bind (·.cpu)).elim 0 g.util_permille

/-- `UdsSlot::score`. -/
def score (b : UdsBalancer) (g : Gauges) (idx : Nat) : Nat := g.active idx * 1000 + b.cpu_score g idx

/-- The key slots are compared by: refusing slots last. -/
def key (b : UdsBalancer) (g : Gauges) (idx : Nat) : Bool ×ₗ Nat := toLex (b.refusing g idx, b.score g idx)

-- `min_by_key` and `argmin` both keep the first of equal minima
def best_score_idx (b : UdsBalancer) (g : Gauges) : Nat := ((List.range b.slot_count).argmin (b.key g)).getD 0

def next_untried (b : UdsBalancer) (g : Gauges) (tried : List Bool) : Option Nat :=
  ((List.range b.slot_count).filter fun i => !tried[i]?.getD false).argmin (b.key g)

/-- The index is stored as a `u32`. -/
def bind_affinity (b : UdsBalancer) (entries : AffinityEntries) (ip : IpAddr) (idx now : Nat) : AffinityEntries :=
  if b.affinity.isSome then entries.insert ip ⟨idx % 2 ^ 32, now⟩ else entries

def rebind_affinity (b : UdsBalancer) (entries : AffinityEntries) (peer_ip : Option IpAddr) (idx now : Nat) :
    AffinityEntries :=
  match b.affinity, peer_ip with
  | some _, some ip => b.bind_affinity entries ip idx now
  | _, _ => entries

def pick (b : UdsBalancer) (g : Gauges) (entries : AffinityEntries) (peer_ip : Option IpAddr) (now : Nat) :
    Option Nat × AffinityEntries :=
  if b.sockets.isEmpty then (none, entries)
  else match b.affinity, peer_ip with
    | some ttl_ns, some ip =>
      let fresh := (some (b.best_score_idx g), b.bind_affinity entries ip (b.best_score_idx g) now)
      match entries.lookup ip with
      | some entry =>
        if entry.socket_idx < b.slot_count ∧ now - entry.last_seen_ns < ttl_ns ∧
            b.refusing g entry.socket_idx = false then
          (some entry.socket_idx, entries.insert ip { entry with last_seen_ns := now })
        else fresh
      | none => fresh
    | _, _ => (some (b.best_score_idx g), entries)

theorem key_le_iff {i j : Nat} :
    b.key g i ≤ b.key g j ↔
      b.refusing g i ≤ b.refusing g j ∧ (b.refusing g i = b.refusing g j → b.score g i ≤ b.score g j) :=
  Prod.Lex.toLex_le_toLex'

theorem best_score_idx_spec (hb : b.sockets ≠ []) :
    b.best_score_idx g < b.slot_count ∧ ∀ j < b.slot_count, b.key g (b.best_score_idx g) ≤ b.key g j := by
  unfold best_score_idx
  cases hmin : (List.range b.slot_count).argmin (b.key g) with
  | none =>
    rw [List.argmin_eq_none, List.range_eq_nil, slot_count, List.length_eq_zero_iff] at hmin
    exact absurd hmin hb
  | some i =>
    refine ⟨List.mem_range.mp (List.argmin_mem hmin), ?_⟩
    intro j hj
    exact List.le_of_mem_argmin (List.mem_range.mpr hj) hmin

theorem next_untried_some {tried : List Bool} {i : Nat} (h : b.next_untried g tried = some i) :
    i < b.slot_count ∧ tried[i]?.getD false = false ∧
      ∀ j < b.slot_count, tried[j]?.getD false = false → b.key g i ≤ b.key g j := by
  have hmem := List.argmin_mem h
  rw [List.mem_filter, List.mem_range, Bool.not_eq_true'] at hmem
  refine ⟨hmem.1, hmem.2, ?_⟩
  intro j hj huntried
  refine List.le_of_mem_argmin (List.mem_filter.mpr ⟨List.mem_range.mpr hj, ?_⟩) h
  rw [huntried, Bool.not_false]

theorem next_untried_none {tried : List Bool} (h : b.next_untried g tried = none) {j : Nat} (hj : j < b.slot_count) :
    tried[j]?.getD false = true := by
  rw [next_untried, List.argmin_eq_none, List.filter_eq_nil_iff] at h
  simpa using h j (List.mem_range.mpr hj)

theorem refusing_of_key_le {i j : Nat} (h : b.key g i ≤ b.key g j) (hi : b.refusing g i = true) :
    b.refusing g j = true := by
  have hle := (key_le_iff.mp h).1
  rw [hi] at hle
  exact top_le_iff.mp hle

/-- The first choice: a slot that exists, refusing only if all are, and the one a sticky
client is now bound to. -/
theorem pick_spec (hb : b.sockets ≠ []) (hslots : b.slot_count ≤ 2 ^ 32) (entries : AffinityEntries)
    (peer_ip : Option IpAddr) (now : Nat) :
    ∃ idx < b.slot_count, (b.pick g entries peer_ip now).1 = some idx ∧
      (b.refusing g idx = true → ∀ j < b.slot_count, b.refusing g j = true) ∧
      ∀ ip, b.affinity.isSome → peer_ip = some ip →
        ((b.pick g entries peer_ip now).2.lookup ip).map (·.socket_idx) = some idx := by
  obtain ⟨hlt, hmin⟩ := best_score_idx_spec (g := g) hb
  have hrefusing : b.refusing g (b.best_score_idx g) = true → ∀ j < b.slot_count, b.refusing g j = true :=
    fun hbest j hj => refusing_of_key_le (hmin j hj) hbest
  have hempty : b.sockets.isEmpty = false := by simpa using hb
  have hbound : ∀ ip, b.affinity.isSome = true →
      ((b.bind_affinity entries ip (b.best_score_idx g) now).lookup ip).map (·.socket_idx) =
        some (b.best_score_idx g) := by
    intro ip haffinity
    rw [bind_affinity, if_pos haffinity, AList.lookup_insert, Option.map_some,
      Nat.mod_eq_of_lt (hlt.trans_le hslots)]
  unfold pick
  rw [hempty, if_neg Bool.false_ne_true]
  split
  · next ttl ip haffinity =>
    have hon : b.affinity.isSome = true := by rw [haffinity, Option.isSome_some]
    dsimp only
    split
    · next entry _ =>
      split
      · next hhonoured =>
        refine ⟨entry.socket_idx, hhonoured.1, rfl, ?_, ?_⟩
        · intro hself
          rw [hhonoured.2.2] at hself
          cases hself
        · rintro _ - ⟨⟩
          rw [AList.lookup_insert, Option.map_some]
      · refine ⟨_, hlt, rfl, hrefusing, ?_⟩
        rintro _ - ⟨⟩
        exact hbound ip hon
    · refine ⟨_, hlt, rfl, hrefusing, ?_⟩
      rintro _ - ⟨⟩
      exact hbound ip hon
  · next hsticky =>
    refine ⟨_, hlt, rfl, hrefusing, ?_⟩
    intro ip hon hip
    obtain ⟨ttl, haffinity⟩ := Option.isSome_iff_exists.mp hon
    exact (hsticky ttl ip haffinity hip).elim

theorem rebind_affinity_lookup (haffinity : b.affinity.isSome) {idx : Nat} (hidx : idx < 2 ^ 32)
    (entries : AffinityEntries) (ip : IpAddr) (now : Nat) :
    ((b.rebind_affinity entries (some ip) idx now).lookup ip).map (·.socket_idx) = some idx := by
  obtain ⟨ttl, httl⟩ := Option.isSome_iff_exists.mp haffinity
  simp only [rebind_affinity, bind_affinity, httl, Option.isSome_some, if_pos]
  rw [AList.lookup_insert, Option.map_some, Nat.mod_eq_of_lt hidx]

/-! ## The counters -/

/-- The slot that a path is counted on. -/
def counted (b : UdsBalancer) (path : Bytes) : Option Nat := b.sockets.findIdx? (·.path = path)

/-- `fetch_add` wraps at the width of the counter. -/
def increment (b : UdsBalancer) (g : Gauges) (path : Bytes) : Gauges :=
  match b.counted path with
  | some i => { g with active := Function.update g.active i ((g.active i + 1) % 2 ^ 32) }
  | none => g

def decrement (b : UdsBalancer) (g : Gauges) (path : Bytes) : Gauges :=
  match b.counted path with
  | some i => { g with active := Function.update g.active i (g.active i - 1) }
  | none => g

/-- With distinct paths a slot is the one its path is counted on. -/
theorem counted_eq (hpaths : (b.sockets.map (·.path)).Nodup) {i : Nat} {slot : UdsSlot}
    (hi : b.sockets[i]? = some slot) : b.counted slot.path = some i := by
  obtain ⟨hlt, hget⟩ := List.getElem?_eq_some_iff.mp hi
  rw [counted, List.findIdx?_eq_some_iff_getElem]
  refine ⟨hlt, by rw [hget, decide_eq_true rfl], ?_⟩
  intro j hj hsame
  have hpath : (b.sockets.map (·.path))[j]? = (b.sockets.map (·.path))[i]? := by
    rw [List.getElem?_map, List.getElem?_map, hi, List.getElem?_eq_getElem (hj.trans hlt)]
    simpa using hsame
  have hlen : j < (b.sockets.map (·.path)).length := by
    rw [List.length_map]
    exact hj.trans hlt
  have hji : j = i := (List.getElem?_inj hlen hpaths).mp hpath
  omega

/-! ## Serving connections -/

/-- A balancer at work; `live` has the slot index of each live connection. -/
structure Serving where
  gauges : Gauges
  entries : AffinityEntries
  live : List Nat

inductive Event where
  | pick (peer_ip : Option IpAddr) (now : Nat)
  -- a connect through a slot succeeded: `BalancerGuard::new`
  | opened (idx : Nat)
  -- a connection opened through a slot ended: its guard is dropped
  | closed (idx : Nat)
  -- the threads' utilisation was sampled
  | sampled (util_permille : ThreadCpu → Nat)

/-- Connections opened through a slot that does not exist, or ended without being live,
do not happen. -/
def serve (b : UdsBalancer) (s : Serving) : Event → Option Nat × Serving
  | .pick peer_ip now =>
    let (idx, entries) := b.pick s.gauges s.entries peer_ip now
    (idx, { s with entries := entries })
  | .opened idx =>
    match b.sockets[idx]? with
    | some slot => (none, { s with gauges := b.increment s.gauges slot.path, live := idx :: s.live })
    | none => (none, s)
  | .closed idx =>
    match b.sockets[idx]? with
    | some slot =>
      if idx ∈ s.live then
        (none, { s with gauges := b.decrement s.gauges slot.path, live := s.live.erase idx })
      else (none, s)
    | none => (none, s)
  | .sampled util_permille => (none, { s with gauges := { s.gauges with util_permille := util_permille } })

def serving (b : UdsBalancer) : Machine Serving Event (Option Nat) := ⟨b.serve, fun _ => none⟩

/-- `UdsBalancer::new`: nothing is active and no client is bound. -/
def opening (refused_at : SlotHealth → Nat) (util_permille : ThreadCpu → Nat) : Serving :=
  ⟨⟨refused_at, fun _ => 0, util_permille⟩, ∅, []⟩

/-- No slot takes as many connections at once as a `u32` can count. -/
def Room (s : Serving) : Event → Prop
  | .opened idx => s.live.count idx < U32_MAX
  | _ => True

instance (s : Serving) : ∀ e, Decidable (Room s e)
  | .opened idx => inferInstanceAs (Decidable (s.live.count idx < U32_MAX))
  | .pick .. | .closed _ | .sampled _ => .isTrue trivial

/-- Each slot's counter is the number of live connections opened through its index. -/
def Counts (b : UdsBalancer) (s : Serving) : Prop := ∀ i < b.slot_count, s.gauges.active i = s.live.count i

/-- Where the CPU scores are equal, a slot is picked, and one with the fewest live
connections. -/
def PicksFewest (b : UdsBalancer) (s : Serving) : Prop :=
  (∀ i < b.slot_count, ∀ j < b.slot_count, b.cpu_score s.gauges i = b.cpu_score s.gauges j) →
    b.sockets ≠ [] → ∀ peer_ip now, ∃ i < b.slot_count, (b.pick s.gauges s.entries peer_ip now).1 = some i ∧
      ∀ j < b.slot_count, s.live.count i ≤ s.live.count j

theorem increment_counted {i : Nat} {path : Bytes} (h : b.counted path = some i) (j : Nat) :
    (b.increment g path).active j = if j = i then (g.active i + 1) % 2 ^ 32 else g.active j := by
  rw [increment, h]
  exact Function.update_apply ..

theorem decrement_counted {i : Nat} {path : Bytes} (h : b.counted path = some i) (j : Nat) :
    (b.decrement g path).active j = if j = i then g.active i - 1 else g.active j := by
  rw [decrement, h]
  exact Function.update_apply ..

theorem slot_of_lt {i : Nat} (hi : i < b.slot_count) : ∃ slot, b.sockets[i]? = some slot :=
  ⟨_, List.getElem?_eq_getElem hi⟩

theorem lt_of_slot {i : Nat} {slot : UdsSlot} (hi : b.sockets[i]? = some slot) : i < b.slot_count :=
  (List.getElem?_eq_some_iff.mp hi).1

theorem serve_counts (hpaths : (b.sockets.map (·.path)).Nodup) {s : Serving} {e : Event} (h : Counts b s)
    (hroom : Room s e) : Counts b (b.serve s e).2 := by
  cases e with
  | pick peer_ip now => exact h
  | sampled util_permille => exact h
  | opened idx =>
    simp only [serve]
    split
    · next slot hslot =>
      intro j hj
      have hactive := h idx (lt_of_slot hslot)
      have hfits : s.live.count idx < U32_MAX := hroom
      show (b.increment s.gauges slot.path).active j = (idx :: s.live).count j
      rw [increment_counted (counted_eq hpaths hslot), List.count_cons]
      by_cases hji : j = idx
      · subst hji
        rw [if_pos rfl, if_pos (beq_self_eq_true j), hactive]
        exact Nat.mod_eq_of_lt (by unfold U32_MAX at hfits; omega)
      · rw [if_neg hji, h j hj, if_neg (by simpa using Ne.symm hji), Nat.add_zero]
    · exact h
  | closed idx =>
    simp only [serve]
    split
    · next slot hslot =>
      split
      · intro j hj
        show (b.decrement s.gauges slot.path).active j = (s.live.erase idx).count j
        rw [decrement_counted (counted_eq hpaths hslot), List.count_erase]
        by_cases hji : j = idx
        · subst hji
          rw [if_pos rfl, if_pos (beq_self_eq_true j), h j hj]
        · rw [if_neg hji, h j hj, if_neg (by simpa using Ne.symm hji), Nat.sub_zero]
      · exact h
    · exact h

/-- Counters that count the live connections make the choice one of the fewest. -/
theorem Counts.picks_fewest {s : Serving} (h : Counts b s) (haffinity : b.affinity = none)
    (hhealth : ∀ slot ∈ b.sockets, slot.health = none) : PicksFewest b s := by
  intro hcpu hb peer_ip now
  obtain ⟨hlt, hmin⟩ := best_score_idx_spec (g := s.gauges) hb
  refine ⟨b.best_score_idx s.gauges, hlt, ?_, ?_⟩
  · simp [pick, haffinity, hb]
  · intro j hj
    have hhealthy : ∀ i < b.slot_count, b.refusing s.gauges i = false := by
      intro i hi
      obtain ⟨slot, hslot⟩ := slot_of_lt hi
      simp [refusing, health, hslot, hhealth slot (List.mem_of_getElem? hslot)]
    have hscore := (key_le_iff.mp (hmin j hj)).2 (by rw [hhealthy _ hlt, hhealthy j hj])
    rw [score, score, h _ hlt, h j hj, hcpu _ hlt j hj] at hscore
    omega

/-- A slot behind another with its path is never counted. -/
theorem shadowed_uncounted (hpaths : ¬ (b.sockets.map (·.path)).Nodup) :
    ∃ i slot k, b.sockets[i]? = some slot ∧ b.counted slot.path = some k ∧ k ≠ i := by
  rw [List.nodup_iff_getElem?_ne_getElem?] at hpaths
  push Not at hpaths
  obtain ⟨i, j, hij, hj, hsame⟩ := hpaths
  rw [List.length_map] at hj
  obtain ⟨slot, hslot⟩ := slot_of_lt hj
  rw [List.getElem?_map, List.getElem?_map, hslot, Option.map_some, Option.map_eq_some_iff] at hsame
  obtain ⟨front, hfront, hpath⟩ := hsame
  cases hcounted : b.counted slot.path with
  | none =>
    rw [counted, List.findIdx?_eq_none_iff] at hcounted
    simpa using hcounted slot (List.mem_of_getElem? hslot)
  | some k =>
    refine ⟨j, slot, k, hslot, hcounted, ?_⟩
    obtain ⟨_, -, hfirst⟩ := List.findIdx?_eq_some_iff_getElem.mp hcounted
    rintro rfl
    have hnot := hfirst i hij
    rw [(List.getElem?_eq_some_iff.mp hfront).2] at hnot
    simp [hpath] at hnot

/-- Without affinity and health, the balancer counts what it serves and picks the least
loaded slot, along every run, exactly when no two slots share a path. -/
theorem least_connections_iff (haffinity : b.affinity = none) (hhealth : ∀ slot ∈ b.sockets, slot.health = none)
    (refused_at : SlotHealth → Nat) (util_permille : ThreadCpu → Nat) :
    (∀ s clock log, b.serving.RunWhere Room (opening refused_at util_permille) s clock log →
        Counts b s ∧ PicksFewest b s) ↔
      (b.sockets.map (·.path)).Nodup := by
  constructor
  · intro hall
    by_contra hpaths
    obtain ⟨i, slot, k, hslot, hcounted, hki⟩ := shadowed_uncounted hpaths
    have hnil : b.serving.RunWhere Room (opening refused_at util_permille) _ 0 [] := .nil
    have hrun := hnil.step (.opened i) (by simp [Room, opening, U32_MAX]) le_rfl
    have hcounts := (hall _ _ _ hrun).1 i (lt_of_slot hslot)
    simp only [serving, serve, hslot, increment_counted hcounted, if_neg (Ne.symm hki)] at hcounts
    simp [opening] at hcounts
  · intro hpaths s clock log hrun
    have hcounts : Counts b s := by
      refine hrun.inv (fun s _ _ => Counts b s) (fun i _ => rfl) ?_
      intro s clock log e h hroom _
      exact serve_counts hpaths h hroom
    exact ⟨hcounts, hcounts.picks_fewest haffinity hhealth⟩

/-- Two workers behind their own sockets. -/
def workers : UdsBalancer := ⟨[⟨bytes "/run/a", none, none⟩, ⟨bytes "/run/b", none, none⟩], none, 0⟩

theorem least_connections_workers :
    workers.affinity = none ∧ (∀ slot ∈ workers.sockets, slot.health = none) ∧
      ∀ s clock log, workers.serving.RunWhere Room (opening (fun _ => 0) fun _ => 0) s clock log →
        Counts workers s ∧ PicksFewest workers s :=
  ⟨rfl, by decide, (least_connections_iff rfl (by decide) _ _).mpr (by decide)⟩

/-- One socket configured twice. -/
def twins : UdsBalancer := ⟨[⟨bytes "/run/a", none, none⟩, ⟨bytes "/run/a", none, none⟩], none, 0⟩

/-- Connections through the second twin are counted on the first, so it is picked again
although it serves more. -/
theorem twins_miscounted :
    ∃ s clock log, twins.serving.RunWhere Room (opening (fun _ => 0) fun _ => 0) s clock log ∧
      log.filterMap Prod.snd = [0, 1, 1] ∧ s.live = [1, 1, 0] ∧ s.gauges.active 0 = 3 ∧ s.gauges.active 1 = 0 ∧
      (twins.pick s.gauges s.entries none 0).1 = some 1 := by
  have hnil : twins.serving.RunWhere Room (opening (fun _ => 0) fun _ => 0) _ 0 [] := .nil
  have hserved : twins.serving.Admissible Room (opening (fun _ => 0) fun _ => 0) 0
      [.pick none 0, .opened 0, .pick none 0, .opened 1, .pick none 0, .opened 1] := by decide
  obtain ⟨clock, hrun⟩ := hnil.exec hserved
  exact ⟨_, clock, _, hrun, by decide, by decide, by decide, by decide, by decide⟩

end UdsBalancer

end Symphony.Router
