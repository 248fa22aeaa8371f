import Mathlib.Logic.Relation
import Mathlib.Algebra.Order.Ring.Int
import Symphony.Failover.Policy
/-!
# The spill-over rule

`assess`: whether the share of spilled connections rises, is held or decays, and to
which peer connections may go. Loads and thresholds are whole permille, at most 1000,
so their doubles and sums stay far below the bounds of a `u32`.
-/

namespace Symphony.Failover

/-! ## The rule -/

inductive Trend where
  | Rise
  | Hold
  | Decay
  deriving DecidableEq, Repr

structure PeerView where
  load : Option Nat
  report_until_ms : Nat
  cooling : Bool
  rtt : Option Duration
  deriving DecidableEq, Repr

/-- The filters of `assess`: a current report, no cooldown, and close enough. -/
def PeerView.usable (policy : SpillPolicy) (now_ms : Nat) (p : PeerView) : Bool :=
  now_ms < p.report_until_ms && !p.cooling && policy.max_peer_rtt.all fun max => p.rtt.any (· ≤ max)

/-- `min_by_key` of the load: the first of the least loaded. -/
def least_loaded : List (Nat × Nat × Nat) → Option (Nat × Nat × Nat)
  | [] => none
  | c :: rest =>
    match least_loaded rest with
    | none => some c
    | some best => some (if c.2.1 ≤ best.2.1 then c else best)

/-- The peers connections could go to: index, load, and the end of the report. -/
def spill_candidates (policy : SpillPolicy) (peers : List PeerView) (now_ms : Nat) : List (Nat × Nat × Nat) :=
  (peers.zipIdx.filter fun p => p.1.usable policy now_ms).filterMap fun p =>
    p.1.load.map fun load => (p.2, load, p.1.report_until_ms)

/-- `reading` is `(permille, ms it is current until)`. -/
def assess (policy : SpillPolicy) (reading : Option (Nat × Nat)) (peers : List PeerView) (now_ms : Nat) :
    Trend × Option (Nat × Nat) :=
  match reading.filter fun r => now_ms < r.2 with
  | none => (.Decay, none)
  | some (load, local_until_ms) =>
    match least_loaded (spill_candidates policy peers now_ms) with
    | none => (.Decay, none)
    | some (target, peer_load, report_until_ms) =>
      let until_ms := min local_until_ms report_until_ms
      let margin := policy.margin
      if load ≥ policy.high_water ∧ peer_load + margin ≤ load then (.Rise, some (target, until_ms))
      -- Doubled, so an odd margin's half is not rounded down.
      else if 2 * load + margin ≥ 2 * policy.high_water ∧ 2 * peer_load + margin ≤ 2 * load then
        (.Hold, some (target, until_ms))
      else (.Decay, none)

/-! ## What it rests on -/

theorem least_loaded_mem {l : List (Nat × Nat × Nat)} {c : Nat × Nat × Nat} (h : least_loaded l = some c) : c ∈ l := by
  induction l generalizing c with
  | nil => cases h
  | cons d rest ih =>
    simp only [least_loaded] at h
    split at h
    · cases h
      exact List.mem_cons_self
    · next best hbest =>
      cases h
      split
      · exact List.mem_cons_self
      · exact List.mem_cons_of_mem _ (ih hbest)

theorem mem_spill_candidates {policy : SpillPolicy} {peers : List PeerView} {now_ms i load until_ms : Nat}
    (h : (i, load, until_ms) ∈ spill_candidates policy peers now_ms) :
    ∃ view, peers[i]? = some view ∧ view.usable policy now_ms = true ∧ view.load = some load ∧
      view.report_until_ms = until_ms := by
  obtain ⟨⟨view, j⟩, hmem, heq⟩ := List.mem_filterMap.1 h
  obtain ⟨hidx, husable⟩ := List.mem_filter.1 hmem
  obtain ⟨load', hload, heq⟩ := Option.map_eq_some_iff.1 heq
  obtain ⟨rfl, rfl, rfl⟩ := heq
  exact ⟨view, List.mem_zipIdx_iff_getElem?.1 hidx, husable, hload, rfl⟩

/-- What a target rests on: a current reading of the local load and a current report
of a usable peer, at least half the margin below it. -/
structure Basis (policy : SpillPolicy) (reading : Option (Nat × Nat)) (peers : List PeerView) (now_ms target : Nat)
    (load local_until_ms peer_load : Nat) (view : PeerView) : Prop where
  measured : reading = some (load, local_until_ms)
  current : now_ms < local_until_ms
  seen : peers[target]? = some view
  usable : view.usable policy now_ms = true
  reported : view.load = some peer_load
  below : 2 * peer_load + policy.margin ≤ 2 * load

theorem assess_target {policy : SpillPolicy} {reading : Option (Nat × Nat)} {peers : List PeerView}
    {now_ms target until_ms : Nat} {trend : Trend}
    (h : assess policy reading peers now_ms = (trend, some (target, until_ms))) :
    ∃ load local_until_ms peer_load view,
      Basis policy reading peers now_ms target load local_until_ms peer_load view ∧
        until_ms = min local_until_ms view.report_until_ms := by
  unfold assess at h
  split at h
  · cases h
  · next load local_until_ms hreading =>
    obtain ⟨hreading, hcurrent⟩ := Option.filter_eq_some_iff.1 hreading
    split at h
    · cases h
    · next target' peer_load report_until_ms hbest =>
      obtain ⟨view, hview, husable, hload, hreport⟩ := mem_spill_candidates (least_loaded_mem hbest)
      have hcurrent : now_ms < local_until_ms := by simpa using hcurrent
      subst hreport
      dsimp only at h
      split at h
      · next hrise =>
        cases h
        exact ⟨load, local_until_ms, peer_load, view, ⟨hreading, hcurrent, hview, husable, hload, by omega⟩, rfl⟩
      · split at h
        · next hhold =>
          cases h
          exact ⟨load, local_until_ms, peer_load, view, ⟨hreading, hcurrent, hview, husable, hload, hhold.2⟩, rfl⟩
        · cases h

/-! ## Many nodes -/

/-- A node of a route: its policy, its reading of its own load, and its peers with
what it knows of them. -/
structure SpillNode (ι : Type) where
  policy : SpillPolicy
  reading : Option (Nat × Nat)
  peers : List (ι × PeerView)
  now_ms : Nat

section Cluster

variable {ι : Type}

/-- Node `i` names node `j` as the target of its spilled connections. -/
def SpillsTo (nodes : ι → SpillNode ι) (i j : ι) : Prop :=
  ∃ trend k until_ms view,
    assess (nodes i).policy (nodes i).reading ((nodes i).peers.map (·.2)) (nodes i).now_ms =
      (trend, some (k, until_ms)) ∧ (nodes i).peers[k]? = some (j, view)

/-- Every node knows its own load, and its peers' to within half its margin. -/
structure Close (nodes : ι → SpillNode ι) (load : ι → Nat) : Prop where
  own : ∀ i l until_ms, (nodes i).reading = some (l, until_ms) → l = load i
  peer : ∀ i j view l, (j, view) ∈ (nodes i).peers → view.load = some l →
    2 * |(l : ℤ) - load j| < (nodes i).policy.margin

/-- Connections are only spilled to a less loaded node. -/
theorem spills_to_less_loaded {nodes : ι → SpillNode ι} {load : ι → Nat} (hclose : Close nodes load) {i j : ι}
    (h : SpillsTo nodes i j) : load j < load i := by
  obtain ⟨trend, k, until_ms, view, hassess, hk⟩ := h
  obtain ⟨l, local_until_ms, r, view', hb, -⟩ := assess_target hassess
  have hview : view' = view := by
    have hseen := hb.seen
    rw [List.getElem?_map, hk] at hseen
    exact (Option.some.inj hseen).symm
  have hown := hclose.own i l local_until_ms hb.measured
  have hpeer := hclose.peer i j view r (List.mem_of_getElem? hk) (hview ▸ hb.reported)
  have hbelow := hb.below
  -- 2 · load j < 2 · r + margin ≤ 2 · load i
  have hlow := neg_le_of_abs_le (le_refl |(r : ℤ) - load j|)
  omega

theorem spill_path_less_loaded {nodes : ι → SpillNode ι} {load : ι → Nat} (hclose : Close nodes load) {i j : ι}
    (h : Relation.TransGen (SpillsTo nodes) i j) : load j < load i := by
  induction h with
  | single h => exact spills_to_less_loaded hclose h
  | tail _ h ih => exact (spills_to_less_loaded hclose h).trans ih

/-- With any policies, loads and views: while every reading is within half a margin
of the true load, the nodes that spill to each other form no cycle. -/
theorem spill_over_is_acyclic (nodes : ι → SpillNode ι) (load : ι → Nat) (hclose : Close nodes load) (i : ι) :
    ¬ Relation.TransGen (SpillsTo nodes) i i :=
  fun hcycle => lt_irrefl _ (spill_path_less_loaded hclose hcycle)

end Cluster

def three_loads : Fin 3 → Nat
  | 0 => 900
  | 1 => 500
  | 2 => 130

/-- Three nodes, each with the default policy and the other two as peers, whose loads
it reads up to 90 permille off. -/
def three_nodes (i : Fin 3) : SpillNode (Fin 3) :=
  let view (load : Nat) : PeerView := ⟨some load, 10, false, none⟩
  ⟨⟨750, 200, 50, 500, none⟩, some (three_loads i, 10),
    [(0, view 850), (1, view 410), (2, view 220)].filter (·.1 ≠ i), 5⟩

/-- The busy node spills to the idle one, and no node spills in a circle. -/
theorem spill_over_is_acyclic_three_nodes :
    SpillsTo three_nodes 0 2 ∧ ∀ i, ¬ Relation.TransGen (SpillsTo three_nodes) i i := by
  have hspill : SpillsTo three_nodes 0 2 := ⟨.Rise, 1, 10, ⟨some 220, 10, false, none⟩, by decide +kernel, rfl⟩
  have hread : ∀ i, ∀ p ∈ (three_nodes i).peers,
      p.2.load.all fun l => 2 * |(l : ℤ) - three_loads p.1| < (three_nodes i).policy.margin := by decide +kernel
  refine ⟨hspill, spill_over_is_acyclic three_nodes three_loads ⟨?_, ?_⟩⟩
  · intro i l until_ms h
    cases h
    rfl
  · intro i j view l hmem hl
    simpa [hl] using hread i (j, view) hmem

end Symphony.Failover
