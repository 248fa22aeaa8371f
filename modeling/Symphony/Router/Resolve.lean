import Symphony.Router.Table
/-!
# Which spec answers a name

A table is seen as a partial map from spec names to outcomes (`status`): a name is
not configured, or its spec was rejected, or it has a route. The build writes each
name once, from the spec that decides it (`built_status`). A lookup goes through at
most three names, the most specific first (`names`), and the first configured one
answers (`resolve_with_status`).
-/

namespace Symphony.Router

open Lib (Table loop before lastIdx? before_inv loop_inv written_before written_once lastIdx?_concat lastIdx?_eq_some
  lastIdx?_eq_none)

/-! ## Wildcards -/

/-- `s` is one non-empty label without a dot, a dot, and `X`. -/
def Covers (X s : Bytes) : Prop := ∃ label, label ≠ [] ∧ 46 ∉ label ∧ s = label ++ 46 :: X

/-- What follows the first label. -/
def parent (s : Bytes) : Option Bytes :=
  match s.takeWhile (· != 46), s.dropWhile (· != 46) with
  | _ :: _, _ :: X => some X
  | _, _ => none

theorem covers_iff_parent {X s : Bytes} : Covers X s ↔ parent s = some X := by
  constructor
  · rintro ⟨label, hne, hdot, rfl⟩
    have hall : ∀ b ∈ label, (b != 46) = true := by
      intro b hb
      simpa using fun e : b = 46 => hdot (e ▸ hb)
    obtain ⟨b, l, rfl⟩ := List.exists_cons_of_ne_nil hne
    unfold parent
    rw [List.takeWhile_append_of_pos hall, List.dropWhile_append_of_pos hall]
    rfl
  · intro h
    unfold parent at h
    split at h
    · rename_i b l c Y ht hd
      cases h
      have hc : c = 46 := by
        have := List.head?_dropWhile_not (· != (46 : UInt8)) s
        rw [hd] at this
        simpa using this
      refine ⟨b :: l, by simp, ?_, ?_⟩
      · intro hm
        have := List.mem_takeWhile_imp (ht ▸ hm)
        simp at this
      · rw [← hc, ← hd, ← ht, List.takeWhile_append_dropWhile]
    · cases h

instance (X s : Bytes) : Decidable (Covers X s) := decidable_of_iff _ covers_iff_parent.symm

theorem wildcard_suffix_matches_iff {s X : Bytes} : wildcard_suffix_matches s X = true ↔ Covers X s := by
  unfold wildcard_suffix_matches Covers
  constructor
  · intro h
    split at h
    · cases h
    · rename_i hlen
      simp only [Bool.and_eq_true, beq_iff_eq, Bool.not_eq_true', List.contains_eq_mem, decide_eq_false_iff_not] at h
      obtain ⟨⟨hdot, hX⟩, hlabel⟩ := h
      refine ⟨s.take (s.length - X.length - 1), ?_, hlabel, ?_⟩
      · intro he
        have := congrArg List.length he
        rw [List.length_take, List.length_nil] at this
        omega
      · obtain ⟨hd, hd'⟩ := List.getElem?_eq_some_iff.1 hdot
        conv => lhs; rw [← List.take_append_drop (s.length - X.length - 1) s, List.drop_eq_getElem_cons hd, hd', hX]
  · rintro ⟨label, hne, hdot, rfl⟩
    have hpos : 0 < label.length := List.length_pos_iff.2 hne
    have hpos' : (label ++ 46 :: X).length - X.length - 1 = label.length := by
      simp only [List.length_append, List.length_cons]
      omega
    rw [if_neg (by simp only [List.length_append, List.length_cons]; omega)]
    dsimp only
    rw [hpos']
    simp [hdot]

/-! ## A table as a map from names -/

namespace RouteTable

variable {D : Type}

/-- The spec of this name was rejected, and nothing was carried forward. -/
def tombstoned (t : RouteTable D) (k : Bytes) : Bool :=
  match wildcard_suffix k with
  | some X => X ∈ t.dropped_wildcard
  | none => k ∈ t.dropped_exact

/-- `none`: the name is not configured; `some none`: its spec was rejected. -/
def status (t : RouteTable D) (k : Bytes) : Option (Option Route) :=
  match t.get_for_spec_sni k with
  | some r => some (some r)
  | none => if t.tombstoned k then some none else none

variable (t : RouteTable D)

theorem status_eq (k : Bytes) :
    t.status k = ((t.get_for_spec_sni k).map some).or (if t.tombstoned k then some none else none) := by
  unfold status
  cases t.get_for_spec_sni k <;> rfl

theorem get_for_spec_sni_eq (k : Bytes) : t.get_for_spec_sni k = (t.status k).join := by
  rw [status_eq]
  cases t.get_for_spec_sni k with
  | some r => rfl
  | none => split <;> rfl

/-- Names stand where their form says, each once. -/
structure Keyed (t : RouteTable D) : Prop where
  exact_plain : ∀ k r, t.exact.lookup k = some r → k ≠ [] ∧ wildcard_suffix k = none
  dropped_plain : ∀ k ∈ t.dropped_exact, wildcard_suffix k = none
  wildcard_once : (t.wildcard.map (·.1)).Nodup

/-- The names whose specs may answer for `sni`, the most specific first. -/
def names (sni : Option Bytes) (allow_default : Bool) : List Bytes :=
  (match sni with
    | none => []
    | some s => (if (wildcard_suffix s).isSome then [] else [s]) ++ ((parent s).map fun X => 42 :: 46 :: X).toList) ++
    if allow_default then [[]] else []

theorem status_default : (t.status []).join = t.default := by
  unfold status get_for_spec_sni
  rw [wildcard_suffix_nil]
  cases t.default with
  | some r => rfl
  | none =>
    simp only [if_true]
    split <;> rfl

theorem default_if_status (allow_default : Bool) :
    t.default_if allow_default = ((if allow_default then [[]] else []).findSome? t.status).join := by
  cases allow_default with
  | false => rfl
  | true =>
    rw [default_if, if_pos rfl, if_pos rfl, ← status_default]
    cases h : t.status [] <;> simp [h]

/-- Past the exact names, the lookup looks at the name `*.parent`, then at the default. -/
theorem resolve_broader_status (s : Bytes) (allow_default : Bool) :
    t.resolve_broader s allow_default = ((((parent s).map fun X => 42 :: 46 :: X).toList ++
      if allow_default then [[]] else []).findSome? t.status).join := by
  have hm (X : Bytes) : wildcard_suffix_matches s X = decide (parent s = some X) := by
    rw [Bool.eq_iff_iff, wildcard_suffix_matches_iff, covers_iff_parent, decide_eq_true_iff]
  unfold resolve_broader
  rw [default_if_status, List.findSome?_append]
  simp only [hm]
  cases hp : parent s with
  | none =>
    have hf : t.wildcard.find? (fun e => decide (none = some e.1)) = none := by simp
    rw [hf]
    simp
  | some X =>
    have hsym : (fun e : Bytes × Route => decide (some X = some e.1)) = fun e => decide (e.1 = X) := by
      funext e
      simp [eq_comm]
    have hstat : t.status (42 :: 46 :: X) = (((t.wildcard.find? fun e => e.1 = X).map (·.2)).map some).or
        (if X ∈ t.dropped_wildcard then some none else none) := by
      rw [status_eq]
      simp only [get_for_spec_sni, tombstoned, wildcard_suffix, decide_eq_true_eq]
    have hany : (t.dropped_wildcard.any fun Y => decide (some X = some Y)) = decide (X ∈ t.dropped_wildcard) := by
      rw [Bool.eq_iff_iff, List.any_eq_true, decide_eq_true_iff]
      simp
    rw [hsym, hany]
    cases hf : t.wildcard.find? (fun e => decide (e.1 = X)) with
    | some e => simp [hstat, hf]
    | none => by_cases hd : X ∈ t.dropped_wildcard <;> simp [hstat, hf, hd]

/-- The first configured name answers, with nothing if its spec was rejected. -/
theorem resolve_with_status {t : RouteTable D} (ht : t.Keyed) {sni : Option Bytes} (hs : sni ≠ some [])
    (allow_default : Bool) :
    t.resolve_with sni allow_default = ((names sni allow_default).findSome? t.status).join := by
  cases sni with
  | none => exact default_if_status t allow_default
  | some s =>
    have hne : s ≠ [] := fun e => hs (by rw [e])
    unfold resolve_with names
    dsimp only
    rw [resolve_broader_status, List.append_assoc]
    cases hw : wildcard_suffix s with
    | some X =>
      -- no exact entry, live or dropped, has the form of a wildcard
      have h1 : t.exact.lookup s = none := by
        cases h : t.exact.lookup s with
        | none => rfl
        | some r =>
          have := (ht.exact_plain s r h).2
          rw [hw] at this
          cases this
      have h2 : s ∉ t.dropped_exact := by
        intro h
        have := ht.dropped_plain s h
        rw [hw] at this
        cases this
      rw [h1, if_neg h2]
      rfl
    | none =>
      have hstat : t.status s = ((t.exact.lookup s).map some).or
          (if s ∈ t.dropped_exact then some none else none) := by
        rw [status_eq]
        simp only [get_for_spec_sni, tombstoned, hw, if_neg hne, decide_eq_true_eq]
      cases he : t.exact.lookup s with
      | some r => simp [hstat, he]
      | none => by_cases hd : s ∈ t.dropped_exact <;> simp [hstat, he, hd]

/-- The installed routes are those found under their names. -/
theorem mem_routes {t : RouteTable D} (ht : t.Keyed) {k : Bytes} {r : Route} :
    (k, r) ∈ t.routes ↔ t.get_for_spec_sni k = some r := by
  have hexact : (k, r) ∈ t.exact.entries.map (fun e => (e.1, e.2)) ↔ t.exact.lookup k = some r := by
    rw [← Option.mem_def, AList.mem_lookup_iff]
    constructor
    · intro h
      obtain ⟨⟨k', r'⟩, hm, he⟩ := List.mem_map.1 h
      cases he
      exact hm
    · exact fun h => List.mem_map.2 ⟨_, h, rfl⟩
  unfold routes
  rw [List.mem_append, List.mem_append, hexact]
  unfold get_for_spec_sni
  cases hw : wildcard_suffix k with
  | some X =>
    obtain rfl := wildcard_suffix_eq_some.1 hw
    have hno : t.exact.lookup (42 :: 46 :: X) ≠ some r := by
      intro h
      have := (ht.exact_plain _ r h).2
      rw [hw] at this
      cases this
    have hfind : (t.wildcard.find? fun e => e.1 = X).map (·.2) = some r ↔ (X, r) ∈ t.wildcard := by
      constructor
      · intro h
        obtain ⟨⟨Y, r'⟩, hf, rfl⟩ := Option.map_eq_some_iff.1 h
        have hY : Y = X := by simpa using List.find?_some hf
        exact hY ▸ List.mem_of_find?_eq_some hf
      · intro h
        cases hf : t.wildcard.find? fun e => e.1 = X with
        | none => simpa using List.find?_eq_none.1 hf _ h
        | some e =>
          have he : e.1 = X := by simpa using List.find?_some hf
          rw [List.inj_on_of_nodup_map ht.wildcard_once (List.mem_of_find?_eq_some hf) h he]
          rfl
    simp only [hfind]
    simp [hno]
  | none =>
    have hnw : (k, r) ∉ t.wildcard.map fun e => (42 :: 46 :: e.1, e.2) := by
      intro h
      obtain ⟨e, -, he⟩ := List.mem_map.1 h
      obtain ⟨rfl, -⟩ := Prod.mk.inj he
      cases hw
    by_cases hk : k = []
    · subst hk
      have hno : t.exact.lookup [] ≠ some r := fun h => (ht.exact_plain _ r h).1 rfl
      simp [hno, hnw, Option.mem_toList]
    · simp [hk, hnw]

end RouteTable

/-! ## What one spec does to the map -/

section Record

variable {D : Type} {b : Builder D} {sni : Bytes}

theorem tombstone_live (b : Builder D) (sni k : Bytes) :
    (b.tombstone sni).get_for_spec_sni k = b.get_for_spec_sni k := by
  unfold Builder.tombstone
  split <;> rfl

theorem tombstone_buried (b : Builder D) (sni k : Bytes) :
    (b.tombstone sni).tombstoned k = (decide (k = sni) || b.tombstoned k) := by
  unfold Builder.tombstone
  rw [Bool.eq_iff_iff, Bool.or_eq_true, decide_eq_true_iff]
  cases hs : wildcard_suffix sni with
  | some X =>
    obtain rfl := wildcard_suffix_eq_some.1 hs
    unfold RouteTable.tombstoned
    cases hk : wildcard_suffix k with
    | some Y =>
      obtain rfl := wildcard_suffix_eq_some.1 hk
      simp [or_comm]
    | none =>
      have hne : k ≠ 42 :: 46 :: X := by
        rintro rfl
        cases hk
      simp [hne]
  | none =>
    unfold RouteTable.tombstoned
    cases hk : wildcard_suffix k with
    | some Y =>
      have hne : k ≠ sni := by
        rintro rfl
        rw [hs] at hk
        cases hk
      simp [hne]
    | none => simp

theorem insert_route_live (r : Route) (hb : b.get_for_spec_sni sni = none) (k : Bytes) :
    (b.insert_route sni r).get_for_spec_sni k = if k = sni then some r else b.get_for_spec_sni k := by
  unfold Builder.insert_route
  cases hs : wildcard_suffix sni with
  | some X =>
    obtain rfl := wildcard_suffix_eq_some.1 hs
    unfold RouteTable.get_for_spec_sni at hb ⊢
    cases hk : wildcard_suffix k with
    | some Y =>
      obtain rfl := wildcard_suffix_eq_some.1 hk
      simp only [hs, Option.map_eq_none_iff] at hb
      by_cases hY : Y = X
      · subst hY
        simp [List.find?_append, hb]
      · have hX : X ≠ Y := fun e => hY e.symm
        simp [List.find?_append, hY, hX]
    | none =>
      have hne : k ≠ 42 :: 46 :: X := by
        rintro rfl
        cases hk
      rw [if_neg hne]
  | none =>
    unfold RouteTable.get_for_spec_sni
    cases hk : wildcard_suffix k with
    | some Y =>
      have hne : k ≠ sni := by
        rintro rfl
        rw [hs] at hk
        cases hk
      rw [if_neg hne]
      dsimp only
      split <;> rfl
    | none =>
      dsimp only
      by_cases hn : sni = []
      · subst hn
        rw [if_pos rfl]
        by_cases hk0 : k = [] <;> simp [hk0]
      · rw [if_neg hn]
        by_cases hks : k = sni
        · subst hks
          rw [if_pos rfl, if_neg hn]
          exact AList.lookup_insert _
        · rw [if_neg hks]
          dsimp only
          rw [AList.lookup_insert_ne hks]

theorem insert_route_buried (b : Builder D) (sni : Bytes) (r : Route) (k : Bytes) :
    (b.insert_route sni r).tombstoned k = b.tombstoned k := by
  unfold Builder.insert_route
  split
  · rfl
  · split <;> rfl

theorem live_of_status {t : RouteTable D} (h : t.status sni = none) : t.get_for_spec_sni sni = none := by
  rw [RouteTable.get_for_spec_sni_eq, h]
  rfl

/-- Recording a judgement on a name not configured before configures that name alone. -/
theorem record_status (hb : b.status sni = none) (j : Judged D) (k : Bytes) :
    (b.record sni j).status k = if k = sni then some j.fate.route else b.status k := by
  have hlive : b.get_for_spec_sni sni = none := live_of_status hb
  unfold Builder.record
  cases hr : j.fate.route with
  | none =>
    dsimp only
    rw [RouteTable.status_eq, RouteTable.status_eq, tombstone_live, tombstone_buried]
    change ((b.get_for_spec_sni k).map some).or (if decide (k = sni) || b.tombstoned k then some none else none) = _
    by_cases hk : k = sni
    · subst hk
      simp [hlive]
    · simp [hk]
  | some r =>
    dsimp only
    unfold RouteTable.status Builder.install
    have hlive' : ((b.report sni j).enlist sni j.auth r).get_for_spec_sni sni = none := hlive
    rw [insert_route_live r hlive', insert_route_buried]
    by_cases hk : k = sni
    · simp [hk]
    · simp only [if_neg hk]
      rfl

theorem tombstone_keyed (h : b.Keyed) (sni : Bytes) : (b.tombstone sni).Keyed := by
  unfold Builder.tombstone
  cases hs : wildcard_suffix sni with
  | some X => exact ⟨h.exact_plain, h.dropped_plain, h.wildcard_once⟩
  | none =>
    refine ⟨h.exact_plain, ?_, h.wildcard_once⟩
    intro k hk
    rcases Finset.mem_insert.1 hk with rfl | hk
    · exact hs
    · exact h.dropped_plain k hk

theorem insert_route_keyed (h : b.Keyed) (hb : b.get_for_spec_sni sni = none) (r : Route) :
    (b.insert_route sni r).Keyed := by
  unfold Builder.insert_route
  cases hs : wildcard_suffix sni with
  | some X =>
    refine ⟨h.exact_plain, h.dropped_plain, ?_⟩
    -- the suffix is new: nothing is found under it
    unfold RouteTable.get_for_spec_sni at hb
    rw [hs] at hb
    have hnew : X ∉ b.wildcard.map (·.1) := by
      intro hX
      obtain ⟨e, he, rfl⟩ := List.mem_map.1 hX
      simpa using List.find?_eq_none.1 (Option.map_eq_none_iff.1 hb) e he
    dsimp only
    rw [List.map_append, List.nodup_append]
    refine ⟨h.wildcard_once, by simp, ?_⟩
    intro a ha c hc hac
    obtain rfl : c = X := by simpa using hc
    exact hnew (hac ▸ ha)
  | none =>
    dsimp only
    split
    · exact ⟨h.exact_plain, h.dropped_plain, h.wildcard_once⟩
    · rename_i hn
      refine ⟨?_, h.dropped_plain, h.wildcard_once⟩
      intro k r' hk
      rcases Table.lookup_insert_cases hk with ⟨rfl, -⟩ | hk
      · exact ⟨hn, hs⟩
      · exact h.exact_plain k r' hk

theorem record_keyed (h : b.Keyed) (hb : b.status sni = none) (j : Judged D) : (b.record sni j).Keyed := by
  have hreport : (b.report sni j).Keyed := ⟨h.exact_plain, h.dropped_plain, h.wildcard_once⟩
  unfold Builder.record
  cases j.fate.route with
  | none => exact tombstone_keyed hreport sni
  | some r =>
    apply insert_route_keyed
    · exact ⟨h.exact_plain, h.dropped_plain, h.wildcard_once⟩
    · exact live_of_status hb

theorem record_frame (b : Builder D) (sni : Bytes) (j : Judged D) :
    (b.record sni j).configured_wildcards = b.configured_wildcards ∧ (b.record sni j).world = b.world ∧
      (b.record sni j).client_auth =
        if j.fate.route.isSome then b.client_auth.insert sni j.auth else b.client_auth := by
  unfold Builder.record
  cases j.fate.route with
  | none =>
    unfold Builder.tombstone
    dsimp only
    split <;> exact ⟨rfl, rfl, rfl⟩
  | some r =>
    unfold Builder.install Builder.insert_route
    dsimp only
    split
    · exact ⟨rfl, rfl, rfl⟩
    · split <;> exact ⟨rfl, rfl, rfl⟩

theorem record_buried (b : Builder D) (sni : Bytes) (j : Judged D) (k : Bytes) :
    (b.record sni j).tombstoned k = (j.fate.route.isNone && decide (k = sni) || b.tombstoned k) := by
  unfold Builder.record
  cases j.fate.route with
  | none => exact tombstone_buried (b.report sni j) sni k
  | some r => exact insert_route_buried _ sni r k

theorem record_live (hb : b.status sni = none) (j : Judged D) (k : Bytes) :
    (b.record sni j).get_for_spec_sni k = if k = sni then j.fate.route else b.get_for_spec_sni k := by
  rw [RouteTable.get_for_spec_sni_eq, RouteTable.get_for_spec_sni_eq, record_status hb]
  split <;> rfl

end Record

/-! ## The spec that decides a name -/

/-- The spec that decides a configured name: the first of a wildcard's, else the last. -/
def decider (specs : List RouteSpec) (k : Bytes) : Option Nat :=
  if (wildcard_suffix k).isSome then specs.findIdx? fun spec => spec.sni = k
  else lastIdx? (fun spec => spec.sni = k) specs

theorem decider_names {specs : List RouteSpec} {k : Bytes} {n : Nat} (h : decider specs k = some n) :
    ∃ spec, specs[n]? = some spec ∧ spec.sni = k := by
  unfold decider at h
  split at h
  · obtain ⟨hn, hk, -⟩ := List.findIdx?_eq_some_iff_getElem.1 h
    exact ⟨_, List.getElem?_eq_getElem hn, by simpa using hk⟩
  · obtain ⟨spec, hn, hk⟩ := lastIdx?_eq_some h
    exact ⟨spec, hn, by simpa using hk⟩

/-- Which spec decides is a matter of the names alone. -/
theorem decider_congr {specs specs' : List RouteSpec} (h : specs'.map (·.sni) = specs.map (·.sni)) (k : Bytes) :
    decider specs' k = decider specs k := by
  have hlast (l : List RouteSpec) : lastIdx? (fun spec : RouteSpec => decide (spec.sni = k)) l =
      lastIdx? (fun s => decide (s = k)) (l.map (·.sni)) := by
    rw [Lib.lastIdx?_map]
    rfl
  have hfirst (l : List RouteSpec) : (l.findIdx? fun spec => decide (spec.sni = k)) =
      (l.map (·.sni)).findIdx? fun s => decide (s = k) := by
    rw [List.findIdx?_map]
    rfl
  unfold decider
  rw [hlast, hlast, hfirst, hfirst, h]

/-- The source's table of last positions has the decider of every name that is not a
wildcard, and nothing else. -/
theorem last_exact_lookup (specs : List RouteSpec) (k : Bytes) :
    (last_exact specs).lookup k = if (wildcard_suffix k).isSome then none else decider specs k := by
  let step (t : Table Bytes Nat) (i : Nat) (spec : RouteSpec) : Table Bytes Nat :=
    if (wildcard_suffix spec.sni).isSome then t else t.insert spec.sni i
  have inv : (loop step 0 ∅ specs).lookup k = if (wildcard_suffix k).isSome then none
      else lastIdx? (fun spec => spec.sni = k) (specs.take specs.length) := by
    apply loop_inv fun n (t : Table Bytes Nat) => t.lookup k = if (wildcard_suffix k).isSome then none
      else lastIdx? (fun spec => spec.sni = k) (specs.take n)
    · simp [lastIdx?]
    · intro n spec hn ih
      change (if (wildcard_suffix spec.sni).isSome then _ else _ : Table Bytes Nat).lookup k = _
      have hlen : n < specs.length := (List.getElem?_eq_some_iff.1 hn).1
      rw [List.take_add_one, hn, Option.toList_some, lastIdx?_concat, List.length_take, Nat.min_eq_left hlen.le]
      by_cases hk : spec.sni = k
      · subst hk
        by_cases hw : (wildcard_suffix spec.sni).isSome
        · rw [if_pos hw, ih, if_pos hw, if_pos hw]
        · rw [if_neg hw, if_neg hw]
          simp
      · have hk' : k ≠ spec.sni := fun e => hk e.symm
        by_cases hw : (wildcard_suffix spec.sni).isSome
        · rw [if_pos hw, ih]
          simp [hk]
        · rw [if_neg hw, AList.lookup_insert_ne hk', ih]
          simp [hk]
  rw [List.take_length] at inv
  unfold last_exact decider
  rw [inv]
  by_cases hw : (wildcard_suffix k).isSome <;> simp [hw]

/-! ## The build loop -/

section Loop

variable {D : Type} [DecidableEq D] (C : Crates D) (conns : Nat → Bool) (listener_tls : ListenerTlsSpec)
  (previous : Option (RouteTable D)) (specs : List RouteSpec) (w : World D)

/-- The builder before the spec at position `n`. -/
def builderAt (n : Nat) : Builder D :=
  before (build_step C conns listener_tls previous (last_exact specs)) (Builder.start conns previous w) specs n

/-- The judgement on a spec in the build that has come to `b`. -/
def judgedBy (b : Builder D) (spec : RouteSpec) : Judged D :=
  (judge C (held_by conns previous b.toRouteTable) listener_tls previous spec b.world).1

/-- The judgement of the build on its spec at position `n`. -/
def judged (n : Nat) : Option (Judged D) :=
  specs[n]?.map (judgedBy C conns listener_tls previous (builderAt C conns listener_tls previous specs w n))

variable {C conns listener_tls previous specs} {b : Builder D}

variable {spec : RouteSpec} {n : Nat} {k : Bytes}

theorem consider_status (hb : b.status spec.sni = none) (k : Bytes) :
    (consider C conns listener_tls previous b spec).status k =
      if k = spec.sni then some (judgedBy C conns listener_tls previous b spec).fate.route else b.status k := by
  exact record_status
    (b := { b with world := (judge C (held_by conns previous b.toRouteTable) listener_tls previous spec b.world).2 })
    hb _ k

theorem consider_live (hb : b.status spec.sni = none) (k : Bytes) :
    (consider C conns listener_tls previous b spec).get_for_spec_sni k =
      if k = spec.sni then (judgedBy C conns listener_tls previous b spec).fate.route else b.get_for_spec_sni k := by
  rw [RouteTable.get_for_spec_sni_eq, RouteTable.get_for_spec_sni_eq, consider_status hb]
  split <;> rfl

variable (C conns listener_tls previous) in
theorem consider_world (b : Builder D) (spec : RouteSpec) :
    (consider C conns listener_tls previous b spec).world =
      (judge C (held_by conns previous b.toRouteTable) listener_tls previous spec b.world).2 :=
  (record_frame _ _ _).2.1

theorem consider_keyed (h : b.Keyed) (hb : b.status spec.sni = none) :
    (consider C conns listener_tls previous b spec).Keyed := by
  apply record_keyed
  · exact ⟨h.exact_plain, h.dropped_plain, h.wildcard_once⟩
  · exact hb

/-- The wildcards seen before position `n`. -/
def Configured (specs : List RouteSpec) (n : Nat) (b : Builder D) : Prop :=
  ∀ X, X ∈ b.configured_wildcards ↔ ∃ m spec, m < n ∧ specs[m]? = some spec ∧ spec.sni = 42 :: 46 :: X

variable (C conns listener_tls previous) in
/-- What a step can do. It considers its spec exactly when the spec decides its name. -/
theorem build_step_cases (hn : specs[n]? = some spec) (hc : Configured specs n b) :
    (decider specs spec.sni = some n ∧ ∃ ws, (∀ X, X ∈ ws ↔ X ∈ b.configured_wildcards ∨ spec.sni = 42 :: 46 :: X) ∧
      build_step C conns listener_tls previous (last_exact specs) b n spec =
        consider C conns listener_tls previous { b with configured_wildcards := ws } spec) ∨
    (decider specs spec.sni ≠ some n ∧ (∀ X, spec.sni = 42 :: 46 :: X → X ∈ b.configured_wildcards) ∧
      ∃ names, build_step C conns listener_tls previous (last_exact specs) b n spec =
        { b with failing_snis := names }) := by
  unfold build_step
  rw [last_exact_lookup]
  have hlen : n < specs.length := (List.getElem?_eq_some_iff.1 hn).1
  have hget : specs.get ⟨n, hlen⟩ = spec := (List.getElem?_eq_some_iff.1 hn).2
  cases hw : wildcard_suffix spec.sni with
  | some Y =>
    -- a wildcard is considered when no earlier spec has its name
    have hY := wildcard_suffix_eq_some.1 hw
    have hfirst : decider specs spec.sni = some n ↔ Y ∉ b.configured_wildcards := by
      unfold decider
      rw [hw, Option.isSome_some, if_pos rfl, List.findIdx?_eq_some_iff_getElem, hc Y]
      constructor
      · rintro ⟨_, _, hlt⟩ ⟨m, spec', hm, hm', hs⟩
        have hlt := hlt m hm
        rw [(List.getElem?_eq_some_iff.1 hm').2, hs, hY] at hlt
        exact hlt (decide_eq_true rfl)
      · intro h
        refine ⟨hlen, by simpa using congrArg RouteSpec.sni hget, ?_⟩
        intro m hm hs
        have hml : m < specs.length := by omega
        refine h ⟨m, specs.get ⟨m, hml⟩, hm, List.getElem?_eq_getElem hml, ?_⟩
        rw [← hY]
        simpa using hs
    have hX (X : Bytes) : spec.sni = 42 :: 46 :: X ↔ X = Y := by simp [hY, eq_comm]
    rw [Option.isSome_some, if_pos rfl, if_neg (by simp)]
    dsimp only
    by_cases hd : Y ∈ b.configured_wildcards
    · right
      refine ⟨fun h => hfirst.1 h hd, ?_, insert spec.sni b.failing_snis, by rw [if_pos hd]⟩
      intro X h
      exact (hX X).1 h ▸ hd
    · left
      refine ⟨hfirst.2 hd, insert Y b.configured_wildcards, ?_, by rw [if_neg hd]⟩
      intro X
      rw [Finset.mem_insert, hX, or_comm]
  | none =>
    have hX (X : Bytes) : spec.sni ≠ 42 :: 46 :: X := by
      intro h
      rw [h] at hw
      cases hw
    obtain ⟨m, hm⟩ : ∃ m, decider specs spec.sni = some m := by
      cases hd : decider specs spec.sni with
      | some m => exact ⟨m, rfl⟩
      | none =>
        unfold decider at hd
        rw [hw] at hd
        simpa using lastIdx?_eq_none hd spec (List.mem_of_getElem? hn)
    rw [hm]
    by_cases hmn : m = n
    · subst hmn
      left
      refine ⟨rfl, b.configured_wildcards, ?_, by simp⟩
      intro X
      simp [hX]
    · right
      refine ⟨fun h => hmn (Option.some.inj h), ?_, b.failing_snis, by simp [hmn]⟩
      intro X h
      exact absurd h (hX X)

theorem consider_configured (b : Builder D) (spec : RouteSpec) :
    (consider C conns listener_tls previous b spec).configured_wildcards = b.configured_wildcards := by
  unfold consider
  exact (record_frame _ _ _).1

theorem build_step_configured (hn : specs[n]? = some spec) (hc : Configured specs n b) :
    Configured specs (n + 1) (build_step C conns listener_tls previous (last_exact specs) b n spec) := by
  have hX (X : Bytes) : X ∈
    (build_step C conns listener_tls previous (last_exact specs) b n spec).configured_wildcards ↔
      X ∈ b.configured_wildcards ∨ spec.sni = 42 :: 46 :: X := by
    rcases build_step_cases C conns listener_tls previous hn hc with
      ⟨-, ws, hws, he⟩ | ⟨-, hold, names, he⟩
    · rw [he, consider_configured]
      exact hws X
    · rw [he]
      exact ⟨Or.inl, fun h => h.elim id (hold X)⟩
  intro X
  rw [hX, hc X]
  constructor
  · rintro (⟨m, s, hm, hs, he⟩ | h)
    · exact ⟨m, s, by omega, hs, he⟩
    · exact ⟨n, spec, by omega, hn, h⟩
  · rintro ⟨m, s, hm, hs, he⟩
    by_cases hmn : m = n
    · subst hmn
      rw [hn] at hs
      cases hs
      exact .inr he
    · exact .inl ⟨m, s, by omega, hs, he⟩

theorem configured_at (n : Nat) (hn : n ≤ specs.length) :
    Configured specs n (builderAt C conns listener_tls previous specs w n) := by
  apply before_inv (Configured specs)
  · intro X
    constructor
    · intro h
      cases h
    · rintro ⟨m, _, hm, -⟩
      omega
  · intro n spec hn hc
    exact build_step_configured hn hc
  · exact hn

/-- A step configures the name its spec decides, and no other. -/
theorem build_step_status (hn : specs[n]? = some spec) (hc : Configured specs n b)
    (hb : ∀ k, (∀ m, decider specs k = some m → n ≤ m) → b.status k = none) (k : Bytes) :
    (build_step C conns listener_tls previous (last_exact specs) b n spec).status k =
      if decider specs k = some n then some (judgedBy C conns listener_tls previous b spec).fate.route
      else b.status k := by
  have hown (k : Bytes) : decider specs k = some n → k = spec.sni := by
    intro hk
    obtain ⟨spec', hn', hs⟩ := decider_names hk
    rw [hn] at hn'
    cases hn'
    exact hs.symm
  rcases build_step_cases C conns listener_tls previous hn hc with
    ⟨hd, ws, -, he⟩ | ⟨hd, -, names, he⟩
  · have hblank : b.status spec.sni = none := by
      apply hb
      intro m hm
      rw [hd] at hm
      cases hm
      exact Nat.le_refl _
    rw [he, consider_status (b := { b with configured_wildcards := ws }) hblank]
    by_cases hk : k = spec.sni
    · subst hk
      rw [if_pos rfl, if_pos hd]
      rfl
    · rw [if_neg hk, if_neg fun h => hk (hown k h)]
  · rw [he, if_neg]
    · rfl
    · intro hk
      rw [hown k hk] at hk
      exact hd hk

variable (conns previous) in
omit [DecidableEq D] in
theorem start_status (k : Bytes) : (Builder.start conns previous w).status k = none := by
  unfold RouteTable.status RouteTable.get_for_spec_sni RouteTable.tombstoned
  cases wildcard_suffix k with
  | some X => rfl
  | none =>
    by_cases hk : k = []
    · subst hk
      rfl
    · simp only [if_neg hk]
      rfl

variable (C conns listener_tls previous specs)

theorem decider_lt (h : decider specs k = some n) : n < specs.length := by
  obtain ⟨spec, hn, -⟩ := decider_names h
  exact (List.getElem?_eq_some_iff.1 hn).1

/-- A name that no earlier spec decides is not configured yet. -/
theorem blank_at (hn : n ≤ specs.length) (hk : ∀ m, decider specs k = some m → n ≤ m) :
    (builderAt C conns listener_tls previous specs w n).status k = none := by
  have h := written_before (fun b k => b.status k) (decider specs)
    (fun b spec => (judgedBy C conns listener_tls previous b spec).fate.route)
    (start_status conns previous w)
    (fun n spec hn hb => build_step_status hn
      (configured_at w n (Nat.le_of_lt (List.getElem?_eq_some_iff.1 hn).1)) hb) n hn k
  refine Eq.trans h ?_
  cases hd : decider specs k with
  | none => rfl
  | some m => simp [Nat.not_lt.2 (hk m hd)]

/-- The build leaves each configured name with what the judgement on its decider says. -/
theorem built_status (k : Bytes) :
    (build_route_table C conns listener_tls previous specs w).1.status k =
      (decider specs k).bind fun n => (judged C conns listener_tls previous specs w n).map (·.fate.route) := by
  have h := written_once (fun b k => b.status k) (decider specs)
    (fun b spec => (judgedBy C conns listener_tls previous b spec).fate.route)
    (start_status conns previous w) (fun k n => decider_lt specs)
    (fun n spec hn hb => build_step_status hn
      (configured_at w n (Nat.le_of_lt (List.getElem?_eq_some_iff.1 hn).1)) hb) k
  refine Eq.trans h ?_
  unfold judged
  congr 1
  funext n
  rw [Option.map_map]
  rfl

omit [DecidableEq D] in
theorem start_keyed : (Builder.start conns previous w).Keyed := by
  refine ⟨?_, ?_, List.nodup_nil⟩
  · intro k r h
    cases h
  · intro k h
    cases h

/-- What holds at the start, survives a skipped spec, and is kept when a spec is
considered for the name it decides, not configured before, holds before every spec and at
the end. -/
theorem builderAt_inv (I : Builder D → Prop) (h0 : I (Builder.start conns previous w))
    (hskip : ∀ b names, I b → I { b with failing_snis := names })
    (hconsider : ∀ b ws n spec, specs[n]? = some spec → decider specs spec.sni = some n → b.status spec.sni = none →
      I b → I (consider C conns listener_tls previous { b with configured_wildcards := ws } spec)) :
    ∀ n, n ≤ specs.length → I (builderAt C conns listener_tls previous specs w n) := by
  apply before_inv (fun _ b => I b) h0
  intro n spec hn hI
  change I (builderAt C conns listener_tls previous specs w n) at hI
  have hlen : n ≤ specs.length := Nat.le_of_lt (List.getElem?_eq_some_iff.1 hn).1
  have hc : Configured specs n (builderAt C conns listener_tls previous specs w n) := configured_at w n hlen
  rcases build_step_cases C conns listener_tls previous hn hc with
    ⟨hd, ws, -, he⟩ | ⟨-, -, names, he⟩
  · have hblank : (builderAt C conns listener_tls previous specs w n).status spec.sni = none := by
      apply blank_at C conns listener_tls previous specs w hlen
      intro m hm
      rw [hd] at hm
      cases hm
      exact Nat.le_refl _
    exact he ▸ hconsider _ ws n spec hn hd hblank hI
  · exact he ▸ hskip _ names hI

theorem builder_inv (I : Builder D → Prop) (h0 : I (Builder.start conns previous w))
    (hskip : ∀ b names, I b → I { b with failing_snis := names })
    (hconsider : ∀ b ws n spec, specs[n]? = some spec → decider specs spec.sni = some n → b.status spec.sni = none →
      I b → I (consider C conns listener_tls previous { b with configured_wildcards := ws } spec)) :
    I (builderAt C conns listener_tls previous specs w specs.length) :=
  builderAt_inv C conns listener_tls previous specs w I h0 hskip hconsider specs.length (Nat.le_refl _)

theorem build_route_table_eq : build_route_table C conns listener_tls previous specs w =
    ({ (builderAt C conns listener_tls previous specs w specs.length).toRouteTable with
        metric_identities := ((builderAt C conns listener_tls previous specs w specs.length).toRouteTable.routes.map
          fun e => e.2.metric_identity).mergeSort identity_le },
      (builderAt C conns listener_tls previous specs w specs.length).world) := by
  unfold build_route_table builderAt
  rw [Lib.before_length]

theorem built_keyed : (build_route_table C conns listener_tls previous specs w).1.Keyed := by
  have h := builder_inv C conns listener_tls previous specs w (fun b => b.Keyed) (start_keyed conns previous w)
    (fun b names h => ⟨h.exact_plain, h.dropped_plain, h.wildcard_once⟩) (by
      intro b ws n spec _ _ hb h
      exact consider_keyed ⟨h.exact_plain, h.dropped_plain, h.wildcard_once⟩ hb)
  rw [build_route_table_eq]
  exact ⟨h.exact_plain, h.dropped_plain, h.wildcard_once⟩

theorem built_buried (hk : (build_route_table C conns listener_tls previous specs w).1.tombstoned k = true) :
    (build_route_table C conns listener_tls previous specs w).1.get_for_spec_sni k = none := by
  have h := builder_inv C conns listener_tls previous specs w
    (fun b => ∀ k, b.tombstoned k = true → b.get_for_spec_sni k = none)
    (fun k _ => live_of_status (start_status conns previous w k)) (fun b names h => h) (by
      intro b ws n spec _ _ hb h k hk
      have hburied := record_buried { b with
        configured_wildcards := ws
        world := (judge C (held_by conns previous b.toRouteTable) listener_tls previous spec b.world).2 } spec.sni
        (judgedBy C conns listener_tls previous b spec) k
      rw [consider_live (b := { b with configured_wildcards := ws }) hb]
      rcases Bool.or_eq_true_iff.1 (hburied.symm.trans hk) with hnew | hold
      · obtain ⟨hnone, hks⟩ := Bool.and_eq_true_iff.1 hnew
        rw [if_pos (of_decide_eq_true hks)]
        exact Option.isNone_iff_eq_none.1 hnone
      · have hne : k ≠ spec.sni := by
          rintro rfl
          have hlive := h spec.sni hold
          have hstatus : b.status spec.sni = some none := by
            rw [RouteTable.status_eq, hlive]
            change (if b.tombstoned spec.sni then some none else none) = some none
            rw [show b.tombstoned spec.sni = true from hold, if_pos rfl]
          rw [hstatus] at hb
          cases hb
        rw [if_neg hne]
        exact h k hold)
  rw [build_route_table_eq] at hk ⊢
  exact h k hk

end Loop

/-! ## Resolution -/

theorem RouteTable.resolve_empty {D : Type} {t : RouteTable D} (ht : t.Keyed)
    (hb : t.tombstoned [] = true → t.get_for_spec_sni [] = none) (allow_default : Bool) :
    t.resolve_with (some []) allow_default = t.resolve_with none allow_default := by
  have hexact : t.exact.lookup [] = none := by
    cases h : t.exact.lookup [] with
    | none => rfl
    | some r => exact absurd rfl (ht.exact_plain [] r h).1
  have hbroader : t.resolve_broader [] allow_default = t.default_if allow_default := by
    rw [resolve_broader_status, default_if_status]
    rfl
  unfold resolve_with
  dsimp only
  rw [hexact, hbroader]
  dsimp only
  split
  · rename_i hd
    have hnone : t.default = none := hb (decide_eq_true hd)
    unfold default_if
    rw [hnone]
    split <;> rfl
  · rfl

/-- The spec that decides a client's name, in the words of the routing rules: the last
exact spec of the name, else the first wildcard that covers it, else, when allowed, the
last default spec. Without a name only the default is left. -/
def deciding (specs : List RouteSpec) (sni : Option Bytes) (allow_default : Bool) : Option Nat :=
  let default_spec := if allow_default then lastIdx? (fun spec : RouteSpec => spec.sni = []) specs else none
  match sni with
  | none => default_spec
  | some s =>
    ((lastIdx? (fun spec : RouteSpec => (wildcard_suffix spec.sni).isNone && spec.sni = s) specs).or
      (specs.findIdx? fun spec => (wildcard_suffix spec.sni).any fun X => Covers X s)).or default_spec

theorem exact_decider (specs : List RouteSpec) (s : Bytes) :
    lastIdx? (fun spec : RouteSpec => (wildcard_suffix spec.sni).isNone && spec.sni = s) specs =
      (if (wildcard_suffix s).isSome then [] else [s]).findSome? (decider specs) := by
  have hp : (fun spec : RouteSpec => (wildcard_suffix spec.sni).isNone && decide (spec.sni = s)) =
      fun spec => (wildcard_suffix s).isNone && decide (spec.sni = s) := by
    funext spec
    by_cases h : spec.sni = s <;> simp [h]
  rw [hp]
  cases hw : wildcard_suffix s with
  | some X =>
    simp only [Option.isNone_some, Bool.false_and, Option.isSome_some, if_true, List.findSome?_nil]
    cases h : lastIdx? (fun _ : RouteSpec => false) specs with
    | none => rfl
    | some n =>
      obtain ⟨_, -, hf⟩ := lastIdx?_eq_some h
      cases hf
  | none =>
    have hd : decider specs s = lastIdx? (fun spec => spec.sni = s) specs := by
      unfold decider
      rw [hw]
      rfl
    simp only [Option.isNone_none, Bool.true_and, Option.isSome_none, Bool.false_eq_true, if_false, ← hd]
    exact List.findSome?_singleton.symm

theorem wildcard_decider (specs : List RouteSpec) (s : Bytes) :
    (specs.findIdx? fun spec => (wildcard_suffix spec.sni).any fun X => Covers X s) =
      ((parent s).map fun X => 42 :: 46 :: X).toList.findSome? (decider specs) := by
  -- only the wildcard of the parent covers `s`
  have hp (spec : RouteSpec) : ((wildcard_suffix spec.sni).any fun X => decide (Covers X s)) =
      (parent s).any fun X => decide (spec.sni = 42 :: 46 :: X) := by
    rw [Bool.eq_iff_iff]
    simp only [Option.any_eq_true, decide_eq_true_eq, covers_iff_parent, wildcard_suffix_eq_some]
    exact ⟨fun ⟨X, h, hX⟩ => ⟨X, hX, h⟩, fun ⟨X, h, hX⟩ => ⟨X, hX, h⟩⟩
  simp only [hp]
  cases parent s with
  | none =>
    rw [Option.map_none, Option.toList_none, List.findSome?_nil, List.findIdx?_eq_none_iff]
    simp
  | some X =>
    have hd : decider specs (42 :: 46 :: X) = specs.findIdx? fun spec => spec.sni = 42 :: 46 :: X := rfl
    simp only [Option.any_some, Option.map_some, Option.toList_some, ← hd]
    exact List.findSome?_singleton.symm

/-- The deciding spec is the decider of the first configured name. -/
theorem deciding_eq (specs : List RouteSpec) (sni : Option Bytes) (allow_default : Bool) :
    deciding specs sni allow_default = (RouteTable.names sni allow_default).findSome? (decider specs) := by
  have hdef : (if allow_default then lastIdx? (fun spec : RouteSpec => spec.sni = []) specs else none) =
      (if allow_default then [[]] else []).findSome? (decider specs) := by
    cases allow_default with
    | false => rfl
    | true =>
      have hd : decider specs [] = lastIdx? (fun spec => spec.sni = []) specs := rfl
      rw [if_pos rfl, if_pos rfl, ← hd]
      exact List.findSome?_singleton.symm
  unfold deciding RouteTable.names
  dsimp only
  rw [hdef]
  cases sni with
  | none => rfl
  | some s =>
    dsimp only
    rw [exact_decider, wildcard_decider, List.findSome?_append, List.findSome?_append]

/-- Without a name, the spec that decides is the one for the empty name. -/
theorem deciding_empty {specs : List RouteSpec} {allow_default : Bool} {n : Nat}
    (h : deciding specs none allow_default = some n) : deciding specs (some []) allow_default = some n := by
  cases allow_default with
  | false => cases h
  | true =>
    have hd : decider specs [] = some n := h
    have hexact := exact_decider specs []
    unfold deciding
    dsimp only
    rw [hexact]
    simp [hd]

theorem deciding_congr {specs specs' : List RouteSpec} (h : specs'.map (·.sni) = specs.map (·.sni)) (sni : Option Bytes)
    (allow_default : Bool) : deciding specs' sni allow_default = deciding specs sni allow_default := by
  rw [deciding_eq, deciding_eq]
  congr 1
  funext k
  exact decider_congr h k

section Resolution

variable {D : Type} [DecidableEq D] (C : Crates D) (conns : Nat → Bool) (listener_tls : ListenerTlsSpec)
  (previous : Option (RouteTable D)) (specs : List RouteSpec) (w : World D)

/-- The lookup gives what the judgement on the deciding spec says, which is what the
table has under that spec's own name. -/
theorem resolve_built {sni : Option Bytes} (hs : sni ≠ some []) (allow_default : Bool) :
    (build_route_table C conns listener_tls previous specs w).1.resolve_with sni allow_default =
      ((deciding specs sni allow_default).bind fun n =>
        (judged C conns listener_tls previous specs w n).map (·.fate.route)).join := by
  rw [RouteTable.resolve_with_status (built_keyed C conns listener_tls previous specs w) hs, deciding_eq]
  congr 1
  induction RouteTable.names sni allow_default with
  | nil => rfl
  | cons k ks ih =>
    rw [List.findSome?_cons, List.findSome?_cons, built_status]
    cases hd : decider specs k with
    | none => exact ih
    | some n =>
      obtain ⟨spec, hn, -⟩ := decider_names hd
      simp [judged, hn]

/-- What the table has under the name of a deciding spec is what the judgement on the
spec says. -/
theorem deciding_installed {sni : Option Bytes} {allow_default : Bool} {n : Nat}
    (h : deciding specs sni allow_default = some n) :
    ∃ spec j, specs[n]? = some spec ∧ judged C conns listener_tls previous specs w n = some j ∧
      (build_route_table C conns listener_tls previous specs w).1.get_for_spec_sni spec.sni = j.fate.route := by
  rw [deciding_eq] at h
  obtain ⟨k, -, hk⟩ := List.exists_of_findSome?_eq_some h
  obtain ⟨spec, hn, hs⟩ := decider_names hk
  have hj : judged C conns listener_tls previous specs w n =
      some (judgedBy C conns listener_tls previous (builderAt C conns listener_tls previous specs w n) spec) := by
    unfold judged
    rw [hn]
    rfl
  refine ⟨spec, _, hn, hj, ?_⟩
  rw [RouteTable.get_for_spec_sni_eq, built_status, hs, hk, Option.bind_some, hj]
  rfl

/-- Lookups follow the routing rules. A name no spec decides gets nothing. A name with a
deciding spec gets the route installed under that spec's own name, which is the one made
from that spec or carried forward for it; and it gets nothing if the spec was rejected,
whatever broader specs there are. -/
theorem resolve_with_decided {sni : Option Bytes} (hs : sni ≠ some []) (allow_default : Bool) :
    let t := (build_route_table C conns listener_tls previous specs w).1
    (deciding specs sni allow_default = none → t.resolve_with sni allow_default = none) ∧
    ∀ n, deciding specs sni allow_default = some n →
      ∃ spec j, specs[n]? = some spec ∧ judged C conns listener_tls previous specs w n = some j ∧
        t.resolve_with sni allow_default = j.fate.route ∧ t.get_for_spec_sni spec.sni = j.fate.route ∧
        (t.resolve_with sni allow_default = none ↔ j.fate = .rejected) := by
  intro t
  have hr : t.resolve_with sni allow_default = _ := resolve_built C conns listener_tls previous specs w hs allow_default
  constructor
  · intro hd
    rw [hr, hd]
    rfl
  · intro n hd
    obtain ⟨spec, j, hn, hj, hg⟩ := deciding_installed C conns listener_tls previous specs w hd
    have hroute : t.resolve_with sni allow_default = j.fate.route := by
      rw [hr, hd, Option.bind_some, hj]
      rfl
    refine ⟨spec, j, hn, hj, hroute, hg, ?_⟩
    rw [hroute]
    cases j.fate <;> simp [Fate.route]

end Resolution

/-- A passthrough spec with nothing but a name. -/
def plainSpec (sni : Bytes) : RouteSpec := { sni }

/-- A rejected exact spec under a wildcard and a default. -/
theorem resolve_with_decided_rejected :
    let specs := [{ plainSpec (bytes "api.example.com") with allowed_sources := [bytes "10.0.0.0/99"] },
      plainSpec (bytes "*.example.com"), plainSpec []]
    let t := (build_route_table literalCrates (fun _ => false) {} none specs ⟨{}, {}⟩).1
    t.resolve_with (some (bytes "api.example.com")) true = none ∧
      (t.resolve_with (some (bytes "www.example.com")) true).map (·.metric_identity.route) =
        some (bytes "*.example.com") := by
  intro specs t
  have h := (resolve_with_decided literalCrates (fun _ => false) {} none specs ⟨{}, {}⟩
    (show some (bytes "api.example.com") ≠ some [] by decide +kernel) true).2 0 (by decide +kernel)
  obtain ⟨spec, j, -, hj, -, -, hr⟩ := h
  refine ⟨hr.2 ?_, by decide +kernel⟩
  have hf : (judged literalCrates (fun _ => false) {} none specs ⟨{}, {}⟩ 0).map (·.fate) = some .rejected := by
    decide +kernel
  rw [hj] at hf
  exact Option.some.inj hf

end Symphony.Router
