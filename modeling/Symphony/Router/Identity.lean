import Symphony.Router.Reload
import Symphony.Router.Statuses
/-!
# Metric identities across reloads

Traffic is counted on a route's metric identity, which names the route and its tenant
group. `build_route` makes a new one for its spec; `keep_identity` puts the previous
route's in its place when the group is the same. A route carried forward comes with the
identity it had, so where the group of its spec is another one, it stays with the old
group.
-/

namespace Symphony.Router

open Lib (Machine)

/-! ## One spec -/

section Judge

variable {D : Type} [DecidableEq D] (C : Crates D) (held : Nat → Bool) (listener_tls : ListenerTlsSpec)
  (previous : Option (RouteTable D)) (spec : RouteSpec) (w : World D)

/-- The spec is in order but its route cannot be built, and `p`, the route of that name in
the table before, enforces the client certificates asked for. -/
structure Retained (p : Route) : Prop where
  declared : validate_route_protocol_declaration spec = .ok ()
  sources : ∃ allowed_sources, SourceAllowlist.parse C spec.allowed_sources = .ok allowed_sources
  unbuilt : ∃ e w', build_route C held spec listener_tls (inheritance previous spec w.heap) w = (.error e, w')
  last_good : last_good previous spec.sni (ClientAuth.of C spec listener_tls) = some p

variable {spec} in
theorem keep_identity_same {p : Route} (h : p.metric_identity.group = spec.metrics_group) (r : Route) :
    (keep_identity (some p) spec r).metric_identity = p.metric_identity := by
  unfold keep_identity
  dsimp only
  rw [if_pos h]

variable {spec} in
theorem keep_identity_other {p₀ : Option Route}
    (h : ∀ p, p₀ = some p → p.metric_identity.group ≠ spec.metrics_group) (r : Route) :
    keep_identity p₀ spec r = r := by
  unfold keep_identity
  cases p₀ with
  | none => rfl
  | some p => exact if_neg (h p rfl)

/-- Only the identity of a route matters for the one it is left with. -/
theorem keep_identity_congr (p₀ : Option Route) {r r' : Route} (h : r.metric_identity = r'.metric_identity) :
    (keep_identity p₀ spec r).metric_identity = (keep_identity p₀ spec r').metric_identity := by
  by_cases hsame : ∃ p, p₀ = some p ∧ p.metric_identity.group = spec.metrics_group
  · obtain ⟨p, rfl, hgroup⟩ := hsame
    rw [keep_identity_same hgroup, keep_identity_same hgroup]
  · have hother (p : Route) (hp : p₀ = some p) : p.metric_identity.group ≠ spec.metrics_group :=
      fun hgroup => hsame ⟨p, hp, hgroup⟩
    rw [keep_identity_other hother, keep_identity_other hother, h]

omit [DecidableEq D] in
theorem finished_identity (h₀ h : Heap) (carried : Bool) (allowed_sources : Option SourceAllowlist) (r : Route) :
    (finished previous spec h₀ carried allowed_sources r h).1.metric_identity =
      (keep_identity (previousRoute previous spec.sni) spec r).metric_identity := by
  unfold finished
  rw [finish_route_eq]
  exact keep_identity_congr spec _ (retrack_carried_identity carried _ { r with allowed_sources } h)

variable {C held listener_tls previous spec w}

theorem Retained.previous_route {p : Route} (h : Retained C held listener_tls previous spec w p) :
    previousRoute previous spec.sni = some p := last_good_state previous h.last_good w.heap

/-- A retained route is carried forward, with its identity. -/
theorem Retained.carried {p : Route} (h : Retained C held listener_tls previous spec w p) :
    ∃ r, (judge C held listener_tls previous spec w).1.fate.route = some r ∧ r.metric_identity = p.metric_identity := by
  obtain ⟨allowed_sources, hsources⟩ := h.sources
  obtain ⟨e, w', hbuild⟩ := h.unbuilt
  have hfate : (judge C held listener_tls previous spec w).1.fate =
      .carried (finished previous spec w.heap true allowed_sources p w'.heap).1 := by
    unfold inheritance at hbuild
    simp only [judge, h.declared, hsources, judge_valid, hbuild, h.last_good]
    rfl
  refine ⟨_, by rw [hfate]; rfl, ?_⟩
  rw [finished_identity, h.previous_route]
  by_cases hgroup : p.metric_identity.group = spec.metrics_group
  · exact keep_identity_same hgroup p
  · rw [keep_identity_other]
    rintro _ ⟨⟩
    exact hgroup

variable (C held listener_tls previous spec w) in
/-- The identity of a judged route is the previous one's, with the spec's group; or a new
one with that group, where the previous route had another; or that of a retained route. -/
theorem judge_identity {r : Route} (hr : (judge C held listener_tls previous spec w).1.fate.route = some r) :
    (∃ p, previousRoute previous spec.sni = some p ∧ p.metric_identity.group = spec.metrics_group ∧
      r.metric_identity = p.metric_identity) ∨
    ((∀ p, previousRoute previous spec.sni = some p → p.metric_identity.group ≠ spec.metrics_group) ∧
      r.metric_identity.route = spec.sni ∧ r.metric_identity.group = spec.metrics_group ∧
      w.heap.next ≤ r.metric_identity.arc) ∨
    ∃ p, Retained C held listener_tls previous spec w p ∧ p.metric_identity.group ≠ spec.metrics_group := by
  have hdeclared : validate_route_protocol_declaration spec = .ok () := by
    cases hvalidate : validate_route_protocol_declaration spec with
    | ok u => rfl
    | error e =>
      simp only [judge, hvalidate] at hr
      cases hr
  rcases judge_cases C held listener_tls previous spec w with
    ⟨hf, -⟩ | ⟨allowed_sources, r₀, w₁, -, hb, hf, -⟩ | ⟨allowed_sources, e, r₀, w₁, ha, hb, hl, hf, -⟩
  · rw [hf] at hr
    cases hr
  · rw [hf] at hr
    obtain rfl := Option.some.inj hr
    rw [finished_identity]
    by_cases hsame : ∃ p, previousRoute previous spec.sni = some p ∧ p.metric_identity.group = spec.metrics_group
    · obtain ⟨p, hp, hgroup⟩ := hsame
      rw [hp]
      exact .inl ⟨p, rfl, hgroup, keep_identity_same hgroup r₀⟩
    · -- rebuilt, with a new identity
      have hother (p : Route) (hp : previousRoute previous spec.sni = some p) :
          p.metric_identity.group ≠ spec.metrics_group := fun hgroup => hsame ⟨p, hp, hgroup⟩
      obtain ⟨tls_config, h₁, destination, destination_h2, h₂, hx₁, -, hx₂, hasm, -⟩ := build_route_grown hb
      have hid := assemble_identity spec listener_tls tls_config destination destination_h2 h₂
      rw [hasm] at hid
      obtain ⟨hroute, hgroup, hle, -⟩ := hid
      rw [keep_identity_other hother]
      exact .inr (.inl ⟨hother, hroute, hgroup, (hx₁.trans hx₂).next.trans hle⟩)
  · -- carried forward
    have hretained : Retained C held listener_tls previous spec w r₀ :=
      ⟨hdeclared, ⟨allowed_sources, ha⟩, ⟨e, w₁, hb⟩, hl⟩
    by_cases hsame : r₀.metric_identity.group = spec.metrics_group
    · obtain ⟨r', hr', hid⟩ := hretained.carried
      rw [hr] at hr'
      cases hr'
      exact .inl ⟨r₀, hretained.previous_route, hsame, hid⟩
    · exact .inr (.inr ⟨r₀, hretained, hsame⟩)

end Judge

/-! ## One table -/

section Table

variable {D : Type} [DecidableEq D]

/-- Traffic of the route of name `k` is counted for the spec's name and group: on the object of
the previous table where that had a route of this name in this group, else on a new one. -/
structure CountedFor (previous : Option (RouteTable D)) (k : Bytes) (spec : RouteSpec) (r : Route) : Prop where
  route : r.metric_identity.route = spec.sni
  group : r.metric_identity.group = spec.metrics_group
  continued : ∀ p, previousRoute previous k = some p →
    (r.metric_identity = p.metric_identity ↔ p.metric_identity.group = spec.metrics_group)
  new : (∀ p, previousRoute previous k = some p → p.metric_identity.group ≠ spec.metrics_group) →
    ∀ k' p, previousRoute previous k' = some p → r.metric_identity.arc ≠ p.metric_identity.arc

variable (C : Crates D) (conns : Nat → Bool) (listener_tls : ListenerTlsSpec) (previous : Option (RouteTable D))
  (specs : List RouteSpec) (w : World D)

/-- The build retains the route of name `k`, although the spec that decides the name has
another group than the route. -/
def ChangesGroup (k : Bytes) : Prop :=
  ∃ n spec p, decider specs k = some n ∧ specs[n]? = some spec ∧
    Retained C (held_by conns previous (builderAt C conns listener_tls previous specs w n).toRouteTable) listener_tls
      previous spec (builderAt C conns listener_tls previous specs w n).world p ∧
    p.metric_identity.group ≠ spec.metrics_group

/-- The installed routes are those that their deciders' judgements give. -/
theorem mem_built_routes {k : Bytes} {r : Route} :
    (k, r) ∈ (build_route_table C conns listener_tls previous specs w).1.routes ↔
      ∃ n spec, decider specs k = some n ∧ specs[n]? = some spec ∧
        (judgedBy C conns listener_tls previous (builderAt C conns listener_tls previous specs w n) spec).fate.route =
          some r := by
  rw [RouteTable.mem_routes (built_keyed C conns listener_tls previous specs w), RouteTable.get_for_spec_sni_eq,
    built_status]
  cases hd : decider specs k with
  | none => simp
  | some n =>
    obtain ⟨spec, hn, -⟩ := decider_names hd
    simp [judged, hn]

/-- The heap has only grown when the build comes to a spec. -/
theorem builderAt_grown {n : Nat} (hn : n ≤ specs.length) :
    w.heap.Extends (builderAt C conns listener_tls previous specs w n).world.heap := by
  refine builderAt_inv C conns listener_tls previous specs w (fun b => w.heap.Extends b.world.heap) (.refl _) ?_ ?_ n hn
  · intro b names h
    exact h
  · intro b ws n spec _ _ _ h
    rw [consider_world]
    exact h.trans (grows_judge C _ listener_tls previous spec b.world)

variable {C conns listener_tls previous specs w}
  (hp : ∀ t, previous = some t → t.Statuses w.heap)
include hp

/-- A judgement counts the route's traffic for its spec, unless it retains a route of another
group. -/
theorem judged_counted {held : Nat → Bool} {spec : RouteSpec} {w' : World D} {r : Route}
    (hgrown : w.heap.Extends w'.heap) (hr : (judge C held listener_tls previous spec w').1.fate.route = some r)
    (hkeeps : ∀ p, Retained C held listener_tls previous spec w' p → p.metric_identity.group = spec.metrics_group) :
    CountedFor previous spec.sni spec r := by
  rcases judge_identity C held listener_tls previous spec w' hr with
    ⟨p, hprev, hgroup, hid⟩ | ⟨hother, hroute, hgroup, hle⟩ | ⟨p, hretained, hother⟩
  · refine ⟨?_, ?_, ?_, ?_⟩
    · rw [hid]
      exact (previous_identity hp hprev).1
    · rw [hid, hgroup]
    · intro p' hp'
      rw [hprev] at hp'
      cases hp'
      exact iff_of_true hid hgroup
    · intro hnone
      exact absurd hgroup (hnone p hprev)
  · have hnew (k' : Bytes) (p : Route) (hprev : previousRoute previous k' = some p) :
        r.metric_identity.arc ≠ p.metric_identity.arc := by
      have hold := (previous_identity hp hprev).2
      have hnext := hgrown.next
      omega
    refine ⟨hroute, hgroup, ?_, fun _ => hnew⟩
    intro p hprev
    refine iff_of_false ?_ (hother p hprev)
    intro hid
    exact hnew spec.sni p hprev (congrArg _ hid)
  · exact absurd (hkeeps p hretained) hother

variable (C conns listener_tls specs) in
/-- A build counts every route's traffic for the spec that decides its name exactly when it
does not retain a route whose spec has another group. -/
theorem built_counted_iff :
    (∀ k r, (k, r) ∈ (build_route_table C conns listener_tls previous specs w).1.routes →
      ∃ n spec, decider specs k = some n ∧ specs[n]? = some spec ∧ CountedFor previous k spec r) ↔
    ∀ k, ¬ ChangesGroup C conns listener_tls previous specs w k := by
  constructor
  · rintro hcounted k ⟨n, spec, p, hd, hn, hretained, hother⟩
    obtain ⟨r, hr, hid⟩ := hretained.carried
    obtain ⟨n', spec', hd', hn', hfor⟩ := hcounted k r ((mem_built_routes ..).2 ⟨n, spec, hd, hn, hr⟩)
    rw [hd] at hd'
    cases hd'
    rw [hn] at hn'
    cases hn'
    rw [← hid] at hother
    exact hother hfor.group
  · intro hkeeps k r hr
    obtain ⟨n, spec, hd, hn, hjudged⟩ := (mem_built_routes ..).1 hr
    refine ⟨n, spec, hd, hn, ?_⟩
    obtain ⟨spec', hn', hsni⟩ := decider_names hd
    rw [hn] at hn'
    cases hn'
    subst hsni
    refine judged_counted hp (builderAt_grown C conns listener_tls previous specs w (decider_lt specs hd).le) hjudged
      ?_
    intro p hretained
    by_contra hother
    exact hkeeps spec.sni ⟨n, spec, p, hd, hn, hretained, hother⟩

end Table

/-! ## Runs -/

section Runs

variable {D : Type} [DecidableEq D] {C : Crates D}

theorem run_statuses {heap : Heap} {s : Proxy D} {clock : Nat} {log : List (Event × Unit)}
    (h : (reloads C).Run (.fresh heap) s clock log) : ∀ t, s.live = some t → t.Statuses s.world.heap := by
  refine h.inv (fun s _ _ => ∀ t, s.live = some t → t.Statuses s.world.heap) ?_ ?_
  · intro t ht
    cases ht
  · intro s _ _ e hs _
    cases e with
    | commit conns listener_tls specs =>
      rintro t ⟨⟩
      exact (built_statuses C conns listener_tls specs hs).1
    | abandon conns listener_tls specs =>
      exact fun t ht => (hs t ht).mono (grows_build C listener_tls s.live conns specs s.world).next
    | sweep held => exact hs
    | resolve held cert mtls http2 =>
      exact fun t ht => (hs t ht).mono (grows_get_or_build_unmarked C held cert mtls http2 s.world).next
    | serve refused_at now_ns wall_ns => exact fun t ht => (hs t ht).mono (Nat.le_refl _)

/-- **Traffic is counted for the configured tenant.** After any run of builds, committed or
abandoned, with any failures, a table built next counts the traffic of each of its routes for
the name and the group of the spec that decides it, and continues the counters of the live
table exactly where that has the name in that group; this exactly when the build does not
retain a route whose spec has another group. -/
theorem reload_counts_iff {heap : Heap} {s : Proxy D} {clock : Nat} {log : List (Event × Unit)}
    (h : (reloads C).Run (.fresh heap) s clock log) (conns : Nat → Bool) (listener_tls : ListenerTlsSpec)
    (specs : List RouteSpec) :
    (∀ k r, (k, r) ∈ (build_route_table C conns listener_tls s.live specs s.world).1.routes →
      ∃ n spec, decider specs k = some n ∧ specs[n]? = some spec ∧ CountedFor s.live k spec r) ↔
    ∀ k, ¬ ChangesGroup C conns listener_tls s.live specs s.world k :=
  built_counted_iff C conns listener_tls specs (run_statuses h)

end Runs

/-- The route moves to another tenant group while its key is being rotated: it is carried
forward, and its traffic is still counted for the group it was in before. -/
theorem carried_keeps_group :
    let first := { guardedSpec with metrics_group := bytes "a" }
    let next := { guardedSpec with metrics_group := bytes "b", key_pem := some (pem PRIVATE_KEY "next") }
    let s := ((reloads literalCrates).step (.fresh {}) (.commit (fun _ => false) {} [first])).2
    (build_route_table literalCrates (fun _ => false) {} s.live [next] s.world).1.routes.map
      (fun e => (e.1, e.2.metric_identity.group)) = [(next.sni, bytes "a")] := by
  decide +kernel

/-- The key of a route is being rotated while its group stays: its counters go on. -/
theorem rotation_counts_on :
    let s := ((reloads literalCrates).step (.fresh {}) (.commit (fun _ => false) {} [guardedSpec])).2
    ∃ r p, (rotatingSpec.sni, r) ∈ (build_route_table literalCrates (fun _ => false) {} s.live
      [rotatingSpec] s.world).1.routes ∧ previousRoute s.live rotatingSpec.sni = some p ∧
      r.metric_identity = p.metric_identity := by
  intro s
  have hrun : (reloads literalCrates).Run (.fresh {}) s 0 [(.commit (fun _ => false) {} [guardedSpec], ())] :=
    Machine.Run.step (Event.commit (fun _ => false) {} [guardedSpec]) .nil (Nat.le_refl _)
  have hnames : ((build_route_table literalCrates (fun _ => false) {} s.live [rotatingSpec] s.world).1.routes.map
      (·.1)) = [rotatingSpec.sni] := by decide +kernel
  have hbefore : (previousRoute s.live rotatingSpec.sni).map (·.metric_identity.group) =
      some rotatingSpec.metrics_group := by decide +kernel
  -- the only spec is at position 0
  have honly {n : Nat} {spec : RouteSpec} (hn : [rotatingSpec][n]? = some spec) : spec = rotatingSpec :=
    List.mem_singleton.1 (List.mem_of_getElem? hn)
  obtain ⟨⟨k, r⟩, hr, rfl⟩ := List.mem_map.1 (hnames ▸ List.mem_singleton_self _)
  obtain ⟨p, hp, hgroup⟩ := Option.map_eq_some_iff.1 hbefore
  obtain ⟨n, spec, -, hn, hfor⟩ := (reload_counts_iff hrun (fun _ => false) {} [rotatingSpec]).2 (by
    rintro k ⟨n, spec, p', -, hn, hretained, hother⟩
    obtain rfl := honly hn
    have hsame := hretained.previous_route
    rw [hp] at hsame
    cases hsame
    exact hother hgroup) _ r hr
  obtain rfl := honly hn
  exact ⟨r, p, hr, hp, (hfor.continued p hp).2 hgroup⟩

end Symphony.Router
