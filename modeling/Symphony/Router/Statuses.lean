import Symphony.Router.Heap
/-!
# Failover statuses across reloads

A route's reported state lives in its failover's status, which a reload hands on only
from the previous failover of the same name and metric identity. This module says where
the status of an installed route comes from (`StatusOrigin`), that no two names of a
table share one, and that `failover_routes` lists the installed routes that have
failover.
-/

namespace Symphony.Router

open Symphony.Failover (FailoverPolicy)

/-! ## One route -/

theorem assemble_identity (spec : RouteSpec) (listener_tls : ListenerTlsSpec) (tls_config : Option ServerConfig)
    (destination : Destination) (destination_h2 : Option Destination) (h : Heap) :
    let a := assemble spec listener_tls tls_config destination destination_h2 h
    a.1.metric_identity.route = spec.sni ∧ a.1.metric_identity.group = spec.metrics_group ∧
      h.next ≤ a.1.metric_identity.arc ∧ a.1.metric_identity.arc < a.2.next := by
  have hgrow := (grows_limiter spec h).next
  refine ⟨rfl, rfl, Nat.le_succ_of_le hgrow, Nat.lt_succ_self _⟩

theorem Failover.new_status_origin (policy : FailoverPolicy) (previous : Option Failover)
    (tcp_health : Option SlotHealth) (same_load_source : Bool) (h : Heap) :
    let a := Failover.new policy previous tcp_health same_load_source h
    (∀ f, previous = some f → a.1.status = f.status) ∧
      (previous = none → h.next ≤ a.1.status ∧ a.1.status < a.2.next) := by
  have hpeers := (grows_mapM (grows_new_peer previous) policy.peers h).next
  have hspill := (grows_new_spill policy previous same_load_source ((policy.peers.mapM (new_peer previous)) h).2).next
  constructor
  · rintro f rfl
    rfl
  · rintro rfl
    exact ⟨hpeers.trans hspill, Nat.lt_succ_of_lt (Nat.lt_succ_self _)⟩

/-- Where the status of a route's failover comes from, in a build that began with `h₀`
objects: handed on with the metric identity, or made when no failover of this name had
the route's group. -/
def StatusOrigin (h₀ : Heap) (previous : Option Route) (r : Route) (f' : Failover) : Prop :=
  (∃ p f, previous = some p ∧ p.failover = some f ∧ f'.status = f.status ∧ r.metric_identity = p.metric_identity) ∨
    h₀.next ≤ f'.status ∧ ∀ p f, previous = some p → p.failover = some f →
      p.metric_identity.group ≠ r.metric_identity.group

section Finish

variable {previous : Option Route} {down : Bool} {r : Route} {policy : Option FailoverPolicy} {h : Heap} {f' : Failover}

theorem build_failover_status (hf : (build_failover previous down r policy h).1 = some f') :
    (∃ p f, previous = some p ∧ p.metric_identity.arc = r.metric_identity.arc ∧ p.failover = some f ∧
      f'.status = f.status) ∨
    (∀ p f, previous = some p → p.failover = some f → p.metric_identity.arc ≠ r.metric_identity.arc) ∧
      h.next ≤ f'.status ∧ f'.status < (build_failover previous down r policy h).2.next := by
  cases policy with
  | none => cases hf
  | some policy =>
    have htcp := (grows_tcp_health previous down r.destination h).next
    generalize hpf : (previous.filter fun p => p.metric_identity.arc == r.metric_identity.arc).bind (·.failover) = pf
    have hbuilt : build_failover previous down r (some policy) h =
        (some (Failover.new policy pf (build_tcp_health previous down r.destination h).1 (same_load_sources previous r)
            (build_tcp_health previous down r.destination h).2).1,
          (Failover.new policy pf (build_tcp_health previous down r.destination h).1 (same_load_sources previous r)
            (build_tcp_health previous down r.destination h).2).2) := by
      subst hpf
      rfl
    have hnew := Failover.new_status_origin policy pf (build_tcp_health previous down r.destination h).1
      (same_load_sources previous r) (build_tcp_health previous down r.destination h).2
    rw [hbuilt] at hf ⊢
    obtain rfl := Option.some.inj hf
    cases pf with
    | some f =>
      obtain ⟨p, hfilter, hpf⟩ := Option.bind_eq_some_iff.1 hpf
      obtain ⟨hprev, harc⟩ := Option.filter_eq_some_iff.1 hfilter
      exact .inl ⟨p, f, hprev, by simpa using harc, hpf, hnew.1 f rfl⟩
    | none =>
      obtain ⟨hle, hlt⟩ := hnew.2 rfl
      refine .inr ⟨?_, htcp.trans hle, hlt⟩
      rintro p f rfl hf harc
      simp [harc, hf] at hpf

end Finish

theorem retrack_carried_identity (carried track : Bool) (r : Route) (h : Heap) :
    (retrack_carried carried track r h).1.metric_identity = r.metric_identity := by
  unfold retrack_carried
  split
  · unfold retrack_route
    cases r.destination_h2 <;> rfl
  · rfl

/-! ## One spec -/

section Judge

variable {D : Type} [DecidableEq D] (C : Crates D) (held : Nat → Bool) (listener_tls : ListenerTlsSpec)
  (previous : Option (RouteTable D)) (spec : RouteSpec) (w : World D)

/-- The route of this name in the table before. -/
def previousRoute (previous : Option (RouteTable D)) (sni : Bytes) : Option Route :=
  previous.bind fun t => t.get_for_spec_sni sni

/-- A route that was built between `h` and `h'` has a new identity. -/
def Fresh (h h' : Heap) (spec : RouteSpec) (r : Route) : Prop :=
  r.metric_identity.route = spec.sni ∧ r.metric_identity.group = spec.metrics_group ∧ h.next ≤ r.metric_identity.arc ∧
    r.metric_identity.arc < h'.next

/-- The identity a route has that was judged between `h₀` and `h`, and where its status is
from. -/
structure JudgedAs (h₀ h : Heap) (previous : Option Route) (spec : RouteSpec) (r : Route) : Prop where
  identity : (∃ p, previous = some p ∧ r.metric_identity = p.metric_identity) ∨ Fresh h₀ h spec r
  status : ∀ f', r.failover = some f' → StatusOrigin h₀ previous r f'
  allocated : ∀ f', r.failover = some f' → f'.status < h.next ∨ ∃ p f, previous = some p ∧ p.failover = some f ∧
    f'.status = f.status
  failover : r.failover.isSome = (read_failover spec).policy.isSome

variable {r : Route} {h₁ : Heap} {p₀ : Option Route}

variable {spec} in
theorem JudgedAs.mono {h₀ h h' : Heap} (hj : JudgedAs h₁ h p₀ spec r) (h₀₁ : h₀.next ≤ h₁.next)
    (hn : h.next ≤ h'.next) : JudgedAs h₀ h' p₀ spec r := by
  refine ⟨?_, fun f' hf => ?_, fun f' hf => ?_, hj.failover⟩
  · refine hj.identity.imp id fun hfresh => ?_
    obtain ⟨hroute, hgroup, hle, hlt⟩ := hfresh
    exact ⟨hroute, hgroup, h₀₁.trans hle, Nat.lt_of_lt_of_le hlt hn⟩
  · exact (hj.status f' hf).imp id fun hnew => ⟨h₀₁.trans hnew.1, hnew.2⟩
  · exact (hj.allocated f' hf).imp (fun hlt => Nat.lt_of_lt_of_le hlt hn) id

variable {previous spec w}

/-- What `keep_identity` leaves: the previous route's identity, or the new one where the
group is another. -/
theorem keep_identity_cases {h h' : Heap}
    (hr : p₀.map (·.metric_identity) = some r.metric_identity ∨
      Fresh h h' spec r) :
    (∃ p, p₀ = some p ∧ (keep_identity p₀ spec r).metric_identity = p.metric_identity) ∨
      Fresh h h' spec (keep_identity p₀ spec r) ∧ ∀ p, p₀ = some p → p.metric_identity.group ≠ spec.metrics_group := by
  cases p₀ with
  | none =>
    refine .inr ⟨hr.resolve_left (by simp), ?_⟩
    intro p hp
    cases hp
  | some p =>
    unfold keep_identity
    dsimp only
    split
    · exact .inl ⟨p, rfl, rfl⟩
    · next hgroup =>
      rcases hr with hr | hr
      · exact .inl ⟨p, rfl, (Option.some.inj hr).symm⟩
      · refine .inr ⟨hr, ?_⟩
        rintro _ ⟨⟩
        exact hgroup

theorem build_failover_judgedAs {h₀ h : Heap} {down : Bool}
    (hid : (∃ p, p₀ = some p ∧ r.metric_identity = p.metric_identity) ∨
      Fresh h₀ h₁ spec r ∧ ∀ p, p₀ = some p → p.metric_identity.group ≠ spec.metrics_group)
    (hp : ∀ p, p₀ = some p → p.metric_identity.arc < h₀.next) (h01 : h₀.next ≤ h₁.next) (h1 : h₁.next ≤ h.next) :
    JudgedAs h₀ (build_failover p₀ down r (read_failover spec).policy h).2 p₀ spec
      { r with failover := (build_failover p₀ down r (read_failover spec).policy h).1 } := by
  have hgrow := (grows_build_failover p₀ down (read_failover spec).policy r h).next
  refine ⟨?_, fun f' hf => ?_, fun f' hf => ?_, ?_⟩
  · refine hid.imp id fun hfresh => ?_
    obtain ⟨⟨hroute, hgroup, hle, hlt⟩, -⟩ := hfresh
    exact ⟨hroute, hgroup, hle, Nat.lt_of_lt_of_le hlt (h1.trans hgrow)⟩
  · rcases build_failover_status hf with ⟨p, f, hprev, harc, hpf, hs⟩ | ⟨hne, hle, -⟩
    · refine .inl ⟨p, f, hprev, hpf, hs, ?_⟩
      rcases hid with ⟨p', hp', hid⟩ | ⟨⟨-, -, hle, -⟩, -⟩
      · rw [hprev] at hp'
        cases hp'
        exact hid
      · -- a new identity is not the previous one's
        have := hp p hprev
        omega
    · refine .inr ⟨by omega, fun p f hprev hpf => ?_⟩
      rcases hid with ⟨p', hp', hid⟩ | ⟨⟨-, hgroup, -, -⟩, hother⟩
      · rw [hprev] at hp'
        cases hp'
        exact absurd (congrArg RouteMetricIdentity.arc hid).symm (hne p f hprev hpf)
      · exact fun heq => hother p hprev (heq.trans hgroup)
  · rcases build_failover_status hf with ⟨p, f, hprev, -, hpf, hs⟩ | ⟨-, -, hlt⟩
    · exact .inr ⟨p, f, hprev, hpf, hs⟩
    · exact .inl hlt
  · cases (read_failover spec).policy <;> rfl

omit [DecidableEq D] in
/-- A route that has its identity from the previous route, or a new one, once it is
finished. -/
theorem finished_judgedAs {carried : Bool} {allowed_sources : Option SourceAllowlist} {r₀ : Route}
    (hp : ∀ p, previousRoute previous spec.sni = some p → p.metric_identity.arc < w.heap.next)
    (hh : w.heap.next ≤ h₁.next)
    (hr₀ : (previousRoute previous spec.sni).map (·.metric_identity) = some r₀.metric_identity ∨
      Fresh w.heap h₁ spec r₀) :
    JudgedAs w.heap (finished previous spec w.heap carried allowed_sources r₀ h₁).2
      (previousRoute previous spec.sni) spec
      (finished previous spec w.heap carried allowed_sources r₀ h₁).1 := by
  unfold finished
  rw [finish_route_eq]
  have hm := retrack_carried_identity carried (read_failover spec).policy.isSome { r₀ with allowed_sources } h₁
  have hnext := (grows_retrack_carried carried { r₀ with allowed_sources } (read_failover spec).policy.isSome h₁).next
  refine build_failover_judgedAs (keep_identity_cases ?_) hp hh hnext
  unfold Fresh
  rw [hm]
  exact hr₀

variable (spec w) in
theorem judge_judgedAs (hp : ∀ p, previousRoute previous spec.sni = some p → p.metric_identity.arc < w.heap.next)
    (hr : (judge C held listener_tls previous spec w).1.fate.route = some r) :
    JudgedAs w.heap (judge C held listener_tls previous spec w).2.heap (previousRoute previous spec.sni) spec r := by
  rcases judge_cases C held listener_tls previous spec w with
    ⟨hf, -⟩ | ⟨allowed_sources, r₀, w₁, -, hb, hf, hw⟩ | ⟨allowed_sources, e, r₀, w₁, -, hb, hl, hf, hw⟩
  · rw [hf] at hr
    cases hr
  · rw [hf] at hr
    cases hr
    rw [hw]
    obtain ⟨tls_config, h₁, destination, destination_h2, h₂, hx₁, -, hx₂, hasm, hx₃⟩ := build_route_grown hb
    have hid := assemble_identity spec listener_tls tls_config destination destination_h2 h₂
    rw [hasm] at hid
    obtain ⟨hroute, hgroup, hle, hlt⟩ := hid
    have hgrow := (hx₁.trans hx₂).next
    exact finished_judgedAs hp (hgrow.trans hx₃.next) (.inr ⟨hroute, hgroup, hgrow.trans hle, hlt⟩)
  · rw [hf] at hr
    cases hr
    rw [hw]
    have hgrow := (grows_build_route C held spec listener_tls (inheritance previous spec w.heap)).of_eq hb
    have hprev : previousRoute previous spec.sni = some r₀ := last_good_state previous hl w.heap
    exact finished_judgedAs hp hgrow.next (.inl (by rw [hprev]; rfl))

end Judge

/-! ## One table -/

/-- The entry of a route in `failover_routes`. -/
def Route.entry (r : Route) (f : Failover) : FailoverRoute := ⟨r.metric_identity, f, r.destination, r.destination_h2⟩

section Table

variable {D : Type} [DecidableEq D]

/-- The installed routes with failover, their entries, and their identities and statuses:
each name has its own. -/
structure RouteTable.Statuses (h : Heap) (t : RouteTable D) : Prop where
  named : ∀ k r, t.get_for_spec_sni k = some r → r.metric_identity.route = k
  identity : ∀ k r, t.get_for_spec_sni k = some r → r.metric_identity.arc < h.next
  allocated : ∀ k r f, t.get_for_spec_sni k = some r → r.failover = some f → f.status < h.next
  distinct : ∀ k r f k' r' f', t.get_for_spec_sni k = some r → r.failover = some f → t.get_for_spec_sni k' = some r' →
    r'.failover = some f' → f.status = f'.status → k = k'
  listed : ∀ e, e ∈ t.failover_routes ↔ ∃ k r f, t.get_for_spec_sni k = some r ∧ r.failover = some f ∧ e = r.entry f

variable {k : Bytes} {f : Failover} {p : Route}

omit [DecidableEq D] in
theorem RouteTable.Statuses.mono {h h' : Heap} {t : RouteTable D} (hs : t.Statuses h) (hn : h.next ≤ h'.next) :
    t.Statuses h' where
  named := hs.named
  identity k r hk := Nat.lt_of_lt_of_le (hs.identity k r hk) hn
  allocated k r f hk hf := Nat.lt_of_lt_of_le (hs.allocated k r f hk hf) hn
  distinct := hs.distinct
  listed := hs.listed

variable {C : Crates D} {conns : Nat → Bool} {listener_tls : ListenerTlsSpec} {previous : Option (RouteTable D)}
  {specs : List RouteSpec} {w : World D}

omit [DecidableEq D] in
theorem record_failover_routes (b : Builder D) (sni : Bytes) (j : Judged D) :
    (b.record sni j).failover_routes = b.failover_routes ++
      (j.fate.route.toList.flatMap fun r => r.failover.toList.map r.entry) := by
  unfold Builder.record
  cases j.fate.route with
  | none =>
    unfold Builder.tombstone
    dsimp only
    split <;> simp [Builder.report]
  | some r =>
    unfold Builder.install Builder.insert_route
    dsimp only
    split
    · simp [Builder.enlist, Builder.report, Route.entry]
    · split <;> simp [Builder.enlist, Builder.report, Route.entry]

/-- A builder part of the way: every route was judged against the table before. -/
structure BuildStatuses (previous : Option (RouteTable D)) (specs : List RouteSpec) (w : World D) (b : Builder D) :
    Prop extends b.toRouteTable.Statuses b.world.heap where
  grown : w.heap.Extends b.world.heap
  judged : ∀ k r, b.get_for_spec_sni k = some r →
    ∃ spec ∈ specs, spec.sni = k ∧ JudgedAs w.heap b.world.heap (previousRoute previous k) spec r

variable (hp : ∀ t, previous = some t → t.Statuses w.heap)

include hp

omit [DecidableEq D] in
theorem previous_identity (h : previousRoute previous k = some p) :
    p.metric_identity.route = k ∧ p.metric_identity.arc < w.heap.next := by
  obtain ⟨t, ht, hget⟩ := Option.bind_eq_some_iff.1 h
  exact ⟨(hp t ht).named k p hget, (hp t ht).identity k p hget⟩

omit [DecidableEq D] in
theorem previous_status (h : previousRoute previous k = some p) (hf : p.failover = some f) :
    f.status < w.heap.next := by
  obtain ⟨t, ht, hget⟩ := Option.bind_eq_some_iff.1 h
  exact (hp t ht).allocated k p f hget hf

omit [DecidableEq D] in
theorem previous_distinct {k' : Bytes} {p' : Route} {f' : Failover} (h : previousRoute previous k = some p)
    (hf : p.failover = some f) (h' : previousRoute previous k' = some p') (hf' : p'.failover = some f')
    (hs : f.status = f'.status) : k = k' := by
  obtain ⟨t, rfl, hget⟩ := Option.bind_eq_some_iff.1 h
  exact (hp t rfl).distinct k p f k' p' f' hget hf h' hf' hs

section Judged

variable {h₀ h : Heap} {spec : RouteSpec} {r : Route} (hj : JudgedAs h₀ h (previousRoute previous spec.sni) spec r)
  (hw : w.heap.next ≤ h₀.next) (hh : h₀.next ≤ h.next)

include hj

omit [DecidableEq D] in
theorem judged_named : r.metric_identity.route = spec.sni := by
  rcases hj.identity with ⟨p, hprev, hid⟩ | ⟨hroute, -⟩
  · rw [hid]
    exact (previous_identity hp hprev).1
  · exact hroute

include hw hh

omit [DecidableEq D] in
theorem judged_identity : r.metric_identity.arc < h.next := by
  rcases hj.identity with ⟨p, hprev, hid⟩ | ⟨-, -, -, hlt⟩
  · rw [hid]
    have := (previous_identity hp hprev).2
    omega
  · exact hlt

omit [DecidableEq D] in
theorem judged_allocated (hf : r.failover = some f) : f.status < h.next := by
  rcases hj.allocated f hf with hlt | ⟨p, f₀, hprev, hf₀, hs⟩
  · exact hlt
  · have := previous_status hp hprev hf₀
    omega

end Judged

omit [DecidableEq D] in
/-- A judged route does not share its status with the routes before it. -/
theorem judged_distinct {b : Builder D} {spec : RouteSpec} {h : Heap} {r r' : Route} {f' : Failover}
    (hb : BuildStatuses previous specs w b) (hj : JudgedAs b.world.heap h (previousRoute previous spec.sni) spec r)
    (hf : r.failover = some f) (hk : b.get_for_spec_sni k = some r') (hf' : r'.failover = some f')
    (hs : f.status = f'.status) : spec.sni = k := by
  have hlt := hb.allocated k r' f' hk hf'
  obtain ⟨spec', -, -, hj'⟩ := hb.judged k r' hk
  rcases hj.status f hf with ⟨p, f₀, hprev, hf₀, hs₀, -⟩ | ⟨hle, -⟩
  · have hold := previous_status hp hprev hf₀
    rcases hj'.status f' hf' with ⟨p', f₀', hprev', hf₀', hs₀', -⟩ | ⟨hnew, -⟩
    · exact previous_distinct hp hprev hf₀ hprev' hf₀' (by omega)
    · omega
  · omega

omit [DecidableEq D] in
/-- One more route: it has a status of its own, whether handed on or new. -/
theorem BuildStatuses.add {b b' : Builder D} {spec : RouteSpec} {fate : Option Route}
    (h : BuildStatuses previous specs w b)
    (hspec : spec ∈ specs) (hblank : b.get_for_spec_sni spec.sni = none)
    (hlive : ∀ k, b'.get_for_spec_sni k = if k = spec.sni then fate else b.get_for_spec_sni k)
    (hlist : b'.failover_routes = b.failover_routes ++
      fate.toList.flatMap fun r => r.failover.toList.map r.entry)
    (hgrow : b.world.heap.Extends b'.world.heap)
    (hj : ∀ r, fate = some r → JudgedAs b.world.heap b'.world.heap (previousRoute previous spec.sni) spec r) :
    BuildStatuses previous specs w b' := by
  have hnext := hgrow.next
  have hw := h.grown.next
  have hold := h.toStatuses.mono hnext
  -- a route of the new table is the one just judged or one of before
  have hcases (k : Bytes) (r : Route) (hk : b'.get_for_spec_sni k = some r) :
      k = spec.sni ∧ fate = some r ∨ b.get_for_spec_sni k = some r := by
    rw [hlive] at hk
    split at hk
    · next hks => exact .inl ⟨hks, hk⟩
    · exact .inr hk
  have hkept (k : Bytes) (r : Route) (hk : b.get_for_spec_sni k = some r) : b'.get_for_spec_sni k = some r := by
    rw [hlive, if_neg, hk]
    rintro rfl
    rw [hblank] at hk
    cases hk
  refine { named := ?_, identity := ?_, allocated := ?_, distinct := ?_, listed := ?_, grown := h.grown.trans hgrow,
           judged := ?_ }
  · intro k r hk
    rcases hcases k r hk with ⟨rfl, hr⟩ | hk
    · exact judged_named hp (hj r hr)
    · exact hold.named k r hk
  · intro k r hk
    rcases hcases k r hk with ⟨rfl, hr⟩ | hk
    · exact judged_identity hp (hj r hr) hw hnext
    · exact hold.identity k r hk
  · intro k r f hk hf
    rcases hcases k r hk with ⟨rfl, hr⟩ | hk
    · exact judged_allocated hp (hj r hr) hw hnext hf
    · exact hold.allocated k r f hk hf
  · intro k r f k' r' f' hk hf hk' hf' hs
    rcases hcases k r hk with ⟨rfl, hr⟩ | hk <;> rcases hcases k' r' hk' with ⟨rfl, hr'⟩ | hk'
    · rfl
    · exact judged_distinct hp h (hj r hr) hf hk' hf' hs
    · exact (judged_distinct hp h (hj r' hr') hf' hk hf hs.symm).symm
    · exact h.distinct k r f k' r' f' hk hf hk' hf' hs
  · intro e
    rw [hlist, List.mem_append, h.listed]
    constructor
    · rintro (⟨k, r, f, hk, hf, he⟩ | he)
      · exact ⟨k, r, f, hkept k r hk, hf, he⟩
      · obtain ⟨r, hr, he⟩ := List.mem_flatMap.1 he
        obtain ⟨f, hf, he⟩ := List.mem_map.1 he
        refine ⟨spec.sni, r, f, ?_, Option.mem_toList.1 hf, he.symm⟩
        rw [hlive, if_pos rfl]
        exact Option.mem_toList.1 hr
    · rintro ⟨k, r, f, hk, hf, rfl⟩
      rcases hcases k r hk with ⟨rfl, hr⟩ | hk
      · right
        simp [hr, hf]
      · exact .inl ⟨k, r, f, hk, hf, rfl⟩
  · intro k r hk
    rcases hcases k r hk with ⟨rfl, hr⟩ | hk
    · exact ⟨spec, hspec, rfl, (hj r hr).mono hw (Nat.le_refl _)⟩
    · obtain ⟨spec', hmem, hsni, hj'⟩ := h.judged k r hk
      exact ⟨spec', hmem, hsni, hj'.mono (Nat.le_refl _) hnext⟩

variable (C conns listener_tls specs)

/-- A build keeps statuses apart, and judges every route against the table before. -/
theorem built_statuses :
    (build_route_table C conns listener_tls previous specs w).1.Statuses
        (build_route_table C conns listener_tls previous specs w).2.heap ∧
      ∀ k r, (build_route_table C conns listener_tls previous specs w).1.get_for_spec_sni k = some r →
        ∃ spec ∈ specs, spec.sni = k ∧ JudgedAs w.heap (build_route_table C conns listener_tls previous specs w).2.heap
          (previousRoute previous k) spec r := by
  rw [build_route_table_eq]
  refine (fun h : BuildStatuses previous specs w _ =>
    ⟨⟨h.named, h.identity, h.allocated, h.distinct, h.listed⟩, h.judged⟩) ?_
  apply builder_inv C conns listener_tls previous specs w (BuildStatuses previous specs w)
  · have hnone (k : Bytes) (r : Route) : (Builder.start conns previous w).get_for_spec_sni k ≠ some r := by
      rw [live_of_status (start_status conns previous w k)]
      nofun
    refine {
      named := fun k r hk => absurd hk (hnone k r)
      identity := fun k r hk => absurd hk (hnone k r)
      allocated := fun k r _ hk => absurd hk (hnone k r)
      distinct := fun k r _ _ _ _ hk => absurd hk (hnone k r)
      listed := fun e => ⟨?_, ?_⟩
      grown := .refl _
      judged := fun k r hk => absurd hk (hnone k r) }
    · intro he
      cases he
    · rintro ⟨k, r, f, hk, -⟩
      exact absurd hk (hnone k r)
  · intro b names h
    exact { h with }
  · intro b ws n spec hn hd hb h
    have hgrow := grows_judge C (held_by conns previous b.toRouteTable) listener_tls previous spec b.world
    have harc (p : Route) (hprev : previousRoute previous spec.sni = some p) :
        p.metric_identity.arc < b.world.heap.next :=
      Nat.lt_of_lt_of_le (previous_identity hp hprev).2 h.grown.next
    refine h.add hp (List.mem_of_getElem? hn) (live_of_status hb)
      (consider_live (b := { b with configured_wildcards := ws }) hb) (record_failover_routes _ _ _) ?_ ?_
    · rw [consider_world]
      exact hgrow
    · intro r hr
      rw [consider_world]
      exact judge_judgedAs C _ listener_tls spec b.world harc hr

end Table

end Symphony.Router
