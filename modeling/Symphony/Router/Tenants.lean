import Symphony.Router.Blur
import Symphony.Router.Down
import Symphony.Router.Sessions
/-!
# One tenant's spec and the others' routes

Two builds from one state whose spec lists differ in one spec, under the same name. What
they share while they run is the heap, where they differ in new identities only, and the
config cache, which changes nothing about what a request returns as long as that is a
function of the request (`TlsFunction`). So a name that another spec decides resolves to
the same route in both tables, up to new identities.
-/

namespace Symphony.Router

open Lib (Act Alike Machine OkRel Twin)
open Symphony.Failover (FailoverPolicy)

/-! ## TLS as a function of the request -/

section Tls

variable {D : Type} [DecidableEq D] {C : Crates D}

/-- What the request is built to, whichever object it becomes. -/
def Request.tls (C : Crates D) (q : Request) : Option ServerConfig := (q.build C 0).toOption.map ServerConfig.content

/-- The TLS build is a function of the certificate, the key, the client-CA policy and the http2 flag. -/
def Crates.Functional (C : Crates D) : Prop :=
  ∀ (q : Request) arc, (q.build C arc).toOption.map ServerConfig.content = q.tls C

/-- For the requests `asked`, what a build gives is a function of the request, and so is what
the cache gives. -/
structure TlsFunction (C : Crates D) (cache : TlsConfigCache D) (asked : Request → Prop) : Prop where
  build : ∀ q, asked q → ∀ arc, (q.build C arc).toOption.map ServerConfig.content = q.tls C
  keyed : ∀ q q', asked q → asked q' → q.key C = q'.key C → q.tls C = q'.tls C
  cached : ∀ q config, asked q → cache.cache.lookup (q.key C) = some config → q.tls C = some config.content

/-- A world that a build from the heap `h₀` can come to. -/
structure World.Serves (C : Crates D) (asked : Request → Prop) (h₀ : Heap) (w : World D) : Prop where
  grown : h₀.Extends w.heap
  tls : TlsFunction C w.cache asked

variable {asked : Request → Prop} {h₀ : Heap}

theorem TlsFunction.shrink {cache cache' : TlsConfigCache D} (h : TlsFunction C cache asked)
    (hc : ∀ k config, cache'.cache.lookup k = some config → cache.cache.lookup k = some config) :
    TlsFunction C cache' asked :=
  ⟨h.build, h.keyed, fun q config hq hl => h.cached q config hq (hc _ _ hl)⟩

/-- A request returns what the function says. -/
theorem Looked.serves {held : Nat → Bool} {q : Request} {w w' : World D} {answer : Except SymphonyError ServerConfig}
    (hl : Looked C held q w answer w') (hw : w.Serves C asked h₀) (hq : asked q) :
    answer.toOption.map ServerConfig.content = q.tls C ∧ w'.Serves C asked h₀ := by
  have hgrown : h₀.Extends (alloc w.heap).2 := hw.grown.trans (grows_alloc w.heap)
  cases hl with
  | hit hlook hheap hcache =>
    refine ⟨(hw.tls.cached q _ hq hlook).symm, by rw [hheap]; exact hw.grown, ?_⟩
    apply hw.tls.shrink
    intro k config hl
    rwa [hcache] at hl
  | built hlook hbuild hheap hcache =>
    have hF := hw.tls.build q hq w.heap.next
    rw [hbuild] at hF
    refine ⟨hF, by rw [hheap]; exact hgrown, hw.tls.build, hw.tls.keyed, ?_⟩
    intro q' config hq' hl
    rw [hcache] at hl
    -- the new entry serves every request with this key
    rcases lookup_insert_cases held hl with ⟨hk, rfl⟩ | hold
    · rw [hw.tls.keyed q' q hq' hq hk]
      exact hF.symm
    · exact hw.tls.cached q' config hq' hold
  | failed hlook hbuild hheap hcache =>
    have hF := hw.tls.build q hq w.heap.next
    rw [hbuild] at hF
    refine ⟨hF, by rw [hheap]; exact hgrown, ?_⟩
    apply hw.tls.shrink
    intro k config hl
    rwa [hcache] at hl

variable (held held' : Nat → Bool)

theorem twin_get_or_build {q : Request} (hq : asked q) :
    Act.Twin (World.Serves C asked h₀) (Alike ServerConfig.content) (get_or_build C held q.cert q.mtls q.http2)
      (get_or_build C held' q.cert q.mtls q.http2) := by
  intro w w' hw hw'
  obtain ⟨ha, h₁⟩ := (get_or_build_looked C held q w).serves hw hq
  obtain ⟨ha', h₁'⟩ := (get_or_build_looked C held' q w').serves hw' hq
  exact ⟨Lib.okRel_alike (ha.trans ha'.symm), h₁, h₁'⟩

theorem twin_build_tls {spec : RouteSpec} {listener_tls : ListenerTlsSpec}
    (hq : ∀ q, requested spec listener_tls = some q → asked q) :
    Act.Twin (World.Serves C asked h₀) (Alike (Option.map ServerConfig.content)) (build_tls C held spec listener_tls)
      (build_tls C held' spec listener_tls) := by
  cases hr : requested spec listener_tls with
  | some q =>
    rw [build_tls_requested C held hr, build_tls_requested C held' hr]
    apply (twin_get_or_build held held' (hq q hr)).bind
    intro config config' hc
    exact Act.twin_pure (congrArg some hc)
  | none =>
    obtain ⟨m, hm, hcase⟩ := build_tls_unrequested C hr
    rw [hm held, hm held']
    rcases hcase with rfl | ⟨e, rfl⟩
    · exact Act.twin_pure rfl
    · exact Act.twin_fail e e

theorem twin_onHeap {α : Type} {R : α → α → Prop} {m m' : Building α} (h : Act.Twin h₀.Extends R m m') :
    Act.Twin (World.Serves C asked h₀) R (onHeap m) (onHeap m') := by
  intro w w' hw hw'
  obtain ⟨hr, h₁, h₁'⟩ := h w.heap w'.heap hw.grown hw'.grown
  exact ⟨hr, ⟨h₁, hw.tls⟩, ⟨h₁', hw'.tls⟩⟩

theorem twin_build_route {spec : RouteSpec} {listener_tls : ListenerTlsSpec}
    (hq : ∀ q, requested spec listener_tls = some q → asked q) (inherit : Inherit) :
    Act.Twin (World.Serves C asked h₀) (Alike (Route.blur h₀.next)) (build_route C held spec listener_tls inherit)
      (build_route C held' spec listener_tls inherit) := by
  apply (twin_build_tls held held' hq).bind
  intro tls_config tls_config' htls
  apply (twin_onHeap (twin_build_destinations spec inherit)).bind
  rintro ⟨d, d₂⟩ ⟨d', d₂'⟩ hd
  obtain ⟨-, hd₂⟩ := Prod.mk.inj hd
  dsimp only
  have hcheck : check_h2 spec d₂ = check_h2 spec d₂' := by
    unfold check_h2
    have hsome : d₂.isSome = d₂'.isSome := by
      have := congrArg Option.isSome hd₂
      rwa [Option.isSome_map, Option.isSome_map] at this
    rw [hsome]
  rw [hcheck]
  apply (Act.twin_ofExcept (R := Eq) (Lib.okRel_refl _)).bind
  rintro ⟨⟩ ⟨⟩ -
  apply twin_onHeap
  intro h h' hh hh'
  obtain ⟨hr, h₁, h₁'⟩ := twin_assemble spec listener_tls htls hd h h' hh hh'
  exact ⟨.ok hr, h₁, h₁'⟩

end Tls

/-! ## Identities that builds compare -/

section Known

variable {h₀ h h' : Heap} {n n' : Nat}

variable {d : Destination} {r : Route}

theorem Destination.Known.mono (hd : d.Known n) (hn : n ≤ n') : d.Known n' :=
  fun b hb => Nat.lt_of_lt_of_le (hd b hb) hn

theorem Route.Known.mono (hr : r.Known n) (hn : n ≤ n') : r.Known n' where
  identity := Nat.lt_of_lt_of_le hr.identity hn
  destination := hr.destination.mono hn
  destination_h2 d hd := (hr.destination_h2 d hd).mono hn

/-- The load of a sampled balancer is its own, or the one it takes over. -/
theorem with_cpu_from_load {b : UdsBalancer} {previous : Option UdsBalancer} (hb : b.load < n)
    (hp : ∀ p, previous = some p → p.load < n) : (b.with_cpu_from previous).load < n := by
  cases previous with
  | none => exact hb
  | some p =>
    unfold UdsBalancer.with_cpu_from
    dsimp only
    split
    · exact hp p rfl
    · exact hb

theorem new_load (slots : List UdsSlotSpec) (ip_affinity : Bool) (ttl : Nat) (h : Heap) :
    (UdsBalancer.new slots ip_affinity ttl h).1.load < (UdsBalancer.new slots ip_affinity ttl h).2.next :=
  Nat.lt_succ_self _

theorem tracked_load (slots : List UdsSlotSpec) (ip_affinity : Bool) (ttl : Nat) {sampled : Option UdsBalancer}
    (hp : ∀ p, sampled = some p → p.load < h.next) (tracked : Option UdsBalancer) (track refuse_new : Bool) :
    let b := UdsBalancer.new slots ip_affinity ttl h
    let m := if track then (b.1.with_cpu_from sampled).with_health tracked refuse_new else pure
      (b.1.with_cpu_from sampled)
    (m b.2).1.load < (m b.2).2.next := by
  intro b m
  have hgrow := (grows_balancer slots ip_affinity ttl h).next
  have hload : (b.1.with_cpu_from sampled).load < b.2.next :=
    with_cpu_from_load (new_load slots ip_affinity ttl h) fun p hp' => Nat.lt_of_lt_of_le (hp p hp') hgrow
  cases track with
  | false => exact hload
  | true => exact Nat.lt_of_lt_of_le hload (grows_with_health _ tracked refuse_new b.2).next

theorem build_uds_set_known {previous : Option UdsBalancer} (hp : ∀ p, previous = some p → p.load < h.next)
    (upstreams : List UpstreamSpec) (track refuse_new : Bool) :
    (build_uds_set upstreams previous track refuse_new h).1.Known
    (build_uds_set upstreams previous track refuse_new h).2.next := by
  have hload := tracked_load (upstreams.flatMap upstream_slots) (affinity_settings upstreams).1
    (affinity_settings upstreams).2 hp previous track refuse_new
  cases track with
  | true =>
    rintro b ⟨⟩
    exact Nat.lt_succ_of_lt hload
  | false =>
    rintro b ⟨⟩
    exact Nat.lt_succ_of_lt hload

theorem retracked_known (hd : d.Known h.next) (track : Bool) :
    (retracked track d h).1.Known (retracked track d h).2.next := by
  cases d with
  | Tcp addr =>
    rintro b ⟨⟩
  | UdsSet arc b =>
    have hp (p : UdsBalancer) (he : some b = some p) : p.load < h.next := by
      cases he
      exact hd b rfl
    have hload := tracked_load (b.sockets.map fun s => (⟨s.path, s.cpu.map (·.pid), s.cpu.map (·.tid)⟩ : UdsSlotSpec))
      b.affinity.isSome (b.affinity.elim 0 (· / 1000000)) hp (some b) track false
    rintro b' ⟨⟩
    exact Nat.lt_succ_of_lt hload

theorem build_destination_known {before : Option Destination} (hbefore : ∀ d, before = some d → d.Known h.next)
    {upstreams : List UpstreamSpec} {track refuse_new : Bool}
    (hd : build_destination_for upstreams (before.bind Destination.balancer) track refuse_new h = (.ok d, h')) :
    d.Known h'.next := by
  rcases build_destination_ok hd with ⟨host, port, rest, addr, rfl, rfl, rfl⟩ | ⟨-, hset⟩
  · rintro b ⟨⟩
  · have hp (p : UdsBalancer) (he : before.bind Destination.balancer = some p) : p.load < h.next := by
      obtain ⟨x, hx, hb⟩ := Option.bind_eq_some_iff.1 he
      exact hbefore x hx p hb
    have hknown := build_uds_set_known hp upstreams track refuse_new
    rwa [hset] at hknown

theorem build_destinations_known {spec : RouteSpec} {inherit : Inherit} {d₂ : Option Destination}
    (hp : ∀ p, inherit.previous = some p → p.Known h.next)
    (hb : build_destinations spec inherit h = (.ok (d, d₂), h')) :
    d.Known h'.next ∧ ∀ x, d₂ = some x → x.Known h'.next := by
  have hgrow {upstreams : List UpstreamSpec} {previous : Option UdsBalancer} {h h' : Heap} {d : Destination}
      (hd : build_destination_for upstreams previous inherit.track_health inherit.refuse_new h = (.ok d, h')) :
      h.next ≤ h'.next := ((grows_build_destination _ _ _ _).of_eq hd).next
  have hbefore (x : Destination) (hx : inherit.previous.map (·.destination) = some x) : x.Known h.next := by
    obtain ⟨p, hprev, rfl⟩ := Option.map_eq_some_iff.1 hx
    exact (hp p hprev).destination
  have hbefore₂ (x : Destination) (hx : inherit.previous.bind (·.destination_h2) = some x) : x.Known h.next := by
    obtain ⟨p, hprev, hd⟩ := Option.bind_eq_some_iff.1 hx
    exact (hp p hprev).destination_h2 x hd
  rcases build_destinations_ok hb with ⟨rfl, rfl, rfl⟩ | ⟨h₁, hdest, ⟨rfl, rfl⟩ | ⟨x, rfl, hx⟩⟩
  · constructor
    · rintro b ⟨⟩
    · rintro x ⟨⟩
  · refine ⟨build_destination_known hbefore hdest, ?_⟩
    rintro x ⟨⟩
  · refine ⟨(build_destination_known hbefore hdest).mono (hgrow hx), ?_⟩
    rintro y ⟨⟩
    exact build_destination_known (fun d hd => (hbefore₂ d hd).mono (hgrow hdest)) hx

theorem keep_identity_known {previous : Option Route} (hp : ∀ p, previous = some p → p.Known n) (hr : r.Known n)
    (spec : RouteSpec) : (keep_identity previous spec r).Known n := by
  unfold keep_identity
  split
  · split
    · exact ⟨(hp _ rfl).identity, hr.destination, hr.destination_h2⟩
    · exact hr
  · exact hr

theorem retrack_carried_known (hr : r.Known h.next) (carried track : Bool) :
    (retrack_carried carried track r h).1.Known (retrack_carried carried track r h).2.next := by
  unfold retrack_carried
  split
  · have hgrow := (grows_retracked track r.destination h).next
    have hd := retracked_known hr.destination track
    unfold retrack_route
    cases h₂ : r.destination_h2 with
    | none =>
      refine ⟨Nat.lt_of_lt_of_le hr.identity hgrow, hd, ?_⟩
      rintro x ⟨⟩
    | some x =>
      have hgrow₂ := (grows_retracked track x (retracked track r.destination h).2).next
      have hx := retracked_known ((hr.destination_h2 x h₂).mono hgrow) track
      refine ⟨Nat.lt_of_lt_of_le hr.identity (hgrow.trans hgrow₂), hd.mono hgrow₂, ?_⟩
      rintro y ⟨⟩
      exact hx
  · exact hr

theorem finish_route_known {previous : Option Route} (hp : ∀ p, previous = some p → p.Known h.next)
    (hr : r.Known h.next) (previous_down carried : Bool) (spec : RouteSpec) (allowed_sources : Option SourceAllowlist)
    (policy : Option FailoverPolicy) :
    (finish_route previous previous_down carried spec allowed_sources policy r h).1.Known
      (finish_route previous previous_down carried spec allowed_sources policy r h).2.next := by
  rw [finish_route_eq]
  have hgrow := (grows_retrack_carried carried { r with allowed_sources } policy.isSome h).next
  have hm := retrack_carried_known (r := { r with allowed_sources }) ⟨hr.identity, hr.destination, hr.destination_h2⟩
    carried policy.isSome
  have hk := keep_identity_known (fun p hprev => (hp p hprev).mono hgrow) hm spec
  have hgrow' := (grows_build_failover previous previous_down policy
    (keep_identity previous spec (retrack_carried carried policy.isSome { r with allowed_sources } h).1)
    (retrack_carried carried policy.isSome { r with allowed_sources } h).2).next
  obtain ⟨h1, h2, h3⟩ := hk.mono hgrow'
  exact ⟨h1, h2, h3⟩

end Known

/-! ## One spec -/

section Judge

variable {D : Type} [DecidableEq D] {C : Crates D} {asked : Request → Prop} {h₀ : Heap}
  {listener_tls : ListenerTlsSpec} {previous : Option (RouteTable D)}

/-- The identities of the route that a build compares are there, and the cells it reads. -/
def Route.Settled (h : Heap) (r : Route) : Prop := r.Known h.next ∧ r.Tracked h

/-- A judgement makes at most the request of its spec. -/
theorem serves_judge (C : Crates D) (held : Nat → Bool) {spec : RouteSpec}
    (hq : ∀ q, requested spec listener_tls = some q → asked q) {w : World D} (hw : w.Serves C asked h₀) :
    (judge C held listener_tls previous spec w).2.Serves C asked h₀ := by
  refine ⟨hw.grown.trans (grows_judge C held listener_tls previous spec w), ?_⟩
  obtain ⟨fetched, hfetched, hcache, -⟩ := judge_fetched C held listener_tls previous spec w
  rw [hcache]
  cases fetched with
  | none => exact hw.tls
  | some q =>
    have hreq : requested spec listener_tls = some q := by
      rcases hfetched with h | h
      · cases h
      · exact h.symm
    exact ((get_or_build_looked C held q w).serves hw (hq q hreq)).2.tls

variable (hp : ∀ t, previous = some t → t.Each Route.Settled h₀) {spec : RouteSpec}

include hp

/-- The judgement on a spec is the same in any two worlds that builds come to. -/
theorem twin_judge (hq : ∀ q, requested spec listener_tls = some q → asked q) (held held' : Nat → Bool) {w w' : World D}
    (hw : w.Serves C asked h₀) (hw' : w'.Serves C asked h₀) :
    (judge C held listener_tls previous spec w).1.fate.route.map (Route.blur h₀.next) =
      (judge C held' listener_tls previous spec w').1.fate.route.map (Route.blur h₀.next) := by
  unfold judge
  cases validate_route_protocol_declaration spec with
  | error e => rfl
  | ok u =>
    cases SourceAllowlist.parse C spec.allowed_sources with
    | error e => rfl
    | ok allowed_sources =>
      dsimp only
      unfold judge_valid
      -- both worlds read the same state of the route before, and build from it
      have hstate (h : Heap) (hh : h₀.Extends h) :
        previous_state previous spec.sni h = previous_state previous spec.sni h₀ :=
        previous_state_extends (fun p hprev => (each_previous hp hprev).2) hh
      rw [hstate w.heap hw.grown, hstate w'.heap hw'.grown]
      dsimp only
      have hbuild := twin_build_route held held' hq (inheritance previous spec h₀) w w' hw hw'
      unfold inheritance at hbuild
      have hknown (p : Route) (hprev : (previous_state previous spec.sni h₀).1 = some p) : p.Known h₀.next :=
        (each_previous hp hprev).1
      have hfinish (carried : Bool) {r r' : Route} {v v' : World D}
          (hr : r = r' ∨ carried = false ∧ r.blur h₀.next = r'.blur h₀.next)
          (hv : v.Serves C asked h₀) (hv' : v'.Serves C asked h₀) :=
        twin_finish_route hknown hr (previous_state previous spec.sni h₀).2 spec
          allowed_sources (read_failover spec).policy v.heap v'.heap hv.grown hv'.grown
      obtain ⟨hrel, hv, hv'⟩ := hbuild
      generalize build_route C held spec listener_tls _ w = b at hrel hv ⊢
      generalize build_route C held' spec listener_tls _ w' = b' at hrel hv' ⊢
      obtain ⟨result, v⟩ := b
      obtain ⟨result', v'⟩ := b'
      cases hrel with
      | ok hr =>
        exact congrArg some (hfinish false (.inr ⟨rfl, hr⟩) hv hv').1
      | error e e' =>
        -- the errors may differ; what is carried forward is the previous table's in both
        dsimp only
        cases last_good previous spec.sni (ClientAuth.of C spec listener_tls) with
        | none => rfl
        | some r =>
          exact congrArg some (hfinish true (.inl (rfl : r = r)) hv hv').1

end Judge

section Builds

variable {D : Type} [DecidableEq D] {C : Crates D} {held conns : Nat → Bool} {listener_tls : ListenerTlsSpec}
  {previous : Option (RouteTable D)} {specs : List RouteSpec}

variable (listener_tls) in
theorem assemble_known (spec : RouteSpec) (tls_config : Option ServerConfig) {d : Destination} {d₂ : Option Destination}
    {h : Heap} (hd : d.Known h.next) (hd₂ : ∀ x, d₂ = some x → x.Known h.next) :
    (assemble spec listener_tls tls_config d d₂ h).1.Known (assemble spec listener_tls tls_config d d₂ h).2.next := by
  have hgrow := (grows_assemble spec listener_tls tls_config d d₂ h).next
  exact ⟨Nat.lt_succ_self _, hd.mono hgrow, fun x hx => (hd₂ x hx).mono hgrow⟩

/-- A judged route has its own identities, or those of the route before. -/
theorem judged_known {spec : RouteSpec} {w : World D} {r : Route}
    (hp : ∀ p, (previous_state previous spec.sni w.heap).1 = some p → p.Known w.heap.next)
    (hr : (judge C held listener_tls previous spec w).1.fate.route = some r) :
    r.Known (judge C held listener_tls previous spec w).2.heap.next := by
  have hgrows := grows_build_route C held spec listener_tls (inheritance previous spec w.heap) w
  rcases judge_cases C held listener_tls previous spec w with
    ⟨hf, -⟩ | ⟨allowed_sources, r₀, w₁, -, hb, hf, hw⟩ | ⟨allowed_sources, e, r₀, w₁, -, hb, hl, hf, hw⟩
  · rw [hf] at hr
    cases hr
  · rw [hf] at hr
    cases hr
    rw [hb] at hgrows
    rw [hw]
    obtain ⟨tls_config, h₁, destination, destination_h2, h₂, hgrow₁, hdest, -, hasm, -⟩ := build_route_grown hb
    obtain ⟨hd, hd₂⟩ := build_destinations_known (fun p hprev => (hp p hprev).mono hgrow₁.next) hdest
    have hr₀ := assemble_known listener_tls spec tls_config hd hd₂
    rw [hasm] at hr₀
    exact finish_route_known (fun p hprev => (hp p hprev).mono hgrows.next) hr₀ _ false spec allowed_sources _
  · rw [hf] at hr
    cases hr
    rw [hb] at hgrows
    rw [hw]
    have hprev := last_good_state previous hl w.heap
    exact finish_route_known (fun p hprev => (hp p hprev).mono hgrows.next) ((hp r₀ hprev).mono hgrows.next) _ true spec
      allowed_sources _

theorem run_settled {heap : Heap} {s : Proxy D} {clock : Nat} {log : List (Event × Unit)}
    (h : (reloads C).Run (.fresh heap) s clock log) : ∀ t, s.live = some t → t.Each Route.Settled s.world.heap := by
  apply run_each Route.Settled _ _ h
  · rintro h h' r hn ⟨hknown, htracked⟩
    exact ⟨hknown.mono hn, htracked.mono hn⟩
  · intro conns listener_tls previous specs w hp k r hr
    have hknown := built_each C listener_tls previous conns specs w (fun h _ r => r.Known h.next)
      (fun hx hr => hr.mono hx.next) (by
        intro held spec _ w' r hgrown hj
        apply judged_known _ hj
        intro p hprev
        exact (each_previous hp hprev).1.mono hgrown.next)
    refine ⟨hknown.2 k r hr, ?_⟩
    exact (built_continues (fun t ht k r hr => (hp t ht k r hr).2) hr).tracked

/-! ## Two builds -/

variable {asked : Request → Prop} {w : World D}

theorem serves_at (hw : TlsFunction C w.cache asked)
    (hq : ∀ spec ∈ specs, ∀ q, requested spec listener_tls = some q → asked q) {n : Nat} (hn : n ≤ specs.length) :
    (builderAt C conns listener_tls previous specs w n).world.Serves C asked w.heap := by
  apply builderAt_inv C conns listener_tls previous specs w (fun b => b.world.Serves C asked w.heap)
  · refine ⟨.refl _, hw.shrink ?_⟩
    intro k config hl
    change (w.cache.clear_used (held_by conns previous {})).cache.lookup k = some config at hl
    rw [lookup_clear_used, Option.filter_eq_some_iff] at hl
    exact hl.1
  · intro b names h
    exact h
  · intro b ws n spec hn _ _ h
    rw [consider_world]
    exact serves_judge C _ (hq spec (List.mem_of_getElem? hn)) h
  · exact hn

variable (hp : ∀ t, previous = some t → t.Each Route.Settled w.heap) (hw : TlsFunction C w.cache asked)
  (hq : ∀ spec ∈ specs, ∀ q, requested spec listener_tls = some q → asked q) {specs' : List RouteSpec}
  (hq' : ∀ spec ∈ specs', ∀ q, requested spec listener_tls = some q → asked q)

include hp hw hq hq'

/-- A spec that two lists have at one position is judged the same in both builds. -/
theorem twin_judged {n : Nat} (hn : specs'[n]? = specs[n]?) :
    ((judged C conns listener_tls previous specs' w n).map (·.fate.route)).join.map (Route.blur w.heap.next) =
      ((judged C conns listener_tls previous specs w n).map (·.fate.route)).join.map (Route.blur w.heap.next) := by
  unfold judged
  cases hs : specs[n]? with
  | none =>
    rw [hn, hs]
    rfl
  | some spec =>
    rw [hn, hs]
    have hlen := (List.getElem?_eq_some_iff.1 hs).1
    have hlen' := (List.getElem?_eq_some_iff.1 (hn.trans hs)).1
    exact twin_judge hp (hq spec (List.mem_of_getElem? hs)) _ _ (serves_at hw hq' (Nat.le_of_lt hlen'))
      (serves_at hw hq (Nat.le_of_lt hlen))

/-- A name that no changed spec decides resolves the same in both tables. -/
theorem twin_resolve (hnames : specs'.map (·.sni) = specs.map (·.sni)) {sni : Option Bytes} {allow_default : Bool}
    (hsame : ∀ n, deciding specs sni allow_default = some n → specs'[n]? = specs[n]?) :
    ((build_route_table C conns listener_tls previous specs' w).1.resolve_with sni allow_default).map
        (Route.blur w.heap.next) =
      ((build_route_table C conns listener_tls previous specs w).1.resolve_with sni allow_default).map
        (Route.blur w.heap.next) := by
  have hnamed {sni : Option Bytes} (hs : sni ≠ some [])
      (hsame : ∀ n, deciding specs sni allow_default = some n → specs'[n]? = specs[n]?) :
      ((build_route_table C conns listener_tls previous specs' w).1.resolve_with sni allow_default).map
          (Route.blur w.heap.next) =
        ((build_route_table C conns listener_tls previous specs w).1.resolve_with sni allow_default).map
          (Route.blur w.heap.next) := by
    rw [resolve_built C conns listener_tls previous specs w hs, resolve_built C conns listener_tls previous specs' w hs,
      deciding_congr hnames]
    cases hd : deciding specs sni allow_default with
    | none => rfl
    | some n => exact twin_judged hp hw hq hq' (hsame n hd)
  by_cases hs : sni = some []
  · -- the empty name resolves as no name does
    subst hs
    rw [RouteTable.resolve_empty (built_keyed C conns listener_tls previous specs w)
        (built_buried C conns listener_tls previous specs w),
      RouteTable.resolve_empty (built_keyed C conns listener_tls previous specs' w)
        (built_buried C conns listener_tls previous specs' w)]
    apply hnamed
    · rintro ⟨⟩
    · intro n hn
      exact hsame n (deciding_empty hn)
  · exact hnamed hs hsame

end Builds

end Symphony.Router
