import Symphony.Router.Heap
import Symphony.Router.Resolve
import Symphony.Router.Transparent
/-!
# Session state across reloads

A `ServerConfig` owns its session store and its ticket keys, so clients can resume while
the same object serves their certificate. The cache may only forget a config that nothing
else has. Here the references from outside the cache are explicit: those of the live
table, of the table being built and of connections, each with the key it was returned
for. The strong count a sweep reads is what these references make it.

`build_route_table_references` says that a build of a route table is a run of this
machine.
-/

namespace Symphony.Router

open Lib (Act Machine)

/-! ## References -/

/-- A reference from outside the cache: a config, and the key it was returned for. -/
abbrev Ref (D : Type) := CacheKey D × ServerConfig

/-- Some reference is to this config. -/
def Refers {D : Type} (refs : List (Ref D)) (arc : Nat) : Bool := refs.any fun ref => ref.2.arc == arc

structure Sessions (D : Type) where
  world : World D
  live : List (Ref D) := []
  building : List (Ref D) := []
  conns : List (Ref D) := []

def Sessions.outside {D : Type} (s : Sessions D) : List (Ref D) := s.live ++ s.building ++ s.conns

/-- What happens to configs, one step of an update or of a connection at a time. -/
inductive RefEvent (D : Type) where
  /-- A build begins. -/
  | clear_used
  /-- The table being built asks for a config, and has it if there is one. -/
  | get_or_build (q : Request)
  /-- The route it was for is not built after all. -/
  | drop_built (ref : Ref D)
  /-- A route of the live table is carried into the table being built. -/
  | carry (ref : Ref D)
  /-- The table that was built goes live, and the one before it is dropped. -/
  | swap
  | retain_used
  /-- The table that was built is dropped. -/
  | abandon
  /-- `resolveConnection` asks for a config, and the connection has it. -/
  | get_or_build_unmarked (q : Request)
  /-- A connection takes the config of its route. -/
  | opened (ref : Ref D)
  | closed (ref : Ref D)
  /-- Other shared objects come and go. -/
  | elsewhere (heap : Heap)

section Machine

variable {D : Type} [DecidableEq D] (C : Crates D)

/-- The reference that an answer to a request is. -/
def answered (q : Request) (answer : Except SymphonyError ServerConfig) : List (Ref D) :=
  match answer with
  | .ok config => [(q.key C, config)]
  | .error _ => []

def references : Machine (Sessions D) (RefEvent D) (Option (Except SymphonyError ServerConfig)) where
  step s
    | .clear_used => (none, { s with world := { s.world with cache := s.world.cache.clear_used (Refers s.outside) } })
    | .get_or_build q =>
      let r := get_or_build C (Refers s.outside) q.cert q.mtls q.http2 s.world
      (some r.1, { s with world := r.2, building := answered C q r.1 ++ s.building })
    | .drop_built ref => (none, { s with building := s.building.erase ref })
    | .carry ref => (none, if ref ∈ s.live then { s with building := ref :: s.building } else s)
    | .swap => (none, { s with live := s.building, building := [] })
    | .retain_used => (none, { s with world := { s.world with cache := s.world.cache.retain_used (Refers s.outside) } })
    | .abandon => (none, { s with building := [] })
    | .get_or_build_unmarked q =>
      let r := get_or_build_unmarked C (Refers s.outside) q.cert q.mtls q.http2 s.world
      (some r.1, { s with world := r.2, conns := answered C q r.1 ++ s.conns })
    | .opened ref => (none, if ref ∈ s.live then { s with conns := ref :: s.conns } else s)
    | .closed ref => (none, { s with conns := s.conns.erase ref })
    | .elsewhere heap => (none, { s with world := { s.world with heap } })
  reading _ := none

end Machine

/-! ## What is referenced is cached -/

section Cached

variable {D : Type} [DecidableEq D] {C : Crates D}

variable {q : Request} {answer : Except SymphonyError ServerConfig} {s' : Sessions D}

omit [DecidableEq D] in
theorem refers_of_mem {refs : List (Ref D)} {k : CacheKey D} {config : ServerConfig} (h : (k, config) ∈ refs) :
    Refers refs config.arc = true :=
  List.any_eq_true.2 ⟨_, h, beq_self_eq_true _⟩

/-- A request leaves the entries something holds, and the config it returns is the entry of
its key. -/
theorem Looked.caches {held : Nat → Bool} {w w' : World D} (h : Looked C held q w answer w') :
    (∀ k config, w.cache.cache.lookup k = some config → held config.arc = true →
      w'.cache.cache.lookup k = some config) ∧
    ∀ config, answer = .ok config → w'.cache.cache.lookup (q.key C) = some config := by
  cases h with
  | @hit found _ hlook _ hcache =>
    rw [hcache]
    refine ⟨fun k config hl _ => hl, ?_⟩
    rintro config ⟨⟩
    exact hlook
  | @built found _ hlook _ _ hcache =>
    rw [hcache]
    constructor
    · -- the insertion may sweep the cache, but not what is held
      intro k config hl hh
      have hne : k ≠ q.key C := by
        rintro rfl
        rw [hlook] at hl
        cases hl
      rcases lookup_insert held w.cache (q.key C) found k with he | he
      · rw [he, AList.lookup_insert_ne hne, hl]
      · rw [he, AList.lookup_insert_ne hne, hl, Option.filter_some, hh, Bool.or_true, if_pos rfl]
    · rintro config ⟨⟩
      rcases lookup_insert held w.cache (q.key C) found (q.key C) with he | he
      · rw [he, AList.lookup_insert]
      · rw [he, AList.lookup_insert, Option.filter_some, beq_self_eq_true, Bool.true_or, if_pos rfl]
  | failed _ _ _ hcache =>
    rw [hcache]
    refine ⟨fun k config hl _ => hl, ?_⟩
    rintro config ⟨⟩

theorem Looked.cached {held : Nat → Bool} {w w' : World D} (h : Looked C held q w answer w') {config : ServerConfig}
    (hl : w.cache.cache.lookup (q.key C) = some config) :
    answer = .ok config := by
  cases h with
  | hit hlook _ _ =>
    rw [hl] at hlook
    cases hlook
    rfl
  | built hlook _ _ _ =>
    rw [hl] at hlook
    cases hlook
  | failed hlook _ _ _ =>
    rw [hl] at hlook
    cases hlook

/-- Every reference is to the cache's entry at its key, and entries are what their keys
say. -/
structure Sessions.Cached (C : Crates D) (s : Sessions D) : Prop where
  entry : ∀ k config, (k, config) ∈ s.outside → s.world.cache.cache.lookup k = some config
  built : s.world.cache.Built C

variable {s : Sessions D}

/-- References may go, and entries that nothing refers to. -/
theorem Sessions.Cached.shrink (h : s.Cached C) (hrefs : ∀ ref ∈ s'.outside, ref ∈ s.outside)
    (hcache : ∀ k config, s.world.cache.cache.lookup k = some config → Refers s.outside config.arc = true →
      s'.world.cache.cache.lookup k = some config) (hbuilt : s'.world.cache.Built C) : s'.Cached C where
  entry k config hm := by
    have hold := hrefs _ hm
    exact hcache k config (h.entry k config hold) (refers_of_mem hold)
  built := hbuilt

theorem Sessions.Cached.move (h : s.Cached C) (hw : s'.world.cache = s.world.cache)
    (hrefs : ∀ ref ∈ s'.outside, ref ∈ s.outside) : s'.Cached C := by
  apply h.shrink hrefs
  · intro k config hl _
    rwa [hw]
  · rw [hw]
    exact h.built

theorem Sessions.Cached.request (h : s.Cached C) (hl : Looked C (Refers s.outside) q s.world answer s'.world)
    (hbuilt : s'.world.cache.Built C) (hrefs : ∀ ref ∈ s'.outside, ref ∈ answered C q answer ∨ ref ∈ s.outside) :
    s'.Cached C where
  entry k config hm := by
    obtain ⟨hkept, hnew⟩ := hl.caches
    rcases hrefs _ hm with hans | hold
    · cases answer with
      | error e => cases hans
      | ok found =>
        cases List.mem_singleton.1 hans
        exact hnew _ rfl
    · exact hkept k config (h.entry k config hold) (refers_of_mem hold)
  built := hbuilt

theorem Sessions.Cached.step (h : s.Cached C) (e : RefEvent D) : ((references C).step s e).2.Cached C := by
  cases e with
  | clear_used =>
    refine h.shrink (fun _ hr => hr) ?_ ?_
    · intro k config hl hh
      change (s.world.cache.clear_used (Refers s.outside)).cache.lookup k = some config
      rw [lookup_clear_used, hl, Option.filter_some, if_pos hh]
    · exact built_clear_used C _ h.built
  | retain_used =>
    refine h.shrink (fun _ hr => hr) ?_ ?_
    · intro k config hl hh
      change (s.world.cache.retain_used (Refers s.outside)).cache.lookup k = some config
      rw [lookup_retain_used, hl, Option.filter_some, hh, Bool.or_true, if_pos rfl]
    · exact built_retain_used C _ h.built
  | get_or_build q =>
    apply h.request (get_or_build_looked C (Refers s.outside) q s.world)
    · exact (keeps_get_or_build C (Refers s.outside) q.cert q.mtls q.http2 s.world h.built).1
    · intro ref hr
      simp only [references, Sessions.outside, List.mem_append] at hr ⊢
      tauto
  | get_or_build_unmarked q =>
    apply h.request (get_or_build_unmarked_looked C (Refers s.outside) q s.world)
    · exact (keeps_get_or_build_unmarked C (Refers s.outside) q.cert q.mtls q.http2 s.world h.built).1
    · intro ref hr
      simp only [references, Sessions.outside, List.mem_append] at hr ⊢
      tauto
  | drop_built ref =>
    refine h.move rfl ?_
    intro r hr
    simp only [references, Sessions.outside, List.mem_append] at hr ⊢
    have hmem : r ∈ s.building.erase ref → r ∈ s.building := List.mem_of_mem_erase
    tauto
  | closed ref =>
    refine h.move rfl ?_
    intro r hr
    simp only [references, Sessions.outside, List.mem_append] at hr ⊢
    have hmem : r ∈ s.conns.erase ref → r ∈ s.conns := List.mem_of_mem_erase
    tauto
  | carry ref =>
    -- only what the live table has can be carried
    by_cases hm : ref ∈ s.live
    · simp only [references, if_pos hm]
      refine h.move rfl ?_
      intro r hr
      simp only [Sessions.outside, List.mem_append, List.mem_cons] at hr ⊢
      rcases hr with (hr | rfl | hr) | hr <;> tauto
    · simp only [references, if_neg hm]
      exact h
  | opened ref =>
    by_cases hm : ref ∈ s.live
    · simp only [references, if_pos hm]
      refine h.move rfl ?_
      intro r hr
      simp only [Sessions.outside, List.mem_append, List.mem_cons] at hr ⊢
      rcases hr with (hr | hr) | rfl | hr <;> tauto
    · simp only [references, if_neg hm]
      exact h
  | swap =>
    refine h.move rfl ?_
    intro r hr
    simp only [references, Sessions.outside, List.mem_append, List.not_mem_nil, or_false] at hr ⊢
    tauto
  | abandon =>
    refine h.move rfl ?_
    intro r hr
    simp only [references, Sessions.outside, List.mem_append, List.not_mem_nil, or_false] at hr ⊢
    tauto
  | elsewhere heap => exact h.move rfl fun _ hr => hr

theorem run_cached {heap : Heap} {clock : Nat} {log : List (RefEvent D × Option (Except SymphonyError ServerConfig))}
    (h : (references C).Run { world := ⟨heap, {}⟩ } s clock log) : s.Cached C := by
  apply h.inv fun s _ _ => s.Cached C
  · refine ⟨?_, built_new C⟩
    intro k config hm
    cases hm
  · intro s _ _ e hs _
    exact hs.step e

end Cached

/-! ## A build as a run -/

section Build

variable {D : Type} [DecidableEq D] {C : Crates D} {held : Nat → Bool}

/-- The request a spec makes, if it comes to that. -/
def requested (spec : RouteSpec) (listener_tls : ListenerTlsSpec) : Option Request :=
  if spec.terminate_tls then
    match spec.cert_pem.or listener_tls.cert_pem, spec.key_pem.or listener_tls.key_pem with
    | some cert_pem, some key_pem => some ⟨⟨cert_pem, key_pem⟩, mtls_spec spec listener_tls, spec.http2⟩
    | _, _ => none
  else none

variable {spec : RouteSpec} {listener_tls : ListenerTlsSpec} {s : Sessions D} {b : Builder D}

/-- The TLS part of a build makes the request, or does nothing. -/
theorem build_tls_requested (C : Crates D) (held : Nat → Bool) {q : Request}
    (hq : requested spec listener_tls = some q) :
    build_tls C held spec listener_tls = get_or_build C held q.cert q.mtls q.http2 >>= fun config =>
      pure (some config) := by
  unfold requested at hq
  unfold build_tls
  by_cases ht : spec.terminate_tls
  · rw [if_pos ht] at hq ⊢
    cases hc : spec.cert_pem.or listener_tls.cert_pem with
    | none =>
      rw [hc] at hq
      cases hq
    | some cert_pem =>
      cases hk : spec.key_pem.or listener_tls.key_pem with
      | none =>
        rw [hc, hk] at hq
        cases hq
      | some key_pem =>
        rw [hc, hk] at hq
        cases hq
        rfl
  · rw [if_neg ht] at hq
    cases hq

theorem build_tls_unrequested (C : Crates D) (hq : requested spec listener_tls = none) :
    ∃ m, (∀ held, build_tls C held spec listener_tls = m) ∧ (m = pure none ∨ ∃ e, m = Act.fail e) := by
  unfold requested at hq
  unfold build_tls
  by_cases ht : spec.terminate_tls
  · simp only [if_pos ht] at hq ⊢
    cases hc : spec.cert_pem.or listener_tls.cert_pem with
    | none => exact ⟨_, fun _ => rfl, .inr ⟨_, rfl⟩⟩
    | some cert_pem =>
      cases hk : spec.key_pem.or listener_tls.key_pem with
      | none => exact ⟨_, fun _ => rfl, .inr ⟨_, rfl⟩⟩
      | some key_pem =>
        rw [hc, hk] at hq
        cases hq
  · simp only [if_neg ht]
    exact ⟨_, fun _ => rfl, .inl rfl⟩

/-- The same configs are cached and marked. -/
def World.SameCache (w w' : World D) : Prop := w'.cache = w.cache

omit [DecidableEq D] in
theorem World.SameCache.trans {w₁ w₂ w₃ : World D} (h : w₁.SameCache w₂) (h' : w₂.SameCache w₃) : w₁.SameCache w₃ :=
  Eq.trans h' h

theorem build_route_cache (C : Crates D) (held : Nat → Bool) (spec : RouteSpec) (listener_tls : ListenerTlsSpec)
    (inherit : Inherit) (w : World D) :
    (build_route C held spec listener_tls inherit w).2.cache = (build_tls C held spec listener_tls w).2.cache := by
  have hheap {α : Type} (m : Building α) : Act.Moves World.SameCache (onHeap m : Act (World D) SymphonyError α) :=
    fun _ => rfl
  have hcheck (r : Except SymphonyError Unit) : Act.Moves World.SameCache (Act.ofExcept r : Act (World D) _ _) :=
    fun _ => rfl
  change (Act.bind (build_tls C held spec listener_tls) _ w).2.cache = _
  unfold Act.bind
  cases build_tls C held spec listener_tls w with
  | mk result w₁ =>
    cases result with
    | error e => rfl
    | ok tls_config =>
      refine (Act.Moves.bind .trans (hheap (build_destinations spec inherit)) ?_) w₁
      rintro ⟨destination, destination_h2⟩
      apply (hcheck _).bind .trans
      rintro ⟨⟩
      exact hheap _

/-- The route has the config of the live route of this name. -/
def CarriesConfig (previous : Option (RouteTable D)) (sni : Bytes) (r : Route) : Prop :=
  ∃ p r₀, previous = some p ∧ p.get_for_spec_sni sni = some r₀ ∧ r.tls_config = r₀.tls_config

omit [DecidableEq D] in
theorem finished_config (previous : Option (RouteTable D)) (spec : RouteSpec) (h₀ : Heap) (carried : Bool)
    (allowed_sources : Option SourceAllowlist) (r : Route) (h : Heap) :
    (finished previous spec h₀ carried allowed_sources r h).1.tls_config = r.tls_config := by
  have hs := finish_route_settings (previous_state previous spec.sni h₀).1
    (previous_state previous spec.sni h₀).2 carried
    spec allowed_sources (read_failover spec).policy r h
  have hc := congrArg Route.tls_config hs
  exact hc

theorem build_route_config {inherit : Inherit} {w w' : World D} {r : Route}
    (h : build_route C held spec listener_tls inherit w = (.ok r, w')) :
    r.tls_config = (requested spec listener_tls).bind fun q =>
      (get_or_build C held q.cert q.mtls q.http2 w).1.toOption := by
  obtain ⟨tls_config, w₁, destination, destination_h2, h₂, htls, -, hr, -⟩ := build_route_ok h
  obtain ⟨hconfig, -⟩ := assemble_fields spec listener_tls tls_config destination destination_h2 h₂
  rw [hr] at hconfig
  rw [hconfig]
  cases hq : requested spec listener_tls with
  | none =>
    obtain ⟨m, hm, rfl | ⟨e, rfl⟩⟩ := build_tls_unrequested C hq
    · rw [hm] at htls
      cases htls
      rfl
    · rw [hm] at htls
      cases htls
  | some q =>
    rw [build_tls_requested C held hq] at htls
    obtain ⟨config, w₂, hget, hpure⟩ := Act.bind_ok htls
    cases hpure
    rw [Option.bind_some, hget]
    rfl

theorem build_route_requests (C : Crates D) (held : Nat → Bool) (spec : RouteSpec) (listener_tls : ListenerTlsSpec)
    (inherit : Inherit) (w : World D) :
    (build_route C held spec listener_tls inherit w).2.cache =
      ((requested spec listener_tls).elim w fun q => (get_or_build C held q.cert q.mtls q.http2 w).2).cache := by
  rw [build_route_cache]
  cases hq : requested spec listener_tls with
  | none => obtain ⟨m, hm, rfl | ⟨e, rfl⟩⟩ := build_tls_unrequested C hq <;> rw [hm] <;> rfl
  | some q =>
    rw [build_tls_requested C held hq]
    change (Act.bind (get_or_build C held q.cert q.mtls q.http2) _ w).2.cache = _
    unfold Act.bind
    dsimp only [Option.elim]
    cases get_or_build C held q.cert q.mtls q.http2 w with
    | mk answer w₁ => cases answer <;> rfl

/-- What a judgement does with configs. It requests at most the one of its spec, and the
route it gives, if any, has what the request returned, or what the live route has. -/
theorem judge_fetched (C : Crates D) (held : Nat → Bool) (listener_tls : ListenerTlsSpec)
    (previous : Option (RouteTable D)) (spec : RouteSpec) (w : World D) :
    ∃ asked : Option Request, (asked = none ∨ asked = requested spec listener_tls) ∧
      (judge C held listener_tls previous spec w).2.cache =
        (asked.elim w fun q => (get_or_build C held q.cert q.mtls q.http2 w).2).cache ∧
      ∀ r, (judge C held listener_tls previous spec w).1.fate.route = some r →
        (r.tls_config = asked.bind fun q => (get_or_build C held q.cert q.mtls q.http2 w).1.toOption) ∨
          CarriesConfig previous spec.sni r := by
  have hcache := build_route_requests C held spec listener_tls (inheritance previous spec w.heap) w
  rcases judge_cases C held listener_tls previous spec w with
    ⟨hf, hw | ⟨e, hb⟩⟩ | ⟨allowed_sources, r₀, w₁, -, hb, hf, hw⟩ | ⟨allowed_sources, e, r₀, w₁, -, hb, hl, hf, hw⟩
  · -- rejected before anything is built
    refine ⟨none, .inl rfl, by rw [hw]; rfl, ?_⟩
    intro r hr
    rw [hf] at hr
    cases hr
  · refine ⟨requested spec listener_tls, .inr rfl, by rw [← hcache, hb], ?_⟩
    intro r hr
    rw [hf] at hr
    cases hr
  · refine ⟨requested spec listener_tls, .inr rfl, by rw [← hcache, hb, hw], ?_⟩
    intro r hr
    rw [hf] at hr
    cases hr
    rw [finished_config]
    exact .inl (build_route_config hb)
  · refine ⟨requested spec listener_tls, .inr rfl, by rw [← hcache, hb, hw], ?_⟩
    intro r hr
    rw [hf] at hr
    cases hr
    obtain ⟨p, hp, hget⟩ := last_good_previous previous hl
    exact .inr ⟨p, r₀, hp, hget, finished_config _ _ _ _ _ _ _⟩

/-- A run leads from one state to the other. -/
def Reaches (C : Crates D) (s s' : Sessions D) : Prop := ∃ clock log, (references C).Run s s' clock log

theorem Reaches.refl (s : Sessions D) : Reaches C s s := ⟨0, [], .nil⟩

theorem Reaches.step {s' : Sessions D} (h : Reaches C s s') (e : RefEvent D) :
    Reaches C s ((references C).step s' e).2 := by
  obtain ⟨clock, log, hrun⟩ := h
  exact ⟨_, _, hrun.step e (Nat.le_refl _)⟩

theorem Reaches.drop {s₀ : Sessions D} {q : Request} {answer : Except SymphonyError ServerConfig} {rest : List (Ref D)}
    (h : Reaches C s₀ s) (hs : s.building = answered C q answer ++ rest) :
    Reaches C s₀ { s with building := rest } := by
  obtain ⟨world, live, building, conns⟩ := s
  dsimp only at hs ⊢
  subst hs
  cases answer with
  | error e => exact h
  | ok config =>
    have hstep := h.step (.drop_built (q.key C, config))
    change Reaches C s₀ ⟨world, live, ((q.key C, config) :: rest).erase (q.key C, config), conns⟩ at hstep
    rwa [List.erase_cons_head] at hstep

/-- The configs of the table's routes are those referred to. -/
def Mirrors (t : RouteTable D) (refs : List (Ref D)) : Prop :=
  ∀ config, (∃ k, (k, config) ∈ refs) ↔ ∃ name r, t.get_for_spec_sni name = some r ∧ r.tls_config = some config

omit [DecidableEq D] in
/-- A config the table has is one referred to. -/
theorem Mirrors.holds {t : RouteTable D} {refs : List (Ref D)} (h : Mirrors t refs) (ht : t.Keyed) (arc : Nat) :
    t.holds arc = Refers refs arc := by
  rw [Bool.eq_iff_iff]
  unfold RouteTable.holds Refers
  simp only [List.any_eq_true, Option.any_eq_true, beq_iff_eq]
  constructor
  · rintro ⟨⟨name, r⟩, hm, config, hc, ha⟩
    obtain ⟨k, hk⟩ := (h config).2 ⟨name, r, (RouteTable.mem_routes ht).1 hm, hc⟩
    exact ⟨_, hk, ha⟩
  · rintro ⟨⟨k, config⟩, hk, ha⟩
    obtain ⟨name, r, hget, hc⟩ := (h config).1 ⟨k, hk⟩
    exact ⟨(name, r), (RouteTable.mem_routes ht).2 hget, config, hc, ha⟩

/-- A table with one more route has its config besides. -/
theorem Mirrors.consider {conns : Nat → Bool} {previous : Option (RouteTable D)} {refs added : List (Ref D)}
    (h : Mirrors b.toRouteTable refs) (hb : b.status spec.sni = none)
    (hadded : ∀ config, (∃ k, (k, config) ∈ added) ↔
      ∃ r, (judgedBy C conns listener_tls previous b spec).fate.route = some r ∧ r.tls_config = some config) :
    Mirrors (consider C conns listener_tls previous b spec).toRouteTable (added ++ refs) := by
  have hlive := live_of_status hb
  intro config
  simp only [List.mem_append, exists_or, hadded config, h config, consider_live hb]
  constructor
  · rintro (⟨r, hr, hc⟩ | ⟨name, r, hget, hc⟩)
    · exact ⟨spec.sni, r, by rwa [if_pos rfl], hc⟩
    · refine ⟨name, r, ?_, hc⟩
      have hne : name ≠ spec.sni := by
        rintro rfl
        rw [hlive] at hget
        cases hget
      rwa [if_neg hne]
  · rintro ⟨name, r, hget, hc⟩
    by_cases hk : name = spec.sni
    · rw [if_pos hk] at hget
      exact .inl ⟨r, hget, hc⟩
    · rw [if_neg hk] at hget
      exact .inr ⟨name, r, hget, hc⟩

/-- The builder has come to `b` and the references to `s`. -/
structure Underway (C : Crates D) (s₀ : Sessions D) (b : Builder D) (s : Sessions D) : Prop where
  run : Reaches C s₀ s
  world : s.world = b.world
  live : s.live = s₀.live
  conns : s.conns = s₀.conns
  mirrors : Mirrors b.toRouteTable s.building
  keyed : b.Keyed

section Consider

variable {s₀ : Sessions D} {previous : Option (RouteTable D)} {conns : Nat → Bool}
  (hprevious : ∀ p, previous = some p → p.Keyed ∧ Mirrors p s₀.live) (hnone : previous = none → s₀.live = [])
  (hconns : conns = Refers s₀.conns)

include hprevious hnone hconns

/-- What a build takes for held is what is referred to. -/
theorem Underway.held_eq (h : Underway C s₀ b s) :
    held_by conns previous b.toRouteTable = Refers s.outside := by
  have hlive (arc : Nat) : previous.any (·.holds arc) = Refers s.live arc := by
    rw [h.live]
    cases previous with
    | none =>
      rw [hnone rfl]
      rfl
    | some p =>
      obtain ⟨hk, hm⟩ := hprevious p rfl
      exact hm.holds hk arc
  funext arc
  unfold held_by
  rw [hlive, h.mirrors.holds h.keyed, hconns, ← h.conns]
  unfold Refers Sessions.outside
  rw [List.any_append, List.any_append, Bool.or_assoc, Bool.or_comm]

/-- One spec: its request, what becomes of the config, and the other allocations. -/
theorem Underway.consider (h : Underway C s₀ b s) (hb : b.status spec.sni = none) (listener_tls : ListenerTlsSpec) :
    ∃ s', Underway C s₀ (consider C conns listener_tls previous b spec) s' := by
  obtain ⟨asked, -, hcache, hroute⟩ := judge_fetched C (held_by conns previous b.toRouteTable) listener_tls
    previous spec b.world
  rw [h.held_eq hprevious hnone hconns, ← h.world] at hcache hroute
  -- the state after the request, with and without the config it returned
  let answer (q : Request) := get_or_build C (Refers s.outside) q.cert q.mtls q.http2 s.world
  let w := asked.elim s.world fun q => (answer q).2
  let refs := asked.elim [] fun q => answered C q (answer q).1
  have hfetch : Reaches C s₀ { s with world := w, building := refs ++ s.building } := by
    cases asked with
    | none => exact h.run
    | some q => exact h.run.step (.get_or_build q)
  have hdrop : Reaches C s₀ { s with world := w, building := s.building } := by
    cases asked with
    | none => exact h.run
    | some q => exact hfetch.drop rfl
  suffices hadded : ∃ added, Reaches C s₀ { s with world := w, building := added ++ s.building } ∧
      ∀ config, (∃ k, (k, config) ∈ added) ↔
        ∃ r, (judgedBy C conns listener_tls previous b spec).fate.route = some r ∧ r.tls_config = some config by
    obtain ⟨added, hrun, hconfigs⟩ := hadded
    refine ⟨_, hrun.step (.elsewhere (Router.consider C conns listener_tls previous b spec).world.heap), ?_,
      h.live, h.conns,
      h.mirrors.consider hb hconfigs, consider_keyed h.keyed hb⟩
    rw [consider_world, h.held_eq hprevious hnone hconns, ← h.world]
    exact congrArg (World.mk _) hcache.symm
  unfold judgedBy
  rw [h.held_eq hprevious hnone hconns, ← h.world]
  cases hr : (judge C (Refers s.outside) listener_tls previous spec s.world).1.fate.route with
  | none =>
    refine ⟨[], hdrop, ?_⟩
    simp
  | some r =>
    simp only [Option.some.injEq, exists_eq_left']
    rcases hroute r hr with hbuilt | ⟨p, r₀, hp, hget, hcarried⟩
    · refine ⟨refs, hfetch, ?_⟩
      intro config
      rw [hbuilt]
      cases asked with
      | none => simp [refs]
      | some q =>
        change (∃ k, (k, config) ∈ answered C q (answer q).1) ↔ (answer q).1.toOption = some config
        cases (answer q).1 <;> simp [answered, Except.toOption, eq_comm]
    · cases hc : r.tls_config with
      | none =>
        refine ⟨[], hdrop, ?_⟩
        simp
      | some config =>
        obtain ⟨k, hk⟩ := ((hprevious p hp).2 config).2 ⟨spec.sni, r₀, hget, hcarried ▸ hc⟩
        refine ⟨[(k, config)], ?_, ?_⟩
        · have hstep := hdrop.step (.carry (k, config))
          have hmem : (k, config) ∈ s.live := h.live ▸ hk
          simp only [references, if_pos hmem] at hstep
          exact hstep
        · intro config'
          simp [eq_comm]

end Consider

/-- A build of a route table is a run: it ends in the build's world, and what the table
being built refers to is what its routes have. -/
theorem build_route_table_references {s : Sessions D} {previous : Option (RouteTable D)} {conns : Nat → Bool}
    (hprevious : ∀ p, previous = some p → p.Keyed ∧ Mirrors p s.live) (hnone : previous = none → s.live = [])
    (hconns : conns = Refers s.conns) (hbuilding : s.building = []) (listener_tls : ListenerTlsSpec)
    (specs : List RouteSpec) :
    ∃ s', Reaches C s s' ∧ s'.world = (build_route_table C conns listener_tls previous specs s.world).2 ∧
      s'.live = s.live ∧ s'.conns = s.conns ∧
      Mirrors (build_route_table C conns listener_tls previous specs s.world).1 s'.building := by
  have hstart : Underway C s { world := s.world } s := by
    refine ⟨.refl s, rfl, rfl, rfl, ?_, start_keyed conns previous s.world⟩
    intro config
    rw [hbuilding]
    constructor
    · rintro ⟨k, hk⟩
      cases hk
    · rintro ⟨name, r, hget, -⟩
      have hblank := live_of_status (start_status conns previous s.world name)
      cases hget.symm.trans hblank
  have hworld : ((references C).step s .clear_used).2.world = (Builder.start conns previous s.world).world :=
    congrArg (fun held => World.mk s.world.heap (s.world.cache.clear_used held))
      (hstart.held_eq hprevious hnone hconns).symm
  have hbuild : ∃ s', Underway C s (builderAt C conns listener_tls previous specs s.world specs.length) s' := by
    apply builder_inv C conns listener_tls previous specs s.world (fun b => ∃ s', Underway C s b s')
    · exact ⟨_, hstart.run.step .clear_used, hworld, rfl, rfl, hstart.mirrors, start_keyed conns previous s.world⟩
    · rintro b names ⟨s', h⟩
      exact ⟨s', h.run, h.world, h.live, h.conns, h.mirrors,
        ⟨h.keyed.exact_plain, h.keyed.dropped_plain, h.keyed.wildcard_once⟩⟩
    · rintro b ws n spec - - hb ⟨s', h⟩
      have h' : Underway C s { b with configured_wildcards := ws } s' :=
        ⟨h.run, h.world, h.live, h.conns, h.mirrors,
          ⟨h.keyed.exact_plain, h.keyed.dropped_plain, h.keyed.wildcard_once⟩⟩
      exact h'.consider hprevious hnone hconns hb listener_tls
  obtain ⟨s', h⟩ := hbuild
  rw [build_route_table_eq]
  exact ⟨s', h.run, h.world, h.live, h.conns, h.mirrors⟩

end Build

/-- A table goes live and a client connects. The next table carries its route, whose key is
missing by then, and has another route of its own. -/
theorem build_route_table_references_carried :
    let spec := { plainSpec [97] with terminate_tls := true, cert_pem := some leafPem, key_pem := some keyPem }
    let next := [{ spec with key_pem := some [] }, { spec with sni := [98], cert_pem := some caPem }]
    let first := build_route_table itemCrates (fun _ => false) {} none [spec] ⟨{}, {}⟩
    let again := (build_route_table itemCrates (0 == ·) {} (some first.1) next first.2).1
    [[97], [98]].map (fun sni => ((again.get_for_spec_sni sni).bind (·.tls_config)).map (·.certs)) =
        [some [bytes "leaf"], some [bytes "ca"]] ∧
      ∃ s s', Reaches itemCrates { world := ⟨{}, {}⟩ } s ∧ Mirrors first.1 s.live ∧ s.conns ≠ [] ∧
        Reaches itemCrates s s' ∧ s'.live = s.live ∧ s'.conns = s.conns ∧ Mirrors again s'.building := by
  intro spec next first again
  have hcerts : [[97], [98]].map (fun sni => ((again.get_for_spec_sni sni).bind (·.tls_config)).map (·.certs)) =
      [some [bytes "leaf"], some [bytes "ca"]] := by decide +kernel
  have hconfig : (first.1.get_for_spec_sni [97]).bind (·.tls_config) = some ⟨0, [bytes "leaf"], bytes "key", none, []⟩ := by
    decide +kernel
  refine ⟨hcerts, ?_⟩
  have hkeyed : first.1.Keyed := built_keyed itemCrates _ {} none [spec] _
  obtain ⟨s₁, hrun₁, hworld₁, -, hconns₁, hfirst⟩ := @build_route_table_references _ _ itemCrates
    { world := ⟨{}, {}⟩ } none (fun _ => false) (fun _ h => by cases h) (fun _ => rfl) rfl rfl {} [spec]
  change s₁.world = first.2 at hworld₁
  change Mirrors first.1 s₁.building at hfirst
  clear_value first
  obtain ⟨r, hget, hr⟩ := Option.bind_eq_some_iff.1 hconfig
  obtain ⟨k, hk⟩ := (hfirst _).2 ⟨_, r, hget, hr⟩
  have hrun := (hrun₁.step .swap).step (.opened (k, ⟨0, [bytes "leaf"], bytes "key", none, []⟩))
  simp only [references, if_pos hk, hconns₁] at hrun
  obtain ⟨s', hrun', -, hlive, hconns, hagain⟩ := @build_route_table_references _ _ itemCrates
    ⟨s₁.world, s₁.building, [], [(k, ⟨0, [bytes "leaf"], bytes "key", none, []⟩)]⟩ (some first.1) (0 == ·)
    (fun p hp => by cases hp; exact ⟨hkeyed, hfirst⟩) (fun h => by cases h) (by funext arc; simp [Refers]) rfl {} next
  rw [hworld₁] at hagain
  exact ⟨_, s', hrun, hfirst, List.cons_ne_nil _ _, hrun', hlive, hconns, hagain⟩

/-- Session state lives as long as anything uses it. In every run, a config that something
outside the cache refers to is the cache's entry at the key it was built for. So no two
configs for one key are in use, and a request for the key returns the one in use. -/
theorem sessions_survive {D : Type} [DecidableEq D] {C : Crates D} {heap : Heap} {s : Sessions D} {clock : Nat}
    {log : List (RefEvent D × Option (Except SymphonyError ServerConfig))}
    (h : (references C).Run { world := ⟨heap, {}⟩ } s clock log) :
    (∀ k config, (k, config) ∈ s.outside → BuiltFor C k config ∧ s.world.cache.cache.lookup k = some config) ∧
    (∀ k config config', (k, config) ∈ s.outside → (k, config') ∈ s.outside → config' = config) ∧
    ∀ (q : Request) config, (q.key C, config) ∈ s.outside →
      (get_or_build C (Refers s.outside) q.cert q.mtls q.http2 s.world).1 = .ok config ∧
      (get_or_build_unmarked C (Refers s.outside) q.cert q.mtls q.http2 s.world).1 = .ok config := by
  have hc := run_cached h
  refine ⟨?_, ?_, ?_⟩
  · intro k config hm
    have hl := hc.entry k config hm
    exact ⟨hc.built k config hl, hl⟩
  · intro k config config' hm hm'
    have hl := hc.entry k config hm
    rw [hc.entry k config' hm'] at hl
    exact Option.some.inj hl
  · intro q config hm
    have hl := hc.entry _ config hm
    exact ⟨(get_or_build_looked C _ q s.world).cached hl, (get_or_build_unmarked_looked C _ q s.world).cached hl⟩

/-- A table is built and goes live, and a client connects. The next table has another
certificate, and the sweep after it finds the first config with that client alone. A
request for the first certificate still returns it. -/
theorem sessions_survive_rotation :
    let events : List (RefEvent (Option Bytes)) :=
      [.clear_used, .get_or_build inChain, .swap, .retain_used,
        .opened (inChain.key itemCrates, ⟨0, [bytes "leaf", bytes "ca"], bytes "key", none, []⟩),
        .clear_used, .get_or_build ⟨⟨leafPem, keyPem⟩, none, false⟩, .swap, .retain_used]
    let s := ((references itemCrates).exec { world := ⟨{}, {}⟩ } events).2
    s.live.map (·.2.certs) = [[bytes "leaf"]] ∧ s.conns.map (·.2.certs) = [[bytes "leaf", bytes "ca"]] ∧
      (get_or_build itemCrates (Refers s.outside) inChain.cert inChain.mtls inChain.http2 s.world).1 =
        .ok ⟨0, [bytes "leaf", bytes "ca"], bytes "key", none, []⟩ := by
  intro events s
  refine ⟨by decide +kernel, by decide +kernel, ?_⟩
  obtain ⟨clock, h⟩ := Machine.exec_untimed (M := references itemCrates) (fun _ => rfl) { world := ⟨{}, {}⟩ } events
  exact ((sessions_survive h).2.2 inChain _ (by decide +kernel)).1

end Symphony.Router
