import Symphony.Lib.Runs
import Symphony.Router.Heap
/-!
# Access policies across reloads

A route carried forward keeps the TLS config of an earlier table. What it enforces is
therefore a matter of history, and the invariant that carries it is `Sound`: every
installed route enforces the client-certificate policy stored beside it. A build
compares that stored policy with the one asked for before it carries a route forward,
and overwrites the rest (`finish_route`), so every installed route follows its own
spec (`Follows`).
-/

namespace Symphony.Router

open Lib (Act Machine before_inv)
open Symphony.Failover (FailoverPolicy FailoverSpec)

/-! ## What finishing a route sets -/

theorem mapM_alloc {α β : Type} (f : α → Alloc β) (g : β → α) (hf : ∀ a h, g (f a h).1 = a) (l : List α) (h : Heap) :
    ((l.mapM f) h).1.map g = l := by
  induction l generalizing h with
  | nil => rfl
  | cons a l ih =>
    rw [List.mapM_cons]
    change g (f a h).1 :: ((l.mapM f) (f a h).2).1.map g = a :: l
    rw [hf, ih]

theorem new_peer_addr (previous : Option Failover) (addr : SocketAddr) (h : Heap) :
    (Failover.new_peer previous addr h).1.addr = addr := by
  unfold Failover.new_peer
  cases hp : previous.bind fun p => p.peers.find? fun peer => decide (peer.addr = addr) with
  | none => rfl
  | some peer =>
    obtain ⟨p, -, hf⟩ := Option.bind_eq_some_iff.1 hp
    change peer.addr = addr
    simpa using List.find?_some hf

theorem Failover.new_peers (policy : FailoverPolicy) (previous : Option Failover) (tcp_health : Option Nat)
    (same_load_source : Bool) (h : Heap) :
    let f := (Failover.new policy previous tcp_health same_load_source h).1
    f.peers.map (·.addr) = policy.peers ∧ f.drain = policy.drain :=
  ⟨mapM_alloc _ _ (new_peer_addr previous) policy.peers h, rfl⟩

/-- The TLS side of a route: what it terminates with and whether that requires a client
certificate. -/
def Route.tlsSide (r : Route) : Option ServerConfig × Bool × Bool :=
  (r.tls_config, r.terminate_tls, r.requires_client_cert)

theorem build_failover_policy (previous_route : Option Route) (previous_down : Bool) (r : Route)
    (policy : Option FailoverPolicy) (h : Heap) :
    (build_failover previous_route previous_down r policy h).1.map (fun f => (f.peers.map (·.addr), f.drain)) =
      policy.map fun p => (p.peers, p.drain) := by
  cases policy with
  | none => rfl
  | some policy =>
    obtain ⟨hp, hd⟩ := Failover.new_peers policy
      ((previous_route.filter fun p => p.metric_identity.arc == r.metric_identity.arc).bind (·.failover))
      (build_tcp_health previous_route previous_down r.destination h).1 (same_load_sources previous_route r)
      (build_tcp_health previous_route previous_down r.destination h).2
    exact congrArg some (Prod.ext hp hd)

/-- Finishing a route sets its allowlist and failover and keeps its TLS side. -/
theorem finish_route_sets (previous_route : Option Route) (previous_down carried : Bool) (spec : RouteSpec)
    (allowed_sources : Option SourceAllowlist) (policy : Option FailoverPolicy) (r : Route) (h : Heap) :
    let r' := (finish_route previous_route previous_down carried spec allowed_sources policy r h).1
    r'.tlsSide = r.tlsSide ∧ r'.allowed_sources = allowed_sources ∧
      r'.failover.map (fun f => (f.peers.map (·.addr), f.drain)) = policy.map fun p => (p.peers, p.drain) := by
  have htls := congrArg Route.tlsSide
    (finish_route_settings previous_route previous_down carried spec allowed_sources policy r h)
  refine ⟨htls, ?_⟩
  rw [finish_route_eq]
  obtain ⟨-, hm⟩ := retrack_carried_settings carried { r with allowed_sources } policy.isSome h
  obtain ⟨-, hk⟩ := keep_identity_settings previous_route spec
    (retrack_carried carried policy.isSome { r with allowed_sources } h).1
  exact ⟨hk.trans hm, build_failover_policy previous_route previous_down _ policy _⟩

/-! ## The policy of one spec -/

/-- The route enforces what `spec` asks for: its client-certificate policy, with the
required flag, its parsed allowlist, and its failover peers and drain flag if the spec
has a valid failover policy and a name. -/
structure Follows {D : Type} (C : Crates D) (spec : RouteSpec) (listener_tls : ListenerTlsSpec) (r : Route) : Prop where
  client_auth : r.Verifies C spec.terminate_tls (mtls_spec spec listener_tls)
  allowed_sources : SourceAllowlist.parse C spec.allowed_sources = .ok r.allowed_sources
  failover : r.failover.map (fun f => (f.peers.map (·.addr), f.drain)) = spec.validFailover.map fun p =>
    (p.peers, p.drain)

section Policy

variable {D : Type} {C : Crates D}

theorem Route.Verifies.congr {r r' : Route} (h : r'.tlsSide = r.tlsSide) {terminate : Bool} {mtls : Option MtlsSpec}
    (hr : r.Verifies C terminate mtls) : r'.Verifies C terminate mtls := by
  obtain ⟨h1, h2⟩ := Prod.mk.inj h
  obtain ⟨h2, h3⟩ := Prod.mk.inj h2
  unfold Route.Verifies at hr ⊢
  rw [h1, h2, h3]
  exact hr

/-- Two specs with the same stored policy ask for the same verifier. -/
theorem ClientAuth.of_inj (hC : C.NoCollision) {spec spec' : RouteSpec} {listener_tls listener_tls' : ListenerTlsSpec}
    (h : ClientAuth.of C spec listener_tls = ClientAuth.of C spec' listener_tls') :
    spec.terminate_tls = spec'.terminate_tls ∧
      (spec.terminate_tls = true → mtls_spec spec listener_tls = mtls_spec spec' listener_tls') := by
  have hsha {a b : Bytes} (h : C.sha256 a = C.sha256 b) : a = b := Option.some.inj (hC h)
  unfold ClientAuth.of at h
  unfold mtls_spec
  cases ht : spec.terminate_tls <;> cases ht' : spec'.terminate_tls <;> simp only [ht, ht'] at h ⊢
  · simp
  · cases hm' : effective_mtls spec' listener_tls' <;> simp [hm'] at h
  · cases hm : effective_mtls spec listener_tls <;> simp [hm] at h
  · refine ⟨trivial, fun _ => ?_⟩
    cases hm : effective_mtls spec listener_tls with
    | none =>
      cases hm' : effective_mtls spec' listener_tls' with
      | none => rfl
      | some m' => simp [hm, hm'] at h
    | some m =>
      cases hm' : effective_mtls spec' listener_tls' with
      | none => simp [hm, hm'] at h
      | some m' =>
        simp only [hm, hm', Bool.not_true, Bool.false_eq_true, if_false, ClientAuth.ClientCert.injEq] at h
        obtain ⟨ca, required⟩ := m
        obtain ⟨ca', required'⟩ := m'
        obtain rfl := hsha h.1
        obtain rfl := h.2
        rfl

theorem Route.Verifies.of_auth (hC : C.NoCollision) {spec spec' : RouteSpec}
    {listener_tls listener_tls' : ListenerTlsSpec}
    (h : ClientAuth.of C spec listener_tls = ClientAuth.of C spec' listener_tls') {r : Route}
    (hr : r.Verifies C spec.terminate_tls (mtls_spec spec listener_tls)) :
    r.Verifies C spec'.terminate_tls (mtls_spec spec' listener_tls') := by
  obtain ⟨ht, hm⟩ := ClientAuth.of_inj hC h
  cases hterm : spec.terminate_tls with
  | true =>
    rw [← hm hterm, ← ht]
    exact hr
  | false =>
    -- a passthrough route has no verifier to compare
    rw [hterm] at hr ht
    rw [← ht]
    exact hr

/-- Every installed route enforces the policy stored for its name. -/
def RouteTable.Sound (C : Crates D) (t : RouteTable D) : Prop :=
  ∀ k r, t.get_for_spec_sni k = some r → ∃ spec listener_tls,
    t.client_auth.lookup k = some (ClientAuth.of C spec listener_tls) ∧
      r.Verifies C spec.terminate_tls (mtls_spec spec listener_tls)

end Policy

section Judge

variable {D : Type} [DecidableEq D] {C : Crates D} (hC : C.NoCollision) {listener_tls : ListenerTlsSpec}
  {previous : Option (RouteTable D)} (hp : ∀ p, previous = some p → p.Sound C) {held : Nat → Bool}

include hC hp

/-- A route carried forward has the verifier the new spec asks for. -/
theorem last_good_verifies {spec : RouteSpec} {r : Route}
    (h : last_good previous spec.sni (ClientAuth.of C spec listener_tls) = some r) :
    r.Verifies C spec.terminate_tls (mtls_spec spec listener_tls) := by
  unfold last_good at h
  cases previous with
  | none => cases h
  | some p =>
    dsimp only at h
    split at h
    · rename_i hauth
      obtain ⟨spec', listener_tls', hl, hv⟩ := hp p rfl spec.sni r h
      rw [hauth] at hl
      exact hv.of_auth hC (Option.some.inj hl).symm
    · cases h

variable (listener_tls held) in
/-- A judgement keeps the cache invariant, and its route follows the spec. -/
theorem judge_follows (spec : RouteSpec) {w : World D} (hw : w.cache.Built C) :
    (judge C held listener_tls previous spec w).2.cache.Built C ∧
      ∀ r, (judge C held listener_tls previous spec w).1.fate.route = some r →
        (judge C held listener_tls previous spec w).1.auth = ClientAuth.of C spec listener_tls ∧
          Follows C spec listener_tls r := by
  have hbuild := keeps_build_route C held hC spec listener_tls (inheritance previous spec w.heap) w hw
  rw [judge_auth]
  -- a finished route follows the spec once its TLS side does
  have hfinish {carried : Bool} {allowed_sources : Option SourceAllowlist} {r : Route} (h : Heap)
      (ha : SourceAllowlist.parse C spec.allowed_sources = .ok allowed_sources)
      (hr : r.Verifies C spec.terminate_tls (mtls_spec spec listener_tls)) :
      Follows C spec listener_tls (finished previous spec w.heap carried allowed_sources r h).1 := by
    obtain ⟨ht, hs, hf⟩ := finish_route_sets (previous_state previous spec.sni w.heap).1
      (previous_state previous spec.sni w.heap).2 carried spec allowed_sources (read_failover spec).policy r h
    exact ⟨hr.congr ht, ha.trans (congrArg Except.ok hs.symm), hf.trans (read_failover_valid spec)⟩
  rcases judge_cases C held listener_tls previous spec w with
    ⟨hf, hw' | ⟨e, hb⟩⟩ | ⟨allowed_sources, r₀, w₁, ha, hb, hf, hw'⟩ | ⟨allowed_sources, e, r₀, w₁, ha, hb, hl, hf, hw'⟩
  · rw [hw', hf]
    refine ⟨hw, ?_⟩
    rintro r ⟨⟩
  · rw [hb] at hbuild
    rw [hf]
    refine ⟨hbuild.1, ?_⟩
    rintro r ⟨⟩
  · rw [hb] at hbuild
    rw [hw', hf]
    refine ⟨hbuild.1, ?_⟩
    rintro r ⟨⟩
    exact ⟨rfl, hfinish w₁.heap ha (hbuild.2 r₀ rfl)⟩
  · rw [hb] at hbuild
    rw [hw', hf]
    refine ⟨hbuild.1, ?_⟩
    rintro r ⟨⟩
    exact ⟨rfl, hfinish w₁.heap ha (last_good_verifies hC hp hl)⟩

end Judge

/-! ## One build -/

section Build

variable {D : Type} [DecidableEq D]

/-- Before position `n`: the cache invariant, and every route installed so far follows
its own spec, with that spec's policy stored beside it. -/
structure Following (C : Crates D) (listener_tls : ListenerTlsSpec) (specs : List RouteSpec) (b : Builder D) :
    Prop where
  built : b.world.cache.Built C
  routes : ∀ k r, b.get_for_spec_sni k = some r → ∃ n spec, decider specs k = some n ∧ specs[n]? = some spec ∧
    b.client_auth.lookup k = some (ClientAuth.of C spec listener_tls) ∧ Follows C spec listener_tls r

variable {C : Crates D} (hC : C.NoCollision) {listener_tls : ListenerTlsSpec} {previous : Option (RouteTable D)}
  (hp : ∀ p, previous = some p → p.Sound C) {conns : Nat → Bool} {specs : List RouteSpec}

/-- Recording a judgement keeps the routes there were and adds the judged one. -/
theorem record_following {b : Builder D} (h : Following C listener_tls specs b) {n : Nat} {spec : RouteSpec}
    (hn : specs[n]? = some spec) (hd : decider specs spec.sni = some n) (hb : b.status spec.sni = none) {j : Judged D}
    (hj : ∀ r, j.fate.route = some r → j.auth = ClientAuth.of C spec listener_tls ∧ Follows C spec listener_tls r) :
    Following C listener_tls specs (b.record spec.sni j) := by
  obtain ⟨-, hworld, hauth⟩ := record_frame b spec.sni j
  refine ⟨hworld ▸ h.built, ?_⟩
  intro k r hk
  rw [record_live hb] at hk
  rw [hauth]
  by_cases hks : k = spec.sni
  · subst hks
    rw [if_pos rfl] at hk
    obtain ⟨ha, hf⟩ := hj r hk
    refine ⟨n, spec, hd, hn, ?_, hf⟩
    rw [hk, Option.isSome_some, if_pos rfl, AList.lookup_insert, ha]
  · rw [if_neg hks] at hk
    obtain ⟨m, s, hm, hs, hl, hf⟩ := h.routes k r hk
    refine ⟨m, s, hm, hs, ?_, hf⟩
    split
    · rw [AList.lookup_insert_ne hks]
      exact hl
    · exact hl

include hC hp

variable (conns listener_tls specs) in
theorem build_following {w : World D} (hw : w.cache.Built C) :
    Following C listener_tls specs (builderAt C conns listener_tls previous specs w specs.length) := by
  apply builder_inv
  · refine ⟨built_clear_used C _ hw, ?_⟩
    intro k r hk
    rw [live_of_status (start_status conns previous w k)] at hk
    cases hk
  · intro b names h
    exact ⟨h.built, h.routes⟩
  · intro b ws n spec hn hd hb h
    obtain ⟨hbuilt, hj⟩ := judge_follows hC listener_tls hp (held_by conns previous b.toRouteTable) spec h.built
    exact record_following (b := { b with
      configured_wildcards := ws
      world := (judge C (held_by conns previous b.toRouteTable) listener_tls previous spec b.world).2 })
      ⟨hbuilt, h.routes⟩ hn hd hb hj

/-- After a build, every installed route follows the spec that decides its name. -/
theorem built_follows {w : World D} (hw : w.cache.Built C) {k : Bytes} {r : Route}
    (h : (k, r) ∈ (build_route_table C conns listener_tls previous specs w).1.routes) :
    ∃ n spec, decider specs k = some n ∧ specs[n]? = some spec ∧ Follows C spec listener_tls r := by
  rw [RouteTable.mem_routes (built_keyed C conns listener_tls previous specs w), build_route_table_eq] at h
  obtain ⟨n, spec, hd, hn, -, hf⟩ := (build_following hC listener_tls hp conns specs hw).routes k r h
  exact ⟨n, spec, hd, hn, hf⟩

variable (conns listener_tls specs) in
theorem build_sound {w : World D} (hw : w.cache.Built C) :
    (build_route_table C conns listener_tls previous specs w).1.Sound C ∧
      (build_route_table C conns listener_tls previous specs w).2.cache.Built C := by
  have hf := build_following hC listener_tls hp conns specs hw
  rw [build_route_table_eq]
  refine ⟨?_, hf.built⟩
  intro k r hk
  obtain ⟨n, spec, -, -, hl, hfol⟩ := hf.routes k r hk
  exact ⟨spec, listener_tls, hl, hfol.client_auth⟩

end Build

/-! ## Runs -/

/-- A proxy's route table and what it shares with the tables before it. -/
structure Proxy (D : Type) where
  world : World D
  live : Option (RouteTable D)

/-- What happens to a proxy's tables. -/
inductive Event where
  /-- A build whose table goes live. -/
  | commit (conns : Nat → Bool) (listener_tls : ListenerTlsSpec) (specs : List RouteSpec)
  /-- A build whose table is dropped, because another part of the update was invalid. -/
  | abandon (conns : Nat → Bool) (listener_tls : ListenerTlsSpec) (specs : List RouteSpec)
  /-- `retain_used`. -/
  | sweep (held : Nat → Bool)
  /-- A config for `resolveConnection`. -/
  | resolve (held : Nat → Bool) (cert : CertSpec) (mtls : Option MtlsSpec) (http2 : Bool)
  /-- Connections and probes mark health cells, and time goes on. -/
  | serve (refused_at : Nat → Nat) (now_ns wall_ns : Nat)

/-- The reload machine of a proxy. -/
def reloads {D : Type} [DecidableEq D] (C : Crates D) : Machine (Proxy D) Event Unit where
  reading _ := none
  step s
    | .commit conns listener_tls specs =>
      let r := build_route_table C conns listener_tls s.live specs s.world
      ((), ⟨r.2, some r.1⟩)
    | .abandon conns listener_tls specs =>
      ((), ⟨(build_route_table C conns listener_tls s.live specs s.world).2, s.live⟩)
    | .sweep held => ((), { s with world := { s.world with cache := s.world.cache.retain_used held } })
    | .resolve held cert mtls http2 =>
      ((), { s with world := (get_or_build_unmarked C held cert mtls http2 s.world).2 })
    | .serve refused_at now_ns wall_ns =>
      ((), { s with world := { s.world with heap := { s.world.heap with refused_at, now_ns, wall_ns } } })

/-- A proxy before its first build. -/
def Proxy.fresh {D : Type} (heap : Heap) : Proxy D := ⟨⟨heap, {}⟩, none⟩

section Runs

variable {D : Type} [DecidableEq D] {C : Crates D}

/-- The live table is sound and cached configs are what their keys say. -/
def Proxy.Sound (C : Crates D) (s : Proxy D) : Prop :=
  s.world.cache.Built C ∧ ∀ t, s.live = some t → t.Sound C

theorem step_sound (hC : C.NoCollision) {s : Proxy D} (h : s.Sound C) (e : Event) :
    ((reloads C).step s e).2.Sound C := by
  obtain ⟨hw, hp⟩ := h
  cases e with
  | commit conns listener_tls specs =>
    obtain ⟨ht, hw'⟩ := build_sound hC listener_tls hp conns specs hw
    refine ⟨hw', ?_⟩
    rintro t ⟨⟩
    exact ht
  | abandon conns listener_tls specs =>
    exact ⟨(build_sound hC listener_tls hp conns specs hw).2, hp⟩
  | sweep held => exact ⟨built_retain_used C held hw, hp⟩
  | resolve held cert mtls http2 => exact ⟨(keeps_get_or_build_unmarked C held cert mtls http2 s.world hw).1, hp⟩
  | serve refused_at now_ns wall_ns => exact ⟨hw, hp⟩

theorem run_sound (hC : C.NoCollision) {heap : Heap} {s : Proxy D} {clock : Nat} {log : List (Event × Unit)}
    (h : (reloads C).Run (.fresh heap) s clock log) : s.Sound C := by
  apply h.inv fun s _ _ => s.Sound C
  · refine ⟨built_new C, ?_⟩
    rintro t ⟨⟩
  · intro s _ _ e hs _
    exact step_sound hC hs e

/-- No reload leaves an outdated access policy. After any run of builds, committed or
abandoned, with any failures, a table built next has on every route exactly the policy
that the spec deciding the route's name asks for in that build, whether the route was
rebuilt or carried forward from any earlier table. -/
theorem reload_follows (hC : C.NoCollision) {heap : Heap} {s : Proxy D} {clock : Nat} {log : List (Event × Unit)}
    (h : (reloads C).Run (.fresh heap) s clock log) (conns : Nat → Bool) (listener_tls : ListenerTlsSpec)
    (specs : List RouteSpec) :
    ∀ k r, (k, r) ∈ (build_route_table C conns listener_tls s.live specs s.world).1.routes →
      ∃ n spec, decider specs k = some n ∧ specs[n]? = some spec ∧
        r.Verifies C spec.terminate_tls (mtls_spec spec listener_tls) ∧
        SourceAllowlist.parse C spec.allowed_sources = .ok r.allowed_sources ∧
        (r.failover.isSome ↔ spec.sni ≠ [] ∧ ∃ f p, spec.failover = some f ∧ f.parse = .ok p) ∧
        ∀ o, r.failover = some o → ∃ f, spec.failover = some f ∧ f.addrs = some (o.peers.map (·.addr)) ∧
          o.drain = f.drain := by
  intro k r hr
  obtain ⟨hw, hp⟩ := run_sound hC h
  obtain ⟨n, spec, hd, hn, hf⟩ := built_follows hC hp hw hr
  refine ⟨n, spec, hd, hn, hf.client_auth, hf.allowed_sources, ?_, ?_⟩
  · have hsome := congrArg Option.isSome hf.failover
    rw [Option.isSome_map, Option.isSome_map] at hsome
    rw [hsome, Option.isSome_iff_exists]
    simp only [RouteSpec.validFailover_eq_some]
    exact ⟨fun ⟨p, hs, f, h1, h2⟩ => ⟨hs, f, p, h1, h2⟩, fun ⟨hs, f, p, h1, h2⟩ => ⟨p, hs, f, h1, h2⟩⟩
  · intro o ho
    obtain ⟨p, hv, hpo⟩ := Option.map_eq_some_iff.1 (hf.failover.symm.trans (congrArg (Option.map _) ho))
    obtain ⟨-, f, hfs, hparse⟩ := RouteSpec.validFailover_eq_some.1 hv
    obtain ⟨ha, hdr⟩ := FailoverSpec.parse_keeps hparse
    obtain ⟨hpeers, hdrain⟩ := Prod.mk.inj hpo
    exact ⟨f, hfs, ha.trans (congrArg some hpeers), hdrain.symm.trans hdr⟩

end Runs

/-- A terminating route that requires client certificates of one CA. -/
def guardedSpec : RouteSpec where
  sni := bytes "a.example.com"
  terminate_tls := true
  cert_pem := some (pem CERTIFICATE "pair")
  key_pem := some (pem PRIVATE_KEY "pair")
  mtls_ca_pem := some (pem CERTIFICATE "ca")
  require_client_cert := true

/-- The same route in the middle of a key rotation, with an allowlist and draining. -/
def rotatingSpec : RouteSpec :=
  { guardedSpec with
    key_pem := some (pem PRIVATE_KEY "next")
    allowed_sources := [bytes "10.0.0.0/8"]
    failover := some { peers := [(bytes "10.0.0.2", 8443)], drain := true } }

/-- A route carried forward through a failing rebuild takes the new allowlist and policy. -/
theorem reload_follows_rotation :
    let s := ((reloads literalCrates).step (.fresh {}) (.commit (fun _ => false) {} [guardedSpec])).2
    ∃ r, (rotatingSpec.sni, r) ∈ (build_route_table literalCrates (fun _ => false) {} s.live
      [rotatingSpec] s.world).1.routes ∧
      r.tls_config.map (·.certs) = some [bytes "pair"] ∧ r.requires_client_cert = true ∧
      r.allowed_sources = some ⟨[.V4 0x0a000000 8]⟩ ∧ r.failover.isSome = true := by
  intro s
  have hrun : (reloads literalCrates).Run (.fresh {}) s 0 [(.commit (fun _ => false) {} [guardedSpec], ())] :=
    Machine.Run.step (Event.commit (fun _ => false) {} [guardedSpec]) .nil (Nat.le_refl _)
  have hget : ((build_route_table literalCrates (fun _ => false) {} s.live [rotatingSpec] s.world).1.routes.map
      fun e => (e.1, e.2.tls_config.map (·.certs))) = [(rotatingSpec.sni, some [bytes "pair"])] := by decide +kernel
  obtain ⟨⟨k, r⟩, hr, hk⟩ := List.mem_map.1 (hget ▸ List.mem_singleton_self _)
  obtain ⟨rfl, hcerts⟩ := Prod.mk.inj hk
  obtain ⟨n, spec, hd, hn, hauth, hallow, hfail, -⟩ :=
    reload_follows literalCrates_noCollision hrun (fun _ => false) {} [rotatingSpec] _ r hr
  have h0 : n = 0 := by
    have : n < 1 := (List.getElem?_eq_some_iff.1 hn).1
    omega
  subst h0
  cases hn
  refine ⟨r, hr, hcerts, hauth.2.1, ?_, hfail.2 ?_⟩
  · have : SourceAllowlist.parse literalCrates rotatingSpec.allowed_sources = .ok (some ⟨[.V4 0x0a000000 8]⟩) := by
      decide +kernel
    exact Except.ok.inj (hallow.symm.trans this)
  · refine ⟨by decide +kernel, _, ⟨[⟨.V4 0x0a000002, 8443, 0⟩], true, 1000000000, 5000000000, 60000000000, none⟩,
      rfl, ?_⟩
    decide +kernel

end Symphony.Router
