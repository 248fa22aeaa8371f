import Symphony.Router.Resolve
/-!
# What a build does to the heap

Building a route only adds shared objects: identities are handed out in order, and the
health cells handed out before keep their state (`Heap.Extends`). With it, what `judge`
can do is said once (`judge_cases`): it rejects its spec, finishes a route it has built
from the spec, or finishes the route of the previous table.
-/

namespace Symphony.Router

open Lib (Act)
open Symphony.Failover (FailoverPolicy)

/-- `h'` is `h` with objects added. -/
structure Heap.Extends (h h' : Heap) : Prop where
  next : h.next ≤ h'.next
  cells : ∀ c, c < h.next → h'.refused_at c = h.refused_at c
  now_ns : h'.now_ns = h.now_ns
  wall_ns : h'.wall_ns = h.wall_ns

theorem Heap.Extends.refl (h : Heap) : h.Extends h := ⟨Nat.le_refl _, fun _ _ => rfl, rfl, rfl⟩

theorem Heap.Extends.trans {h₁ h₂ h₃ : Heap} (h : h₁.Extends h₂) (h' : h₂.Extends h₃) : h₁.Extends h₃ where
  next := h.next.trans h'.next
  cells c hc := (h'.cells c (Nat.lt_of_lt_of_le hc h.next)).trans (h.cells c hc)
  now_ns := h'.now_ns.trans h.now_ns
  wall_ns := h'.wall_ns.trans h.wall_ns

/-! ## Allocations -/

/-- The computation only adds objects. -/
def Grows {α : Type} (m : Alloc α) : Prop := ∀ h : Heap, h.Extends (m h).2

section Grows

variable {α β : Type}

theorem grows_pure (a : α) : Grows (pure a : Alloc α) := Heap.Extends.refl

theorem Grows.bind {m : Alloc α} {f : α → Alloc β} (hm : Grows m) (hf : ∀ a, Grows (f a)) : Grows (m >>= f) := by
  intro h
  exact (hm h).trans (hf _ _)

theorem grows_alloc : Grows alloc := by
  intro h
  exact ⟨Nat.le_succ _, fun _ _ => rfl, rfl, rfl⟩

theorem grows_mapM {f : α → Alloc β} (hf : ∀ a, Grows (f a)) (l : List α) : Grows (l.mapM f) := by
  induction l with
  | nil => exact grows_pure []
  | cons a l ih =>
    rw [List.mapM_cons]
    exact (hf a).bind fun _ => ih.bind fun _ => grows_pure _

theorem grows_slot_health (refusing : Bool) : Grows (SlotHealth.new refusing) := by
  intro h
  refine ⟨Nat.le_succ _, ?_, rfl, rfl⟩
  intro c hc
  have hne : c ≠ h.next := Nat.ne_of_lt hc
  change (if c = h.next then _ else h.refused_at c) = _
  rw [if_neg hne]

theorem grows_new_slot (s : UdsSlotSpec) : Grows (UdsBalancer.new_slot s) := by
  unfold UdsBalancer.new_slot
  split
  · exact grows_alloc.bind fun _ => grows_pure _
  · exact grows_pure _

theorem grows_balancer (slots : List UdsSlotSpec) (ip_affinity : Bool) (ttl : Nat) :
    Grows (UdsBalancer.new slots ip_affinity ttl) := by
  apply (grows_mapM grows_new_slot slots).bind
  intro sockets
  exact grows_alloc.bind fun _ => grows_pure _

theorem grows_track_slot (previous : Option UdsBalancer) (refuse_new : Bool) (s : UdsSlot) :
    Grows (UdsBalancer.track_slot previous refuse_new s) := by
  unfold UdsBalancer.track_slot
  split
  · exact grows_pure _
  · exact (grows_slot_health _).bind fun _ => grows_pure _

theorem grows_with_health (b : UdsBalancer) (previous : Option UdsBalancer) (refuse_new : Bool) :
    Grows (b.with_health previous refuse_new) := by
  apply (grows_mapM (grows_track_slot previous refuse_new) b.sockets).bind
  intro sockets
  exact grows_pure _

theorem grows_retracked (track : Bool) (d : Destination) : Grows (retracked track d) := by
  cases d with
  | Tcp addr => exact grows_pure _
  | UdsSet arc b =>
    have hb : Grows (b.retracked track) := by
      apply (grows_balancer _ _ _).bind
      intro fresh
      dsimp only
      split
      · exact grows_with_health _ _ _
      · exact grows_pure _
    apply hb.bind
    intro b
    exact grows_alloc.bind fun _ => grows_pure _

theorem grows_new_peer (previous : Option Failover) (addr : SocketAddr) : Grows (Failover.new_peer previous addr) := by
  unfold Failover.new_peer
  split
  · exact grows_pure _
  · exact grows_alloc.bind fun _ => grows_pure _

theorem grows_new_status (previous : Option Failover) : Grows (Failover.new_status previous) := by
  unfold Failover.new_status
  split
  · exact grows_pure _
  · exact grows_alloc

theorem grows_new_spill (policy : FailoverPolicy) (previous : Option Failover) (same_load_source : Bool) :
    Grows (Failover.new_spill policy previous same_load_source) := by
  unfold Failover.new_spill
  split
  · exact grows_pure _
  · split
    · exact grows_pure _
    · exact grows_alloc.bind fun _ => grows_pure _

theorem grows_failover (policy : FailoverPolicy) (previous : Option Failover) (tcp_health : Option SlotHealth)
    (same_load_source : Bool) : Grows (Failover.new policy previous tcp_health same_load_source) := by
  apply (grows_mapM (grows_new_peer previous) policy.peers).bind
  intro peers
  apply (grows_new_spill policy previous same_load_source).bind
  intro spill
  apply (grows_new_status previous).bind
  intro status
  exact grows_alloc.bind fun _ => grows_pure _

theorem grows_uds_set (upstreams : List UpstreamSpec) (previous : Option UdsBalancer) (track_health refuse_new : Bool) :
    Grows (build_uds_set upstreams previous track_health refuse_new) := by
  apply (grows_balancer _ _ _).bind
  intro b
  dsimp only
  split
  · apply (grows_with_health _ _ _).bind
    intro b
    exact grows_alloc.bind fun _ => grows_pure _
  · apply (grows_pure _).bind
    intro b
    exact grows_alloc.bind fun _ => grows_pure _

theorem grows_limiter (spec : RouteSpec) : Grows (build_rate_limiter spec) := by
  unfold build_rate_limiter
  split
  · exact grows_pure _
  · intro h
    exact grows_alloc h

theorem grows_assemble (spec : RouteSpec) (listener_tls : ListenerTlsSpec) (tls_config : Option ServerConfig)
    (destination : Destination) (destination_h2 : Option Destination) :
    Grows (assemble spec listener_tls tls_config destination destination_h2) := by
  apply (grows_limiter spec).bind
  intro limiter
  apply (grows_alloc.bind fun _ => grows_alloc.bind fun _ => grows_pure _).bind
  intro identity
  exact grows_pure _

end Grows

/-! ## Finishing a route -/

/-- What finishing a route leaves alone. -/
def Route.settings (r : Route) : Route :=
  { r with
    metric_identity := ⟨0, [], [], 0⟩, destination := placeholder, destination_h2 := none
    allowed_sources := none, failover := none }

/-- The route with its destinations re-created if it was carried and the policy's presence
changed. -/
def retrack_carried (carried track : Bool) (r : Route) : Alloc Route :=
  if carried && !tracks_health_as r track then retrack_route r track else pure r

section Finish

variable (previous_route : Option Route) (previous_down carried : Bool) (spec : RouteSpec)
  (allowed_sources : Option SourceAllowlist) (policy : Option FailoverPolicy) (r : Route)

theorem finish_route_eq (h : Heap) :
    let m := retrack_carried carried policy.isSome { r with allowed_sources } h
    let r' := keep_identity previous_route spec m.1
    let f := build_failover previous_route previous_down r' policy m.2
    finish_route previous_route previous_down carried spec allowed_sources policy r h =
      ({ r' with failover := f.1 }, f.2) := by
  unfold finish_route retrack_carried
  by_cases hc : carried && !tracks_health_as { r with allowed_sources } policy.isSome
  · simp only [hc, if_true]
    rfl
  · simp only [hc]
    rfl

/-- The identity that is kept says nothing about destinations. -/
theorem finish_route_destinations (h : Heap) :
    let m := retrack_carried carried policy.isSome { r with allowed_sources } h
    let r' := (finish_route previous_route previous_down carried spec allowed_sources policy r h).1
    r'.destination = m.1.destination ∧ r'.destination_h2 = m.1.destination_h2 := by
  rw [finish_route_eq]
  dsimp only
  unfold keep_identity
  split
  · split <;> exact ⟨rfl, rfl⟩
  · exact ⟨rfl, rfl⟩

theorem retrack_carried_settings (track : Bool) (h : Heap) :
    (retrack_carried carried track r h).1.settings = r.settings ∧
      (retrack_carried carried track r h).1.allowed_sources = r.allowed_sources := by
  unfold retrack_carried
  split
  · unfold retrack_route
    cases r.destination_h2 <;> exact ⟨rfl, rfl⟩
  · exact ⟨rfl, rfl⟩

theorem keep_identity_settings : (keep_identity previous_route spec r).settings = r.settings ∧
    (keep_identity previous_route spec r).allowed_sources = r.allowed_sources := by
  unfold keep_identity
  split
  · split <;> exact ⟨rfl, rfl⟩
  · exact ⟨rfl, rfl⟩

theorem finish_route_settings (h : Heap) :
    (finish_route previous_route previous_down carried spec allowed_sources policy r h).1.settings = r.settings := by
  rw [finish_route_eq]
  have hm := retrack_carried_settings carried { r with allowed_sources } policy.isSome h
  have hk := keep_identity_settings previous_route spec
    (retrack_carried carried policy.isSome { r with allowed_sources } h).1
  exact hk.1.trans hm.1

theorem grows_tcp_health (destination : Destination) :
    Grows (build_tcp_health previous_route previous_down destination) := by
  unfold build_tcp_health
  split
  · exact grows_pure _
  · split
    · exact grows_pure _
    · exact (grows_slot_health _).bind fun _ => grows_pure _

theorem grows_build_failover : Grows (build_failover previous_route previous_down r policy) := by
  unfold build_failover
  split
  · exact grows_pure _
  · apply (grows_tcp_health previous_route previous_down r.destination).bind
    intro tcp_health
    exact (grows_failover _ _ _ _).bind fun _ => grows_pure _

theorem grows_retrack_carried (track : Bool) : Grows (retrack_carried carried track r) := by
  unfold retrack_carried
  split
  · unfold retrack_route
    split
    · exact (grows_retracked _ _).bind fun _ => grows_pure _
    · apply (grows_retracked _ _).bind
      intro destination
      exact (grows_retracked _ _).bind fun _ => grows_pure _
  · exact grows_pure _

theorem grows_finish_route :
    Grows (finish_route previous_route previous_down carried spec allowed_sources policy r) := by
  intro h
  rw [finish_route_eq]
  exact (grows_retrack_carried carried { r with allowed_sources } policy.isSome h).trans
    (grows_build_failover previous_route previous_down policy _ _)

end Finish

/-! ## Builds that may fail -/

variable {r : Route} {inherit : Inherit}

theorem grows_build_destination (upstreams : List UpstreamSpec) (previous : Option UdsBalancer)
    (track_health refuse_new : Bool) :
    Act.Moves Heap.Extends (build_destination_for upstreams previous track_health refuse_new) := by
  unfold build_destination_for
  split
  · exact Act.moves_fail .refl _
  · split
    · exact Act.moves_fail .refl _
    · exact Act.moves_pure .refl _
  · exact grows_uds_set _ _ _ _

theorem grows_build_destinations (spec : RouteSpec) (inherit : Inherit) :
    Act.Moves Heap.Extends (build_destinations spec inherit) := by
  unfold build_destinations
  dsimp only
  split
  · exact Act.moves_pure .refl _
  split
  · exact Act.moves_fail .refl _
  apply (grows_build_destination _ _ _ _).bind .trans
  intro destination
  have hh2 : Act.Moves Heap.Extends (build_h2_destination (spec.upstreams.filter is_h2) inherit) := by
    unfold build_h2_destination
    split
    · exact Act.moves_pure .refl _
    · apply (grows_build_destination _ _ _ _).bind .trans
      intro h2
      exact Act.moves_pure .refl _
  apply hh2.bind .trans
  intro h2
  exact Act.moves_pure .refl _

/-- A destination that was built: a TCP address, or a UDS set. -/
theorem build_destination_ok {upstreams : List UpstreamSpec} {previous : Option UdsBalancer}
    {track_health refuse_new : Bool} {h h' : Heap} {d : Destination}
    (hd : build_destination_for upstreams previous track_health refuse_new h = (.ok d, h')) :
    (∃ host port rest addr, upstreams = .Tcp host port :: rest ∧ d = .Tcp addr ∧ h' = h) ∨
      (∃ paths pids tids ip_affinity ttl protocol rest,
        upstreams = .Uds paths pids tids ip_affinity ttl protocol :: rest) ∧
        build_uds_set upstreams previous track_health refuse_new h = (d, h') := by
  cases upstreams with
  | nil => cases hd
  | cons u rest =>
    cases u with
    | Tcp host port =>
      left
      unfold build_destination_for at hd
      dsimp only at hd
      cases ha : parse_socket_addr (host ++ [58] ++ Sni.decimal port) with
      | none =>
        rw [ha] at hd
        cases hd
      | some addr =>
        rw [ha] at hd
        cases hd
        exact ⟨host, port, rest, addr, rfl, rfl, rfl⟩
    | Uds paths pids tids ip_affinity ttl protocol =>
      right
      obtain ⟨hd₁, hd₂⟩ := Prod.mk.inj hd
      exact ⟨⟨paths, pids, tids, ip_affinity, ttl, protocol, rest, rfl⟩, Prod.ext (Except.ok.inj hd₁) hd₂⟩

/-- Destinations that were built: the placeholder, or the default one and then the one for h2. -/
theorem build_destinations_ok {spec : RouteSpec} {h h' : Heap} {d : Destination} {d₂ : Option Destination}
    (hb : build_destinations spec inherit h = (.ok (d, d₂), h')) :
    (d = placeholder ∧ d₂ = none ∧ h' = h) ∨
      ∃ h₁, build_destination_for (spec.upstreams.filter fun u => !is_h2 u)
          ((inherit.previous.map (·.destination)).bind Destination.balancer) inherit.track_health inherit.refuse_new h =
            (.ok d, h₁) ∧
        ((d₂ = none ∧ h' = h₁) ∨ ∃ x, d₂ = some x ∧ build_destination_for (spec.upstreams.filter is_h2)
          ((inherit.previous.bind (·.destination_h2)).bind Destination.balancer) inherit.track_health
            inherit.refuse_new h₁ =
            (.ok x, h')) := by
  have hprev : (inherit.previous.bind fun r => r.destination.balancer) =
      (inherit.previous.map (·.destination)).bind Destination.balancer := by
    cases inherit.previous <;> rfl
  have hprev₂ : (inherit.previous.bind fun r => r.destination_h2.bind Destination.balancer) =
      (inherit.previous.bind (·.destination_h2)).bind Destination.balancer := by
    cases inherit.previous <;> rfl
  unfold build_destinations at hb
  by_cases hs : spec.suspended || spec.upstreams.isEmpty
  · rw [if_pos hs] at hb
    cases hb
    exact .inl ⟨rfl, rfl, rfl⟩
  rw [if_neg hs] at hb
  by_cases hh1 : (spec.upstreams.filter fun u => !is_h2 u) = []
  · rw [if_pos hh1] at hb
    cases hb
  rw [if_neg hh1] at hb
  obtain ⟨d', h₁, hdest, hb⟩ := Act.bind_ok hb
  obtain ⟨d₂', h₂, hdest₂, hb⟩ := Act.bind_ok hb
  cases hb
  rw [hprev] at hdest
  refine .inr ⟨h₁, hdest, ?_⟩
  unfold build_h2_destination at hdest₂
  by_cases hh2 : spec.upstreams.filter is_h2 = []
  · rw [if_pos hh2] at hdest₂
    cases hdest₂
    exact .inl ⟨rfl, rfl⟩
  · rw [if_neg hh2] at hdest₂
    obtain ⟨x, h₃, hx, hpure⟩ := Act.bind_ok hdest₂
    cases hpure
    rw [hprev₂] at hx
    exact .inr ⟨x, rfl, hx⟩

/-- The heap of `w'` extends that of `w`. -/
def World.Extends {D : Type} (w w' : World D) : Prop := w.heap.Extends w'.heap

section World

variable {D : Type}

theorem World.Extends.refl (w : World D) : w.Extends w := Heap.Extends.refl w.heap

theorem World.Extends.trans {w₁ w₂ w₃ : World D} (h : w₁.Extends w₂) (h' : w₂.Extends w₃) : w₁.Extends w₃ :=
  Heap.Extends.trans h h'

theorem moves_onHeap {α : Type} {m : Building α} (h : Act.Moves Heap.Extends m) :
    Act.Moves World.Extends (onHeap m : Act (World D) SymphonyError α) := by
  intro w
  exact h w.heap

variable [DecidableEq D] (C : Crates D) (held : Nat → Bool)

theorem grows_lookup_or_build (cert : CertSpec) (mtls : Option MtlsSpec) (http2 : Bool) :
    Act.Moves World.Extends (lookup_or_build C held cert mtls http2) := by
  intro w
  unfold lookup_or_build
  dsimp only
  split
  · exact .refl w
  · split
    · exact grows_alloc w.heap
    · exact grows_alloc w.heap

theorem grows_get_or_build (cert : CertSpec) (mtls : Option MtlsSpec) (http2 : Bool) :
    Act.Moves World.Extends (get_or_build C held cert mtls http2) := by
  apply (grows_lookup_or_build C held cert mtls http2).bind .trans
  intro r w
  exact Heap.Extends.refl w.heap

theorem grows_get_or_build_unmarked (cert : CertSpec) (mtls : Option MtlsSpec) (http2 : Bool) :
    Act.Moves World.Extends (get_or_build_unmarked C held cert mtls http2) := by
  apply (grows_lookup_or_build C held cert mtls http2).bind .trans
  intro r
  exact Act.moves_pure .refl _

theorem grows_build_tls (spec : RouteSpec) (listener_tls : ListenerTlsSpec) :
    Act.Moves World.Extends (build_tls C held spec listener_tls) := by
  unfold build_tls
  split
  · split
    · exact Act.moves_fail .refl _
    · exact Act.moves_fail .refl _
    · apply (grows_get_or_build C held _ _ _).bind .trans
      intro config
      exact Act.moves_pure .refl _
  · exact Act.moves_pure .refl _

theorem grows_build_route (spec : RouteSpec) (listener_tls : ListenerTlsSpec) (inherit : Inherit) :
    Act.Moves World.Extends (build_route C held spec listener_tls inherit) := by
  apply (grows_build_tls C held spec listener_tls).bind .trans
  intro tls_config
  apply (moves_onHeap (grows_build_destinations spec inherit)).bind .trans
  rintro ⟨destination, destination_h2⟩
  dsimp only
  apply (Act.moves_ofExcept World.Extends.refl _).bind .trans
  rintro ⟨⟩
  exact moves_onHeap (grows_assemble spec listener_tls tls_config destination destination_h2)

variable {C held}

/-- A route that was built: its TLS config, its destinations, then the record. -/
theorem build_route_ok {spec : RouteSpec} {listener_tls : ListenerTlsSpec} {w w' : World D}
    (h : build_route C held spec listener_tls inherit w = (.ok r, w')) :
    ∃ tls_config w₁ destination destination_h2 h₂,
      build_tls C held spec listener_tls w = (.ok tls_config, w₁) ∧
      build_destinations spec inherit w₁.heap = (.ok (destination, destination_h2), h₂) ∧
      assemble spec listener_tls tls_config destination destination_h2 h₂ = (r, w'.heap) ∧ w'.cache = w₁.cache := by
  obtain ⟨tls_config, w₁, htls, h⟩ := Act.bind_ok h
  obtain ⟨⟨destination, destination_h2⟩, w₂, hdest, h⟩ := Act.bind_ok h
  obtain ⟨⟨⟩, w₃, hcheck, h⟩ := Act.bind_ok h
  obtain ⟨hd, hw₂⟩ := Prod.mk.inj hdest
  obtain ⟨-, rfl⟩ := Prod.mk.inj hcheck
  obtain ⟨hr, hw'⟩ := Prod.mk.inj h
  subst hw₂
  subst hw'
  exact ⟨tls_config, w₁, destination, destination_h2, _, htls, Prod.ext hd rfl, Prod.ext (Except.ok.inj hr) rfl, rfl⟩

/-- The heap grows from the config to the destinations, and from there to the record. -/
theorem build_route_grown {spec : RouteSpec} {listener_tls : ListenerTlsSpec} {w w' : World D}
    (h : build_route C held spec listener_tls inherit w = (.ok r, w')) :
    ∃ tls_config h₁ destination destination_h2 h₂, w.heap.Extends h₁ ∧
      build_destinations spec inherit h₁ = (.ok (destination, destination_h2), h₂) ∧ h₁.Extends h₂ ∧
      assemble spec listener_tls tls_config destination destination_h2 h₂ = (r, w'.heap) ∧ h₂.Extends w'.heap := by
  obtain ⟨tls_config, w₁, destination, destination_h2, h₂, htls, hdest, hasm, -⟩ := build_route_ok h
  refine ⟨tls_config, w₁.heap, destination, destination_h2, h₂, ?_, hdest, ?_, hasm, ?_⟩
  · exact (grows_build_tls C held spec listener_tls).of_eq htls
  · exact (grows_build_destinations spec inherit).of_eq hdest
  · have := grows_assemble spec listener_tls tls_config destination destination_h2 h₂
    rwa [hasm] at this

/-! ## What becomes of a spec -/

variable (listener_tls : ListenerTlsSpec) (previous : Option (RouteTable D)) (spec : RouteSpec)

/-- What a route built from the spec takes over. -/
def inheritance (h : Heap) : Inherit :=
  ⟨(previous_state previous spec.sni h).1, (read_failover spec).policy.isSome, (previous_state previous spec.sni h).2⟩

/-- `finish_route` as `judge_valid` calls it, when the heap was `h₀` at first. -/
def finished (h₀ : Heap) (carried : Bool) (allowed_sources : Option SourceAllowlist) (r : Route) : Alloc Route :=
  finish_route (previous_state previous spec.sni h₀).1 (previous_state previous spec.sni h₀).2 carried spec
    allowed_sources (read_failover spec).policy r

variable (C held)

/-- A spec is rejected, or its route is one built from it, or one carried forward. -/
theorem judge_cases (w : World D) :
    ((judge C held listener_tls previous spec w).1.fate = .rejected ∧
      ((judge C held listener_tls previous spec w).2 = w ∨
        ∃ e, build_route C held spec listener_tls (inheritance previous spec w.heap) w =
          (.error e, (judge C held listener_tls previous spec w).2))) ∨
    (∃ allowed_sources r₀ w₁, SourceAllowlist.parse C spec.allowed_sources = .ok allowed_sources ∧
      build_route C held spec listener_tls (inheritance previous spec w.heap) w = (.ok r₀, w₁) ∧
      (judge C held listener_tls previous spec w).1.fate =
        .rebuilt (finished previous spec w.heap false allowed_sources r₀ w₁.heap).1 ∧
      (judge C held listener_tls previous spec w).2 =
        ⟨(finished previous spec w.heap false allowed_sources r₀ w₁.heap).2, w₁.cache⟩) ∨
    (∃ allowed_sources e r₀ w₁, SourceAllowlist.parse C spec.allowed_sources = .ok allowed_sources ∧
      build_route C held spec listener_tls (inheritance previous spec w.heap) w = (.error e, w₁) ∧
      last_good previous spec.sni (ClientAuth.of C spec listener_tls) = some r₀ ∧
      (judge C held listener_tls previous spec w).1.fate =
        .carried (finished previous spec w.heap true allowed_sources r₀ w₁.heap).1 ∧
      (judge C held listener_tls previous spec w).2 =
        ⟨(finished previous spec w.heap true allowed_sources r₀ w₁.heap).2, w₁.cache⟩) := by
  unfold judge
  cases validate_route_protocol_declaration spec with
  | error e => exact .inl ⟨rfl, .inl rfl⟩
  | ok u =>
    cases ha : SourceAllowlist.parse C spec.allowed_sources with
    | error e => exact .inl ⟨rfl, .inl rfl⟩
    | ok allowed_sources =>
      dsimp only
      unfold judge_valid
      dsimp only
      cases hb : build_route C held spec listener_tls (inheritance previous spec w.heap) w with
      | mk result w₁ =>
        unfold inheritance at hb
        rw [hb]
        cases result with
        | ok r₀ => exact .inr (.inl ⟨allowed_sources, r₀, w₁, rfl, rfl, rfl, rfl⟩)
        | error e =>
          dsimp only
          cases hl : last_good previous spec.sni (ClientAuth.of C spec listener_tls) with
          | none => exact .inl ⟨rfl, .inr ⟨e, rfl⟩⟩
          | some r₀ => exact .inr (.inr ⟨allowed_sources, e, r₀, w₁, rfl, rfl, rfl, rfl, rfl⟩)

theorem judge_auth (w : World D) :
    (judge C held listener_tls previous spec w).1.auth = ClientAuth.of C spec listener_tls := by
  unfold judge
  split
  · rfl
  · split
    · rfl
    · unfold judge_valid
      dsimp only
      split
      · rfl
      · split <;> rfl

theorem grows_judge (w : World D) : w.Extends (judge C held listener_tls previous spec w).2 := by
  have hgrows := grows_build_route C held spec listener_tls (inheritance previous spec w.heap) w
  rcases judge_cases C held listener_tls previous spec w with
    ⟨-, hw | ⟨e, hb⟩⟩ | ⟨allowed_sources, r₀, w₁, -, hb, -, hw⟩ | ⟨allowed_sources, e, r₀, w₁, -, hb, -, -, hw⟩
  · rw [hw]
    exact .refl w
  · rwa [hb] at hgrows
  · rw [hb] at hgrows
    rw [hw]
    exact Heap.Extends.trans hgrows (grows_finish_route _ _ _ _ _ _ _ w₁.heap)
  · rw [hb] at hgrows
    rw [hw]
    exact Heap.Extends.trans hgrows (grows_finish_route _ _ _ _ _ _ _ w₁.heap)

theorem last_good_previous {sni : Bytes} {auth : ClientAuth D} (h : last_good previous sni auth = some r) :
    ∃ p, previous = some p ∧ p.get_for_spec_sni sni = some r := by
  unfold last_good at h
  cases previous with
  | none => cases h
  | some p =>
    dsimp only at h
    split at h
    · exact ⟨p, rfl, h⟩
    · cases h

/-- It is the previous route that the state before is read from. -/
theorem last_good_state {sni : Bytes} {auth : ClientAuth D} (h : last_good previous sni auth = some r) (heap : Heap) :
    (previous_state previous sni heap).1 = some r := by
  obtain ⟨p, hprevious, hget⟩ := last_good_previous previous h
  rw [hprevious]
  exact hget

/-- What every judgement gives its route, and later allocations leave true, every route of
the table has at the end. -/
theorem built_each (conns : Nat → Bool) (specs : List RouteSpec) (w : World D) (Q : Heap → Bytes → Route → Prop)
    (hext : ∀ {h h' k r}, h.Extends h' → Q h k r → Q h' k r)
    (hjudge : ∀ held, ∀ spec ∈ specs, ∀ w' r, w.heap.Extends w'.heap →
      (judge C held listener_tls previous spec w').1.fate.route = some r →
      Q (judge C held listener_tls previous spec w').2.heap spec.sni r) :
    w.heap.Extends (build_route_table C conns listener_tls previous specs w).2.heap ∧
      ∀ k r, (build_route_table C conns listener_tls previous specs w).1.get_for_spec_sni k = some r →
        Q (build_route_table C conns listener_tls previous specs w).2.heap k r := by
  rw [build_route_table_eq]
  apply builder_inv C conns listener_tls previous specs w fun b =>
    w.heap.Extends b.world.heap ∧ ∀ k r, b.get_for_spec_sni k = some r → Q b.world.heap k r
  · refine ⟨.refl _, ?_⟩
    intro k r hk
    rw [live_of_status (start_status conns previous w k)] at hk
    cases hk
  · intro b names h
    exact h
  · -- one spec more: its own route is as judged, the others have grown older
    rintro b ws n spec hn - hb ⟨hgrown, hroutes⟩
    have hgrows := grows_judge C (held_by conns previous b.toRouteTable) listener_tls previous spec b.world
    rw [consider_world]
    refine ⟨hgrown.trans hgrows, ?_⟩
    intro k r hk
    rw [consider_live (b := { b with configured_wildcards := ws }) hb] at hk
    by_cases hks : k = spec.sni
    · subst hks
      rw [if_pos rfl] at hk
      exact hjudge _ spec (List.mem_of_getElem? hn) b.world r hgrown hk
    · rw [if_neg hks] at hk
      exact hext hgrows (hroutes k r hk)

theorem grows_build (conns : Nat → Bool) (specs : List RouteSpec) (w : World D) :
    w.Extends (build_route_table C conns listener_tls previous specs w).2 :=
  (built_each C listener_tls previous conns specs w (fun _ _ _ => True) (fun _ h => h) fun _ _ _ _ _ _ _ => trivial).1

end World

end Symphony.Router
