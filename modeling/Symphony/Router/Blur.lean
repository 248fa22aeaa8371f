import Symphony.Lib.Twin
import Symphony.Router.Heap
/-!
# Routes up to new identities

Two builds that start from one heap give their new objects different identities once they
have allocated a different number of them. `blur n` keeps the identities below `n`, those
of objects that were there before, and forgets the others. What a route is built with then
does not depend on the heap it is built in: every step of `finish_route` and `build_route`
gives results that are alike up to blurring.
-/

namespace Symphony.Router

open Lib (Act Alike Twin)
open Symphony.Failover (FailoverPolicy SpillPolicy)

/-! ## Blurring -/

section Blur

variable (n : Nat)

def ThreadCpu.blur (c : ThreadCpu) : ThreadCpu := { c with arc := min c.arc n }

def UdsSlot.blur (s : UdsSlot) : UdsSlot :=
  { s with health := s.health.map (min · n), cpu := s.cpu.map (ThreadCpu.blur n) }

def UdsBalancer.blur (b : UdsBalancer) : UdsBalancer :=
  { b with sockets := b.sockets.map (UdsSlot.blur n), load := min b.load n }

def Destination.blur : Destination → Destination
  | .Tcp addr => .Tcp addr
  | .UdsSet arc b => .UdsSet (min arc n) (b.blur n)

def FailoverPeer.blur (p : FailoverPeer) : FailoverPeer := { p with arc := min p.arc n }

def Spill.blur (s : Spill) : Spill := { s with state := min s.state n }

def Failover.blur (f : Failover) : Failover :=
  { f with
    arc := min f.arc n
    peers := f.peers.map (FailoverPeer.blur n)
    tcp_health := f.tcp_health.map (min · n)
    status := min f.status n
    spill := f.spill.map (Spill.blur n) }

def RouteMetricIdentity.blur (i : RouteMetricIdentity) : RouteMetricIdentity :=
  { i with arc := min i.arc n, counters := min i.counters n }

def RouteTokenBucket.blur (b : RouteTokenBucket) : RouteTokenBucket := { b with arc := min b.arc n }

end Blur

/-- What a config serves with, whichever object it is. -/
def ServerConfig.content (c : ServerConfig) : ServerConfig := { c with arc := 0 }

def Route.blur (n : Nat) (r : Route) : Route :=
  { r with
    metric_identity := r.metric_identity.blur n
    destination := r.destination.blur n
    destination_h2 := r.destination_h2.map (Destination.blur n)
    tls_config := r.tls_config.map ServerConfig.content
    rate_limiter := r.rate_limiter.map (RouteTokenBucket.blur n)
    failover := r.failover.map (Failover.blur n) }

/-! ## Allocations -/

section Alloc

variable {h₀ : Heap}

/-- Run in two heaps that extend `h₀`, they give results that `f h₀.next` makes equal. -/
abbrev Agree {α β : Type} (h₀ : Heap) (f : Nat → α → β) (m m' : Alloc α) : Prop :=
  Twin h₀.Extends (Alike (f h₀.next)) m m'

abbrev Same {α β : Type} (h₀ : Heap) (f : Nat → α → β) (m : Alloc α) : Prop := Agree h₀ f m m

/-- An identity from before is told apart from a new one. -/
theorem alike_id {n p a a' : Nat} (hp : p < n) (h : min a n = min a' n) : p = a ↔ p = a' := by
  omega

theorem twin_of_grows {α : Type} {R : α → α → Prop} {m m' : Alloc α} (hm : Grows m) (hm' : Grows m')
    (h : ∀ h h', h₀.Extends h → h₀.Extends h' → R (m h).1 (m' h').1) : Twin h₀.Extends R m m' :=
  fun s s' hs hs' => ⟨h s s' hs hs', hs.trans (hm s), hs'.trans (hm' s')⟩

theorem twin_alloc : Same h₀ (flip min) alloc := by
  apply twin_of_grows grows_alloc grows_alloc
  intro h h' hh hh'
  have h1 := hh.next
  have h2 := hh'.next
  change min h.next h₀.next = min h'.next h₀.next
  omega

/-- A result with a new identity in it. -/
theorem twin_alloc_then {α β : Type} {f : Nat → α → β} {g g' : Nat → α}
    (h : ∀ a a', min a h₀.next = min a' h₀.next → f h₀.next (g a) = f h₀.next (g' a')) :
    Agree h₀ f (do return g (← alloc)) (do return g' (← alloc)) :=
  twin_alloc.bind fun a a' ha => Lib.twin_pure (h a a' ha)

theorem twin_slot_health (refusing : Bool) : Same h₀ (flip min) (SlotHealth.new refusing) := by
  apply twin_of_grows (grows_slot_health _) (grows_slot_health _)
  intro h h' hh hh'
  exact (twin_alloc h h' hh hh').1

/-! ## Balancers -/

theorem twin_new_slot (s : UdsSlotSpec) : Same h₀ UdsSlot.blur (UdsBalancer.new_slot s) := by
  unfold UdsBalancer.new_slot
  split
  · apply twin_alloc_then
    intro a a' ha
    simp [UdsSlot.blur, ThreadCpu.blur, ha]
  · exact Lib.twin_pure rfl

theorem twin_balancer (slots : List UdsSlotSpec) (ip_affinity : Bool) (ttl : Nat) :
    Same h₀ UdsBalancer.blur (UdsBalancer.new slots ip_affinity ttl) := by
  apply (Lib.twin_mapM (g := id) _ slots slots rfl).bind
  · intro sockets sockets' hs
    apply twin_alloc_then
    intro a a' ha
    change sockets.map (UdsSlot.blur h₀.next) = sockets'.map (UdsSlot.blur h₀.next) at hs
    simp [UdsBalancer.blur, ha, hs]
  · rintro s s' rfl
    exact twin_new_slot s

section Cpu

variable (n : Nat) (previous : UdsBalancer)

theorem inherited_cpu_blur (c : ThreadCpu) :
    (previous.inherited_cpu c).blur n = (previous.inherited_cpu (c.blur n)).blur n := by
  unfold UdsBalancer.inherited_cpu
  change (((previous.sockets.filterMap (·.cpu)).find? fun p => p.configured = c.configured).getD c).blur n =
    (((previous.sockets.filterMap (·.cpu)).find? fun p => p.configured = c.configured).getD (c.blur n)).blur n
  cases (previous.sockets.filterMap (·.cpu)).find? fun p => p.configured = c.configured with
  | some p => rfl
  | none => simp [ThreadCpu.blur]

theorem inherited_cpu_configured (c : ThreadCpu) : (previous.inherited_cpu c).configured = c.configured := by
  unfold UdsBalancer.inherited_cpu
  cases hf : (previous.sockets.filterMap (·.cpu)).find? fun p => p.configured = c.configured with
  | some p => simpa using List.find?_some hf
  | none => rfl

/-- The slots of `with_cpu_from`. -/
def UdsSlot.sampled (s : UdsSlot) : UdsSlot := { s with cpu := s.cpu.map previous.inherited_cpu }

theorem sampled_blur (s : UdsSlot) : (s.sampled previous).blur n = ((s.blur n).sampled previous).blur n := by
  obtain ⟨path, health, cpu⟩ := s
  cases health <;> cases cpu <;> simp [UdsSlot.sampled, UdsSlot.blur, ← inherited_cpu_blur]

theorem sampled_ids (slots : List UdsSlot) (affinity affinity' : Option Nat) (load load' : Nat) :
    (⟨slots.map (UdsSlot.sampled previous), affinity, load⟩ : UdsBalancer).slot_ids =
      (⟨(slots.map (UdsSlot.blur n)).map (UdsSlot.sampled previous), affinity', load'⟩ : UdsBalancer).slot_ids := by
  unfold UdsBalancer.slot_ids
  simp only [List.map_map]
  apply List.map_congr_left
  rintro ⟨path, health, cpu⟩ -
  cases cpu with
  | none => rfl
  | some c =>
    have h1 := inherited_cpu_configured previous c
    have h2 := inherited_cpu_configured previous (c.blur n)
    exact h1.trans h2.symm

theorem sampled_slots_blur (slots : List UdsSlot) :
    (slots.map (UdsSlot.sampled previous)).map (UdsSlot.blur n) =
      ((slots.map (UdsSlot.blur n)).map (UdsSlot.sampled previous)).map (UdsSlot.blur n) := by
  simp only [List.map_map]
  apply List.map_congr_left
  intro s _
  exact sampled_blur n previous s

theorem UdsSlot.blur_blur (s : UdsSlot) : (s.blur n).blur n = s.blur n := by
  obtain ⟨path, health, cpu⟩ := s
  cases health <;> cases cpu <;> simp [UdsSlot.blur, ThreadCpu.blur]

theorem UdsBalancer.blur_blur (b : UdsBalancer) : (b.blur n).blur n = b.blur n := by
  have hslots : (b.sockets.map (UdsSlot.blur n)).map (UdsSlot.blur n) = b.sockets.map (UdsSlot.blur n) := by
    rw [List.map_map]
    apply List.map_congr_left
    intro s _
    exact UdsSlot.blur_blur n s
  simp [UdsBalancer.blur, hslots]

/-- Samplers and load are taken over by what the slots are configured with, not by their
identities. -/
theorem with_cpu_from_blur (b : UdsBalancer) (previous : Option UdsBalancer) :
    (b.with_cpu_from previous).blur n = ((b.blur n).with_cpu_from previous).blur n := by
  cases previous with
  | none => exact (UdsBalancer.blur_blur n b).symm
  | some p =>
    have hids := sampled_ids n p b.sockets b.affinity b.affinity b.load (min b.load n)
    have hslots := sampled_slots_blur n p b.sockets
    change (if (⟨b.sockets.map (UdsSlot.sampled p), b.affinity, b.load⟩ : UdsBalancer).slot_ids.isPerm p.slot_ids then
        (⟨b.sockets.map (UdsSlot.sampled p), b.affinity, p.load⟩ : UdsBalancer)
        else ⟨b.sockets.map (UdsSlot.sampled p), b.affinity, b.load⟩).blur n =
      (if (⟨(b.sockets.map (UdsSlot.blur n)).map (UdsSlot.sampled p), b.affinity, min b.load n⟩ :
          UdsBalancer).slot_ids.isPerm p.slot_ids then
        (⟨(b.sockets.map (UdsSlot.blur n)).map (UdsSlot.sampled p), b.affinity, p.load⟩ : UdsBalancer)
        else ⟨(b.sockets.map (UdsSlot.blur n)).map (UdsSlot.sampled p), b.affinity, min b.load n⟩).blur n
    rw [← hids]
    split
    · simp only [UdsBalancer.blur]
      rw [hslots]
    · simp only [UdsBalancer.blur]
      rw [hslots]
      simp

end Cpu

/-- Sampling a balancer that is known up to new identities. -/
theorem alike_with_cpu_from {n : Nat} {b b' : UdsBalancer} (hb : b.blur n = b'.blur n) (previous : Option UdsBalancer) :
    (b.with_cpu_from previous).blur n = (b'.with_cpu_from previous).blur n := by
  rw [with_cpu_from_blur, hb, ← with_cpu_from_blur]

theorem twin_track_slot (previous : Option UdsBalancer) (refuse_new : Bool) {s s' : UdsSlot}
    (hs : s.blur h₀.next = s'.blur h₀.next) :
    Agree h₀ UdsSlot.blur (UdsBalancer.track_slot previous refuse_new s)
      (UdsBalancer.track_slot previous refuse_new s') := by
  obtain ⟨hpath, -, hcpu⟩ : s.path = s'.path ∧ s.health.map (min · h₀.next) = s'.health.map (min · h₀.next) ∧
      s.cpu.map (ThreadCpu.blur h₀.next) = s'.cpu.map (ThreadCpu.blur h₀.next) := UdsSlot.mk.inj hs
  unfold UdsBalancer.track_slot
  rw [← hpath]
  cases UdsBalancer.inherited_health previous s.path with
  | some cell =>
    apply Lib.twin_pure
    simp [Alike, UdsSlot.blur, hpath, hcpu]
  | none =>
    apply (twin_slot_health refuse_new).bind
    intro c c' hc
    apply Lib.twin_pure
    change min c h₀.next = min c' h₀.next at hc
    simp [Alike, UdsSlot.blur, hpath, hcpu, hc]

theorem twin_with_health {b b' : UdsBalancer} (hb : b.blur h₀.next = b'.blur h₀.next) (previous : Option UdsBalancer)
    (refuse_new : Bool) :
    Agree h₀ UdsBalancer.blur (b.with_health previous refuse_new) (b'.with_health previous refuse_new) := by
  obtain ⟨hsockets, haffinity, hload⟩ : b.sockets.map (UdsSlot.blur h₀.next) = b'.sockets.map (UdsSlot.blur h₀.next) ∧
      b.affinity = b'.affinity ∧ min b.load h₀.next = min b'.load h₀.next := UdsBalancer.mk.inj hb
  apply (Lib.twin_mapM (fun s s' hs => twin_track_slot previous refuse_new hs) b.sockets b'.sockets hsockets).bind
  intro sockets sockets' hs
  apply Lib.twin_pure
  change sockets.map (UdsSlot.blur h₀.next) = sockets'.map (UdsSlot.blur h₀.next) at hs
  simp [Alike, UdsBalancer.blur, haffinity, hload, hs]

/-! ## Destinations -/

theorem twin_uds_set {b b' : UdsBalancer} (hb : b.blur h₀.next = b'.blur h₀.next) :
    Agree h₀ Destination.blur (do return .UdsSet (← alloc) b) (do return .UdsSet (← alloc) b') := by
  apply twin_alloc_then
  intro a a' ha
  simp [Destination.blur, ha, hb]

theorem twin_build_uds_set (upstreams : List UpstreamSpec) (previous : Option UdsBalancer) (track refuse_new : Bool) :
    Same h₀ Destination.blur (build_uds_set upstreams previous track refuse_new) := by
  apply (twin_balancer _ _ _).bind
  intro b b' hb
  have hsampled := alike_with_cpu_from hb previous
  dsimp only
  split
  · apply (twin_with_health hsampled previous refuse_new).bind
    intro b b' hb
    exact twin_uds_set hb
  · exact twin_uds_set hsampled

theorem twin_retracked (track : Bool) (d : Destination) : Same h₀ Destination.blur (retracked track d) := by
  cases d with
  | Tcp addr => exact Lib.twin_pure rfl
  | UdsSet arc b =>
    have hb : Same h₀ UdsBalancer.blur (b.retracked track) := by
      apply (twin_balancer _ _ _).bind
      intro fresh fresh' hf
      have hsampled := alike_with_cpu_from hf (some b)
      dsimp only
      split
      · exact twin_with_health hsampled (some b) false
      · exact Lib.twin_pure hsampled
    apply hb.bind
    intro b b' hb
    exact twin_uds_set hb

theorem twin_build_destination (upstreams : List UpstreamSpec) (previous : Option UdsBalancer)
    (track refuse_new : Bool) :
    Act.Twin h₀.Extends (Alike (Destination.blur h₀.next)) (build_destination_for upstreams previous track refuse_new)
      (build_destination_for upstreams previous track refuse_new) := by
  unfold build_destination_for
  split
  · exact Act.twin_fail _ _
  · split
    · exact Act.twin_fail _ _
    · exact Act.twin_pure rfl
  · intro h h' hh hh'
    obtain ⟨hd, h1, h2⟩ := twin_build_uds_set _ previous track refuse_new h h' hh hh'
    exact ⟨.ok hd, h1, h2⟩

/-- Two destinations, one of them optional. -/
def blurBoth (n : Nat) (d : Destination × Option Destination) : Destination × Option Destination :=
  (d.1.blur n, d.2.map (Destination.blur n))

theorem twin_build_destinations (spec : RouteSpec) (inherit : Inherit) :
    Act.Twin h₀.Extends (Alike (blurBoth h₀.next)) (build_destinations spec inherit)
      (build_destinations spec inherit) := by
  unfold build_destinations
  dsimp only
  split
  · exact Act.twin_pure rfl
  split
  · exact Act.twin_fail _ _
  apply (twin_build_destination _ _ _ _).bind
  intro d d' hd
  have hh2 : Act.Twin h₀.Extends (Alike (Option.map (Destination.blur h₀.next)))
      (build_h2_destination (spec.upstreams.filter is_h2) inherit)
      (build_h2_destination (spec.upstreams.filter is_h2) inherit) := by
    unfold build_h2_destination
    split
    · exact Act.twin_pure rfl
    · apply (twin_build_destination _ _ _ _).bind
      intro x x' hx
      exact Act.twin_pure (congrArg some hx)
  apply hh2.bind
  intro d₂ d₂' hd₂
  exact Act.twin_pure (Prod.ext hd hd₂)

/-! ## Routes -/

theorem twin_limiter (spec : RouteSpec) :
    Same h₀ (fun n => Option.map (RouteTokenBucket.blur n)) (build_rate_limiter spec) := by
  apply twin_of_grows (grows_limiter spec) (grows_limiter spec)
  intro h h' hh hh'
  unfold build_rate_limiter
  cases spec.max_cps with
  | none => rfl
  | some cps =>
    have harc : min h.next h₀.next = min h'.next h₀.next := (twin_alloc h h' hh hh').1
    have hwall : h.wall_ns = h'.wall_ns := hh.wall_ns.trans hh'.wall_ns.symm
    change some (RouteTokenBucket.mk (min h.next h₀.next) _ h.wall_ns _ _) =
      some (RouteTokenBucket.mk (min h'.next h₀.next) _ h'.wall_ns _ _)
    rw [harc, hwall]

theorem twin_identity (route group : Bytes) :
    Same h₀ RouteMetricIdentity.blur (RouteMetricIdentity.new route group) := by
  apply twin_alloc.bind
  intro c c' hc
  apply twin_alloc_then
  intro a a' ha
  change min c h₀.next = min c' h₀.next at hc
  simp [RouteMetricIdentity.blur, hc, ha]

theorem twin_assemble (spec : RouteSpec) (listener_tls : ListenerTlsSpec) {tls_config tls_config' : Option ServerConfig}
    (htls : tls_config.map ServerConfig.content = tls_config'.map ServerConfig.content)
    {d d' : Destination × Option Destination} (hd : blurBoth h₀.next d = blurBoth h₀.next d') :
    Agree h₀ Route.blur (assemble spec listener_tls tls_config d.1 d.2)
      (assemble spec listener_tls tls_config' d'.1 d'.2) := by
  obtain ⟨hd₁, hd₂⟩ := Prod.mk.inj hd
  apply (twin_limiter spec).bind
  intro limiter limiter' hl
  apply (twin_identity spec.sni spec.metrics_group).bind
  intro i i' hi
  apply Lib.twin_pure
  change limiter.map (RouteTokenBucket.blur h₀.next) = limiter'.map (RouteTokenBucket.blur h₀.next) at hl
  change i.blur h₀.next = i'.blur h₀.next at hi
  simp [Alike, Route.blur, hl, hi, htls, hd₁, hd₂]

/-! ## Finishing a route -/

theorem twin_new_peer (previous : Option Failover) (addr : SocketAddr) :
    Same h₀ FailoverPeer.blur (Failover.new_peer previous addr) := by
  unfold Failover.new_peer
  split
  · exact Lib.twin_pure rfl
  · apply twin_alloc_then
    intro a a' ha
    simp [FailoverPeer.blur, ha]

theorem twin_new_spill (policy : FailoverPolicy) (previous : Option Failover) (same_load_source : Bool) :
    Same h₀ (fun n => Option.map (Spill.blur n)) (Failover.new_spill policy previous same_load_source) := by
  unfold Failover.new_spill
  split
  · exact Lib.twin_pure rfl
  · split
    · exact Lib.twin_pure rfl
    · apply twin_alloc_then
      intro a a' ha
      simp [Spill.blur, ha]

theorem twin_new_status (previous : Option Failover) : Same h₀ (flip min) (Failover.new_status previous) := by
  unfold Failover.new_status
  split
  · exact Lib.twin_pure rfl
  · exact twin_alloc

theorem twin_failover (policy : FailoverPolicy) (previous : Option Failover)
    {tcp_health tcp_health' : Option SlotHealth}
    (htcp : tcp_health.map (min · h₀.next) = tcp_health'.map (min · h₀.next)) (same_load_source : Bool) :
    Agree h₀ Failover.blur (Failover.new policy previous tcp_health same_load_source)
      (Failover.new policy previous tcp_health' same_load_source) := by
  have hpeer (addr addr' : SocketAddr) (ha : id addr = id addr') :
      Agree h₀ FailoverPeer.blur (Failover.new_peer previous addr) (Failover.new_peer previous addr') := by
    cases ha
    exact twin_new_peer previous addr
  apply (Lib.twin_mapM hpeer policy.peers policy.peers rfl).bind
  intro peers peers' hp
  apply (twin_new_spill policy previous same_load_source).bind
  intro spill spill' hs
  apply (twin_new_status previous).bind
  intro status status' hst
  apply twin_alloc_then
  intro a a' ha
  change peers.map (FailoverPeer.blur h₀.next) = peers'.map (FailoverPeer.blur h₀.next) at hp
  change spill.map (Spill.blur h₀.next) = spill'.map (Spill.blur h₀.next) at hs
  change min status h₀.next = min status' h₀.next at hst
  simp [Failover.blur, hp, hs, hst, ha, htcp]

/-- The balancer's load was there before identity `n`. -/
def Destination.Known (n : Nat) (d : Destination) : Prop := ∀ b, d.balancer = some b → b.load < n

/-- What later builds compare by identity was there before identity `n`. -/
structure Route.Known (n : Nat) (r : Route) : Prop where
  identity : r.metric_identity.arc < n
  destination : r.destination.Known n
  destination_h2 : ∀ d, r.destination_h2 = some d → d.Known n

theorem alike_load_source {n : Nat} {a d d' : Destination} (ha : a.Known n) (hd : d.blur n = d'.blur n) :
    same_load_source a d = same_load_source a d' := by
  cases d with
  | Tcp addr =>
    cases d' with
    | Tcp addr' =>
      cases hd
      rfl
    | UdsSet arc' b' => cases hd
  | UdsSet arc b =>
    cases d' with
    | Tcp addr' => cases hd
    | UdsSet arc' b' =>
      obtain ⟨-, hb⟩ := Destination.UdsSet.inj hd
      obtain ⟨-, -, hload⟩ := UdsBalancer.mk.inj hb
      cases a with
      | Tcp addr => rfl
      | UdsSet arc₀ b₀ =>
        change decide (b₀.load = b.load) = decide (b₀.load = b'.load)
        rw [decide_eq_decide]
        exact alike_id (ha b₀ rfl) hload

section Finish

variable {previous_route : Option Route} (hp : ∀ p, previous_route = some p → p.Known h₀.next) {r r' : Route}

include hp

theorem alike_load_sources (hr : r.blur h₀.next = r'.blur h₀.next) :
    same_load_sources previous_route r = same_load_sources previous_route r' := by
  cases previous_route with
  | none => rfl
  | some p =>
    have hd : r.destination.blur h₀.next = r'.destination.blur h₀.next := congrArg Route.destination hr
    have hd₂ : r.destination_h2.map (Destination.blur h₀.next) = r'.destination_h2.map (Destination.blur h₀.next) :=
      congrArg Route.destination_h2 hr
    have hknown := hp p rfl
    have hfirst := alike_load_source hknown.destination hd
    unfold same_load_sources
    rw [Option.any_some, Option.any_some, hfirst]
    -- alike routes have a destination for h2 both or neither
    cases h₂ : p.destination_h2 with
    | none => cases hr₂ : r.destination_h2 <;> cases hr₂' : r'.destination_h2 <;> simp_all
    | some a =>
      cases hr₂ : r.destination_h2 with
      | none => cases hr₂' : r'.destination_h2 <;> simp_all
      | some x =>
        cases hr₂' : r'.destination_h2 with
        | none => simp_all
        | some x' =>
          rw [hr₂, hr₂'] at hd₂
          have hx : x.blur h₀.next = x'.blur h₀.next := Option.some.inj hd₂
          dsimp only
          rw [alike_load_source (hknown.destination_h2 a h₂) hx]

omit hp in
theorem twin_tcp_health {d d' : Destination} (hd : d.blur h₀.next = d'.blur h₀.next) (previous_down : Bool) :
    Agree h₀ (fun n => Option.map (min · n)) (build_tcp_health previous_route previous_down d)
      (build_tcp_health previous_route previous_down d') := by
  cases d with
  | UdsSet arc b =>
    cases d' with
    | UdsSet arc' b' => exact Lib.twin_pure rfl
    | Tcp addr' => cases hd
  | Tcp addr =>
    cases d' with
    | UdsSet arc' b' => cases hd
    | Tcp addr' =>
      cases hd
      unfold build_tcp_health
      dsimp only
      split
      · exact Lib.twin_pure rfl
      · apply (twin_slot_health previous_down).bind
        intro c c' hc
        exact Lib.twin_pure (congrArg some hc)

theorem twin_build_failover (hr : r.blur h₀.next = r'.blur h₀.next) (previous_down : Bool)
    (policy : Option FailoverPolicy) :
    Agree h₀ (fun n => Option.map (Failover.blur n)) (build_failover previous_route previous_down r policy)
      (build_failover previous_route previous_down r' policy) := by
  cases policy with
  | none => exact Lib.twin_pure rfl
  | some policy =>
    have hd : r.destination.blur h₀.next = r'.destination.blur h₀.next := congrArg Route.destination hr
    -- the previous route is or is not the same route: its identity is an old one
    have hfilter : (previous_route.filter fun p => p.metric_identity.arc == r.metric_identity.arc) =
        previous_route.filter fun p => p.metric_identity.arc == r'.metric_identity.arc := by
      have hid : min r.metric_identity.arc h₀.next = min r'.metric_identity.arc h₀.next :=
        congrArg (·.metric_identity.arc) hr
      cases previous_route with
      | none => rfl
      | some p =>
        have hsame : (p.metric_identity.arc == r.metric_identity.arc) =
          (p.metric_identity.arc == r'.metric_identity.arc) := by
          rw [Bool.eq_iff_iff, beq_iff_eq, beq_iff_eq]
          exact alike_id (hp p rfl).identity hid
        rw [Option.filter_some, Option.filter_some, hsame]
    unfold build_failover
    dsimp only
    rw [hfilter, alike_load_sources hp hr]
    apply (twin_tcp_health hd previous_down).bind
    intro tcp tcp' ht
    apply (twin_failover policy _ ht _).bind
    intro f f' hf
    exact Lib.twin_pure (congrArg some hf)

omit hp in
variable (previous_route) in
theorem alike_keep_identity (spec : RouteSpec) (hr : r.blur h₀.next = r'.blur h₀.next) :
    (keep_identity previous_route spec r).blur h₀.next = (keep_identity previous_route spec r').blur h₀.next := by
  unfold keep_identity
  split
  · split
    · rename_i p _
      have := congrArg (fun r : Route => { r with metric_identity := p.metric_identity.blur h₀.next }) hr
      exact this
    · exact hr
  · exact hr

omit hp in
theorem twin_retrack_route (r : Route) (track : Bool) :
    Same h₀ Route.blur (retrack_route r track) := by
  unfold retrack_route
  split
  · apply (twin_retracked track r.destination).bind
    intro d d' hd
    apply Lib.twin_pure
    change d.blur h₀.next = d'.blur h₀.next at hd
    simp [Alike, Route.blur, hd]
  · apply (twin_retracked track r.destination).bind
    intro d d' hd
    apply (twin_retracked track _).bind
    intro x x' hx
    apply Lib.twin_pure
    change d.blur h₀.next = d'.blur h₀.next at hd
    change x.blur h₀.next = x'.blur h₀.next at hx
    simp [Alike, Route.blur, hd, hx]

/-- Finishing the same route, or, when it is not carried, routes alike. -/
theorem twin_finish_route {carried : Bool} (hr : r = r' ∨ carried = false ∧ r.blur h₀.next = r'.blur h₀.next)
    (previous_down : Bool) (spec : RouteSpec) (allowed_sources : Option SourceAllowlist)
    (policy : Option FailoverPolicy) :
    Agree h₀ Route.blur (finish_route previous_route previous_down carried spec allowed_sources policy r)
      (finish_route previous_route previous_down carried spec allowed_sources policy r') := by
  have htrack : Agree h₀ Route.blur (retrack_carried carried policy.isSome { r with allowed_sources })
      (retrack_carried carried policy.isSome { r' with allowed_sources }) := by
    unfold retrack_carried
    rcases hr with rfl | ⟨rfl, hr⟩
    · split
      · exact twin_retrack_route _ _
      · exact Lib.twin_pure rfl
    · have hallowed := congrArg (fun r : Route => { r with allowed_sources }) hr
      exact Lib.twin_pure hallowed
  apply twin_of_grows (grows_finish_route _ _ _ _ _ _ _) (grows_finish_route _ _ _ _ _ _ _)
  intro h h' hh hh'
  rw [finish_route_eq, finish_route_eq]
  obtain ⟨hm, h₁, h₁'⟩ := htrack h h' hh hh'
  have hkept := alike_keep_identity previous_route spec hm
  obtain ⟨hf, -⟩ := twin_build_failover hp hkept previous_down policy _ _ h₁ h₁'
  have hall := congrArg₂ (fun (r : Route) failover => { r with failover }) hkept hf
  exact hall

end Finish

end Alloc

end Symphony.Router
