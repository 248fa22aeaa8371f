import Symphony.Router.Health
import Symphony.Router.Reload
/-!
# A down route across reloads

Connections and probes of the tables before and after a reload mark the same health
cells, and what is new in a route that was down starts refusing. So a reload by itself
never brings a down route up.
-/

namespace Symphony.Router

open Lib (Machine)

/-! ## Down -/

/-- The closure of `locally_down`: one destination has endpoints and none accepts. -/
def Failover.down (h : Heap) (f : Failover) : Destination → Bool
  | .UdsSet _ balancer => balancer.all_refusing h
  | .Tcp _ => f.tcp_health.any (SlotHealth.refusing h)

theorem locally_down_eq (h : Heap) (f : Failover) (d : Destination) (d₂ : Option Destination) :
    f.locally_down h d d₂ = (f.down h d || d₂.any (f.down h)) := by
  cases d with
  | Tcp addr => cases d₂ with
    | none => rfl
    | some d₂ => cases d₂ <;> rfl
  | UdsSet arc b => cases d₂ with
    | none => rfl
    | some d₂ => cases d₂ <;> rfl

/-- Every slot refuses. -/
def AllRefuse (h : Heap) (slots : List UdsSlot) : Prop := ∀ s ∈ slots, s.health.any (SlotHealth.refusing h) = true

theorem all_refusing_iff {h : Heap} {b : UdsBalancer} : b.all_refusing h = true ↔ b.sockets ≠ [] ∧
    AllRefuse h b.sockets := by
  unfold UdsBalancer.all_refusing AllRefuse
  rw [Bool.and_eq_true, List.all_eq_true, Bool.not_eq_true', List.isEmpty_eq_false_iff]

section Down

variable {h h' : Heap}

theorem cell_refusing_extends (hx : h.Extends h') {cell : Option SlotHealth} (hc : ∀ c, cell = some c → c < h.next) :
    cell.any (SlotHealth.refusing h') = cell.any (SlotHealth.refusing h) := by
  cases cell with
  | none => rfl
  | some c => exact refusing_extends hx (hc c rfl)

theorem down_extends (hx : h.Extends h') {f : Failover} {tracked : Bool} {d : Destination}
    (hs : TrackedSlots h tracked d.slots) (ht : ∀ c, f.tcp_health = some c → c < h.next) :
    f.down h' d = f.down h d := by
  cases d with
  | Tcp addr => exact cell_refusing_extends hx ht
  | UdsSet arc b =>
    have hslots : AllRefuse h' b.sockets ↔ AllRefuse h b.sockets := by
      constructor
      · intro hall s hm
        exact (cell_refusing_extends hx (hs s hm).2) ▸ hall s hm
      · intro hall s hm
        exact (cell_refusing_extends hx (hs s hm).2) ▸ hall s hm
    change b.all_refusing h' = b.all_refusing h
    rw [Bool.eq_iff_iff, all_refusing_iff, all_refusing_iff, hslots]

theorem previous_state_extends {D : Type} {previous : Option (RouteTable D)} {sni : Bytes}
    (hp : ∀ p, (previous_state previous sni h).1 = some p → p.Tracked h) (hx : h.Extends h') :
    previous_state previous sni h' = previous_state previous sni h := by
  refine Prod.ext rfl ?_
  rw [previous_state_down, previous_state_down]
  change (previous_state previous sni h).1.any _ = _
  cases hprev : (previous_state previous sni h).1 with
  | none => rfl
  | some p =>
    have htracked := hp p hprev
    rw [Option.any_some, Option.any_some]
    cases hf : p.failover with
    | none => rfl
    | some f =>
      have htcp (c : SlotHealth) (hc : f.tcp_health = some c) : c < h.next := htracked.tcp_cell f c hf hc
      have hh2 := htracked.slots_h2
      rw [Option.any_some, Option.any_some, locally_down_eq, locally_down_eq, down_extends hx htracked.slots htcp]
      cases hd : p.destination_h2 with
      | none => rfl
      | some d =>
        rw [hd] at hh2
        rw [Option.any_some, Option.any_some, down_extends hx hh2 htcp]

end Down

/-! ## Builds and runs -/

section Build

variable {D : Type} [DecidableEq D] {C : Crates D} {conns : Nat → Bool} {listener_tls : ListenerTlsSpec}
  {previous : Option (RouteTable D)} {specs : List RouteSpec}

/-- Every route of the table has `Q`. -/
def RouteTable.Each (Q : Heap → Route → Prop) (h : Heap) (t : RouteTable D) : Prop :=
  ∀ k r, t.get_for_spec_sni k = some r → Q h r

omit [DecidableEq D] in
theorem each_previous {Q : Heap → Route → Prop} {h : Heap} (hp : ∀ t, previous = some t → t.Each Q h)
    {sni : Bytes} {p : Route} (hprev : (previous_state previous sni h).1 = some p) : Q h p := by
  obtain ⟨t, ht, hget⟩ := Option.bind_eq_some_iff.1 hprev
  exact hp t ht sni p hget

/-- What allocations leave true and builds hand on, every live route has after any run. -/
theorem run_each (Q : Heap → Route → Prop) (hmono : ∀ {h h' r}, h.next ≤ h'.next → Q h r → Q h' r)
    (hbuild : ∀ conns listener_tls (previous : Option (RouteTable D)) specs w,
      (∀ t, previous = some t → t.Each Q w.heap) →
      (build_route_table C conns listener_tls previous specs w).1.Each Q
        (build_route_table C conns listener_tls previous specs w).2.heap)
    {heap : Heap} {s : Proxy D} {clock : Nat} {log : List (Event × Unit)}
    (h : (reloads C).Run (.fresh heap) s clock log) :
    ∀ t, s.live = some t → t.Each Q s.world.heap := by
  apply h.inv fun s _ _ => ∀ t, s.live = some t → t.Each Q s.world.heap
  · rintro t ⟨⟩
  · intro s _ _ e hs _ t ht k r hr
    cases e with
    | commit conns listener_tls specs =>
      cases ht
      exact hbuild conns listener_tls s.live specs s.world hs k r hr
    | abandon conns listener_tls specs =>
      exact hmono (grows_build C listener_tls s.live conns specs s.world).next (hs t ht k r hr)
    | sweep held => exact hs t ht k r hr
    | resolve held cert mtls http2 =>
      exact hmono (grows_get_or_build_unmarked C held cert mtls http2 s.world).next (hs t ht k r hr)
    | serve refused_at now_ns wall_ns => exact hmono (h := s.world.heap) (Nat.le_refl _) (hs t ht k r hr)

/-- After a build, every route continues the one of its name before. -/
theorem built_continues {w : World D} (hp : ∀ t, previous = some t → t.Each Route.Tracked w.heap) {k : Bytes}
    {r : Route} (hr : (build_route_table C conns listener_tls previous specs w).1.get_for_spec_sni k = some r) :
    r.Continues (∀ spec ∈ specs, ∀ u ∈ spec.upstreams, u.Named) (previous_state previous k w.heap).1
      (previous_state previous k w.heap).2 (build_route_table C conns listener_tls previous specs w).2.heap := by
  have hall := built_each C listener_tls previous conns specs w (fun h k r =>
    r.Continues (∀ spec ∈ specs, ∀ u ∈ spec.upstreams, u.Named) (previous_state previous k w.heap).1
      (previous_state previous k w.heap).2 h)
    (fun hx hc => hc.extends hx) (by
      intro held spec hm w' r hgrown hj
      have hprev (p : Route) (hps : (previous_state previous spec.sni w.heap).1 = some p) : p.Tracked w.heap :=
        each_previous hp hps
      have hstate := previous_state_extends hprev hgrown
      rw [← hstate]
      apply judged_continues (fun hn => hn spec hm) _ hj
      rw [hstate]
      intro p hps
      exact (hprev p hps).mono hgrown.next)
  exact hall.2 k r hr

theorem run_tracked {heap : Heap} {s : Proxy D} {clock : Nat} {log : List (Event × Unit)}
    (h : (reloads C).Run (.fresh heap) s clock log) : ∀ t, s.live = some t → t.Each Route.Tracked s.world.heap := by
  apply run_each Route.Tracked _ _ h
  · intro h h' r hn hr
    exact hr.mono hn
  · intro conns listener_tls previous specs w hp k r hr
    exact (built_continues hp hr).tracked

end Build

/-! ## Reloads of a down route -/

/-- No endpoint accepts: the destination is down, or is a set without any socket. -/
def Failover.NoneUp (h : Heap) (f : Failover) (d : Destination) : Prop :=
  f.down h d = true ∨ ∃ arc b, d = .UdsSet arc b ∧ b.sockets = []

/-- Paths that a set lists once, and the same address, keep their cell. -/
def SharesCells (f f' : Failover) : Destination → Destination → Prop
  | .UdsSet _ b, .UdsSet _ b' => (b.sockets.map (·.path)).Nodup → ∀ s ∈ b.sockets, ∀ s' ∈ b'.sockets,
      s'.path = s.path → ∃ c, s.health = some c ∧ s'.health = some c
  | .Tcp addr, .Tcp addr' => addr' = addr → ∃ c, f.tcp_health = some c ∧ f'.tcp_health = some c
  | _, _ => True

section Conclusions

variable {h h' : Heap} {f f' : Failover} {d d' : Destination} {down tracked : Bool}

theorem down_slots (hd : f.down h d = true) : AllRefuse h d.slots := by
  cases d with
  | Tcp addr =>
    intro s hs
    cases hs
  | UdsSet arc b => exact (all_refusing_iff.1 hd).2

/-- Slots that continue refusing ones, all of a down route, refuse. -/
theorem Continued.refuse {before slots : List UdsSlot} (hs : Continued before true true h' slots)
    (hb : TrackedSlots h tracked before) (hx : h.Extends h') (hr : AllRefuse h before) : AllRefuse h' slots := by
  intro s hm
  obtain ⟨c, hc, -, ⟨s₀, hm₀, -, hc₀⟩ | ⟨-, hrefusing⟩⟩ := hs s hm
  · have hold := hr s₀ hm₀
    rw [← cell_refusing_extends hx (hb s₀ hm₀).2, hc₀] at hold
    rw [hc]
    exact hold
  · rw [hc]
    exact hrefusing

theorem noneUp_of_refuse {arc : Nat} {b : UdsBalancer} (hs : AllRefuse h b.sockets) : f.NoneUp h (.UdsSet arc b) := by
  by_cases he : b.sockets = []
  · exact .inr ⟨arc, b, rfl, he⟩
  · exact .inl (all_refusing_iff.2 ⟨he, hs⟩)

theorem socketed_of_down (hd : f.down h d = true) : Socketed (some d) := by
  rintro arc b ⟨⟩
  exact (all_refusing_iff.1 hd).1

theorem down_of_noneUp (hd : f.NoneUp h d) (hs : Socketed (some d)) : f.down h d = true := by
  rcases hd with hd | ⟨arc, b, rfl, he⟩
  · exact hd
  · exact absurd he (hs arc b rfl)

/-- Slots that continue those of a set keep the cells of its paths. -/
theorem Continued.shares {arc arc' : Nat} {b b' : UdsBalancer} (hs : Continued b.sockets down true h' b'.sockets)
    (hb : TrackedSlots h true b.sockets) : SharesCells f f' (.UdsSet arc b) (.UdsSet arc' b') := by
  intro hnodup s hm s' hm' hpath
  obtain ⟨c, hc⟩ := Option.isSome_iff_exists.1 (hb s hm).1
  obtain ⟨c', hc', -, ⟨s₀, hm₀, hpath₀, hc₀⟩ | ⟨hnone, -⟩⟩ := hs s' hm'
  · have hsame : s₀ = s := List.inj_on_of_nodup_map hnodup hm₀ hm (hpath₀.trans hpath)
    subst hsame
    exact ⟨c', hc₀, hc'⟩
  · rw [hnone s hm hpath.symm] at hc
    cases hc

variable {p r : Route} {named : Prop} (hp : p.Tracked h) (hf : p.failover = some f) (hf' : r.failover = some f')

include hp hf'

include hf in
theorem Route.Continues.stays_down (hc : r.Continues named (some p) true h') (hx : h.Extends h')
    (hd : f.down h p.destination = true) : f'.NoneUp h' r.destination := by
  cases hdest : r.destination with
  | Tcp addr =>
    left
    obtain ⟨c, hc, -, hi | ⟨-, hrefusing⟩⟩ := hc.tcp f' addr hf' hdest
    · obtain ⟨p', f'', hp', haddr, hf'', hc''⟩ := inherited_tcp_some.1 hi
      cases hp'
      rw [hf] at hf''
      cases hf''
      rw [haddr] at hd
      change f.tcp_health.any (SlotHealth.refusing h) = true at hd
      rw [← cell_refusing_extends hx fun c hc => hp.tcp_cell f c hf hc, hc''] at hd
      change f'.tcp_health.any (SlotHealth.refusing h') = true
      rw [hc]
      exact hd
    · change f'.tcp_health.any (SlotHealth.refusing h') = true
      rw [hc]
      exact hrefusing
  | UdsSet arc b =>
    have hslots := hc.default.slots
    rw [hf', hdest] at hslots
    exact noneUp_of_refuse (hslots.refuse hp.slots hx (down_slots hd))

theorem Route.Continues.stays_down_h2 (hc : r.Continues named (some p) true h') (hx : h.Extends h')
    (hd₀ : p.destination_h2 = some d) (hd' : r.destination_h2 = some d') (hd : f.down h d = true) :
    f'.NoneUp h' d' := by
  obtain ⟨arc, b, rfl⟩ := hc.h2 d' hd'
  have hslots := hc.for_h2.slots
  have hbefore := hp.slots_h2
  rw [hf', hd'] at hslots
  rw [hd₀] at hbefore
  change Continued (slotsOf p.destination_h2) true true h' b.sockets at hslots
  rw [hd₀] at hslots
  exact noneUp_of_refuse (hslots.refuse hbefore hx (down_slots hd))

include hf

theorem Route.Continues.shares
    (hc : r.Continues named (some p) down h') : SharesCells f f' p.destination r.destination := by
  have hslots := hc.default.slots
  have hbefore := hp.slots
  rw [hf'] at hslots
  rw [hf] at hbefore
  change Continued p.destination.slots down true h' r.destination.slots at hslots
  cases hd : p.destination with
  | Tcp addr =>
    cases hd' : r.destination with
    | UdsSet arc' b' => exact trivial
    | Tcp addr' =>
      -- the address is the same, so the cell was inherited
      rintro rfl
      obtain ⟨c, hc₀⟩ := Option.isSome_iff_exists.1 (hp.tcp f addr' hf hd)
      obtain ⟨c', hc', -, hi | ⟨hi, -⟩⟩ := hc.tcp f' addr' hf' hd'
      · have hsame := inherited_tcp_some.2 ⟨p, f, rfl, hd, hf, hc₀⟩
        rw [hi] at hsame
        cases hsame
        exact ⟨c, hc₀, hc'⟩
      · rw [inherited_tcp_some.2 ⟨p, f, rfl, hd, hf, hc₀⟩] at hi
        cases hi
  | UdsSet arc b =>
    rw [hd] at hslots hbefore
    cases hd' : r.destination with
    | Tcp addr' => exact trivial
    | UdsSet arc' b' =>
      rw [hd'] at hslots
      exact hslots.shares hbefore

theorem Route.Continues.shares_h2 (hc : r.Continues named (some p) down h') (hd : p.destination_h2 = some d)
    (hd' : r.destination_h2 = some d') : SharesCells f f' d d' := by
  obtain ⟨arc, b, rfl⟩ := hp.h2 d hd
  obtain ⟨arc', b', rfl⟩ := hc.h2 d' hd'
  have hslots := hc.for_h2.slots
  have hbefore := hp.slots_h2
  rw [hf', hd'] at hslots
  rw [hf, hd] at hbefore
  change Continued (slotsOf p.destination_h2) down true h' b'.sockets at hslots
  rw [hd] at hslots
  exact hslots.shares hbefore

end Conclusions

section Reload

variable {D : Type} [DecidableEq D] {C : Crates D}

/-- A reload never brings a down route up by itself. After any run, when the live route of a
name has failover and a build installs a route with failover for that name, rebuilt or
carried forward: where the default destination was down, no endpoint of the new one accepts
right after the build; likewise for the destinations for h2; if the specs list a path for each
UDS set, the new destination is down in turn; and what both routes have, by path or by
address, has the same cell in both. -/
theorem reload_stays_down {heap : Heap} {s : Proxy D} {clock : Nat} {log : List (Event × Unit)}
    (h : (reloads C).Run (.fresh heap) s clock log) (conns : Nat → Bool) (listener_tls : ListenerTlsSpec)
    (specs : List RouteSpec) {t : RouteTable D} (ht : s.live = some t) {sni : Bytes} {p r : Route} {f f' : Failover}
    (hp : t.get_for_spec_sni sni = some p) (hf : p.failover = some f)
    (hr : (build_route_table C conns listener_tls s.live specs s.world).1.get_for_spec_sni sni = some r)
    (hf' : r.failover = some f') :
    let heap' := (build_route_table C conns listener_tls s.live specs s.world).2.heap
    (f.down s.world.heap p.destination = true → f'.NoneUp heap' r.destination) ∧
    (∀ d d', p.destination_h2 = some d → r.destination_h2 = some d' → f.down s.world.heap d = true →
    f'.NoneUp heap' d') ∧
    ((∀ spec ∈ specs, ∀ u ∈ spec.upstreams, u.Named) →
      (f.down s.world.heap p.destination = true → f'.down heap' r.destination = true) ∧
      ∀ d d', p.destination_h2 = some d → r.destination_h2 = some d' → f.down s.world.heap d = true →
        f'.down heap' d' = true) ∧
    SharesCells f f' p.destination r.destination ∧
    ∀ d d', p.destination_h2 = some d → r.destination_h2 = some d' → SharesCells f f' d d' := by
  intro heap'
  have htracked := run_tracked h
  have hpt : p.Tracked s.world.heap := htracked t ht sni p hp
  have hx : s.world.heap.Extends heap' := grows_build C listener_tls s.live conns specs s.world
  have hprev : (previous_state s.live sni s.world.heap).1 = some p := by
    rw [ht]
    exact hp
  have hdown (hd : f.locally_down s.world.heap p.destination p.destination_h2 = true) :
      (previous_state s.live sni s.world.heap).2 = true := by
    rw [previous_state_down, hprev, Option.any_some, hf]
    exact hd
  have hc := built_continues htracked hr
  rw [hprev] at hc
  -- either destination being down makes the route down, so new cells start refusing
  have hnone (hd : f.down s.world.heap p.destination = true) : f'.NoneUp heap' r.destination := by
    rw [hdown (by rw [locally_down_eq, hd, Bool.true_or])] at hc
    exact hc.stays_down hpt hf hf' hx hd
  have hnone₂ (d d' : Destination) (hd₀ : p.destination_h2 = some d) (hd' : r.destination_h2 = some d')
      (hd : f.down s.world.heap d = true) : f'.NoneUp heap' d' := by
    rw [hdown (by rw [locally_down_eq, hd₀, Option.any_some, hd, Bool.or_true])] at hc
    exact hc.stays_down_h2 hpt hf' hx hd₀ hd' hd
  refine ⟨hnone, hnone₂, fun hu => ⟨?_, ?_⟩, hc.shares hpt hf hf', fun d d' => hc.shares_h2 hpt hf hf'⟩
  · intro hd
    exact down_of_noneUp (hnone hd) (hc.default.sockets hu (socketed_of_down hd))
  · intro d d' hd₀ hd' hd
    have hsockets := hc.for_h2.sockets hu
    rw [Option.bind_some, hd₀, hd'] at hsockets
    exact down_of_noneUp (hnone₂ d d' hd₀ hd' hd) (hsockets (socketed_of_down hd))

end Reload

/-- A route with one socket and a peer to fail over to. -/
def socketSpec (path : Bytes) : RouteSpec where
  sni := bytes "a.example.com"
  upstreams := [.Uds [path] [] [] false 300000 none]
  failover := some { peers := [(bytes "10.0.0.2", 8443)], drain := false }

/-- A down route whose socket moves: the new socket was never tried, and is refusing. -/
theorem reload_stays_down_moved :
    let s := ((reloads literalCrates).exec (.fresh {})
      [.commit (fun _ => false) {} [socketSpec (bytes "/run/a.sock")], .serve (fun _ => 7) 8 8]).2
    let b := build_route_table literalCrates (fun _ => false) {} s.live [socketSpec (bytes "/run/b.sock")] s.world
    ∃ r f', b.1.get_for_spec_sni (bytes "a.example.com") = some r ∧ r.failover = some f' ∧
      r.destination.slots.map (·.path) = [bytes "/run/b.sock"] ∧ f'.down b.2.heap r.destination = true := by
  intro s b
  obtain ⟨clock, h⟩ := Machine.exec_untimed (M := reloads literalCrates) (fun _ => rfl) (.fresh {})
    [.commit (fun _ => false) {} [socketSpec (bytes "/run/a.sock")], .serve (fun _ => 7) 8 8]
  have hlive : (s.live.any fun t => (t.get_for_spec_sni (bytes "a.example.com")).any fun p =>
      p.failover.any fun f => f.down s.world.heap p.destination) = true := by decide +kernel
  have hnew : ((b.1.get_for_spec_sni (bytes "a.example.com")).any fun r =>
      r.failover.isSome && decide (r.destination.slots.map (·.path) = [bytes "/run/b.sock"])) = true := by decide +kernel
  obtain ⟨t, ht, hlive⟩ := (Option.any_eq_true _ _).1 hlive
  obtain ⟨p, hp, hlive⟩ := (Option.any_eq_true _ _).1 hlive
  obtain ⟨f, hf, hdown⟩ := (Option.any_eq_true _ _).1 hlive
  obtain ⟨r, hr, hnew⟩ := (Option.any_eq_true _ _).1 hnew
  obtain ⟨hsome, hpaths⟩ := (Bool.and_eq_true _ _).mp hnew
  obtain ⟨f', hf'⟩ := Option.isSome_iff_exists.1 hsome
  refine ⟨r, f', hr, hf', of_decide_eq_true hpaths, ?_⟩
  apply ((reload_stays_down h (fun _ => false) {} [socketSpec (bytes "/run/b.sock")] ht hp hf hr hf').2.2.1 ?_).1 hdown
  intro spec hspec u hu
  cases List.mem_singleton.1 hspec
  cases List.mem_singleton.1 hu
  exact List.cons_ne_nil _ _

end Symphony.Router
