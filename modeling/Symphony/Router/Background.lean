import Symphony.Router.Down
import Symphony.Router.Statuses
/-!
# The lists of the background tasks

`build_route_table` fills three lists as it goes through the specs: the routes that the
failover probe watches, and the balancers whose threads are sampled and whose affinity
entries are evicted. A slot that is tracked and not listed would never be probed, and a
listed object of no route would be probed for nothing. Each list is what the installed
routes call for, each route once, however a route came to be installed.
-/

namespace Symphony.Router

/-! ## One spec -/

section Record

variable {D : Type} {b : Builder D} {sni : Bytes}

theorem insert_route_routes (hb : b.get_for_spec_sni sni = none) (r : Route) :
    (b.insert_route sni r).routes.Perm ((sni, r) :: b.routes) := by
  unfold Builder.insert_route
  unfold RouteTable.get_for_spec_sni at hb
  cases hs : wildcard_suffix sni with
  | some X =>
    obtain rfl := wildcard_suffix_eq_some.1 hs
    unfold RouteTable.routes
    dsimp only
    rw [List.map_append, ← List.append_assoc, List.append_assoc _ _ (List.map _ b.default.toList)]
    exact List.perm_middle
  | none =>
    rw [hs] at hb
    dsimp only at hb ⊢
    split
    · next hsni =>
      subst hsni
      rw [if_pos rfl] at hb
      unfold RouteTable.routes
      dsimp only
      rw [hb]
      exact List.perm_middle
    · next hsni =>
      rw [if_neg hsni, AList.lookup_eq_none] at hb
      unfold RouteTable.routes
      dsimp only
      rw [AList.entries_insert_of_notMem hb]
      exact .refl _

theorem record_routes (hb : b.status sni = none) (j : Judged D) :
    (b.record sni j).routes.Perm (j.fate.route.toList.map (fun r => (sni, r)) ++ b.routes) := by
  unfold Builder.record
  cases j.fate.route with
  | none =>
    unfold Builder.tombstone
    dsimp only
    split <;> exact .refl _
  | some r =>
    have hblank : ((b.report sni j).enlist sni j.auth r).get_for_spec_sni sni = none := live_of_status hb
    exact insert_route_routes hblank r

theorem record_balancers (b : Builder D) (sni : Bytes) (j : Judged D) :
    (b.record sni j).monitored_balancers =
        b.monitored_balancers ++ j.fate.route.toList.flatMap (balancers UdsBalancer.has_monitored_slots) ∧
      (b.record sni j).affinity_balancers =
        b.affinity_balancers ++ j.fate.route.toList.flatMap (balancers UdsBalancer.has_affinity) := by
  unfold Builder.record
  cases j.fate.route with
  | none =>
    unfold Builder.tombstone
    dsimp only
    split <;> simp [Builder.report]
  | some r =>
    unfold Builder.install Builder.insert_route
    dsimp only
    split
    · simp [Builder.enlist, Builder.report]
    · split <;> simp [Builder.enlist, Builder.report]

end Record

/-! ## One table -/

/-- The list is what the installed routes call for, each once. -/
def RouteTable.Lists {D α : Type} (t : RouteTable D) (part : Route → List α) (list : List α) : Prop :=
  list.Perm (t.routes.flatMap fun e => part e.2)

/-- The entry of a route with failover. -/
def Route.entries (r : Route) : List FailoverRoute := r.failover.toList.map r.entry

/-- The tracked slots and the lists of a table match its installed routes. -/
structure RouteTable.Background {D : Type} (t : RouteTable D) : Prop where
  /-- No two installed routes have one name. -/
  named : (t.routes.map (·.1)).Nodup
  tracked : ∀ e ∈ t.routes, ∀ s ∈ e.2.destination.slots ++ slotsOf e.2.destination_h2,
    s.health.isSome = e.2.failover.isSome
  failover : t.Lists Route.entries t.failover_routes
  monitored : t.Lists (balancers UdsBalancer.has_monitored_slots) t.monitored_balancers
  affinity : t.Lists (balancers UdsBalancer.has_affinity) t.affinity_balancers

section Build

variable {D : Type} {α : Type}

/-- A list that gets what the new route calls for. -/
theorem RouteTable.Lists.add {t t' : RouteTable D} {part : Route → List α} {list list' : List α} {sni : Bytes}
    {fate : Option Route} (h : t.Lists part list)
    (hroutes : t'.routes.Perm (fate.toList.map (fun r => (sni, r)) ++ t.routes))
    (hlist : list' = list ++ fate.toList.flatMap part) : t'.Lists part list' := by
  unfold Lists at h ⊢
  have hcalled : (t'.routes.flatMap fun e => part e.2).Perm
      (fate.toList.flatMap part ++ t.routes.flatMap fun e => part e.2) := by
    have hperm := hroutes.flatMap_right fun e => part e.2
    rw [List.flatMap_append, List.flatMap_map] at hperm
    exact hperm
  rw [hlist]
  exact ((h.append_right _).trans List.perm_append_comm).trans hcalled.symm

/-- What the lists of a builder are, part of the way. -/
structure Enlisted (b : Builder D) : Prop extends b.Keyed where
  named : (b.routes.map (·.1)).Nodup
  failover : b.Lists Route.entries b.failover_routes
  monitored : b.Lists (balancers UdsBalancer.has_monitored_slots) b.monitored_balancers
  affinity : b.Lists (balancers UdsBalancer.has_affinity) b.affinity_balancers

theorem Enlisted.record {b : Builder D} {sni : Bytes} (h : Enlisted b) (hb : b.status sni = none) (j : Judged D) :
    Enlisted (b.record sni j) := by
  have hroutes := record_routes hb j
  refine { record_keyed h.toKeyed hb j with named := ?_, failover := ?_, monitored := ?_, affinity := ?_ }
  · have hnames := hroutes.map Prod.fst
    rw [List.map_append, List.map_map] at hnames
    refine hnames.nodup_iff.2 ?_
    cases j.fate.route with
    | none => exact h.named
    | some r =>
      refine List.nodup_cons.2 ⟨fun hmem => ?_, h.named⟩
      -- the name was not installed before
      obtain ⟨⟨k, r'⟩, he, rfl⟩ := List.mem_map.1 hmem
      rw [RouteTable.mem_routes h.toKeyed, live_of_status hb] at he
      cases he
  · exact h.failover.add hroutes (record_failover_routes b sni j)
  · exact h.monitored.add hroutes (record_balancers b sni j).1
  · exact h.affinity.add hroutes (record_balancers b sni j).2

variable [DecidableEq D] (C : Crates D) (conns : Nat → Bool) (listener_tls : ListenerTlsSpec)
  (previous : Option (RouteTable D)) (specs : List RouteSpec) (w : World D)

theorem built_enlisted : Enlisted (builderAt C conns listener_tls previous specs w specs.length) := by
  apply builder_inv C conns listener_tls previous specs w Enlisted
  · exact { start_keyed conns previous w with named := .nil, failover := .nil, monitored := .nil, affinity := .nil }
  · intro b names h
    exact { h with }
  · intro b ws n spec _ _ hb h
    unfold consider
    exact Enlisted.record (b := { b with
      configured_wildcards := ws
      world := (judge C (held_by conns previous b.toRouteTable) listener_tls previous spec b.world).2 }) { h with } hb _

end Build

/-! ## Every table of a run -/

/-- Whatever builds came before, committed or not, the next table's tracked slots and
background lists match its installed routes. -/
theorem background_matches_routes {D : Type} [DecidableEq D] {C : Crates D} {heap : Heap} {s : Proxy D} {clock : Nat}
    {log : List (Event × Unit)} (h : (reloads C).Run (.fresh heap) s clock log) (conns : Nat → Bool)
    (listener_tls : ListenerTlsSpec) (specs : List RouteSpec) :
    (build_route_table C conns listener_tls s.live specs s.world).1.Background := by
  have hkeyed := built_keyed C conns listener_tls s.live specs s.world
  have htracked (k : Bytes) (r : Route)
      (hr : (build_route_table C conns listener_tls s.live specs s.world).1.get_for_spec_sni k = some r) :=
    (built_continues (run_tracked h) hr).tracked
  have hlists := built_enlisted C conns listener_tls s.live specs s.world
  refine ⟨?_, ?_, ?_, ?_, ?_⟩
  · rw [build_route_table_eq]
    exact hlists.named
  · rintro ⟨k, r⟩ hr slot hslot
    have hr := htracked k r ((RouteTable.mem_routes hkeyed).1 hr)
    rcases List.mem_append.1 hslot with hslot | hslot
    · exact (hr.slots slot hslot).1
    · exact (hr.slots_h2 slot hslot).1
  · rw [build_route_table_eq]
    exact hlists.failover
  · rw [build_route_table_eq]
    exact hlists.monitored
  · rw [build_route_table_eq]
    exact hlists.affinity

/-- A terminating route to a monitored socket, with failover. -/
def monitoredSpec : RouteSpec :=
  { guardedSpec with
    upstreams := [.Uds [bytes "/run/a.sock"] [some 10] [some 11] true 300000 none]
    failover := some { peers := [(bytes "10.0.0.2", 8443)], drain := false } }

/-- A failed rebuild that also removes the failover: the carried route is tracked no more. -/
theorem background_matches_carried :
    let s := ((reloads literalCrates).exec (.fresh {}) [.commit (fun _ => false) {} [monitoredSpec]]).2
    let t := (build_route_table literalCrates (fun _ => false) {} s.live
      [{ monitoredSpec with key_pem := some (pem PRIVATE_KEY "next"), failover := none }] s.world).1
    (s.live.map fun t => t.failover_routes.length) = some 1 ∧ t.failover_routes = [] ∧
      (t.routes.map fun e => e.2.destination.slots.map (·.health)) = [[none]] ∧ t.monitored_balancers.length = 1 ∧
      t.Background := by
  intro s t
  obtain ⟨clock, h⟩ := Lib.Machine.exec_untimed (M := reloads literalCrates) (fun _ => rfl) (.fresh {})
    [.commit (fun _ => false) {} [monitoredSpec]]
  exact ⟨by decide +kernel, by decide +kernel, by decide +kernel, by decide +kernel,
    background_matches_routes h (fun _ => false) {} _⟩

end Symphony.Router
