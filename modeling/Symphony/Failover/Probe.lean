import Symphony.Router.Down
import Symphony.Router.Statuses
/-!
# The probe and the health events

`probe_periodically` probes the refusing endpoints of the routes with failover and then
reports: for each route of the live table whose reported state is not its state, an
event, and the state is stored as reported when the event was queued. What was reported
is kept in the failover's status, and a reload hands a status on only from a failover.

A pass is a tick, the probes, and the report, which is one step; connections mark cells
and reloads happen between any two steps.
-/

namespace Symphony.Failover

open Lib (Machine)
open Router (Crates Destination FailoverRoute Heap Route RouteSpec RouteTable SlotHealth StatusOrigin UdsBalancer
  read_failover build_route_table)

/-! ## Probes -/

inductive Endpoint where
  | Uds (path : Bytes)
  | Tcp (addr : SocketAddr)
  deriving DecidableEq, Repr

/-- What the probe task reads and writes of a `FailoverStatus`. -/
structure FailoverStatus where
  reported_down : Bool := false
  last_probe_ns : Nat := 0
  deriving DecidableEq, Repr

/-- A cell that a probe of its endpoint may clear, and what it was when the pass began. -/
structure Due where
  endpoint : Endpoint
  health : SlotHealth
  observed : Nat
  deriving DecidableEq, Repr

def tracked_slots (b : UdsBalancer) : List (Bytes × SlotHealth) :=
  b.sockets.filterMap fun s => s.health.map fun health => (s.path, health)

def clear_if_unchanged (health : SlotHealth) (observed : Nat) (h : Heap) : Heap :=
  if h.refused_at health = observed then { h with refused_at := Function.update h.refused_at health 0 } else h

/-- The endpoints of one destination, with their cells. -/
def endpoints (failover : Router.Failover) : Destination → List (Endpoint × SlotHealth)
  | .UdsSet _ balancer => (tracked_slots balancer).map fun s => (.Uds s.1, s.2)
  | .Tcp addr => failover.tcp_health.toList.map fun health => (.Tcp addr, health)

/-- What of a route is refusing. -/
def refusals (h : Heap) (route : FailoverRoute) : List Due :=
  ((route.destination :: route.destination_h2.toList).flatMap (endpoints route.failover)).filterMap fun e =>
    if h.refused_at e.2 ≠ 0 then some ⟨e.1, e.2, h.refused_at e.2⟩ else none

/-- One route of the loop that begins a pass. -/
def collect_route (h : Heap) (s : List Due × (Nat → FailoverStatus)) (route : FailoverRoute) :
    List Due × (Nat → FailoverStatus) :=
  let status := s.2 route.failover.status
  let interval := route.failover.probe_interval
  -- a route with a longer interval than the tick skips ticks
  if h.now_ns - status.last_probe_ns < interval - interval / 10 then s
  else
    let due := refusals h route
    -- stamped only when something is probed
    (s.1 ++ due, if due = [] then s.2
      else Function.update s.2 route.failover.status { status with last_probe_ns := h.now_ns })

/-! ## Reports -/

/-- `JsEvent::RouteHealth`. -/
structure RouteHealth where
  route : Bytes
  metrics_group : Bytes
  up : Bool
  deriving DecidableEq, Repr

/-- `FailoverRoute::locally_down`. -/
def locally_down (h : Heap) (route : FailoverRoute) : Bool :=
  route.failover.locally_down h route.destination route.destination_h2

/-- The statuses, and the events of the pass so far with what the queue answered. -/
structure Reports where
  statuses : Nat → FailoverStatus
  emitted : List (RouteHealth × Bool) := []

/-- One route of the loop that ends a pass. -/
def report_route (h : Heap) (queued : RouteHealth → Bool) (s : Reports) (route : FailoverRoute) : Reports :=
  let down := locally_down h route
  let status := s.statuses route.failover.status
  if status.reported_down ≠ down then
    let event : RouteHealth := ⟨route.identity.route, route.identity.group, !down⟩
    { statuses := if queued event then
          Function.update s.statuses route.failover.status { status with reported_down := down }
        else s.statuses -- sent again next tick
      emitted := s.emitted ++ [(event, queued event)] }
  else s

/-- The events that reached the queue. -/
def delivered (emitted : List (RouteHealth × Bool)) : List RouteHealth := (emitted.filter (·.2)).map (·.1)

/-! ## Passes -/

/-- A proxy with its probe task. `due` is what the current pass still probes, and `events`
all events ever queued. -/
structure Watched (D : Type) where
  proxy : Router.Proxy D
  statuses : Nat → FailoverStatus := fun _ => {}
  due : Option (List Due) := none
  events : List RouteHealth := []

inductive ProbeEvent where
  /-- A reload, or connections mark cells and time goes on. -/
  | table (e : Router.Event)
  /-- The sleep ends. -/
  | tick
  /-- The probe of an endpoint ends. -/
  | probed (endpoint : Endpoint) (up : Bool)
  /-- All probes have ended; `queued` is what the event queue answers. -/
  | report (queued : RouteHealth → Bool)

section Watched

variable {D : Type}

/-- A proxy before its first build. -/
def Watched.fresh (heap : Heap) : Watched D where
  proxy := .fresh heap

variable (s : Watched D)

/-- `failover_routes` of the live table. -/
def Watched.failover_routes : List FailoverRoute := s.proxy.live.elim [] (·.failover_routes)

def Watched.tick : Watched D :=
  if s.due.isSome ∨ s.failover_routes = [] then s
  else
    let r := s.failover_routes.foldl (collect_route s.proxy.world.heap) ([], s.statuses)
    { s with due := some r.1, statuses := r.2 }

def Watched.probed (endpoint : Endpoint) (up : Bool) : Watched D :=
  match s.due with
  | none => s
  | some due =>
    let cleared := if up then due.filter (·.endpoint = endpoint) else []
    { s with
      due := some (due.filter (·.endpoint ≠ endpoint))
      proxy.world.heap := cleared.foldl (fun h d => clear_if_unchanged d.health d.observed h) s.proxy.world.heap }

/-- The report reads the live table, not the one probed. -/
def Watched.report (queued : RouteHealth → Bool) : List (RouteHealth × Bool) × Watched D :=
  if s.due = some [] then
    let r := s.failover_routes.foldl (report_route s.proxy.world.heap queued) { statuses := s.statuses }
    (r.emitted, { s with due := none, statuses := r.statuses, events := s.events ++ delivered r.emitted })
  else ([], s)

end Watched

/-- The probe task, among reloads and connections. A report answers with the events of its
pass. -/
def probing {D : Type} [DecidableEq D] (C : Crates D) : Machine (Watched D) ProbeEvent (List (RouteHealth × Bool)) where
  reading _ := none
  step s
    | .table e => ([], { s with proxy := ((Router.reloads C).step s.proxy e).2 })
    | .tick => ([], s.tick)
    | .probed endpoint up => ([], s.probed endpoint up)
    | .report queued => s.report queued

/-- Whether the last event about a route says down. -/
def saidDown (events : List RouteHealth) (route group : Bytes) : Bool :=
  (events.filter fun e => e.route = route ∧ e.metrics_group = group).getLast?.any fun e => !e.up

/-- The last events say of every live route with failover what it is. -/
def TellsTruth {D : Type} (s : Watched D) : Prop :=
  ∀ t k r f, s.proxy.live = some t → t.get_for_spec_sni k = some r → r.failover = some f →
    saidDown s.events k r.metric_identity.group = f.locally_down s.proxy.world.heap r.destination r.destination_h2

/-! ## What a report leaves -/

theorem saidDown_concat (events : List RouteHealth) (e : RouteHealth) (route group : Bytes) :
    saidDown (events ++ [e]) route group =
      if e.route = route ∧ e.metrics_group = group then !e.up else saidDown events route group := by
  unfold saidDown
  rw [List.filter_append]
  split
  · next he => simp [he]
  · next he => simp [he]

/-- The reported states are what the last events say. -/
def Agrees (routes : List FailoverRoute) (events : List RouteHealth) (statuses : Nat → FailoverStatus) : Prop :=
  ∀ e ∈ routes, (statuses e.failover.status).reported_down = saidDown events e.identity.route e.identity.group

/-- Routes that share a status or a name are the same. -/
def Apart (routes : List FailoverRoute) : Prop :=
  ∀ e ∈ routes, ∀ e' ∈ routes, (e.failover.status = e'.failover.status ∨ e.identity.route = e'.identity.route) → e = e'

section Report

variable {h : Heap} {queued : RouteHealth → Bool} {routes done : List FailoverRoute} {events : List RouteHealth}
  {s : Reports} {e : FailoverRoute}

/-- What one route of the report can do: it says what was said, it is not heard, or the
new state is both stored and said. -/
theorem report_route_cases (h : Heap) (queued : RouteHealth → Bool) (s : Reports) (e : FailoverRoute) :
    (report_route h queued s e = s ∧ (s.statuses e.failover.status).reported_down = locally_down h e) ∨
    (∃ event, report_route h queued s e = { s with emitted := s.emitted ++ [(event, false)] }) ∨
    report_route h queued s e =
      { statuses := Function.update s.statuses e.failover.status
          { s.statuses e.failover.status with reported_down := locally_down h e }
        emitted := s.emitted ++ [(⟨e.identity.route, e.identity.group, !locally_down h e⟩, true)] } := by
  unfold report_route
  dsimp only
  split
  · cases hq : queued ⟨e.identity.route, e.identity.group, !locally_down h e⟩ with
    | false => exact .inr (.inl ⟨_, rfl⟩)
    | true => exact .inr (.inr rfl)
  · next hne => exact .inl ⟨rfl, not_not.1 hne⟩

theorem delivered_concat (emitted : List (RouteHealth × Bool)) (event : RouteHealth) (q : Bool) :
    delivered (emitted ++ [(event, q)]) = delivered emitted ++ if q then [event] else [] := by
  cases q <;> simp [delivered]

/-- A new state that is stored and said at once, of a route apart from the others. -/
theorem Agrees.told {statuses : Nat → FailoverStatus} {status : FailoverStatus} {up : Bool}
    (ha : Agrees routes events statuses) (hapart : Apart routes) (he : e ∈ routes) (hup : status.reported_down = !up) :
    Agrees routes (events ++ [⟨e.identity.route, e.identity.group, up⟩])
      (Function.update statuses e.failover.status status) := by
  intro e' he'
  rw [saidDown_concat]
  by_cases hsame : e = e'
  · subst hsame
    simp [hup]
  · have hstatus : e'.failover.status ≠ e.failover.status := fun heq => hsame (hapart e he e' he' (.inl heq.symm))
    have hroute : ¬(e.identity.route = e'.identity.route ∧ e.identity.group = e'.identity.group) := fun heq =>
      hsame (hapart e he e' he' (.inr heq.1))
    rw [Function.update_of_ne hstatus, if_neg hroute]
    exact ha e' he'

/-- The loop of the report: what is stored is what was said, and once every event was
queued, what is stored of the routes done is what they are. -/
structure Reported (h : Heap) (routes : List FailoverRoute) (events : List RouteHealth) (done : List FailoverRoute)
    (s : Reports) : Prop where
  agrees : Agrees routes (events ++ delivered s.emitted) s.statuses
  settled : (∀ x ∈ s.emitted, x.2 = true) → ∀ e ∈ done,
    (s.statuses e.failover.status).reported_down = locally_down h e

theorem report_route_reported (hapart : Apart routes) (hdone : ∀ e ∈ done, e ∈ routes) (he : e ∈ routes)
    (hs : Reported h routes events done s) :
    Reported h routes events (done ++ [e]) (report_route h queued s e) := by
  rcases report_route_cases h queued s e with ⟨heq, hsame⟩ | ⟨event, heq⟩ | heq
  · rw [heq]
    refine ⟨hs.agrees, ?_⟩
    intro hq e' he'
    rcases List.mem_append.1 he' with he' | he'
    · exact hs.settled hq e' he'
    · rw [List.mem_singleton.1 he']
      exact hsame
  · rw [heq]
    refine ⟨?_, ?_⟩
    · simpa [delivered_concat] using hs.agrees
    · intro hq
      exact absurd (hq (event, false) (by simp)) Bool.false_ne_true
  · rw [heq]
    refine ⟨?_, ?_⟩
    · rw [delivered_concat, if_pos rfl, ← List.append_assoc]
      exact hs.agrees.told hapart he (by simp)
    · intro hq e' he'
      dsimp only
      by_cases hsame : e' = e
      · rw [hsame, Function.update_self]
      · have he' : e' ∈ done := by simpa [hsame] using he'
        have hstatus : e'.failover.status ≠ e.failover.status := fun heq =>
          hsame (hapart e' (hdone e' he') e he (.inl heq))
        rw [Function.update_of_ne hstatus]
        exact hs.settled (fun x hx => hq x (List.mem_append_left _ hx)) e' he'

variable (h queued) in
theorem report_reported {statuses : Nat → FailoverStatus} (hapart : Apart routes) (ha : Agrees routes events statuses) :
    Reported h routes events routes (routes.foldl (report_route h queued) { statuses }) := by
  have hinv := Lib.foldl_inv (f := report_route h queued) (s := { statuses }) (l := routes)
    fun done s => (∀ e ∈ done, e ∈ routes) ∧ Reported h routes events done s
  refine (hinv ⟨?_, ?_, ?_⟩ ?_).2
  · intro e he
    cases he
  · simpa [delivered] using ha
  · intro _ e he
    cases he
  · rintro done s e he ⟨hdone, hs⟩
    refine ⟨?_, report_route_reported hapart hdone he hs⟩
    intro e' he'
    rcases List.mem_append.1 he' with he' | he'
    · exact hdone e' he'
    · rw [List.mem_singleton.1 he']
      exact he

end Report

/-! ## What every run keeps -/

section Runs

variable {D : Type} {s : Watched D}

/-- The groups a reload may put a route of this spec in: the spec's, or that of the live
route, which a carried-forward route keeps. -/
def Watched.groups (s : Watched D) (spec : RouteSpec) : List Bytes :=
  spec.metrics_group :: (Router.previousRoute s.proxy.live spec.sni).toList.map (·.metric_identity.group)

/-- A reload gives failover to a route that was last reported down only while the live
table has the route, under the same group, with failover. -/
def KeepsReported (s : Watched D) : ProbeEvent → Prop
  | .table (.commit _ _ specs) => ∀ spec ∈ specs, (read_failover spec).policy.isSome = true → ∀ group ∈ s.groups spec,
      saidDown s.events spec.sni group = true →
        ∃ e ∈ s.failover_routes, e.identity.route = spec.sni ∧ e.identity.group = group
  | _ => True

/-- The statuses of the live table are apart, what is reported is what was said, and
statuses to come report nothing. -/
structure Watched.Faithful (s : Watched D) : Prop where
  statuses : ∀ t, s.proxy.live = some t → t.Statuses s.proxy.world.heap
  unused : ∀ c, s.proxy.world.heap.next ≤ c → (s.statuses c).reported_down = false
  agrees : Agrees s.failover_routes s.events s.statuses

/-- What `failover_routes` lists is the live routes with failover. -/
theorem Watched.Faithful.listed (hs : s.Faithful) {e : FailoverRoute} :
    e ∈ s.failover_routes ↔
      ∃ t k r f, s.proxy.live = some t ∧ t.get_for_spec_sni k = some r ∧ r.failover = some f ∧ e = r.entry f := by
  unfold Watched.failover_routes
  cases ht : s.proxy.live with
  | none => simp
  | some t =>
    refine ((hs.statuses t ht).listed e).trans ?_
    constructor
    · rintro ⟨k, r, f, hk, hf, he⟩
      exact ⟨t, k, r, f, rfl, hk, hf, he⟩
    · rintro ⟨_, k, r, f, ⟨⟩, hk, hf, he⟩
      exact ⟨k, r, f, hk, hf, he⟩

theorem Watched.Faithful.allocated (hs : s.Faithful) {e : FailoverRoute} (he : e ∈ s.failover_routes) :
    e.failover.status < s.proxy.world.heap.next := by
  obtain ⟨t, k, r, f, ht, hk, hf, rfl⟩ := hs.listed.1 he
  exact (hs.statuses t ht).allocated k r f hk hf

theorem Watched.Faithful.apart (hs : s.Faithful) : Apart s.failover_routes := by
  intro e he e' he' hor
  obtain ⟨t, k, r, f, ht, hk, hf, rfl⟩ := hs.listed.1 he
  obtain ⟨t', k', r', f', ht', hk', hf', rfl⟩ := hs.listed.1 he'
  rw [ht] at ht'
  cases ht'
  have htable := hs.statuses t ht
  have hname : k = k' := by
    rcases hor with hstatus | hroute
    · exact htable.distinct k r f k' r' f' hk hf hk' hf' hstatus
    · exact (htable.named k r hk).symm.trans (hroute.trans (htable.named k' r' hk'))
  subst hname
  rw [hk] at hk'
  cases hk'
  rw [hf] at hf'
  cases hf'
  rfl

/-- Steps that leave the live table and what was reported. -/
theorem Watched.Faithful.frame {s' : Watched D} (hs : s.Faithful) (hlive : s'.proxy.live = s.proxy.live)
    (hnext : s.proxy.world.heap.next ≤ s'.proxy.world.heap.next)
    (hreported : ∀ c, (s'.statuses c).reported_down = (s.statuses c).reported_down) (hevents : s'.events = s.events) :
    s'.Faithful := by
  refine ⟨?_, ?_, ?_⟩
  · intro t ht
    rw [hlive] at ht
    exact (hs.statuses t ht).mono hnext
  · intro c hc
    rw [hreported]
    exact hs.unused c (hnext.trans hc)
  · intro e he
    unfold Watched.failover_routes at he
    rw [hlive] at he
    rw [hreported, hevents]
    exact hs.agrees e he

theorem clear_next (h : Heap) (cleared : List Due) :
    (cleared.foldl (fun h d => clear_if_unchanged d.health d.observed h) h).next = h.next := by
  refine List.foldlRecOn (motive := fun h' : Heap => h'.next = h.next) cleared _ rfl ?_
  intro h' ih d _
  rw [← ih]
  unfold clear_if_unchanged
  split <;> rfl

theorem collect_reported (h : Heap) (routes : List FailoverRoute) (statuses : Nat → FailoverStatus) (c : Nat) :
    ((routes.foldl (collect_route h) ([], statuses)).2 c).reported_down = (statuses c).reported_down := by
  refine List.foldlRecOn (motive := fun s : List Due × (Nat → FailoverStatus) =>
    (s.2 c).reported_down = (statuses c).reported_down) routes _ rfl ?_
  intro s ih e _
  rw [← ih]
  unfold collect_route
  dsimp only
  split
  · rfl
  · split
    · rfl
    · -- the stamp is another field
      dsimp only
      by_cases hc : c = e.failover.status
      · rw [hc, Function.update_self]
      · rw [Function.update_of_ne hc]

theorem tick_faithful (hs : s.Faithful) : s.tick.Faithful := by
  unfold Watched.tick
  split
  · exact hs
  · exact hs.frame rfl (Nat.le_refl _) (collect_reported _ _ _) rfl

theorem probed_faithful (endpoint : Endpoint) (up : Bool) (hs : s.Faithful) : (s.probed endpoint up).Faithful := by
  unfold Watched.probed
  split
  · exact hs
  · exact hs.frame rfl (Nat.le_of_eq (clear_next _ _).symm) (fun _ => rfl) rfl

/-- A report stores nothing of statuses that do not exist yet. -/
theorem report_unused (queued : RouteHealth → Bool) (hs : s.Faithful) {c : Nat} (hc : s.proxy.world.heap.next ≤ c) :
    ((s.failover_routes.foldl (report_route s.proxy.world.heap queued)
      { statuses := s.statuses }).statuses c).reported_down = false := by
  refine List.foldlRecOn (motive := fun x : Reports => (x.statuses c).reported_down = false) _ _ (hs.unused c hc) ?_
  intro x ih e he
  rcases report_route_cases s.proxy.world.heap queued x e with ⟨heq, -⟩ | ⟨event, heq⟩ | heq
  · rw [heq]
    exact ih
  · rw [heq]
    exact ih
  · rw [heq]
    have hlt := hs.allocated he
    dsimp only
    rw [Function.update_of_ne (by omega)]
    exact ih

theorem report_faithful (queued : RouteHealth → Bool) (hs : s.Faithful) : (s.report queued).2.Faithful := by
  unfold Watched.report
  split
  · exact ⟨hs.statuses, fun c => report_unused queued hs, (report_reported _ _ hs.apart hs.agrees).agrees⟩
  · exact hs

/-- What was said of a route that a reload gives a status: nothing but what the status
says. -/
theorem commit_agrees (hs : s.Faithful) {conns : Nat → Bool} {listener_tls : Router.ListenerTlsSpec}
    {specs : List RouteSpec} (hok : KeepsReported s (.table (.commit conns listener_tls specs))) {h : Heap}
    {spec : RouteSpec} (hspec : spec ∈ specs) {r : Route} {f : Router.Failover}
    (hj : Router.JudgedAs s.proxy.world.heap h (Router.previousRoute s.proxy.live spec.sni) spec r)
    (hf : r.failover = some f) :
    (s.statuses f.status).reported_down = saidDown s.events spec.sni r.metric_identity.group := by
  have hlisted (p : Route) (f₀ : Router.Failover) (hprev : Router.previousRoute s.proxy.live spec.sni = some p)
      (hf₀ : p.failover = some f₀) : p.entry f₀ ∈ s.failover_routes ∧ p.metric_identity.route = spec.sni := by
    obtain ⟨t, ht, hget⟩ := Option.bind_eq_some_iff.1 hprev
    exact ⟨hs.listed.2 ⟨t, spec.sni, p, f₀, ht, hget, hf₀, rfl⟩, (hs.statuses t ht).named spec.sni p hget⟩
  rcases hj.status f hf with ⟨p, f₀, hprev, hf₀, hstatus, hid⟩ | ⟨hle, hother⟩
  · -- handed on with the identity
    obtain ⟨hmem, hroute⟩ := hlisted p f₀ hprev hf₀
    have hagrees := hs.agrees _ hmem
    rw [hstatus, hid, ← hroute]
    exact hagrees
  · -- new: the route was not said to be down, or the table before would have its failover
    rw [hs.unused _ hle]
    symm
    rw [← Bool.not_eq_true]
    intro hsaid
    have hgroup : r.metric_identity.group ∈ s.groups spec := by
      rcases hj.identity with ⟨p, hprev, hid⟩ | ⟨-, hgroup, -⟩
      · simp [Watched.groups, hprev, hid]
      · simp [Watched.groups, hgroup]
    have hpolicy : (read_failover spec).policy.isSome = true := by rw [← hj.failover, hf, Option.isSome_some]
    obtain ⟨e, he, hroute, hgroup⟩ := hok spec hspec hpolicy _ hgroup hsaid
    obtain ⟨t, k, p, f₀, ht, hk, hf₀, rfl⟩ := hs.listed.1 he
    have hname : k = spec.sni := ((hs.statuses t ht).named k p hk).symm.trans hroute
    subst hname
    exact hother p f₀ (Option.bind_eq_some_iff.2 ⟨t, ht, hk⟩) hf₀ hgroup

variable [DecidableEq D] {C : Crates D}

theorem table_faithful (e : Router.Event) (hok : KeepsReported s (.table e)) (hs : s.Faithful) :
    ({ s with proxy := ((Router.reloads C).step s.proxy e).2 } : Watched D).Faithful := by
  cases e with
  | commit conns listener_tls specs =>
    obtain ⟨htable, hjudged⟩ := Router.built_statuses C conns listener_tls specs hs.statuses
    have hnext := (Router.grows_build C listener_tls s.proxy.live conns specs s.proxy.world).next
    refine ⟨?_, fun c hc => hs.unused c (hnext.trans hc), ?_⟩
    · intro t ht
      cases ht
      exact htable
    · intro e he
      obtain ⟨k, r, f, hk, hf, rfl⟩ := (htable.listed e).1 he
      obtain ⟨spec, hspec, rfl, hj⟩ := hjudged k r hk
      have hagrees := commit_agrees hs hok hspec hj hf
      rw [← htable.named spec.sni r hk] at hagrees
      exact hagrees
  | abandon conns listener_tls specs =>
    exact hs.frame rfl (Router.grows_build C listener_tls s.proxy.live conns specs s.proxy.world).next
      (fun _ => rfl) rfl
  | sweep held => exact hs.frame rfl (Nat.le_refl _) (fun _ => rfl) rfl
  | resolve held cert mtls http2 =>
    exact hs.frame rfl (Router.grows_get_or_build_unmarked C held cert mtls http2 s.proxy.world).next (fun _ => rfl) rfl
  | serve refused_at now_ns wall_ns => exact hs.frame rfl (Nat.le_refl _) (fun _ => rfl) rfl

theorem run_faithful {heap : Heap} {clock : Nat} {log : List (ProbeEvent × List (RouteHealth × Bool))}
    (h : (probing C).RunWhere KeepsReported (.fresh heap) s clock log) : s.Faithful := by
  refine h.inv (fun s _ _ => s.Faithful) ?_ ?_
  · refine ⟨?_, fun _ _ => rfl, ?_⟩
    · intro t ht
      cases ht
    · intro e he
      cases he
  · intro s _ _ e hs hok _
    cases e with
    | table e => exact table_faithful e hok hs
    | tick => exact tick_faithful hs
    | probed endpoint up => exact probed_faithful endpoint up hs
    | report queued => exact report_faithful queued hs

/-- Health events tell the truth while reloads keep the failover of routes reported down.
After any run of reloads, refusals, probes and reports, in which a reload gives failover
to a route last reported down only while the live table has it with failover: when a pass
ends and all its events were queued, the last event about each live route with failover
says down exactly when the route is locally down. -/
theorem route_health_tells_truth {heap : Heap} {clock : Nat} {log : List (ProbeEvent × List (RouteHealth × Bool))}
    (h : (probing C).RunWhere KeepsReported (.fresh heap) s clock log) (hdue : s.due = some [])
    (queued : RouteHealth → Bool) (hqueued : ∀ x ∈ ((probing C).step s (.report queued)).1, x.2 = true) :
    TellsTruth ((probing C).step s (.report queued)).2 := by
  have hs := run_faithful h
  have hreport : (probing C).step s (.report queued) =
      let r := s.failover_routes.foldl (report_route s.proxy.world.heap queued) { statuses := s.statuses }
      (r.emitted, { s with due := none, statuses := r.statuses, events := s.events ++ delivered r.emitted }) :=
    if_pos hdue
  have hreported := report_reported s.proxy.world.heap queued hs.apart hs.agrees
  rw [hreport] at hqueued ⊢
  intro t k r f ht hk hf
  have he : r.entry f ∈ s.failover_routes := hs.listed.2 ⟨t, k, r, f, ht, hk, hf, rfl⟩
  have hname := (hs.statuses t ht).named k r hk
  rw [← hname]
  exact (hreported.agrees _ he).symm.trans (hreported.settled hqueued _ he)

end Runs

instance {D : Type} (s : Watched D) : (e : ProbeEvent) → Decidable (KeepsReported s e)
  | .table (.commit _ _ specs) => inferInstanceAs
    (Decidable (∀ spec ∈ specs, (read_failover spec).policy.isSome = true →
      ∀ group ∈ s.groups spec, saidDown s.events spec.sni group = true →
        ∃ e ∈ s.failover_routes, e.identity.route = spec.sni ∧ e.identity.group = group))
  | .table (.abandon ..) | .table (.sweep _) | .table (.resolve ..) | .table (.serve ..) => .isTrue trivial
  | .tick | .probed .. | .report _ => .isTrue trivial

/-- A route whose socket refuses, is probed in vain and is reported down. -/
def refusedAndReported : List ProbeEvent :=
  [.table (.commit (fun _ => false) {} [Router.socketSpec (bytes "/run/a.sock")]),
    .table (.serve (fun _ => 7) 2000000000 8), .tick, .probed (.Uds (bytes "/run/a.sock")) false, .report fun _ => true]

/-- A reload moves the down route to another socket, which is refusing until its probe. -/
def movedAndProbed : List ProbeEvent :=
  refusedAndReported ++
    [.table (.commit (fun _ => false) {} [Router.socketSpec (bytes "/run/b.sock")]),
      .table (.serve (fun _ => 7) 4000000000 9), .tick, .probed (.Uds (bytes "/run/b.sock")) true]

/-- The route comes up at its new socket, and the event says so. -/
theorem route_health_tells_truth_moved :
    let s := ((probing Router.literalCrates).exec (.fresh {}) movedAndProbed).2
    let r := (probing Router.literalCrates).step s (.report fun _ => true)
    r.1 = [(⟨bytes "a.example.com", [], true⟩, true)] ∧ TellsTruth r.2 := by
  intro s r
  have h₀ : (probing Router.literalCrates).RunWhere KeepsReported (.fresh {}) (.fresh {}) 0 [] := .nil
  have hok : (probing Router.literalCrates).Admissible KeepsReported (.fresh {}) 0 movedAndProbed := by decide +kernel
  obtain ⟨clock, h⟩ := h₀.exec hok
  have hdue : s.due = some [] := by decide +kernel
  have hqueued : ∀ x ∈ r.1, x.2 = true := by decide +kernel
  exact ⟨by decide +kernel, route_health_tells_truth h hdue (fun _ => true) hqueued⟩

/-- A reload removes the failover of the down route, and another adds it again. -/
def removedAndAdded : List ProbeEvent :=
  refusedAndReported ++
    [.table (.commit (fun _ => false) {} [{ Router.socketSpec (bytes "/run/a.sock") with failover := none }]),
      .table (.commit (fun _ => false) {} [Router.socketSpec (bytes "/run/a.sock")]), .tick]

/-- The new failover has a new status, so the route is up, is taken for reported up, and no
event says so: the last one still says down. -/
theorem route_health_removed_and_added :
    let s := ((probing Router.literalCrates).exec (.fresh {}) removedAndAdded).2
    let r := (probing Router.literalCrates).step s (.report fun _ => true)
    (∃ clock log, (probing Router.literalCrates).Run (.fresh {}) s clock log) ∧ s.due = some [] ∧
      (∀ x ∈ r.1, x.2 = true) ∧ ¬TellsTruth r.2 := by
  intro s r
  obtain ⟨clock, h⟩ := Machine.exec_untimed (M := probing Router.literalCrates) (fun _ => rfl) (.fresh {})
    removedAndAdded
  refine ⟨⟨clock, _, h⟩, by decide +kernel, by decide +kernel, ?_⟩
  intro htruth
  have hlive : (r.2.proxy.live.any fun t => (t.get_for_spec_sni (bytes "a.example.com")).any fun p =>
      p.failover.any fun f => saidDown r.2.events (bytes "a.example.com") p.metric_identity.group &&
        !f.locally_down r.2.proxy.world.heap p.destination p.destination_h2) = true := by decide +kernel
  obtain ⟨t, ht, hlive⟩ := (Option.any_eq_true _ _).1 hlive
  obtain ⟨p, hp, hlive⟩ := (Option.any_eq_true _ _).1 hlive
  obtain ⟨f, hf, hlive⟩ := (Option.any_eq_true _ _).1 hlive
  obtain ⟨hsaid, hup⟩ := (Bool.and_eq_true _ _).mp hlive
  rw [htruth t _ p f ht hp hf] at hsaid
  rw [hsaid] at hup
  cases hup

end Symphony.Failover
