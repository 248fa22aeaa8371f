import Symphony.Lib.Loop
import Symphony.Router.Route
/-!
# Route tables

`RouteTable`, its lookups, and `build_route_table`. The body of the build loop is
cut in three: `build_step` skips duplicates, `judge` decides what becomes of a
spec, and `record` enters the judgement into the table. Log lines are left out.
`build_route_table` never returns an error, so it returns the table itself, with
the world after the build.
-/

namespace Symphony.Router

open Lib (Act Table loop)
open Symphony.Failover (FailoverPolicy)

/-! ## Tables -/

structure FailoverRoute where
  identity : RouteMetricIdentity
  failover : Failover
  destination : Destination
  destination_h2 : Option Destination
  deriving DecidableEq, Repr

structure RouteTable (D : Type) where
  exact : Table Bytes Route := ∅
  wildcard : List (Bytes × Route) := []
  default : Option Route := none
  metric_identities : List RouteMetricIdentity := []
  monitored_balancers : List (Nat × UdsBalancer) := []
  affinity_balancers : List (Nat × UdsBalancer) := []
  failing_snis : Finset Bytes := ∅
  invalid_failover : Finset Bytes := ∅
  invalid_spill : Finset Bytes := ∅
  dropped_exact : Finset Bytes := ∅
  dropped_wildcard : List Bytes := []
  client_auth : Table Bytes (ClientAuth D) := ∅
  failover_routes : List FailoverRoute := []

/-- One left-most label, then a dot, then `suffix`. -/
def wildcard_suffix_matches (sni suffix : Bytes) : Bool :=
  if sni.length ≤ suffix.length + 1 then false
  else
    let dot_pos := sni.length - suffix.length - 1
    sni[dot_pos]? == some 46 && sni.drop (dot_pos + 1) == suffix && !(sni.take dot_pos).contains 46

namespace RouteTable

variable {D : Type} (t : RouteTable D)

def default_if (allow_default : Bool) : Option Route := if allow_default then t.default else none

/-- `resolve_with` past the exact names: wildcards, live or dropped, then the default. -/
def resolve_broader (sni : Bytes) (allow_default : Bool) : Option Route :=
  match t.wildcard.find? fun e => wildcard_suffix_matches sni e.1 with
  | some e => some e.2
  | none =>
    if t.dropped_wildcard.any fun suffix => wildcard_suffix_matches sni suffix then none
    else t.default_if allow_default

def resolve_with (sni : Option Bytes) (allow_default : Bool) : Option Route :=
  match sni with
  | none => t.default_if allow_default
  | some sni =>
    match t.exact.lookup sni with
    | some r => some r
    | none => if sni ∈ t.dropped_exact then none else t.resolve_broader sni allow_default

def get_for_spec_sni (sni : Bytes) : Option Route :=
  match wildcard_suffix sni with
  | some suffix => (t.wildcard.find? fun e => e.1 = suffix).map (·.2)
  | none => if sni = [] then t.default else t.exact.lookup sni

/-- The installed routes, each under the name its spec gives it. -/
def routes : List (Bytes × Route) :=
  t.exact.entries.map (fun e => (e.1, e.2)) ++ t.wildcard.map (fun e => (42 :: 46 :: e.1, e.2)) ++
    t.default.toList.map fun r => ([], r)

/-- A route of the table has this config. -/
def holds (arc : Nat) : Bool := t.routes.any fun (_, r) => r.tls_config.any fun config => config.arc == arc

end RouteTable

/-! ## One spec -/

def tracks_health_as (r : Route) (tracked : Bool) : Bool :=
  (r.destination :: r.destination_h2.toList).all fun
    | .UdsSet _ balancer => balancer.tracks_health = tracked
    | .Tcp _ => true

def retrack_route (r : Route) (track : Bool) : Alloc Route :=
  match r.destination_h2 with
  | none => do return { r with destination := ← retracked track r.destination }
  | some h2 => do
    let destination ← retracked track r.destination
    return { r with destination, destination_h2 := some (← retracked track h2) }

/-- The metric identity goes on while the group stays the same. -/
def keep_identity (previous_route : Option Route) (spec : RouteSpec) (r : Route) : Route :=
  match previous_route with
  | some p => if p.metric_identity.group = spec.metrics_group then
    { r with metric_identity := p.metric_identity } else r
  | none => r

/-- The health cell of a TCP destination the previous route also had. -/
def inherited_tcp_health (previous_route : Option Route) (addr : SocketAddr) : Option Nat := do
  let p ← previous_route
  match p.destination, p.failover with
  | .Tcp prev, some f => if prev = addr then f.tcp_health else none
  | _, _ => none

def build_tcp_health (previous_route : Option Route) (previous_down : Bool) : Destination → Alloc (Option Nat)
  | .UdsSet _ _ => pure none
  | .Tcp addr =>
    match inherited_tcp_health previous_route addr with
    | some cell => pure (some cell)
    | none => do return some (← SlotHealth.new previous_down)

/-- The route still draws its load from the previous route's workers. -/
def same_load_sources (previous_route : Option Route) (r : Route) : Bool :=
  previous_route.any fun p =>
    same_load_source p.destination r.destination &&
      match p.destination_h2, r.destination_h2 with
      | none, none => true
      | some a, some b => same_load_source a b
      | _, _ => false

def build_failover (previous_route : Option Route) (previous_down : Bool) (r : Route) :
    Option FailoverPolicy → Alloc (Option Failover)
  | none => pure none
  | some policy => do
    let previous_failover := (previous_route.filter fun p => p.metric_identity.arc == r.metric_identity.arc).bind
      (·.failover)
    let tcp_health ← build_tcp_health previous_route previous_down r.destination
    return some (← Failover.new policy previous_failover tcp_health (same_load_sources previous_route r))

/-- What every installed route goes through, rebuilt or carried forward. -/
def finish_route (previous_route : Option Route) (previous_down carried : Bool) (spec : RouteSpec)
    (allowed_sources : Option SourceAllowlist) (policy : Option FailoverPolicy) (r : Route) : Alloc Route := do
  let r := { r with allowed_sources }
  let r ← if carried && !tracks_health_as r policy.isSome then retrack_route r policy.isSome else pure r
  let r := keep_identity previous_route spec r
  return { r with failover := ← build_failover previous_route previous_down r policy }

/-- What becomes of a spec. -/
inductive Fate where
  | rejected
  | carried (route : Route)
  | rebuilt (route : Route)
  deriving DecidableEq

/-- The route a spec gets, if any. -/
def Fate.route : Fate → Option Route
  | .rejected => none
  | .carried r => some r
  | .rebuilt r => some r

/-- A spec's fate, the policy it asked for and the report sets its name goes into. -/
structure Judged (D : Type) where
  fate : Fate
  failing : Bool
  invalid_failover : Bool := false
  invalid_spill : Bool := false
  auth : ClientAuth D

section Judge

variable {D : Type} [DecidableEq D] (C : Crates D) (held : Nat → Bool)

/-- The previous route of this name, if it enforces the policy asked for. -/
def last_good (previous : Option (RouteTable D)) (sni : Bytes) (requested_auth : ClientAuth D) : Option Route :=
  match previous with
  | none => none
  | some p => if p.client_auth.lookup sni = some requested_auth then p.get_for_spec_sni sni else none

/-- The previous route of this name, and whether it is down. -/
def previous_state (previous : Option (RouteTable D)) (sni : Bytes) (h : Heap) : Option Route × Bool :=
  let previous_route := previous.bind fun p => p.get_for_spec_sni sni
  (previous_route, previous_route.any fun p => p.failover.any fun f => f.locally_down h p.destination p.destination_h2)

/-- The part of the loop body after the allowlist was read. -/
def judge_valid (listener_tls : ListenerTlsSpec) (previous : Option (RouteTable D)) (spec : RouteSpec)
    (allowed_sources : Option SourceAllowlist) (w : World D) : Judged D × World D :=
  let (previous_route, previous_down) := previous_state previous spec.sni w.heap
  let reading := read_failover spec
  let requested_auth := ClientAuth.of C spec listener_tls
  let finish (carried : Bool) := finish_route previous_route previous_down carried spec allowed_sources reading.policy
  let judged (fate : Fate) (failing : Bool) : Judged D :=
    ⟨fate, failing, reading.invalid_failover, reading.invalid_spill, requested_auth⟩
  match build_route C held spec listener_tls ⟨previous_route, reading.policy.isSome, previous_down⟩ w with
  | (.ok r, w) => (judged (.rebuilt (finish false r w.heap).1) false, { w with heap := (finish false r w.heap).2 })
  | (.error _, w) =>
    match last_good previous spec.sni requested_auth with
    | some r => (judged (.carried (finish true r w.heap).1) true, { w with heap := (finish true r w.heap).2 })
    | none => (judged .rejected true, w)

/-- The loop body for a spec that decides its name. -/
def judge (listener_tls : ListenerTlsSpec) (previous : Option (RouteTable D)) (spec : RouteSpec) (w : World D) :
    Judged D × World D :=
  match validate_route_protocol_declaration spec with
  | .error _ => ({ fate := .rejected, failing := true, auth := ClientAuth.of C spec listener_tls }, w)
  | .ok () =>
    match SourceAllowlist.parse C spec.allowed_sources with
    | .error _ => ({ fate := .rejected, failing := true, auth := ClientAuth.of C spec listener_tls }, w)
    | .ok allowed_sources => judge_valid C held listener_tls previous spec allowed_sources w

end Judge

/-! ## The build loop -/

/-- The locals of `build_route_table`. -/
structure Builder (D : Type) extends RouteTable D where
  configured_wildcards : Finset Bytes := ∅
  world : World D

section Build

variable {D : Type}

/-- The balancers of a route that pass `p`. -/
def balancers (p : UdsBalancer → Bool) (r : Route) : List (Nat × UdsBalancer) :=
  (r.destination :: r.destination_h2.toList).filterMap fun
    | .UdsSet arc balancer => if p balancer then some (arc, balancer) else none
    | .Tcp _ => none

def Builder.tombstone (b : Builder D) (sni : Bytes) : Builder D :=
  match wildcard_suffix sni with
  | some suffix => { b with dropped_wildcard := b.dropped_wildcard ++ [suffix] }
  | none => { b with dropped_exact := insert sni b.dropped_exact }

/-- Enter a route into the lookups. -/
def Builder.insert_route (b : Builder D) (sni : Bytes) (r : Route) : Builder D :=
  match wildcard_suffix sni with
  | some suffix => { b with wildcard := b.wildcard ++ [(suffix, r)] }
  | none => if sni = [] then { b with default := some r } else { b with exact := b.exact.insert sni r }

/-- Enter a route into the lists of the background tasks and its policy into the table. -/
def Builder.enlist (b : Builder D) (sni : Bytes) (auth : ClientAuth D) (r : Route) : Builder D :=
  { b with
    failover_routes := b.failover_routes ++
      (r.failover.toList.map fun f => ⟨r.metric_identity, f, r.destination, r.destination_h2⟩)
    monitored_balancers := b.monitored_balancers ++ balancers UdsBalancer.has_monitored_slots r
    affinity_balancers := b.affinity_balancers ++ balancers UdsBalancer.has_affinity r
    client_auth := b.client_auth.insert sni auth }

def Builder.install (b : Builder D) (sni : Bytes) (auth : ClientAuth D) (r : Route) : Builder D :=
  (b.enlist sni auth r).insert_route sni r

/-- Put the name into the report sets. -/
def Builder.report (b : Builder D) (sni : Bytes) (j : Judged D) : Builder D :=
  { b with
    failing_snis := if j.failing then insert sni b.failing_snis else b.failing_snis
    invalid_failover := if j.invalid_failover then insert sni b.invalid_failover else b.invalid_failover
    invalid_spill := if j.invalid_spill then insert sni b.invalid_spill else b.invalid_spill }

def Builder.record (b : Builder D) (sni : Bytes) (j : Judged D) : Builder D :=
  match j.fate.route with
  | none => (b.report sni j).tombstone sni
  | some r => (b.report sni j).install sni j.auth r

variable [DecidableEq D] (C : Crates D) (conns : Nat → Bool) (listener_tls : ListenerTlsSpec)
  (previous : Option (RouteTable D))

/-- Who has a config besides the cache: connections (`conns`), the previous table and
the table being built. -/
def held_by (b : RouteTable D) (arc : Nat) : Bool := conns arc || previous.any (·.holds arc) || b.holds arc

def consider (b : Builder D) (spec : RouteSpec) : Builder D :=
  let r := judge C (held_by conns previous b.toRouteTable) listener_tls previous spec b.world
  Builder.record { b with world := r.2 } spec.sni r.1

/-- `last_exact`: the last position of each name that is not a wildcard. -/
def last_exact (specs : List RouteSpec) : Table Bytes Nat :=
  loop (fun t i spec => if (wildcard_suffix spec.sni).isSome then t else t.insert spec.sni i) 0 ∅ specs

def build_step (last : Table Bytes Nat) (b : Builder D) (i : Nat) (spec : RouteSpec) : Builder D :=
  if (last.lookup spec.sni).any (· ≠ i) then b
  else
    match wildcard_suffix spec.sni with
    | some suffix =>
      if suffix ∈ b.configured_wildcards then { b with failing_snis := insert spec.sni b.failing_snis }
      else consider C conns listener_tls previous
        { b with configured_wildcards := insert suffix b.configured_wildcards } spec
    | none => consider C conns listener_tls previous b spec

/-- The order of the metric identities: by route, then by group. -/
def identity_le (a b : RouteMetricIdentity) : Bool :=
  a.route < b.route || (a.route = b.route && !decide (b.group < a.group))

/-- The builder before the first spec. -/
def Builder.start (w : World D) : Builder D :=
  { world := { w with cache := w.cache.clear_used (held_by conns previous {}) } }

def build_route_table (specs : List RouteSpec) (w : World D) : RouteTable D × World D :=
  let b := loop (build_step C conns listener_tls previous (last_exact specs)) 0 (Builder.start conns previous w) specs
  ({ b.toRouteTable with
      metric_identities := (b.toRouteTable.routes.map fun e => e.2.metric_identity).mergeSort identity_le }, b.world)

end Build

end Symphony.Router
