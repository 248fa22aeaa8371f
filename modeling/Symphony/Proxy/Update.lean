import Symphony.Lib.Writes
import Symphony.Proxy.Config
import Symphony.Router.Table
/-!
# Hot updates

`update_config`: routes, protection settings and trusted lists of a running proxy. It reads
and checks all three parts before it stores any of them, so an update takes effect as a
whole or not at all. The stores look their listeners up by port again. What the check said
about the ports still holds then, because a store changes no port.
-/

namespace Symphony.Proxy

open Lib (last? lastWrite last?_cons lastWrite_cons write getElem?_write getElem?_writes length_writes forall₂_of_mapM
  mapM_ok)
open Protection (ProtectionConfig ProtectionState)
open Router (Crates ListenerTlsSpec RouteTable SourceAllowlist World build_route_table)
open Sni (decimal)

/-! ## The proxy -/

structure IngressState where
  trusted : SourceAllowlist

/-- What an update can change of a listener. -/
structure ListenerState where
  port : Nat
  protection : Option ProtectionState
  ingress : Option IngressState

def ListenerState.store_config (cfg : ProtectionConfig) (l : ListenerState) : ListenerState :=
  { l with protection := l.protection.map fun st => { st with config := cfg } }

def ListenerState.set_trusted (trusted : SourceAllowlist) (l : ListenerState) : ListenerState :=
  { l with ingress := l.ingress.map fun _ => ⟨trusted⟩ }

structure SymphonyProxyWrap (D : Type) where
  route_table : RouteTable D
  default_listener_tls : ListenerTlsSpec
  listener_states : List ListenerState
  world : World D

structure JsListenerProtectionHotConfig where
  port : Nat
  protection : JsProtectionConfig

structure JsListenerFailoverIngressHotConfig where
  port : Nat
  trusted_sources : List Bytes

structure JsHotConfig where
  routes : Option (List JsRouteConfig) := none
  protection : Option (List JsListenerProtectionHotConfig) := none
  failover_ingress : Option (List JsListenerFailoverIngressHotConfig) := none

/-- How a call ends other than well: with an error, or in a failed `expect`. -/
inductive Failure where
  | err (e : Error)
  | panicked (text : Bytes)
  deriving DecidableEq, Repr

/-! ## Validation -/

/-- The listeners of a port, with their positions. -/
def matching (listeners : List ListenerState) (port : Nat) : List (ListenerState × Nat) :=
  listeners.zipIdx.filter fun e => e.1.port = port

/-- `errors.join("; ")`. -/
def join_errors (errors : List Bytes) : Error := ⟨(errors.intersperse (bytes "; ")).flatten, none⟩

def protection_error (listeners : List ListenerState) (u : JsListenerProtectionHotConfig) : Option Bytes :=
  match matching listeners u.port with
  | [] => some (bytes "port " ++ decimal u.port ++ bytes " matches no listener")
  | [(single, _)] =>
    if single.protection.isNone then
      some (bytes "port " ++ decimal u.port ++ bytes " was started without protection; recreate to enable")
    else none
  | _ => some (bytes "port " ++ decimal u.port ++ bytes " matches multiple listeners; use per-listener restart-configure")

section Validate

variable {D : Type} (C : Crates D) (listeners : List ListenerState)

def validate_protection : Option (List JsListenerProtectionHotConfig) →
    Except Error (List (JsListenerProtectionHotConfig × ProtectionConfig))
  | none => .ok []
  | some updates =>
    let errors := updates.filterMap (protection_error listeners)
    if errors ≠ [] then .error (join_errors errors)
    else do
      let parsed ← updates.mapM fun u => parse_protection_config C u.protection
      return updates.zip parsed

/-- The state an update goes to and its new list, or why not. -/
def ingress_entry (u : JsListenerFailoverIngressHotConfig) : Except Bytes (Nat × SourceAllowlist) :=
  match matching listeners u.port with
  | [] => .error (bytes "port " ++ decimal u.port ++ bytes " matches no listener")
  | [(single, i)] =>
    match single.ingress with
    | none => .error (bytes "port " ++ decimal u.port ++ bytes " was started without failoverIngress; recreate to enable")
    | some _ =>
      match parse_trusted_sources C u.trusted_sources with
      | .ok trusted => .ok (i, trusted)
      | .error e => .error (bytes "port " ++ decimal u.port ++ bytes ": " ++ e.reason)
  | _ => .error (bytes "port " ++ decimal u.port ++ bytes " matches multiple listeners")

def entry_error (u : JsListenerFailoverIngressHotConfig) : Option Bytes :=
  match ingress_entry C listeners u with
  | .ok _ => none
  | .error e => some e

def validate_ingress : Option (List JsListenerFailoverIngressHotConfig) → Except Error (List (Nat × SourceAllowlist))
  | none => .ok []
  | some updates =>
    let errors := updates.filterMap (entry_error C listeners)
    if errors ≠ [] then .error (join_errors errors)
    else .ok (updates.filterMap fun u => (ingress_entry C listeners u).toOption)

end Validate

/-! ## `update_config` -/

/-- The store of one protection update, `none` if its expectation fails. -/
def store_protection (listeners : List ListenerState) (port : Nat) (cfg : ProtectionConfig) :
    Option (List ListenerState) :=
  match listeners.zipIdx.find? fun e => e.1.port = port with
  | none => none
  | some (l, i) => if l.protection.isSome then some (write ListenerState.store_config listeners (i, cfg)) else none

/-- The store loop: whether it got through, and the listeners when it ended. -/
def store_protections : List (JsListenerProtectionHotConfig × ProtectionConfig) → List ListenerState →
    Bool × List ListenerState
  | [], listeners => (true, listeners)
  | (u, cfg) :: rest, listeners =>
    match store_protection listeners u.port cfg with
    | none => (false, listeners)
    | some listeners => store_protections rest listeners

section Update

variable {D : Type} [DecidableEq D] (C : Crates D) (conns : Nat → Bool)

/-- The table for the given routes, not live yet. -/
def new_route_table (routes : Option (List JsRouteConfig)) (s : SymphonyProxyWrap D) :
    Except Error (Option (RouteTable D)) × World D :=
  match routes with
  | none => (.ok none, s.world)
  | some routes =>
    match routes.mapM parse_route_spec with
    | .error e => (.error e, s.world)
    | .ok specs =>
      let r := build_route_table C conns s.default_listener_tls (some s.route_table) specs s.world
      (.ok (some r.1), r.2)

/-- The swap, with the sweep of the configs that neither the new table nor a connection has. -/
def swap (table : Option (RouteTable D)) (s : SymphonyProxyWrap D) : SymphonyProxyWrap D :=
  match table with
  | none => s
  | some table =>
    { s with
      route_table := table
      world := { s.world with cache := s.world.cache.retain_used fun arc => conns arc || table.holds arc } }

/-- What follows validation. -/
def apply_all (table : Option (RouteTable D)) (protection : List (JsListenerProtectionHotConfig × ProtectionConfig))
    (ingress : List (Nat × SourceAllowlist)) (s : SymphonyProxyWrap D) : Except Failure Unit × SymphonyProxyWrap D :=
  let s := swap conns table s
  match store_protections protection s.listener_states with
  | (false, listeners) => (.error (.panicked (bytes "validated above")), { s with listener_states := listeners })
  | (true, listeners) =>
    (.ok (), { s with listener_states := ingress.foldl (write ListenerState.set_trusted) listeners })

/-- `conns` says which configs connections hold. -/
def update_config (hot : JsHotConfig) (s : SymphonyProxyWrap D) : Except Failure Unit × SymphonyProxyWrap D :=
  match new_route_table C conns hot.routes s with
  | (.error e, world) => (.error (.err e), { s with world })
  | (.ok table, world) =>
    let s := { s with world }
    match validate_protection C s.listener_states hot.protection with
    | .error e => (.error (.err e), s)
    | .ok protection =>
      match validate_ingress C s.listener_states hot.failover_ingress with
      | .error e => (.error (.err e), s)
      | .ok ingress => apply_all conns table protection ingress s

end Update

/-! ## Named listeners -/

/-- The listener at `i` is the only one of its port, and passes `has`. -/
structure Named (has : ListenerState → Bool) (listeners : List ListenerState) (port i : Nat) : Prop where
  here : ∃ l, listeners[i]? = some l ∧ l.port = port ∧ has l = true
  only : ∀ k l, listeners[k]? = some l → l.port = port → k = i

section Named

variable {has : ListenerState → Bool} {listeners : List ListenerState} {port i : Nat}

theorem mem_matching {l : ListenerState} : (l, i) ∈ matching listeners port ↔ listeners[i]? = some l ∧
    l.port = port := by
  unfold matching
  rw [List.mem_filter, List.mem_zipIdx_iff_getElem?]
  simp

theorem named_of_matching {l : ListenerState} (h : matching listeners port = [(l, i)]) (hl : has l = true) :
    Named has listeners port i := by
  obtain ⟨hi, hp⟩ := mem_matching.1 (h ▸ List.mem_singleton_self (l, i))
  refine ⟨⟨l, hi, hp, hl⟩, ?_⟩
  intro k l' hk hp'
  have hm := mem_matching.2 ⟨hk, hp'⟩
  rw [h, List.mem_singleton] at hm
  exact congrArg Prod.snd hm

theorem Named.matching (h : Named has listeners port i) : ∃ l, matching listeners port = [(l, i)] ∧ has l = true := by
  obtain ⟨l, hi, hp, hl⟩ := h.here
  refine ⟨l, ?_, hl⟩
  have hmem := mem_matching.2 ⟨hi, hp⟩
  have hall : ∀ e ∈ Proxy.matching listeners port, e = (l, i) := by
    rintro ⟨l', k⟩ he
    obtain ⟨hk, hp'⟩ := mem_matching.1 he
    obtain rfl := h.only k l' hk hp'
    rw [hi] at hk
    cases hk
    rfl
  -- no position occurs twice
  have hnodup : (Proxy.matching listeners port).Nodup := by
    apply List.Nodup.filter
    apply List.Nodup.of_map Prod.snd
    rw [List.zipIdx_map_snd]
    exact List.nodup_range'
  rw [List.eq_replicate_of_mem hall] at hnodup hmem ⊢
  rw [List.nodup_replicate] at hnodup
  generalize (Proxy.matching listeners port).length = n at hnodup hmem ⊢
  match n with
  | 0 => cases hmem
  | 1 => rfl
  | n + 2 => omega

theorem Named.find (h : Named has listeners port i) :
    ∃ l, (listeners.zipIdx.find? fun e => e.1.port = port) = some (l, i) ∧ has l = true := by
  obtain ⟨l, hi, hp, hl⟩ := h.here
  refine ⟨l, ?_, hl⟩
  cases hf : listeners.zipIdx.find? fun e => decide (e.1.port = port) with
  | none =>
    have hnone := List.find?_eq_none.1 hf (l, i) (List.mem_zipIdx_iff_getElem?.2 hi)
    simp [hp] at hnone
  | some e =>
    obtain ⟨l', k⟩ := e
    have hk := List.mem_zipIdx_iff_getElem?.1 (List.mem_of_find?_eq_some hf)
    have hp' : l'.port = port := by simpa using List.find?_some hf
    obtain rfl := h.only k l' hk hp'
    rw [hi] at hk
    cases hk
    rfl

variable {ν : Type} {put : ν → ListenerState → ListenerState}

/-- A write that keeps ports leaves listeners named. -/
theorem Named.write (hput : ∀ v l, (put v l).port = l.port ∧ has (put v l) = has l) (h : Named has listeners port i)
    (w : Nat × ν) : Named has (write put listeners w) port i := by
  have hcase (l : ListenerState) (k : Nat) : (if w.1 = k then put w.2 l else l).port = l.port ∧
      has (if w.1 = k then put w.2 l else l) = has l := by
    split
    · exact hput w.2 l
    · exact ⟨rfl, rfl⟩
  obtain ⟨l, hi, hp, hl⟩ := h.here
  constructor
  · refine ⟨_, by rw [getElem?_write, hi]; rfl, (hcase l i).1.trans hp, (hcase l i).2.trans hl⟩
  · intro k l' hk hp'
    rw [getElem?_write] at hk
    obtain ⟨l₀, hk₀, rfl⟩ := Option.map_eq_some_iff.1 hk
    exact h.only k l₀ hk₀ ((hcase l₀ k).1.symm.trans hp')

/-- What validation establishes: each update names a listener and was read to what is
written there. -/
def Validated {α : Type} (has : ListenerState → Bool) (listeners : List ListenerState) (port : α → Nat)
    (parse : α → Except Error ν) (updates : List α) (ws : List (Nat × ν)) : Prop :=
  List.Forall₂ (fun u w => Named has listeners (port u) w.1 ∧ parse u = .ok w.2) updates ws

/-- The last write to a listener is what the last update of its port was read to. -/
theorem Validated.last {α : Type} {portOf : α → Nat} {parse : α → Except Error ν} {updates : List α}
    {ws : List (Nat × ν)}
    (h : Validated has listeners portOf parse updates ws) {l : ListenerState} (hl : listeners[i]? = some l) :
    Option.Rel (fun u v => parse u = .ok v ∧ has l = true) (last? (fun u => portOf u = l.port) updates)
      (lastWrite i ws) := by
  induction h with
  | nil => exact .none
  | @cons u w updates ws hu _ ih =>
    obtain ⟨hnamed, hparse⟩ := hu
    rw [last?_cons, lastWrite_cons]
    have hplace : w.1 = i ↔ portOf u = l.port := by
      constructor
      · rintro rfl
        obtain ⟨l', hl', hp, -⟩ := hnamed.here
        rw [hl] at hl'
        cases hl'
        exact hp.symm
      · intro hp
        exact (hnamed.only i l hl hp.symm).symm
    generalize last? (fun u => decide (portOf u = l.port)) updates = u' at ih ⊢
    generalize lastWrite i ws = v' at ih ⊢
    -- a later update of the port wins over this one
    cases ih with
    | some hr => exact .some hr
    | none =>
      by_cases hp : portOf u = l.port
      · rw [if_pos (hplace.2 hp), if_pos (decide_eq_true hp)]
        obtain ⟨l', hl', -, hhas⟩ := hnamed.here
        rw [hplace.2 hp, hl] at hl'
        cases hl'
        exact .some ⟨hparse, hhas⟩
      · rw [if_neg fun h => hp (hplace.1 h), if_neg (by simpa using hp)]
        exact .none

end Named

/-! ## What validation accepts -/

section Accepted

variable {D : Type} {C : Crates D} {listeners : List ListenerState}

def hasProtection (l : ListenerState) : Bool := l.protection.isSome

def hasIngress (l : ListenerState) : Bool := l.ingress.isSome

theorem protection_error_none {u : JsListenerProtectionHotConfig} (h : protection_error listeners u = none) :
    ∃ i, Named hasProtection listeners u.port i := by
  unfold protection_error at h
  split at h
  · cases h
  · rename_i single i hm
    split at h
    · cases h
    · rename_i hp
      refine ⟨i, named_of_matching hm ?_⟩
      unfold hasProtection
      cases hs : single.protection with
      | none => simp [hs] at hp
      | some st => rfl
  · cases h

/-- The updates of an accepted protection section, each with its place and what it was read to. -/
theorem validate_protection_ok {updates : Option (List JsListenerProtectionHotConfig)}
    {pairs : List (JsListenerProtectionHotConfig × ProtectionConfig)}
    (h : validate_protection C listeners updates = .ok pairs) :
    ∃ ws, Validated hasProtection listeners (·.port) (fun u => parse_protection_config C u.protection)
      (updates.getD []) ws ∧
      List.Forall₂ (fun (e : JsListenerProtectionHotConfig × ProtectionConfig) w =>
        Named hasProtection listeners e.1.port w.1 ∧ e.2 = w.2) pairs ws := by
  cases updates with
  | none =>
    cases h
    exact ⟨[], .nil, .nil⟩
  | some updates =>
    unfold validate_protection at h
    dsimp only at h
    split at h
    · cases h
    · rename_i herrors
      have hvalid : ∀ u ∈ updates, protection_error listeners u = none := List.filterMap_eq_nil_iff.1
        (not_not.1 herrors)
      cases hm : updates.mapM fun u => parse_protection_config C u.protection with
      | error e =>
        rw [hm] at h
        cases h
      | ok parsed =>
        rw [hm] at h
        cases h
        have hparsed := forall₂_of_mapM hm
        clear hm herrors
        -- the parsed configs go with the updates one by one
        induction hparsed with
        | nil => exact ⟨[], .nil, .nil⟩
        | @cons u cfg updates parsed hcfg _ ih =>
          obtain ⟨i, hnamed⟩ := protection_error_none (hvalid u List.mem_cons_self)
          obtain ⟨ws, hws, hpairs⟩ := ih fun u hu => hvalid u (List.mem_cons_of_mem _ hu)
          exact ⟨(i, cfg) :: ws, .cons ⟨hnamed, hcfg⟩ hws, .cons ⟨hnamed, rfl⟩ hpairs⟩

theorem ingress_entry_ok {u : JsListenerFailoverIngressHotConfig} {w : Nat × SourceAllowlist}
    (h : ingress_entry C listeners u = .ok w) :
    Named hasIngress listeners u.port w.1 ∧ parse_trusted_sources C u.trusted_sources = .ok w.2 := by
  unfold ingress_entry at h
  split at h
  · cases h
  · rename_i single i hm
    split at h
    · cases h
    · rename_i st hst
      split at h
      · rename_i trusted ht
        cases h
        refine ⟨named_of_matching hm ?_, ht⟩
        unfold hasIngress
        rw [hst]
        rfl
      · cases h
  · cases h

theorem entry_error_none {u : JsListenerFailoverIngressHotConfig} (h : entry_error C listeners u = none) :
    ∃ w, ingress_entry C listeners u = .ok w := by
  unfold entry_error at h
  cases he : ingress_entry C listeners u with
  | ok w => exact ⟨w, rfl⟩
  | error e =>
    rw [he] at h
    cases h

theorem validate_ingress_ok {updates : Option (List JsListenerFailoverIngressHotConfig)}
    {ws : List (Nat × SourceAllowlist)} (h : validate_ingress C listeners updates = .ok ws) :
    Validated hasIngress listeners (·.port) (fun u => parse_trusted_sources C u.trusted_sources)
      (updates.getD []) ws := by
  cases updates with
  | none =>
    cases h
    exact .nil
  | some updates =>
    unfold validate_ingress at h
    dsimp only at h
    split at h
    · cases h
    · rename_i herrors
      have hvalid : ∀ u ∈ updates, entry_error C listeners u = none := List.filterMap_eq_nil_iff.1 (not_not.1 herrors)
      cases h
      clear herrors
      induction updates with
      | nil => exact .nil
      | cons u updates ih =>
        obtain ⟨w, hw⟩ := entry_error_none (hvalid u List.mem_cons_self)
        rw [List.filterMap_cons_some (by rw [hw]; rfl)]
        exact .cons (ingress_entry_ok hw) (ih fun u hu => hvalid u (List.mem_cons_of_mem _ hu))

theorem protection_error_of_named {listeners : List ListenerState} {u : JsListenerProtectionHotConfig} {i : Nat}
    (h : Named hasProtection listeners u.port i) : protection_error listeners u = none := by
  obtain ⟨l, hm, hl⟩ := h.matching
  unfold protection_error
  rw [hm]
  unfold hasProtection at hl
  simp [← Option.not_isSome, hl]

theorem ingress_entry_of_named {listeners : List ListenerState} {u : JsListenerFailoverIngressHotConfig} {i : Nat}
    {trusted : SourceAllowlist} (h : Named hasIngress listeners u.port i)
    (ht : parse_trusted_sources C u.trusted_sources = .ok trusted) :
    ingress_entry C listeners u = .ok (i, trusted) := by
  obtain ⟨l, hm, hl⟩ := h.matching
  obtain ⟨st, hst⟩ := Option.isSome_iff_exists.1 hl
  unfold ingress_entry
  rw [hm]
  dsimp only
  rw [hst]
  dsimp only
  rw [ht]

end Accepted

/-! ## What the stores leave -/

section Stores

variable {listeners : List ListenerState}

theorem store_config_keeps (cfg : ProtectionConfig) (l : ListenerState) :
    (l.store_config cfg).port = l.port ∧ hasProtection (l.store_config cfg) = hasProtection l :=
  ⟨rfl, Option.isSome_map⟩

theorem store_config_twice (cfg cfg' : ProtectionConfig) (l : ListenerState) :
    (l.store_config cfg').store_config cfg = l.store_config cfg := by
  unfold ListenerState.store_config
  cases l.protection <;> rfl

theorem set_trusted_twice (trusted trusted' : SourceAllowlist) (l : ListenerState) :
    (l.set_trusted trusted').set_trusted trusted = l.set_trusted trusted := by
  unfold ListenerState.set_trusted
  cases l.ingress <;> rfl

/-- After validation the store loop meets its expectation, and writes to the named listeners. -/
theorem store_protections_eq {pairs : List (JsListenerProtectionHotConfig × ProtectionConfig)}
    {ws : List (Nat × ProtectionConfig)}
    (h : List.Forall₂ (fun (e : JsListenerProtectionHotConfig × ProtectionConfig) w =>
      Named hasProtection listeners e.1.port w.1 ∧ e.2 = w.2) pairs ws) :
    store_protections pairs listeners = (true, ws.foldl (write ListenerState.store_config) listeners) := by
  induction pairs generalizing listeners ws with
  | nil =>
    cases h
    rfl
  | cons e pairs ih =>
    obtain ⟨u, cfg⟩ := e
    cases h with
    | @cons _ w _ ws hw hrest =>
      obtain ⟨i, cfg'⟩ := w
      obtain ⟨hnamed, rfl⟩ := hw
      obtain ⟨l, hfind, hl⟩ := hnamed.find
      have hstore : store_protection listeners u.port cfg =
        some (write ListenerState.store_config listeners (i, cfg)) := by
        unfold store_protection
        rw [hfind]
        exact if_pos hl
      rw [store_protections, hstore, List.foldl_cons]
      -- the names of the later updates survive this store
      apply ih
      apply hrest.imp
      rintro e w ⟨hn, he⟩
      exact ⟨hn.write store_config_keeps _, he⟩

end Stores

/-! ## All or nothing -/

/-- What the last update of its port, if any, makes of a listener's protection. -/
def ConfigGiven {D : Type} (C : Crates D) (u : Option JsListenerProtectionHotConfig)
    (before after : Option ProtectionState) :
    Prop :=
  match u with
  | none => after = before
  | some u => ∃ st cfg, before = some st ∧ parse_protection_config C u.protection = .ok cfg ∧
      after = some { st with config := cfg }

/-- What the last update of its port, if any, makes of a listener's trusted list. -/
def TrustedGiven {D : Type} (C : Crates D) (u : Option JsListenerFailoverIngressHotConfig)
    (before after : Option IngressState) : Prop :=
  match u with
  | none => after = before
  | some u => ∃ st trusted, before = some st ∧ parse_trusted_sources C u.trusted_sources = .ok trusted ∧
      after = some { st with trusted }

/-- The update took effect as a whole. The live table is the one for the given routes, and
every listener has what the last updates of its port say, or what it had. An update's port
is that of exactly one listener. -/
structure Applied {D : Type} [DecidableEq D] (C : Crates D) (conns : Nat → Bool) (hot : JsHotConfig)
    (s s' : SymphonyProxyWrap D) : Prop where
  routes_kept : hot.routes = none → s'.route_table = s.route_table
  routes_built : ∀ routes, hot.routes = some routes → ∃ specs, routes.mapM parse_route_spec = .ok specs ∧
    s'.route_table = (build_route_table C conns s.default_listener_tls (some s.route_table) specs s.world).1
  protection_named : ∀ u ∈ hot.protection.getD [], ∃ i, Named hasProtection s.listener_states u.port i
  ingress_named : ∀ u ∈ hot.failover_ingress.getD [], ∃ i, Named hasIngress s.listener_states u.port i
  size : s'.listener_states.length = s.listener_states.length
  listener : ∀ (i : Nat) (l : ListenerState), s.listener_states[i]? = some l → ∃ l' : ListenerState,
    s'.listener_states[i]? = some l' ∧ l'.port = l.port ∧
    ConfigGiven C (last? (fun u => u.port = l.port) (hot.protection.getD [])) l.protection l'.protection ∧
    TrustedGiven C (last? (fun u => u.port = l.port) (hot.failover_ingress.getD [])) l.ingress l'.ingress

section Result

theorem Validated.named {α ν : Type} {has : ListenerState → Bool} {listeners : List ListenerState} {portOf : α → Nat}
    {parse : α → Except Error ν} {updates : List α} {ws : List (Nat × ν)}
    (h : Validated has listeners portOf parse updates ws) : ∀ u ∈ updates, ∃ i, Named has listeners (portOf u) i := by
  induction h with
  | nil =>
    intro u hu
    cases hu
  | @cons u w updates ws hu _ ih =>
    intro u' hu'
    rcases List.mem_cons.1 hu' with rfl | hu'
    · exact ⟨w.1, hu.1⟩
    · exact ih u' hu'

variable {D : Type} {C : Crates D}

theorem config_given {u : Option JsListenerProtectionHotConfig} {v : Option ProtectionConfig} {l : ListenerState}
    (h : Option.Rel (fun u v => parse_protection_config C u.protection = .ok v ∧ hasProtection l = true) u v) :
    ConfigGiven C u l.protection (v.elim l fun cfg => l.store_config cfg).protection := by
  cases h with
  | none => rfl
  | some hr =>
    obtain ⟨hparse, hhas⟩ := hr
    obtain ⟨st, hst⟩ := Option.isSome_iff_exists.1 hhas
    refine ⟨st, _, hst, hparse, ?_⟩
    change l.protection.map _ = _
    rw [hst]
    rfl

theorem trusted_given {u : Option JsListenerFailoverIngressHotConfig} {v : Option SourceAllowlist} {l : ListenerState}
    (h : Option.Rel (fun u v => parse_trusted_sources C u.trusted_sources = .ok v ∧ hasIngress l = true) u v) :
    TrustedGiven C u l.ingress (v.elim l fun trusted => l.set_trusted trusted).ingress := by
  cases h with
  | none => rfl
  | some hr =>
    obtain ⟨hparse, hhas⟩ := hr
    obtain ⟨st, hst⟩ := Option.isSome_iff_exists.1 hhas
    refine ⟨st, _, hst, hparse, ?_⟩
    change l.ingress.map _ = _
    rw [hst]
    rfl

/-- The listeners after both store loops. -/
theorem stored_listener {listeners : List ListenerState} {protection : List JsListenerProtectionHotConfig}
    {ingress : List JsListenerFailoverIngressHotConfig} {ws : List (Nat × ProtectionConfig)}
    {ts : List (Nat × SourceAllowlist)}
    (hp : Validated hasProtection listeners (·.port) (fun u => parse_protection_config C u.protection) protection ws)
    (hi : Validated hasIngress listeners (·.port) (fun u => parse_trusted_sources C u.trusted_sources) ingress ts)
    {i : Nat} {l : ListenerState} (hl : listeners[i]? = some l) :
    ∃ l' : ListenerState, (ts.foldl (write ListenerState.set_trusted)
        (ws.foldl (write ListenerState.store_config) listeners))[i]? = some l' ∧ l'.port = l.port ∧
      ConfigGiven C (last? (fun u => u.port = l.port) protection) l.protection l'.protection ∧
      TrustedGiven C (last? (fun u => u.port = l.port) ingress) l.ingress l'.ingress := by
  have hconfig := config_given (hp.last hl)
  have htrusted := trusted_given (hi.last hl)
  refine ⟨_, by rw [getElem?_writes set_trusted_twice, getElem?_writes store_config_twice, hl]; rfl, ?_⟩
  -- each store changes its own part of the listener
  generalize lastWrite i ws = cfg at hconfig ⊢
  generalize lastWrite i ts = trusted at htrusted ⊢
  cases cfg <;> cases trusted <;> exact ⟨rfl, hconfig, htrusted⟩

variable [DecidableEq D] {conns : Nat → Bool}

theorem swap_listeners (table : Option (RouteTable D)) (s : SymphonyProxyWrap D) :
    (swap conns table s).listener_states = s.listener_states := by
  cases table <;> rfl

/-- What an update can come to: an error before any store, or all stores. -/
theorem update_config_cases (C : Crates D) (conns : Nat → Bool) (hot : JsHotConfig) (s : SymphonyProxyWrap D) :
    (∃ e world, update_config C conns hot s = (.error (.err e), { s with world })) ∨
    ∃ table world ws ts, new_route_table C conns hot.routes s = (.ok table, world) ∧
      Validated hasProtection s.listener_states (·.port) (fun u => parse_protection_config C u.protection)
        (hot.protection.getD []) ws ∧
      Validated hasIngress s.listener_states (·.port) (fun u => parse_trusted_sources C u.trusted_sources)
        (hot.failover_ingress.getD []) ts ∧
      update_config C conns hot s = (.ok (), { swap conns table { s with world } with
        listener_states := ts.foldl (write ListenerState.set_trusted)
          (ws.foldl (write ListenerState.store_config) s.listener_states) }) := by
  unfold update_config
  cases new_route_table C conns hot.routes s with
  | mk table world =>
    cases table with
    | error e => exact .inl ⟨e, world, rfl⟩
    | ok table =>
      dsimp only
      cases hp : validate_protection C s.listener_states hot.protection with
      | error e => exact .inl ⟨e, world, rfl⟩
      | ok protection =>
        dsimp only
        cases hi : validate_ingress C s.listener_states hot.failover_ingress with
        | error e => exact .inl ⟨e, world, rfl⟩
        | ok ts =>
          obtain ⟨ws, hws, hpairs⟩ := validate_protection_ok hp
          refine .inr ⟨table, world, ws, ts, rfl, hws, validate_ingress_ok hi, ?_⟩
          unfold apply_all
          dsimp only
          rw [swap_listeners, store_protections_eq hpairs]

/-- An update whose parts can all be read is accepted exactly if each port it names is that
of one listener, with protection or as an ingress. -/
theorem update_config_ok_iff {hot : JsHotConfig} {s : SymphonyProxyWrap D}
    (hroutes : ∀ r ∈ hot.routes.getD [], ∃ spec, parse_route_spec r = .ok spec)
    (hprotection : ∀ u ∈ hot.protection.getD [], ∃ cfg, parse_protection_config C u.protection = .ok cfg)
    (htrusted : ∀ u ∈ hot.failover_ingress.getD [], ∃ trusted, parse_trusted_sources C u.trusted_sources = .ok
    trusted) :
    (update_config C conns hot s).1 = .ok () ↔
      (∀ u ∈ hot.protection.getD [], ∃ i, Named hasProtection s.listener_states u.port i) ∧
      ∀ u ∈ hot.failover_ingress.getD [], ∃ i, Named hasIngress s.listener_states u.port i := by
  constructor
  · intro hok
    rcases update_config_cases C conns hot s with ⟨e, world, hr⟩ | ⟨table, world, ws, ts, -, hws, hts, -⟩
    · rw [hr] at hok
      cases hok
    · exact ⟨hws.named, hts.named⟩
  · rintro ⟨hnamed, hingress⟩
    obtain ⟨table, world, htable⟩ : ∃ table world, new_route_table C conns hot.routes s = (.ok table, world) := by
      cases hr : hot.routes with
      | none => exact ⟨none, s.world, rfl⟩
      | some routes =>
        rw [hr] at hroutes
        obtain ⟨specs, hspecs⟩ := mapM_ok (l := routes) hroutes
        simp only [new_route_table, hspecs]
        exact ⟨_, _, rfl⟩
    obtain ⟨pairs, hpairs⟩ : ∃ pairs, validate_protection C s.listener_states hot.protection = .ok pairs := by
      cases hp : hot.protection with
      | none => exact ⟨[], rfl⟩
      | some updates =>
        rw [hp] at hprotection hnamed
        have herrors : updates.filterMap (protection_error s.listener_states) = [] := by
          rw [List.filterMap_eq_nil_iff]
          intro u hu
          obtain ⟨i, hi⟩ := hnamed u hu
          exact protection_error_of_named hi
        obtain ⟨parsed, hparsed⟩ := mapM_ok (l := updates) hprotection
        refine ⟨updates.zip parsed, ?_⟩
        unfold validate_protection
        dsimp only
        rw [if_neg (not_not.2 herrors)]
        exact congrArg (fun x => x >>= fun parsed => pure (updates.zip parsed)) hparsed
    obtain ⟨ts, hts⟩ : ∃ ts, validate_ingress C s.listener_states hot.failover_ingress = .ok ts := by
      cases hp : hot.failover_ingress with
      | none => exact ⟨[], rfl⟩
      | some updates =>
        rw [hp] at htrusted hingress
        have herrors : updates.filterMap (entry_error C s.listener_states) = [] := by
          rw [List.filterMap_eq_nil_iff]
          intro u hu
          obtain ⟨i, hi⟩ := hingress u hu
          obtain ⟨trusted, ht⟩ := htrusted u hu
          unfold entry_error
          rw [ingress_entry_of_named hi ht]
        unfold validate_ingress
        dsimp only
        rw [if_neg (not_not.2 herrors)]
        exact ⟨_, rfl⟩
    -- no error is left that the update could end in
    rcases update_config_cases C conns hot s with ⟨e, world', hr⟩ | ⟨_, _, _, _, -, -, -, hr⟩
    · unfold update_config at hr
      rw [htable] at hr
      dsimp only at hr
      rw [hpairs] at hr
      dsimp only at hr
      rw [hts] at hr
      obtain ⟨ws, hws, hforall⟩ := validate_protection_ok hpairs
      dsimp only [apply_all] at hr
      rw [swap_listeners, store_protections_eq hforall] at hr
      cases hr
    · rw [hr]

theorem swap_none {routes : Option (List JsRouteConfig)} {table : Option (RouteTable D)} {s : SymphonyProxyWrap D}
    {world : World D} (h : new_route_table C conns routes s = (.ok table, world)) (hr : routes = none) :
    (swap conns table { s with world }).route_table = s.route_table := by
  subst hr
  cases h
  rfl

theorem swap_built {routes : Option (List JsRouteConfig)} {table : Option (RouteTable D)} {s : SymphonyProxyWrap D}
    {world : World D} (h : new_route_table C conns routes s = (.ok table, world)) {given : List JsRouteConfig}
    (hr : routes = some given) :
    ∃ specs, given.mapM parse_route_spec = .ok specs ∧ (swap conns table { s with world }).route_table =
      (build_route_table C conns s.default_listener_tls (some s.route_table) specs s.world).1 := by
  subst hr
  unfold new_route_table at h
  dsimp only at h
  cases hm : given.mapM parse_route_spec with
  | error e =>
    rw [hm] at h
    cases h
  | ok specs =>
    rw [hm] at h
    cases h
    exact ⟨specs, rfl, rfl⟩

end Result

/-- An update takes effect as a whole or not at all, and the store loop's expectation is
never violated. After an error, the live table and every listener are what they were. -/
theorem update_config_all_or_nothing {D : Type} [DecidableEq D] (C : Crates D) (conns : Nat → Bool) (hot : JsHotConfig)
    (s : SymphonyProxyWrap D) :
    let r := update_config C conns hot s
    (∀ e, r.1 = .error (.err e) → r.2.route_table = s.route_table ∧ r.2.listener_states = s.listener_states) ∧
    (r.1 = .ok () → Applied C conns hot s r.2) ∧
    ∀ text, r.1 ≠ .error (.panicked text) := by
  intro r
  rcases update_config_cases C conns hot s with ⟨e, world, hr⟩ | ⟨table, world, ws, ts, htable, hws, hts, hr⟩
  · have hr : r = (.error (.err e), { s with world }) := hr
    rw [hr]
    refine ⟨fun _ _ => ⟨rfl, rfl⟩, ?_, ?_⟩
    · rintro ⟨⟩
    · rintro text ⟨⟩
  · have hr : r = (.ok (), { swap conns table { s with world } with
        listener_states := ts.foldl (write ListenerState.set_trusted)
          (ws.foldl (write ListenerState.store_config) s.listener_states) }) := hr
    rw [hr]
    refine ⟨?_, fun _ => ⟨?_, ?_, hws.named, hts.named, ?_, ?_⟩, ?_⟩
    · rintro e ⟨⟩
    · exact swap_none htable
    · intro routes hroutes
      exact swap_built htable hroutes
    · exact (length_writes _ ts _).trans (length_writes _ ws _)
    · intro i l hl
      exact stored_listener hws hts hl
    · rintro text ⟨⟩

/-- Two updates of one port, and an update of a port that no listener has. -/
example :
    let s : SymphonyProxyWrap (Option Bytes) := ⟨{}, {}, [⟨443, some (.new {}), none⟩], ⟨{}, {}⟩⟩
    let limit (n : Nat) : JsListenerProtectionHotConfig := ⟨443, { max_concurrent_per_ip := some n }⟩
    let run (updates : List JsListenerProtectionHotConfig) :=
      update_config Router.literalCrates (fun _ => false) { protection := some updates } s
    ((run [limit 5, limit 7]).2.listener_states.map fun l => l.protection.map (·.config.max_concurrent_per_ip)) =
    [some 7] ∧
      (run [limit 5, ⟨80, {}⟩]).1 = .error (.err ⟨bytes "port 80 matches no listener", none⟩) := by
  decide +kernel

end Symphony.Proxy
