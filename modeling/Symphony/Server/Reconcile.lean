import Symphony.Lib.Prog
import Symphony.Lib.Table
import Symphony.Server.Config
/-!
# Reconciling the running proxies with the config

`doReconcile` goes through the entries of the config: an entry with the signature of the
running proxy of its port set is swapped in, any other is started, and the proxy it
replaces is stopped after that. An entry that fails is skipped. Then the proxies that no
entry names any more are stopped, unless a skipped entry may be what replaces them.

Constructing, starting, stopping and updating a proxy are operations; the native layer
answers them (`performs`). A start binds every listener or none, an update takes effect as
a whole or not at all, and a stop always ends well.
-/

namespace Symphony.Server

open Lib (Prog Table)
open Lib.Prog (Always Reached)

/-! ## The program -/

structure HotConfig where
  routes : List RouteConfig
  protection : List (Nat × Bytes)
  failoverIngress : List (Nat × Bytes)
  deriving DecidableEq, Repr

/-- What the server asks of `SymphonyProxy`; a proxy is known by a number. -/
inductive Op where
  | create (config : ProxyConfig)
  | start (proxy : Nat)
  | stop (proxy : Nat)
  | updateConfig (proxy : Nat) (hot : HotConfig)

def Ans : Op → Type
  | .create _ => Except Bytes Nat
  | .start _ => Except Bytes Unit
  | .stop _ => Unit
  | .updateConfig _ _ => Except Bytes Unit

/-- The body of a `try`: an error is its text. -/
abbrev Attempt := ExceptT Bytes (Prog Op Ans Empty)

def create (config : ProxyConfig) : Attempt Nat := ExceptT.mk (Prog.perform (Op.create config))

def start (proxy : Nat) : Attempt Unit := ExceptT.mk (Prog.perform (Op.start proxy))

def stop (proxy : Nat) : Prog Op Ans Empty Unit := Prog.perform (Op.stop proxy)

def updateConfig (proxy : Nat) (hot : HotConfig) : Attempt Unit := ExceptT.mk (Prog.perform (Op.updateConfig proxy hot))

structure ActiveProxy where
  proxy : Nat
  constructionSig : ConstructionSig
  endpoints : List Bytes
  deriving DecidableEq, Repr

abbrev Active := Table Bytes ActiveProxy

def hotConfig (config : ProxyConfig) : HotConfig where
  routes := config.routes
  protection := config.listeners.filterMap fun l => l.protection.map fun p => (l.port, p)
  failoverIngress := config.listeners.filterMap fun l => l.failoverIngress.map fun i => (l.port, i)

/-- A new proxy is bound before the one it replaces is stopped. -/
def recreate (active : Active) (key : Bytes) (config : ProxyConfig) : Attempt Active := do
  let proxy ← create config
  start proxy
  match active.lookup key with
  | none => pure ()
  | some existing => ExceptT.lift (stop existing.proxy)
  return active.insert key ⟨proxy, constructionSig config, config.listeners.map (·.endpoint)⟩

/-- The running proxy of the same construction takes the new routes and settings. -/
def hotSwap (active : Active) (existing : ActiveProxy) (config : ProxyConfig) : Attempt Active := do
  updateConfig existing.proxy (hotConfig config)
  return active

def applyConfig (active : Active) (key : Bytes) (config : ProxyConfig) : Attempt Active :=
  match (active.lookup key).filter fun existing => existing.constructionSig = constructionSig config with
  | some existing => hotSwap active existing config
  | none => recreate active key config

/-- The `try` of an entry. -/
def reconfigure (files : Files) (active : Active) (key : Bytes) (spec : FileProxyConfig) : Attempt Active := do
  let config ← ExceptT.mk (pure (toProxyConfig files spec))
  applyConfig active key config

/-- The locals of `doReconcile`. -/
structure Reconciling where
  active : Active
  seen : List Bytes := []
  failed : List FileProxyConfig := []
  unidentifiedEntry : Bool := false

/-- The key of an entry that `namesPortSet`. -/
def FileProxyConfig.key (spec : FileProxyConfig) : Bytes := portKey ((spec.listeners.getD []).map (·.number))

/-- One entry. `files n` is what the files hold when entry `n` is resolved. -/
def reconcileEntry (files : Nat → Files) (l : Reconciling) (entry : FileProxyConfig × Nat) :
    Prog Op Ans Empty Reconciling := do
  let spec := entry.1
  if !namesPortSet spec then
    return { l with failed := l.failed ++ [spec], unidentifiedEntry := true }
  else
    match ← (reconfigure (files entry.2) l.active spec.key spec).run with
    | .ok active => return { l with active, seen := l.seen ++ [spec.key] }
    | .error _ => return { l with seen := l.seen ++ [spec.key], failed := l.failed ++ [spec] }

/-- Whether the removal pass spares a proxy: an entry has its key, or a skipped entry may be
what replaces it. -/
def Reconciling.spares (l : Reconciling) (key : Bytes) : Bool :=
  l.seen.contains key || l.unidentifiedEntry || (keyPorts key).any fun port => (listenerPorts l.failed).contains port

def removeEntry (l : Reconciling) (active : Active) (entry : Bytes × ActiveProxy) : Prog Op Ans Empty Active := do
  if l.spares entry.1 then
    return active
  else
    stop entry.2.proxy
    return active.erase entry.1

structure ServerState where
  active : Active := ∅
  appliedGeneration : Option Bytes := none
  failedGeneration : Option (Bytes × List Nat) := none

/-- What is published of a reload. -/
def publish (s : ServerState) (generation : Option Bytes) (failed : List FileProxyConfig) : ServerState :=
  match generation with
  | none => { s with appliedGeneration := none, failedGeneration := none }
  | some generation =>
    if failed ≠ [] then { s with failedGeneration := some (generation, listenerPorts failed) }
    else { s with appliedGeneration := some generation, failedGeneration := none }

/-- `doReconcile` with what `readConfig` returned, up to the status file. The result is the
new state and the entries that were skipped. -/
def doReconcile (files : Nat → Files) (s : ServerState) : Option ConfigFile →
    Prog Op Ans Empty (ServerState × List FileProxyConfig)
  | none => return (s, [])
  | some config => do
    let l ← config.proxies.zipIdx.foldlM (reconcileEntry files) { active := s.active }
    let active ← (l.active.entries.map fun e => (e.1, e.2)).foldlM (removeEntry l) l.active
    return (publish { s with active } config.generation l.failed, l.failed)

/-! ## The native layer -/

/-- A proxy that was constructed, with the listeners it was given. It binds the ports as the
addon reads them. -/
structure Instance where
  listeners : List ListenerConfig
  routes : List RouteConfig
  running : Bool
  deriving DecidableEq, Repr

/-- The proxies that were constructed, by their numbers. -/
structure Native where
  next : Nat := 0
  instances : Nat → Option Instance := fun _ => none

namespace Native

def modify (w : Native) (proxy : Nat) (f : Instance → Instance) : Native :=
  { w with instances := Function.update w.instances proxy ((w.instances proxy).map f) }

def performs : (o : Op) → Native → Ans o → Native → Prop
  | .create config => fun w (answer : Except Bytes Nat) w' =>
    match answer with
    | .error _ => w' = w
    | .ok proxy => proxy = w.next ∧
        w' = ⟨w.next + 1, Function.update w.instances w.next (some ⟨config.listeners, config.routes, false⟩)⟩
  | .start proxy => fun w (answer : Except Bytes Unit) w' =>
    match answer with
    | .error _ => w' = w
    | .ok () => w' = w.modify proxy fun i => { i with running := true }
  | .stop proxy => fun w _ w' => w' = w.modify proxy fun i => { i with running := false }
  | .updateConfig proxy hot => fun w (answer : Except Bytes Unit) w' =>
    match answer with
    | .error _ => w' = w
    | .ok () => w' = w.modify proxy fun i => { i with routes := hot.routes }

variable (w : Native)

/-- A running proxy has bound the port. -/
def ServesPort (port : Nat) : Prop :=
  ∃ proxy i, w.instances proxy = some i ∧ i.running = true ∧ port ∈ i.listeners.map fun l => u16 l.port

/-- A running proxy has bound the endpoint. -/
def Binds (endpoint : Bytes) : Prop :=
  ∃ proxy i, w.instances proxy = some i ∧ i.running = true ∧ endpoint ∈ i.listeners.map (·.bound)

/-- A running proxy has bound the endpoint, with these routes. -/
def BindsWith (endpoint : Bytes) (routes : List RouteConfig) : Prop :=
  ∃ proxy i, w.instances proxy = some i ∧ i.running = true ∧ endpoint ∈ i.listeners.map (·.bound) ∧ i.routes = routes

end Native

/-! ## What the active proxies are -/

/-- The instance of an active proxy. -/
structure Instance.For (i : Instance) (key : Bytes) (a : ActiveProxy) : Prop where
  running : i.running = true
  named : i.listeners ≠ []
  key : key = portKey (i.listeners.map (·.port))
  sig : a.constructionSig.listeners.map (fun l => (l.host, l.port)) = i.listeners.map fun l => (l.host, l.port)

/-- The running proxies are the active ones, each under the key of its ports. -/
structure Serving (active : Active) (w : Native) : Prop where
  serves : ∀ k a, active.lookup k = some a → ∃ i, w.instances a.proxy = some i ∧ i.For k a
  distinct : ∀ k k' a a', active.lookup k = some a → active.lookup k' = some a' → a.proxy = a'.proxy → k = k'
  allocated : ∀ n i, w.instances n = some i → n < w.next
  only : ∀ n i, w.instances n = some i → i.running = true → ∃ k a, active.lookup k = some a ∧ a.proxy = n

theorem serving_empty : Serving ∅ {} := by
  refine ⟨?_, ?_, ?_, ?_⟩
  · intro k a ha
    cases ha
  · intro k k' a a' ha
    cases ha
  · intro n i hi
    cases hi
  · intro n i hi
    cases hi

/-- A running proxy has the ports of the key. -/
def Native.ServesKey (w : Native) (key : Bytes) : Prop :=
  ∃ n i, w.instances n = some i ∧ i.running = true ∧ i.listeners ≠ [] ∧ key = portKey (i.listeners.map (·.port))

/-- What is served under a key: the endpoints and the routes. -/
def shown (active : Active) (w : Native) (key : Bytes) : Option (List Bytes × List RouteConfig) :=
  (active.lookup key).bind fun a => (w.instances a.proxy).map fun i => (i.listeners.map (·.bound), i.routes)

@[simp] theorem modify_self (w : Native) (n : Nat) (f : Instance → Instance) :
    (w.modify n f).instances n = (w.instances n).map f := Function.update_self ..

theorem modify_ne (w : Native) {n m : Nat} (h : m ≠ n) (f : Instance → Instance) :
    (w.modify n f).instances m = w.instances m := Function.update_of_ne h ..

@[simp] theorem modify_next (w : Native) (n : Nat) (f : Instance → Instance) : (w.modify n f).next = w.next := rfl

section Serving

variable {active : Active} {w w' : Native} {key : Bytes}

variable {a : ActiveProxy} {i : Instance} {n : Nat}

section

variable (h : Serving active w)

include h

theorem Serving.servesKey (ha : active.lookup key = some a) :
    w.ServesKey key := by
  obtain ⟨i, hi, hfor⟩ := h.serves key a ha
  exact ⟨a.proxy, i, hi, hfor.running, hfor.named, hfor.key⟩

theorem Serving.shown_isSome (key : Bytes) :
    (shown active w key).isSome = (active.lookup key).isSome := by
  unfold shown
  cases ha : active.lookup key with
  | none => rfl
  | some a =>
    obtain ⟨i, hi, -⟩ := h.serves key a ha
    rw [Option.bind_some, hi]
    rfl

theorem Serving.lt_next (ha : active.lookup key = some a) :
    a.proxy < w.next := by
  obtain ⟨i, hi, -⟩ := h.serves key a ha
  exact h.allocated _ i hi

/-- A proxy that was constructed and does not run changes nothing. -/
theorem Serving.idle (hi : i.running = false) :
    Serving active ⟨w.next + 1, Function.update w.instances w.next (some i)⟩ ∧
      shown active ⟨w.next + 1, Function.update w.instances w.next (some i)⟩ = shown active w := by
  have hold {k : Bytes} {a : ActiveProxy} (ha : active.lookup k = some a) :
      Function.update w.instances w.next (some i) a.proxy = w.instances a.proxy :=
    Function.update_of_ne (Nat.ne_of_lt (h.lt_next ha)) ..
  refine ⟨⟨?_, h.distinct, ?_, ?_⟩, ?_⟩
  · intro k a ha
    dsimp only
    rw [hold ha]
    exact h.serves k a ha
  · intro n j hj
    dsimp only at hj ⊢
    by_cases hn : n = w.next
    · omega
    · rw [Function.update_of_ne hn] at hj
      exact Nat.lt_succ_of_lt (h.allocated n j hj)
  · intro n j hj hrun
    dsimp only at hj
    by_cases hn : n = w.next
    · rw [hn, Function.update_self] at hj
      cases hj
      rw [hi] at hrun
      cases hrun
    · rw [Function.update_of_ne hn] at hj
      exact h.only n j hj hrun
  · funext k
    unfold shown
    cases ha : active.lookup k with
    | none => rfl
    | some a =>
      rw [Option.bind_some, Option.bind_some]
      dsimp only
      rw [hold ha]

/-- New routes for the proxy of a key. -/
theorem Serving.swap (ha : active.lookup key = some a) (hi : w.instances a.proxy = some i)
    (hfor : i.For key a) (routes : List RouteConfig) :
    Serving active (w.modify a.proxy fun i => { i with routes }) ∧
      shown active (w.modify a.proxy fun i => { i with routes }) =
        Function.update (shown active w) key (some (i.listeners.map (·.bound), routes)) := by
  have hother {k : Bytes} {a' : ActiveProxy} (ha' : active.lookup k = some a') (hk : k ≠ key) : a'.proxy ≠ a.proxy :=
    fun heq => hk (h.distinct k key a' a ha' ha heq)
  refine ⟨⟨?_, h.distinct, ?_, ?_⟩, ?_⟩
  · intro k a' ha'
    by_cases hk : k = key
    · subst hk
      rw [ha] at ha'
      cases ha'
      refine ⟨{ i with routes }, by rw [modify_self, hi]; rfl, ?_⟩
      exact ⟨hfor.running, hfor.named, hfor.key, hfor.sig⟩
    · rw [modify_ne w (hother ha' hk)]
      exact h.serves k a' ha'
  · intro n j hj
    by_cases hn : n = a.proxy
    · rw [hn]
      exact h.allocated a.proxy i hi
    · rw [modify_ne w hn] at hj
      exact h.allocated n j hj
  · intro n j hj hrun
    by_cases hn : n = a.proxy
    · exact ⟨key, a, ha, hn.symm⟩
    · rw [modify_ne w hn] at hj
      exact h.only n j hj hrun
  · funext k
    by_cases hk : k = key
    · subst hk
      rw [Function.update_self]
      simp [shown, ha, hi]
    · rw [Function.update_of_ne hk]
      unfold shown
      cases ha' : active.lookup k with
      | none => rfl
      | some a' => rw [Option.bind_some, Option.bind_some, modify_ne w (hother ha' hk)]

end

/-- The proxies once a new one runs. -/
def Native.launch (w : Native) (i : Instance) : Native :=
  ⟨w.next + 1, Function.update w.instances w.next (some { i with running := true })⟩

/-- The proxies once the one that was replaced is stopped. -/
def Native.retire (w : Native) (existing : Option ActiveProxy) : Native :=
  existing.elim w fun a => w.modify a.proxy fun i => { i with running := false }

theorem retire_ne {existing : Option ActiveProxy} (h : ∀ a, existing = some a → n ≠ a.proxy) :
    (w.retire existing).instances n = w.instances n := by
  cases existing with
  | none => rfl
  | some a => exact modify_ne w (h a rfl) _

/-- What runs still is another proxy than the one that was stopped, as it was. -/
theorem retire_some {existing : Option ActiveProxy} (h : (w.retire existing).instances n = some i) :
    ∃ j, w.instances n = some j ∧ (i.running = true → i = j ∧ ∀ a, existing = some a → n ≠ a.proxy) := by
  cases existing with
  | none => exact ⟨i, h, fun _ => ⟨rfl, fun _ he => by cases he⟩⟩
  | some a =>
    change (w.modify a.proxy _).instances n = some i at h
    by_cases hn : n = a.proxy
    · subst hn
      rw [modify_self] at h
      obtain ⟨j, hj, rfl⟩ := Option.map_eq_some_iff.1 h
      exact ⟨j, hj, fun hrun => by cases hrun⟩
    · rw [modify_ne w hn] at h
      refine ⟨i, h, fun _ => ⟨rfl, ?_⟩⟩
      rintro _ ⟨⟩
      exact hn

theorem launch_some {j : Instance} (h : (w.launch i).instances n = some j) :
    n = w.next ∨ w.instances n = some j := by
  by_cases hn : n = w.next
  · exact .inl hn
  · exact .inr ((Function.update_of_ne hn ..).symm.trans h)

theorem retire_next (existing : Option ActiveProxy) : (w.retire existing).next = w.next := by
  cases existing <;> rfl

/-- Where a number of the proxies after a replacement comes from. -/
theorem Serving.replaced_old (h : Serving active w) (i : Instance) {k : Bytes} (hk : k ≠ key)
    (ha : active.lookup k = some a) :
    ((w.launch i).retire (active.lookup key)).instances a.proxy = w.instances a.proxy := by
  rw [retire_ne fun e he heq => hk (h.distinct k key a e ha he heq)]
  exact Function.update_of_ne (Nat.ne_of_lt (h.lt_next ha)) ..

theorem Serving.replaced_new (h : Serving active w) (i : Instance) :
    ((w.launch i).retire (active.lookup key)).instances w.next = some { i with running := true } := by
  rw [retire_ne fun e he => Nat.ne_of_gt (h.lt_next he)]
  exact Function.update_self ..

/-- A new proxy for a key, and the old one is stopped. -/
theorem Serving.replace (h : Serving active w) (hproxy : a.proxy = w.next)
    (hfor : Instance.For { i with running := true } key a) :
    Serving (active.insert key a) ((w.launch i).retire (active.lookup key)) ∧
      shown (active.insert key a) ((w.launch i).retire (active.lookup key)) =
        Function.update (shown active w) key (some (i.listeners.map (·.bound), i.routes)) := by
  refine ⟨⟨?_, ?_, ?_, ?_⟩, ?_⟩
  · intro k a' ha'
    by_cases hk : k = key
    · subst hk
      rw [AList.lookup_insert] at ha'
      cases ha'
      rw [hproxy, h.replaced_new]
      exact ⟨_, rfl, hfor⟩
    · rw [AList.lookup_insert_ne hk] at ha'
      rw [h.replaced_old i hk ha']
      exact h.serves k a' ha'
  · intro k k' b b' hb hb' heq
    rcases Table.lookup_insert_cases hb with ⟨hk, hba⟩ | hold <;>
      rcases Table.lookup_insert_cases hb' with ⟨hk', hba'⟩ | hold'
    · exact hk.trans hk'.symm
    · have := h.lt_next hold'
      rw [← heq, hba] at this
      omega
    · have := h.lt_next hold
      rw [heq, hba'] at this
      omega
    · exact h.distinct k k' b b' hold hold' heq
  · intro n j hj
    rw [retire_next]
    change n < w.next + 1
    obtain ⟨j₀, hj₀, -⟩ := retire_some hj
    rcases launch_some hj₀ with rfl | hold
    · omega
    · exact Nat.lt_succ_of_lt (h.allocated n j₀ hold)
  · intro n j hj hrun
    obtain ⟨j₀, hj₀, hstill⟩ := retire_some hj
    obtain ⟨rfl, hother⟩ := hstill hrun
    rcases launch_some hj₀ with rfl | hold
    · exact ⟨key, a, AList.lookup_insert _, hproxy⟩
    · obtain ⟨k, b, hb, rfl⟩ := h.only n j hold hrun
      have hk : k ≠ key := by
        rintro rfl
        exact hother b hb rfl
      exact ⟨k, b, (AList.lookup_insert_ne hk).trans hb, rfl⟩
  · funext k
    unfold shown
    by_cases hk : k = key
    · subst hk
      rw [Function.update_self, AList.lookup_insert, Option.bind_some, hproxy, h.replaced_new]
      rfl
    · rw [Function.update_of_ne hk, AList.lookup_insert_ne hk]
      cases ha : active.lookup k with
      | none => rfl
      | some a' => rw [Option.bind_some, Option.bind_some, h.replaced_old i hk ha]

end Serving

/-! ## One entry -/

section Entry

variable {active : Active} {w : Native} {key : Bytes}

/-- Every active proxy is served, by itself or by what replaces it. -/
def AllServed (active : Active) (w : Native) : Prop := ∀ k a, active.lookup k = some a → w.ServesKey k

theorem Serving.allServed (h : Serving active w) : AllServed active w := fun _ _ ha => h.servesKey ha

/-- What a proxy of this config shows. -/
def ProxyConfig.shows (config : ProxyConfig) : List Bytes × List RouteConfig :=
  (config.listeners.map (·.bound), config.routes)

/-- What an entry is to be served as, if it can be resolved. -/
def offered (files : Files) (spec : FileProxyConfig) : Option (List Bytes × List RouteConfig) :=
  (toProxyConfig files spec).toOption.map (·.shows)

/-- How an entry ends: nothing has changed, or what it offers is served under its key. -/
def Outcome (active : Active) (w : Native) (key : Bytes) (offer : Option (List Bytes × List RouteConfig))
    (r : Except Bytes Active) (w' : Native) : Prop :=
  (∃ e, r = .error e) ∧ Serving active w' ∧ shown active w' = shown active w ∨
  ∃ active', r = .ok active' ∧ offer.isSome = true ∧ Serving active' w' ∧
    shown active' w' = Function.update (shown active w) key offer

theorem hotSwap_outcome (h : Serving active w) {config : ProxyConfig} {existing : ActiveProxy}
    (hex : active.lookup key = some existing) (hsig : existing.constructionSig = constructionSig config) :
    Always Native.performs (AllServed active) (Outcome active w key (some config.shows))
      (hotSwap active existing config).run w := by
  obtain ⟨i, hi, hfor⟩ := h.serves key existing hex
  have hnames := hfor.sig
  rw [hsig, constructionSig, List.map_map] at hnames
  obtain ⟨hswap, hshown⟩ := h.swap hex hi hfor (hotConfig config).routes
  rw [← bound_of_names hnames] at hshown
  refine Always.attempt (Always.perform ?_) ?_ ?_
  · intro r w' hr
    cases r with
    | error e =>
      cases hr
      exact h.allServed
    | ok _ =>
      cases hr
      exact hswap.allServed
  · intro e w' hr
    cases hr
    exact .inl ⟨⟨e, rfl⟩, h, rfl⟩
  · intro _ w' hr
    cases hr
    exact .inr ⟨active, rfl, rfl, hswap, hshown⟩

theorem start_created (w : Native) (i : Instance) :
    (⟨w.next + 1, Function.update w.instances w.next (some i)⟩ : Native).modify w.next
      (fun i => { i with running := true }) = w.launch i := by
  unfold Native.modify Native.launch
  dsimp only
  rw [Function.update_self, Function.update_idem, Option.map_some]

theorem launch_allServed (h : Serving active w) (i : Instance) : AllServed active (w.launch i) := by
  intro k a ha
  obtain ⟨j, hj, hfor⟩ := h.serves k a ha
  refine ⟨a.proxy, j, ?_, hfor.running, hfor.named, hfor.key⟩
  exact (Function.update_of_ne (Nat.ne_of_lt (h.lt_next ha)) ..).trans hj

theorem insert_allServed {a : ActiveProxy} (h : Serving (active.insert key a) w) : AllServed active w := by
  intro k b hb
  by_cases hk : k = key
  · subst hk
    exact h.servesKey (AList.lookup_insert _)
  · exact h.servesKey ((AList.lookup_insert_ne hk).trans hb)

theorem recreate_outcome (h : Serving active w) {config : ProxyConfig} (hne : config.listeners ≠ [])
    (hkey : key = portKey (config.listeners.map (·.port))) :
    Always Native.performs (AllServed active) (Outcome active w key (some config.shows))
      (recreate active key config).run w := by
  obtain ⟨hidle, hsame⟩ := h.idle (i := ⟨config.listeners, config.routes, false⟩) rfl
  have hfor : Instance.For ⟨config.listeners, config.routes, true⟩ key
      ⟨w.next, constructionSig config, config.listeners.map (·.endpoint)⟩ :=
    ⟨rfl, hne, hkey, by rw [constructionSig, List.map_map]; rfl⟩
  obtain ⟨hreplace, hshown⟩ := h.replace (i := ⟨config.listeners, config.routes, false⟩) rfl hfor
  refine Always.attempt (Always.perform ?_) ?_ ?_
  · intro r w' hr
    cases r with
    | error e =>
      cases hr
      exact h.allServed
    | ok n =>
      obtain ⟨-, rfl⟩ := hr
      exact hidle.allServed
  · intro e w' hr
    cases hr
    exact .inl ⟨⟨e, rfl⟩, h, rfl⟩
  · rintro n w₁ ⟨rfl, rfl⟩
    refine Always.attempt (Always.perform ?_) ?_ ?_
    · intro r w' hr
      cases r with
      | error e =>
        cases hr
        exact hidle.allServed
      | ok _ =>
        cases hr
        rw [start_created]
        exact launch_allServed h _
    · intro e w' hr
      cases hr
      exact .inl ⟨⟨e, rfl⟩, hidle, hsame⟩
    · intro _ w₂ hr
      cases hr
      rw [start_created]
      -- the old proxy, if there is one, is stopped last
      cases hex : active.lookup key with
      | none =>
        rw [hex] at hreplace hshown
        exact .inr ⟨_, rfl, rfl, hreplace, hshown⟩
      | some existing =>
        rw [hex] at hreplace hshown
        intro _ w₃ hw
        cases hw
        exact ⟨insert_allServed hreplace, .inr ⟨_, rfl, rfl, hreplace, hshown⟩⟩

theorem applyConfig_outcome (h : Serving active w) {config : ProxyConfig} (hne : config.listeners ≠ [])
    (hkey : key = portKey (config.listeners.map (·.port))) :
    Always Native.performs (AllServed active) (Outcome active w key (some config.shows))
      (applyConfig active key config).run w := by
  unfold applyConfig
  split
  · next existing hfilter =>
    obtain ⟨hex, hsig⟩ := Option.filter_eq_some_iff.1 hfilter
    exact hotSwap_outcome h hex (by simpa using hsig)
  · exact recreate_outcome h hne hkey

theorem listeners_of_namesPortSet {spec : FileProxyConfig} (h : namesPortSet spec = true) :
    spec.listeners.getD [] ≠ [] ∧ ∀ l ∈ spec.listeners.getD [], l.port = some l.number := by
  cases hls : spec.listeners with
  | none => simp [namesPortSet, hls] at h
  | some ls =>
    simp only [namesPortSet, hls, Option.any_some, Bool.and_eq_true, Bool.not_eq_true', List.isEmpty_eq_false_iff,
      List.all_eq_true] at h
    refine ⟨h.1, fun l hl => ?_⟩
    obtain ⟨port, hport⟩ := Option.isSome_iff_exists.1 (h.2 l hl)
    rw [FileListenerConfig.number, hport, Option.getD_some]

theorem reconfigure_outcome (files : Files) (h : Serving active w) {spec : FileProxyConfig}
    (hnames : namesPortSet spec = true) :
    Always Native.performs (AllServed active) (Outcome active w spec.key (offered files spec))
      (reconfigure files active spec.key spec).run w := by
  unfold reconfigure offered
  cases hconfig : toProxyConfig files spec with
  | error e => exact .inl ⟨⟨e, rfl⟩, h, rfl⟩
  | ok config =>
    have hports := toProxyConfig_ports hconfig
    have hne : config.listeners ≠ [] := by
      intro hnil
      rw [hnil, List.map_nil] at hports
      exact (listeners_of_namesPortSet hnames).1 (List.map_eq_nil_iff.1 hports.symm)
    exact applyConfig_outcome h hne (congrArg portKey hports).symm

end Entry

/-! ## The entries -/

/-- The last entry under a key. -/
def lastWith (key : Bytes) (entries : List (FileProxyConfig × Nat)) : Option (FileProxyConfig × Nat) :=
  (entries.filter fun e => e.1.key = key).getLast?

theorem lastWith_concat (key : Bytes) (entries : List (FileProxyConfig × Nat)) (e : FileProxyConfig × Nat) :
    lastWith key (entries ++ [e]) = if e.1.key = key then some e else lastWith key entries := by
  unfold lastWith
  rw [List.filter_append]
  split
  · next he => simp [he]
  · next he => simp [he]

/-- The loop over the entries: what is active stays, and each entry was skipped or is
served. While none was skipped, a key shows what its last entry offers. -/
structure Reconciled (files : Nat → Files) (active : Active) (w : Native) (done : List (FileProxyConfig × Nat))
    (l : Reconciling) (w' : Native) : Prop where
  serving : Serving l.active w'
  kept : ∀ k, (shown active w k).isSome = true → (shown l.active w' k).isSome = true
  seen : ∀ k, k ∈ l.seen ↔ ∃ e ∈ done, namesPortSet e.1 = true ∧ e.1.key = k
  settled : ∀ e ∈ done, e.1 ∈ l.failed ∨ namesPortSet e.1 = true ∧ (shown l.active w' e.1.key).isSome = true
  unidentified : ∀ e ∈ done, namesPortSet e.1 = false → l.unidentifiedEntry = true
  flagged : l.unidentifiedEntry = true → l.failed ≠ []
  latest : l.failed = [] → ∀ k,
    shown l.active w' k = (lastWith k done).elim (shown active w k) fun e => offered (files e.2) e.1

section Entries

variable {files : Nat → Files} {active : Active} {w w' : Native} {done : List (FileProxyConfig × Nat)} {l : Reconciling}

variable {e : FileProxyConfig × Nat} {w'' : Native}

theorem Reconciled.start (h : Serving active w) : Reconciled files active w [] { active } w where
  serving := h
  kept _ hk := hk
  seen k := by simp
  settled e he := by cases he
  unidentified e he := by cases he
  flagged hflag := by cases hflag
  latest _ _ := rfl

section

variable (h : Reconciled files active w done l w')

include h

/-- Every proxy that was active is still served while the active ones are. -/
theorem Reconciled.allServed (hs : Serving active w) (hserved : AllServed l.active w'') : AllServed active w'' := by
  intro k a ha
  have hk := h.kept k (by rw [hs.shown_isSome, ha]; rfl)
  rw [h.serving.shown_isSome] at hk
  obtain ⟨a', ha'⟩ := Option.isSome_iff_exists.1 hk
  exact hserved k a' ha'

theorem Reconciled.unnamed (he : namesPortSet e.1 = false) :
    Reconciled files active w (done ++ [e]) { l with failed := l.failed ++ [e.1], unidentifiedEntry := true } w' := by
  refine ⟨h.serving, h.kept, ?_, ?_, fun _ _ _ => rfl, fun _ => by simp, fun hnil => by simp at hnil⟩
  · intro k
    rw [h.seen]
    simp [or_and_right, exists_or, he]
  · intro e' he'
    rcases List.mem_append.1 he' with hold | hnew
    · exact (h.settled e' hold).imp (List.mem_append_left _) id
    · rw [List.mem_singleton.1 hnew]
      exact .inl (by simp)

theorem mem_seen_concat (he : namesPortSet e.1 = true) (k : Bytes) :
    k ∈ l.seen ++ [e.1.key] ↔ ∃ e' ∈ done ++ [e], namesPortSet e'.1 = true ∧ e'.1.key = k := by
  rw [List.mem_append, h.seen, List.mem_singleton]
  constructor
  · rintro (⟨e', he', hkey⟩ | rfl)
    · exact ⟨e', List.mem_append_left _ he', hkey⟩
    · exact ⟨e, by simp, he, rfl⟩
  · rintro ⟨e', he', hnamed, hkey⟩
    rcases List.mem_append.1 he' with hold | hnew
    · exact .inl ⟨e', hold, hnamed, hkey⟩
    · rw [List.mem_singleton.1 hnew] at hkey
      exact .inr hkey.symm

theorem Reconciled.skipped (he : namesPortSet e.1 = true)
    (hserving : Serving l.active w'') (hshown : shown l.active w'' = shown l.active w') :
    Reconciled files active w (done ++ [e])
      { l with seen := l.seen ++ [e.1.key], failed := l.failed ++ [e.1] } w'' := by
  refine ⟨hserving, ?_, mem_seen_concat h he, ?_, ?_, fun _ => by simp, fun hnil => by simp at hnil⟩
  · intro k hk
    rw [hshown]
    exact h.kept k hk
  · intro e' he'
    dsimp only
    rw [hshown]
    rcases List.mem_append.1 he' with hold | hnew
    · exact (h.settled e' hold).imp (List.mem_append_left _) id
    · rw [List.mem_singleton.1 hnew]
      exact .inl (by simp)
  · intro e' he' hunnamed
    rcases List.mem_append.1 he' with hold | hnew
    · exact h.unidentified e' hold hunnamed
    · rw [List.mem_singleton.1 hnew, he] at hunnamed
      cases hunnamed

theorem Reconciled.applied (he : namesPortSet e.1 = true) {active' : Active}
    (hserving : Serving active' w'') (hoffer : (offered (files e.2) e.1).isSome = true)
    (hshown : shown active' w'' = Function.update (shown l.active w') e.1.key (offered (files e.2) e.1)) :
    Reconciled files active w (done ++ [e]) { l with active := active', seen := l.seen ++ [e.1.key] } w'' := by
  have hkeeps (k : Bytes) (hk : (shown l.active w' k).isSome = true) : (shown active' w'' k).isSome = true := by
    rw [hshown]
    by_cases hke : k = e.1.key
    · rw [hke, Function.update_self]
      exact hoffer
    · rw [Function.update_of_ne hke]
      exact hk
  refine ⟨hserving, fun k hk => hkeeps k (h.kept k hk), mem_seen_concat h he, ?_, ?_, h.flagged, ?_⟩
  · intro e' he'
    rcases List.mem_append.1 he' with hold | hnew
    · exact (h.settled e' hold).imp id fun hnamed => ⟨hnamed.1, hkeeps _ hnamed.2⟩
    · rw [List.mem_singleton.1 hnew]
      refine .inr ⟨he, ?_⟩
      dsimp only
      rw [hshown, Function.update_self]
      exact hoffer
  · intro e' he' hunnamed
    rcases List.mem_append.1 he' with hold | hnew
    · exact h.unidentified e' hold hunnamed
    · rw [List.mem_singleton.1 hnew, he] at hunnamed
      cases hunnamed
  · intro hnil k
    dsimp only
    rw [hshown, lastWith_concat]
    by_cases hk : e.1.key = k
    · rw [if_pos hk, ← hk, Function.update_self]
      rfl
    · rw [if_neg hk, Function.update_of_ne (Ne.symm hk)]
      exact h.latest hnil k

end

theorem reconcileEntry_reconciled (hs : Serving active w) (h : Reconciled files active w done l w')
    (e : FileProxyConfig × Nat) :
    Always Native.performs (AllServed active) (Reconciled files active w (done ++ [e]))
      (reconcileEntry files l e) w' := by
  unfold reconcileEntry
  dsimp only
  cases he : namesPortSet e.1 with
  | false => exact h.unnamed he
  | true =>
    have hout := (reconfigure_outcome (files e.2) h.serving he).imp (fun _ => h.allServed hs) fun _ _ hr => hr
    refine Always.bind hout fun r w'' hr => ?_
    rcases hr with ⟨⟨error, rfl⟩, hserving, hshown⟩ | ⟨active', rfl, hoffer, hserving, hshown⟩
    · exact h.skipped he hserving hshown
    · exact h.applied he hserving hoffer hshown

theorem entries_reconciled (hs : Serving active w) (entries : List (FileProxyConfig × Nat)) :
    Always Native.performs (AllServed active) (Reconciled files active w entries)
      (entries.foldlM (reconcileEntry files) { active }) w :=
  Always.foldlM (Reconciled files active w) (fun _ e _ _ _ h => reconcileEntry_reconciled hs h e) (.start hs)

end Entries

/-! ## The removal -/

/-- The proxy of a key is stopped and forgotten. -/
theorem Serving.remove {active : Active} {w : Native} {key : Bytes} {a : ActiveProxy} (h : Serving active w)
    (hkey : ∀ b, active.lookup key = some b → b = a)
    (hother : ∀ k b, k ≠ key → active.lookup k = some b → b.proxy ≠ a.proxy) :
    Serving (active.erase key) (w.modify a.proxy fun i => { i with running := false }) := by
  refine ⟨?_, ?_, ?_, ?_⟩
  · intro k b hb
    obtain ⟨hk, hb⟩ := Table.lookup_erase_cases hb
    rw [modify_ne w (hother k b hk hb)]
    exact h.serves k b hb
  · intro k k' b b' hb hb'
    exact h.distinct k k' b b' (Table.lookup_erase_cases hb).2 (Table.lookup_erase_cases hb').2
  · intro n i hi
    change (w.retire (some a)).instances n = some i at hi
    obtain ⟨j, hj, -⟩ := retire_some hi
    exact h.allocated n j hj
  · intro n i hi hrun
    change (w.retire (some a)).instances n = some i at hi
    obtain ⟨j, hj, hstill⟩ := retire_some hi
    obtain ⟨rfl, hne⟩ := hstill hrun
    obtain ⟨k, b, hb, rfl⟩ := h.only n i hj hrun
    have hk : k ≠ key := by
      rintro rfl
      exact hne a rfl (congrArg ActiveProxy.proxy (hkey b hb))
    exact ⟨k, b, (AList.lookup_erase_ne hk).trans hb, rfl⟩

/-- The proxies that are spared are served. -/
def Spared (l : Reconciling) (w : Native) : Prop :=
  ∀ k a, l.active.lookup k = some a → l.spares k = true → w.ServesKey k

/-- The removal pass: of the keys done so far, those that are spared are still active, and
what is active is as it was. -/
structure Removed (l : Reconciling) (w : Native) (done : List (Bytes × ActiveProxy)) (active : Active) (w' : Native) :
    Prop where
  serving : Serving active w'
  lookup : ∀ k, active.lookup k = if k ∈ done.map Prod.fst ∧ l.spares k = false then none else l.active.lookup k
  same : ∀ k a, active.lookup k = some a → w'.instances a.proxy = w.instances a.proxy

section Removal

variable {l : Reconciling} {w w' : Native} {done : List (Bytes × ActiveProxy)} {active : Active}

theorem Removed.start (h : Serving l.active w) : Removed l w [] l.active w where
  serving := h
  lookup k := by simp
  same _ _ _ := rfl

theorem Removed.of_active (h : Removed l w done active w') {k : Bytes} {a : ActiveProxy}
    (ha : active.lookup k = some a) :
    l.active.lookup k = some a := by
  rw [h.lookup] at ha
  split at ha
  · cases ha
  · exact ha

theorem Removed.of_spared (h : Removed l w done active w') {k : Bytes} (hk : l.spares k = true) :
    active.lookup k = l.active.lookup k := by
  rw [h.lookup, if_neg]
  rintro ⟨-, hnot⟩
  rw [hk] at hnot
  cases hnot

theorem Removed.spared (h : Removed l w done active w') : Spared l w' := by
  intro k a ha hk
  exact h.serving.servesKey ((h.of_spared hk).trans ha)

theorem removeEntry_removed (hl : Serving l.active w) (h : Removed l w done active w') {e : Bytes × ActiveProxy}
    (he : l.active.lookup e.1 = some e.2) :
    Always Native.performs (Spared l) (Removed l w (done ++ [e])) (removeEntry l active e) w' := by
  have hdone (k : Bytes) : k ∈ (done ++ [e]).map Prod.fst ↔ k ∈ done.map Prod.fst ∨ k = e.1 := by simp
  unfold removeEntry
  cases hk : l.spares e.1 with
  | true =>
    refine ⟨h.serving, fun k => ?_, h.same⟩
    by_cases hke : k = e.1
    · rw [hke, h.of_spared hk, if_neg]
      rintro ⟨-, hnot⟩
      rw [hk] at hnot
      cases hnot
    · rw [h.lookup, if_congr (and_congr_left fun _ => (hdone k).trans (or_iff_left hke)) rfl rfl]
  | false =>
    have hkey (b : ActiveProxy) (hb : active.lookup e.1 = some b) : b = e.2 :=
      Option.some.inj ((h.of_active hb).symm.trans he)
    have hother (k : Bytes) (b : ActiveProxy) (hne : k ≠ e.1) (hb : active.lookup k = some b) : b.proxy ≠ e.2.proxy :=
      fun heq => hne (hl.distinct k e.1 b e.2 (h.of_active hb) he heq)
    have hremoved : Removed l w (done ++ [e]) (active.erase e.1)
        (w'.modify e.2.proxy fun i => { i with running := false }) := by
      refine ⟨h.serving.remove hkey hother, fun k => ?_, fun k b hb => ?_⟩
      · by_cases hke : k = e.1
        · rw [hke, AList.lookup_erase, if_pos ⟨(hdone e.1).2 (.inr rfl), hk⟩]
        · rw [AList.lookup_erase_ne hke, h.lookup,
            if_congr (and_congr_left fun _ => (hdone k).trans (or_iff_left hke)) rfl rfl]
      · obtain ⟨hke, hb⟩ := Table.lookup_erase_cases hb
        rw [modify_ne w' (hother k b hke hb)]
        exact h.same k b hb
    intro _ w'' hw
    cases hw
    exact ⟨hremoved.spared, hremoved⟩

theorem entries_removed (hl : Serving l.active w) :
    Always Native.performs (Spared l) (Removed l w (l.active.entries.map fun e => (e.1, e.2)))
      ((l.active.entries.map fun e => (e.1, e.2)).foldlM (removeEntry l) l.active) w := by
  refine Always.foldlM (Removed l w) (fun done e active w' he h => removeEntry_removed hl h ?_) (.start hl)
  obtain ⟨⟨k, a⟩, hmem, rfl⟩ := List.mem_map.1 he
  exact AList.mem_lookup_iff.2 hmem

/-- After the whole pass, the active proxies are those that are spared. -/
theorem Removed.shown_eq (h : Removed l w (l.active.entries.map fun e => (e.1, e.2)) active w') (k : Bytes) :
    shown active w' k = if l.spares k then shown l.active w k else none := by
  unfold shown
  cases hk : l.spares k with
  | true =>
    rw [if_pos rfl, h.of_spared hk]
    cases ha : l.active.lookup k with
    | none => rfl
    | some a => rw [Option.bind_some, Option.bind_some, h.same k a ((h.of_spared hk).trans ha)]
  | false =>
    have hnone : active.lookup k = none := by
      rw [h.lookup]
      split
      · rfl
      · next hnot =>
        -- a key that is active is one of the entries
        cases ha : l.active.lookup k with
        | none => rfl
        | some a =>
          refine absurd ⟨?_, hk⟩ hnot
          have hmem : (⟨k, a⟩ : Sigma fun _ : Bytes => ActiveProxy) ∈ l.active.entries := AList.mem_lookup_iff.1 ha
          exact List.mem_map.2 ⟨(k, a), List.mem_map.2 ⟨_, hmem, rfl⟩, rfl⟩
    rw [hnone]
    rfl

end Removal

/-! ## The whole reload -/

section Reload

variable (files : Nat → Files) {s : ServerState} {w : Native} (config : ConfigFile)

/-- A reload: the entries, then the removal. -/
theorem doReconcile_always (hs : Serving s.active w) {J : Native → Prop} (hentries : ∀ w', AllServed s.active w' → J w')
    (hremoval : ∀ l w₁ w', Reconciled files s.active w config.proxies.zipIdx l w₁ → Spared l w' → J w') :
    Always Native.performs J
      (fun r w' => ∃ l w₁, Reconciled files s.active w config.proxies.zipIdx l w₁ ∧
        r = (publish { s with active := r.1.active } config.generation l.failed, l.failed) ∧ Serving r.1.active w' ∧
        ∀ k, shown r.1.active w' k = if l.spares k then shown l.active w₁ k else none)
      (doReconcile files s (some config)) w := by
  unfold doReconcile
  refine Always.bind ((entries_reconciled hs config.proxies.zipIdx).imp hentries fun _ _ hl => hl) fun l w₁ hl => ?_
  refine Always.bind ((entries_removed hl.serving).imp (fun w' => hremoval l w₁ w' hl) fun _ _ h => h)
    fun active w' h => ?_
  have hactive : (publish { s with active } config.generation l.failed).active = active := by
    unfold publish
    split
    · rfl
    · split <;> rfl
  refine ⟨l, w₁, hl, ?_, ?_, ?_⟩
  · dsimp only
    rw [hactive]
  · dsimp only
    rw [hactive]
    exact h.serving
  · dsimp only
    rw [hactive]
    exact h.shown_eq

end Reload

/-- Reloads, one after the other, from the start of the server. -/
inductive Reloaded : ServerState → Native → Prop
  | start : Reloaded {} {}
  | reload {s w} (files : Nat → Files) (config : Option ConfigFile) {s' failed w'} : Reloaded s w →
      Reached Native.performs (doReconcile files s config) w (.pure (s', failed)) w' → Reloaded s' w'

theorem Reloaded.serving {s : ServerState} {w : Native} (h : Reloaded s w) : Serving s.active w := by
  induction h with
  | start => exact serving_empty
  | @reload s w files config s' failed w' _ hreached hs =>
    cases config with
    | none =>
      -- a config that can't be read changes nothing
      have hsame : Always Native.performs (fun _ => True)
          (fun r w' => r.1 = s ∧ w' = w) (doReconcile files s none) w := ⟨rfl, rfl⟩
      obtain ⟨rfl, rfl⟩ := (hsame.reached trivial hreached).2
      exact hs
    | some config =>
      obtain ⟨l, w₁, -, -, hserving, -⟩ :=
        ((doReconcile_always files config hs (J := fun _ => True) (fun _ _ => trivial) fun _ _ _ _ _ => trivial).reached
          trivial hreached).2
      exact hserving

/-! ## Running a reload -/

/-- A native layer that refuses the operations that `ok` does not pass. -/
def Native.answer (ok : Op → Bool) : (o : Op) → Native → Ans o × Native
  | .create config, w =>
    if ok (.create config) then
      (.ok w.next, ⟨w.next + 1, Function.update w.instances w.next (some ⟨config.listeners, config.routes, false⟩)⟩)
    else (.error (bytes "create"), w)
  | .start proxy, w =>
    if ok (.start proxy) then (.ok (), w.modify proxy fun i => { i with running := true }) else (.error (bytes "start"), w)
  | .stop proxy, w => ((), w.modify proxy fun i => { i with running := false })
  | .updateConfig proxy hot, w =>
    if ok (.updateConfig proxy hot) then (.ok (), w.modify proxy fun i => { i with routes := hot.routes })
    else (.error (bytes "updateConfig"), w)

theorem answer_performs (ok : Op → Bool) (o : Op) (w : Native) :
    Native.performs o w (w.answer ok o).1 (w.answer ok o).2 := by
  cases o with
  | create config => cases hok : ok (.create config) <;> simp [Native.answer, Native.performs, hok]
  | start proxy => cases hok : ok (.start proxy) <;> simp [Native.answer, Native.performs, hok]
  | stop proxy => rfl
  | updateConfig proxy hot => cases hok : ok (.updateConfig proxy hot) <;> simp [Native.answer, Native.performs, hok]

/-- A reload against such a layer. -/
def reload (ok : Op → Bool) (files : Nat → Files) (s : ServerState) (config : Option ConfigFile) (w : Native) :
    (ServerState × List FileProxyConfig) × Native :=
  match Prog.run (fun o w => Native.answer ok o w) (doReconcile files s config) w with
  | (.ok r, w') => (r, w')
  | (.error e, _) => e.elim

theorem reload_reached (ok : Op → Bool) (files : Nat → Files) (s : ServerState) (config : Option ConfigFile)
    (w : Native) :
    Reached Native.performs (doReconcile files s config) w (.pure (reload ok files s config w).1)
      (reload ok files s config w).2 := by
  unfold reload
  cases hrun : Prog.run (fun o w => Native.answer ok o w) (doReconcile files s config) w with
  | mk r w' =>
    cases r with
    | error e => exact e.elim
    | ok a => exact Reached.run (answer_performs ok) .start hrun

end Symphony.Server
