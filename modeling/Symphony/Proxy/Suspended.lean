import Symphony.Lib.Runs
import Symphony.Lib.Table
import Symphony.Lib.Writes
import Symphony.Rust.Basic
/-!
# Suspended connections

A connection to a suspended route registers itself, tells JavaScript its id and waits for
`resolveConnection`, up to a timeout. Its task and the calls run at the same time, so
everything that touches the registry, a channel or a counter is a step of its own here:
a connection's task and a call are each at a position of their code, and an event lets one
of them go on. An event that does not fit the position changes nothing.

`J` are the route arguments of JavaScript and `R` the routes built from them; building one
depends on the TLS cache (`W`), and may fail.
-/

namespace Symphony.Proxy

open Lib (Machine Table countP_move getElem?_concat_cases getElem?_set_cases)

/-! ## The machine -/

/-- Where the task of a suspended connection is. -/
inductive Waiter (R : Type) where
  /-- Counted by `inc_suspended`. -/
  | counted
  /-- Has an id, but no entry yet. -/
  | numbered (id : Nat)
  /-- Registered, in `timeout(suspend_timeout, rx).await`. -/
  | waiting (id : Nat)
  /-- The wait is over, with a route or without. -/
  | woken (id : Nat) (route : Option R)
  /-- Without a route, its entry removed. -/
  | removed (id : Nat)
  /-- Taken out of `pending_suspended`. -/
  | leaving (id : Nat) (route : Option R)
  /-- Counted by how it ended: goes on with its route, or is dropped. -/
  | ended (id : Nat) (route : Option R)
  deriving DecidableEq, Repr

/-- A suspended connection: its task, and what was sent to its receiver. -/
structure Connection (R : Type) where
  task : Waiter R := .counted
  channel : Option (Option R) := none
  deriving DecidableEq, Repr

/-- Where a call of `resolve_connection` is. -/
inductive Call (J R : Type) where
  /-- `contains` found the id. -/
  | checked (text : Bytes) (id : Nat) (route : Option J)
  /-- The route is built, or there is none. -/
  | built (id : Nat) (resolved : Option R)
  /-- Has taken the sender of a connection out of the registry. -/
  | holding (conn : Nat) (resolved : Option R)
  | done
  deriving DecidableEq, Repr

/-- The registry, the counters of `GlobalMetrics`, and everything that runs. The id counter is a
64-bit word; it is a number here, which is the same while fewer than `2 ^ 64 - 1` connections
have been suspended (`ResolvedOnce.counter`). -/
structure Suspensions (J R : Type) where
  counter : Nat := 1
  pending : Table Nat Nat := ∅
  pending_suspended : Nat := 0
  suspended_resolved : Nat := 0
  suspended_unresolved : Nat := 0
  connections : List (Connection R) := []
  calls : List (Call J R) := []

inductive SuspendEvent (J W : Type) where
  /-- A connection comes to a suspended route: `inc_suspended`. -/
  | suspend
  /-- `counter.fetch_add`. -/
  | number (conn : Nat)
  /-- `pending.insert`, and the event for JavaScript. -/
  | insert (conn : Nat)
  /-- The receiver has a value. -/
  | receive (conn : Nat)
  /-- The timeout elapses, or there is no sender any more. -/
  | lapse (conn : Nat)
  /-- `remove`. -/
  | remove (conn : Nat)
  /-- `pending_suspended.fetch_sub`. -/
  | leave (conn : Nat)
  /-- `suspended_resolved.fetch_add` or `suspended_unresolved.fetch_add`. -/
  | count (conn : Nat)
  /-- `resolveConnection(id, route)`, up to `contains`. -/
  | call (text : Bytes) (route : Option J)
  /-- Building the route. -/
  | build (call : Nat) (cache : W)
  /-- `pending.remove` in `resolve`. -/
  | take (call : Nat)
  /-- `tx.send`. -/
  | send (call : Nat)

/-- What an event shows: an error for JavaScript, a call that found an entry, or a connection
that ended its wait. -/
inductive Shown (R : Type) where
  | nothing
  | error (message : Bytes)
  | found (conn id : Nat) (resolved : Option R)
  | ended (conn : Nat) (route : Option R)
  deriving DecidableEq, Repr

section Machine

variable {J W R : Type} (build : J → W → Except Bytes R)

namespace Suspensions

/-- Let the task of a connection go on. -/
def move (s : Suspensions J R) (conn : Nat) (c : Connection R) : Suspensions J R :=
  { s with connections := s.connections.set conn c }

/-- Let a call go on. -/
def advance (s : Suspensions J R) (call : Nat) (c : Call J R) : Suspensions J R :=
  { s with calls := s.calls.set call c }

/-- `resolve_connection`, up to `contains`. -/
def resolve_connection (s : Suspensions J R) (text : Bytes) (route : Option J) : Shown R × Suspensions J R :=
  match parse_u64 text with
  | none => (.error (bytes "resolveConnection: invalid connection id '" ++ text ++
      bytes "' (not a valid id, so it was never live)"), s)
  | some id =>
    if (s.pending.lookup id).isSome then (.nothing, { s with calls := s.calls ++ [.checked text id route] })
    else (.nothing, s)

/-- The route of a call: none where none was given, or where it cannot be built. -/
def build_resolved (text : Bytes) (route : Option J) (cache : W) : Shown R × Option R :=
  match route with
  | none => (.nothing, none)
  | some route =>
    match build route cache with
    | .ok resolved => (.nothing, some resolved)
    | .error message => (.error (bytes "resolveConnection(id=" ++ text ++ bytes "): " ++ message), none)

/-- `dec_suspended`, its second counter. -/
def count (s : Suspensions J R) (route : Option R) : Suspensions J R :=
  if route.isSome then { s with suspended_resolved := s.suspended_resolved + 1 }
  else { s with suspended_unresolved := s.suspended_unresolved + 1 }

def step (s : Suspensions J R) : SuspendEvent J W → Shown R × Suspensions J R
  | .suspend =>
    (.nothing, { s with connections := s.connections ++ [{}], pending_suspended := s.pending_suspended + 1 })
  | .number i =>
    match s.connections[i]? with
    | some ⟨.counted, channel⟩ =>
      (.nothing, { s.move i ⟨.numbered s.counter, channel⟩ with counter := s.counter + 1 })
    | _ => (.nothing, s)
  | .insert i =>
    match s.connections[i]? with
    | some ⟨.numbered id, channel⟩ =>
      (.nothing, { s.move i ⟨.waiting id, channel⟩ with pending := s.pending.insert id i })
    | _ => (.nothing, s)
  | .receive i =>
    match s.connections[i]? with
    | some ⟨.waiting id, some route⟩ => (.nothing, s.move i ⟨.woken id route, some route⟩)
    | _ => (.nothing, s)
  | .lapse i =>
    match s.connections[i]? with
    | some ⟨.waiting id, channel⟩ => (.nothing, s.move i ⟨.woken id none, channel⟩)
    | _ => (.nothing, s)
  | .remove i =>
    match s.connections[i]? with
    | some ⟨.woken id none, channel⟩ =>
      (.nothing, { s.move i ⟨.removed id, channel⟩ with pending := s.pending.erase id })
    | _ => (.nothing, s)
  | .leave i =>
    match s.connections[i]? with
    | some ⟨.removed id, channel⟩ =>
      (.nothing, { s.move i ⟨.leaving id none, channel⟩ with pending_suspended := s.pending_suspended - 1 })
    | some ⟨.woken id (some route), channel⟩ =>
      (.nothing, { s.move i ⟨.leaving id (some route), channel⟩ with pending_suspended := s.pending_suspended - 1 })
    | _ => (.nothing, s)
  | .count i =>
    match s.connections[i]? with
    | some ⟨.leaving id route, channel⟩ => (.ended i route, (s.move i ⟨.ended id route, channel⟩).count route)
    | _ => (.nothing, s)
  | .call text route => s.resolve_connection text route
  | .build k cache =>
    match s.calls[k]? with
    | some (.checked text id route) =>
      ((build_resolved build text route cache).1, s.advance k (.built id (build_resolved build text route cache).2))
    | _ => (.nothing, s)
  | .take k =>
    match s.calls[k]? with
    | some (.built id resolved) =>
      match s.pending.lookup id with
      | some i => (.found i id resolved, { s.advance k (.holding i resolved) with pending := s.pending.erase id })
      | none => (.nothing, s.advance k .done)
    | _ => (.nothing, s)
  | .send k =>
    match s.calls[k]? with
    | some (.holding i resolved) =>
      (.nothing, { s.advance k .done with
        connections := s.connections.modify i fun c => { c with channel := some resolved } })
    | _ => (.nothing, s)

end Suspensions

/-- Suspended connections and calls in any interleaving. -/
def suspensions : Machine (Suspensions J R) (SuspendEvent J W) (Shown R) where
  reading _ := none
  step := Suspensions.step build

end Machine

/-! ## What is seen of a connection -/

section Seen

variable {E J R : Type}

namespace Waiter

/-- The id, once the connection has one. -/
def id? : Waiter R → Option Nat
  | .counted => none
  | .numbered id | .waiting id | .woken id _ | .removed id | .leaving id _ | .ended id _ => some id

/-- The connection has had an entry. -/
def registered : Waiter R → Bool
  | .counted | .numbered _ => false
  | _ => true

/-- The route that the connection woke with, and its id. -/
def route? : Waiter R → Option (Nat × R)
  | .woken id (some route) | .leaving id (some route) | .ended id (some route) => some (id, route)
  | _ => none

/-- How the connection ended its wait. -/
def outcome : Waiter R → Option (Option R)
  | .ended _ route => some route
  | _ => none

/-- The connection still waits: it was counted and has not been taken out. -/
def waits : Waiter R → Bool
  | .leaving _ _ | .ended _ _ => false
  | _ => true

/-- Where a connection can have an entry under its id. -/
def Listed (task : Waiter R) (id : Nat) : Prop := task = .waiting id ∨ task = .woken id none

theorem Listed.frame {task : Waiter R} {id : Nat} (h : task.Listed id) :
    task.id? = some id ∧ task.registered = true ∧ task.route? = none ∧ task.waits = true := by
  rcases h with rfl | rfl <;> exact ⟨rfl, rfl, rfl, rfl⟩

end Waiter

/-- The calls that found the entry of a connection, in order: the ids they were for, and what
they resolved it with. -/
def founds (conn : Nat) (log : List (E × Shown R)) : List (Nat × Option R) :=
  log.filterMap fun x => match x.2 with
    | .found i id resolved => if i = conn then some (id, resolved) else none
    | _ => none

/-- How a connection ended its wait, each time it did. -/
def endings (conn : Nat) (log : List (E × Shown R)) : List (Option R) :=
  log.filterMap fun x => match x.2 with
    | .ended i route => if i = conn then some route else none
    | _ => none

/-- Nothing that `founds` or `endings` lists. -/
def Shown.quiet : Shown R → Bool
  | .nothing | .error _ => true
  | _ => false

variable {log : List (E × Shown R)} {e : E}

theorem founds_quiet {a : Shown R} (h : a.quiet = true) (i : Nat) : founds i (log ++ [(e, a)]) = founds i log := by
  cases a with
  | nothing => simp [founds]
  | error m => simp [founds]
  | found j id resolved => cases h
  | ended j route => cases h

theorem endings_quiet {a : Shown R} (h : a.quiet = true) (i : Nat) :
    endings i (log ++ [(e, a)]) = endings i log := by
  cases a with
  | nothing => simp [endings]
  | error m => simp [endings]
  | found j id resolved => cases h
  | ended j route => cases h

theorem founds_found (i j id : Nat) (v : Option R) :
    founds i (log ++ [(e, .found j id v)]) = founds i log ++ if j = i then [(id, v)] else [] := by
  by_cases h : j = i <;> simp [founds, h]

theorem endings_found (i j id : Nat) (v : Option R) : endings i (log ++ [(e, .found j id v)]) = endings i log := by
  simp [endings]

theorem founds_ended (i j : Nat) (route : Option R) : founds i (log ++ [(e, .ended j route)]) = founds i log := by
  simp [founds]

theorem endings_ended (i j : Nat) (route : Option R) :
    endings i (log ++ [(e, .ended j route)]) = endings i log ++ if j = i then [route] else [] := by
  by_cases h : j = i <;> simp [endings, h]

end Seen

/-! ## Steps -/

section Steps

variable {J W R : Type} (build : J → W → Except Bytes R)

/-- What a step can do. Only `take` makes a call hold a sender. -/
inductive Effect (s : Suspensions J R) : SuspendEvent J W → Shown R → Suspensions J R → Prop
  | idle {e : SuspendEvent J W} {a : Shown R} (ha : a.quiet = true) : Effect s e a s
  | suspend :
    Effect s .suspend .nothing
      { s with connections := s.connections ++ [{}], pending_suspended := s.pending_suspended + 1 }
  | number {i : Nat} {channel : Option (Option R)} (h : s.connections[i]? = some ⟨.counted, channel⟩) :
    Effect s (.number i) .nothing { s.move i ⟨.numbered s.counter, channel⟩ with counter := s.counter + 1 }
  | insert {i id : Nat} {channel : Option (Option R)} (h : s.connections[i]? = some ⟨.numbered id, channel⟩) :
    Effect s (.insert i) .nothing { s.move i ⟨.waiting id, channel⟩ with pending := s.pending.insert id i }
  | receive {i id : Nat} {route : Option R} (h : s.connections[i]? = some ⟨.waiting id, some route⟩) :
    Effect s (.receive i) .nothing (s.move i ⟨.woken id route, some route⟩)
  | lapse {i id : Nat} {channel : Option (Option R)} (h : s.connections[i]? = some ⟨.waiting id, channel⟩) :
    Effect s (.lapse i) .nothing (s.move i ⟨.woken id none, channel⟩)
  | remove {i id : Nat} {channel : Option (Option R)} (h : s.connections[i]? = some ⟨.woken id none, channel⟩) :
    Effect s (.remove i) .nothing { s.move i ⟨.removed id, channel⟩ with pending := s.pending.erase id }
  | leave {i id : Nat} {task : Waiter R} {route : Option R} {channel : Option (Option R)}
      (h : s.connections[i]? = some ⟨task, channel⟩)
      (ht : task = .removed id ∧ route = none ∨ ∃ r, task = .woken id (some r) ∧ route = some r) :
    Effect s (.leave i) .nothing
      { s.move i ⟨.leaving id route, channel⟩ with pending_suspended := s.pending_suspended - 1 }
  | count {i id : Nat} {route : Option R} {channel : Option (Option R)}
      (h : s.connections[i]? = some ⟨.leaving id route, channel⟩) :
    Effect s (.count i) (.ended i route) ((s.move i ⟨.ended id route, channel⟩).count route)
  | call {text : Bytes} {id : Nat} {route : Option J} (h : parse_u64 text = some id) :
    Effect s (.call text route) .nothing { s with calls := s.calls ++ [.checked text id route] }
  | build {k id : Nat} {text : Bytes} {route : Option J} {cache : W}
      (h : s.calls[k]? = some (.checked text id route)) :
    Effect s (.build k cache) (Suspensions.build_resolved build text route cache).1
      (s.advance k (.built id (Suspensions.build_resolved build text route cache).2))
  | missed {k id : Nat} {resolved : Option R} (h : s.calls[k]? = some (.built id resolved)) :
    Effect s (.take k) .nothing (s.advance k .done)
  | take {k i id : Nat} {resolved : Option R} (hk : s.calls[k]? = some (.built id resolved))
      (h : s.pending.lookup id = some i) :
    Effect s (.take k) (.found i id resolved) { s.advance k (.holding i resolved) with pending := s.pending.erase id }
  | send {k i : Nat} {resolved : Option R} (h : s.calls[k]? = some (.holding i resolved)) :
    Effect s (.send k) .nothing { s.advance k .done with
      connections := s.connections.modify i fun c => { c with channel := some resolved } }

theorem step_effect (s : Suspensions J R) (e : SuspendEvent J W) :
    Effect build s e (Suspensions.step build s e).1 (Suspensions.step build s e).2 := by
  unfold Suspensions.step
  cases e with
  | suspend => exact .suspend
  | number i =>
    dsimp only
    split
    · next h => exact .number h
    · exact .idle rfl
  | insert i =>
    dsimp only
    split
    · next h => exact .insert h
    · exact .idle rfl
  | receive i =>
    dsimp only
    split
    · next h => exact .receive h
    · exact .idle rfl
  | lapse i =>
    dsimp only
    split
    · next h => exact .lapse h
    · exact .idle rfl
  | remove i =>
    dsimp only
    split
    · next h => exact .remove h
    · exact .idle rfl
  | leave i =>
    dsimp only
    split
    · next h => exact .leave h (.inl ⟨rfl, rfl⟩)
    · next h => exact .leave h (.inr ⟨_, rfl, rfl⟩)
    · exact .idle rfl
  | count i =>
    dsimp only
    split
    · next h => exact .count h
    · exact .idle rfl
  | call text route =>
    unfold Suspensions.resolve_connection
    dsimp only
    split
    · exact .idle rfl
    · next id h =>
      split
      · exact .call h
      · exact .idle rfl
  | build k cache =>
    dsimp only
    split
    · next h => exact .build h
    · exact .idle rfl
  | take k =>
    dsimp only
    split
    · next h =>
      split
      · next hi => exact .take h hi
      · exact .missed h
    · exact .idle rfl
  | send k =>
    dsimp only
    split
    · next h => exact .send h
    · exact .idle rfl

theorem build_resolved_quiet (text : Bytes) (route : Option J) (cache : W) :
    (Suspensions.build_resolved build text route cache).1.quiet = true := by
  unfold Suspensions.build_resolved
  cases route with
  | none => rfl
  | some route =>
    dsimp only
    cases build route cache <;> rfl

end Steps

/-! ## The invariant -/

section Invariant

variable {J W R : Type} (build : J → W → Except Bytes R)

/-- No two connections have the same id. -/
def DistinctIds (connections : List (Connection R)) : Prop :=
  ∀ (i j : Nat) (c d : Connection R) (id : Nat), connections[i]? = some c → connections[j]? = some d →
    c.task.id? = some id → d.task.id? = some id → i = j

/-- What the log says of one connection. -/
structure Known (counter : Nat) (founds : List (Nat × Option R)) (endings : List (Option R)) (c : Connection R) :
    Prop where
  id_lt : ∀ id, c.task.id? = some id → id < counter
  unregistered : c.task.registered = false → founds = []
  found : founds = [] ∨ ∃ id v, c.task.id? = some id ∧ founds = [(id, v)]
  sent : ∀ v, c.channel = some v → ∃ id, c.task.id? = some id ∧ founds = [(id, v)]
  route : ∀ id r, c.task.route? = some (id, r) → founds = [(id, some r)]
  ending : endings = c.task.outcome.toList

/-- A call that was made for the id `id`, and whose argument built to `resolved`. -/
def Carried (log : List (SuspendEvent J W × Shown R)) (id : Nat) (resolved : Option R) : Prop :=
  ∃ text route cache a, (.call text route, a) ∈ log ∧ parse_u64 text = some id ∧
    resolved = (Suspensions.build_resolved build text route cache).2

/-- What the log says of one call. -/
def Made (log : List (SuspendEvent J W × Shown R)) : Call J R → Prop
  | .checked text id route => parse_u64 text = some id ∧ ∃ a, (.call text route, a) ∈ log
  | .built id resolved => Carried build log id resolved
  | .holding _ _ | .done => True

/-- What holds after every step. A connection's entry is in the registry only until it is found
or removed, and a sender was taken out for the id of its connection. -/
structure Consistent (s : Suspensions J R) (log : List (SuspendEvent J W × Shown R)) : Prop where
  known : ∀ (i : Nat) (c : Connection R), s.connections[i]? = some c →
    Known s.counter (founds i log) (endings i log) c
  beyond : ∀ i, s.connections.length ≤ i → founds i log = [] ∧ endings i log = []
  unique : DistinctIds s.connections
  entry : ∀ id i, s.pending.lookup id = some i → founds i log = [] ∧
    ∃ c, s.connections[i]? = some c ∧ c.task.Listed id
  holding : ∀ (k i : Nat) (v : Option R), s.calls[k]? = some (.holding i v) → ∃ c id, s.connections[i]? = some c ∧
    c.task.id? = some id ∧ founds i log = [(id, v)]
  made : ∀ c ∈ s.calls, Made build log c
  carried : ∀ i id v, (id, v) ∈ founds i log → Carried build log id v
  pending : s.pending_suspended = s.connections.countP (·.task.waits)
  resolved : s.suspended_resolved = s.connections.countP fun c => c.task.outcome.any Option.isSome
  unresolved : s.suspended_unresolved = s.connections.countP fun c => c.task.outcome.any Option.isNone

variable {build} {s s' : Suspensions J R} {log : List (SuspendEvent J W × Shown R)} {e : SuspendEvent J W}
  {a : Shown R}

variable {c : Connection R} {v route : Option R}

theorem Carried.mono {id : Nat} (h : Carried build log id v) : Carried build (log ++ [(e, a)]) id v := by
  obtain ⟨text, route, cache, a', hmem, hrest⟩ := h
  exact ⟨text, route, cache, a', List.mem_append_left _ hmem, hrest⟩

theorem Made.mono {c : Call J R} (h : Made build log c) : Made build (log ++ [(e, a)]) c := by
  cases c with
  | checked text id route =>
    obtain ⟨hid, a', hmem⟩ := h
    exact ⟨hid, a', List.mem_append_left _ hmem⟩
  | built id v => exact Carried.mono h
  | holding i v => trivial
  | done => trivial

theorem DistinctIds.set {l : List (Connection R)} {i : Nat} (h : DistinctIds l)
    (hnew : ∀ (j : Nat) (d : Connection R) (id : Nat), j ≠ i → l[j]? = some d → d.task.id? = some id →
      c.task.id? ≠ some id) : DistinctIds (l.set i c) := by
  intro j k d d' id hd hd' hdid hdid'
  rcases getElem?_set_cases hd with ⟨rfl, rfl⟩ | ⟨hj, hold⟩
  · rcases getElem?_set_cases hd' with ⟨rfl, -⟩ | ⟨hk, hold'⟩
    · rfl
    · exact absurd hdid (hnew k d' id hk hold' hdid')
  · rcases getElem?_set_cases hd' with ⟨rfl, rfl⟩ | ⟨-, hold'⟩
    · exact absurd hdid' (hnew j d id hj hold hdid)
    · exact h j k d d' id hold hold' hdid hdid'

section

variable (h : Consistent build s log)

include h

/-- The id of a connection that moves stays, or is the next one, which nobody has. -/
theorem Consistent.unique_move {i : Nat} {c' : Connection R} (hc : s.connections[i]? = some c)
    (hid : c'.task.id? = c.task.id? ∨ c.task.id? = none ∧ c'.task.id? = some s.counter) :
    DistinctIds (s.connections.set i c') := by
  refine h.unique.set ?_
  intro j d id hj hd hdid hcid
  rcases hid with hsame | ⟨-, hnew⟩
  · exact hj (h.unique j i d c id hd hc hdid (hsame ▸ hcid))
  · rw [hnew] at hcid
    have hltid := (h.known j d hd).id_lt id hdid
    rw [← Option.some.inj hcid] at hltid
    exact Nat.lt_irrefl _ hltid

/-- Moving the connection `i` keeps the invariant, where the new position and the entries are
right and every counter moves with it. -/
theorem Consistent.move {i : Nat} {c' : Connection R} (hc : s.connections[i]? = some c)
    (hconns : s'.connections = s.connections.set i c') (hcounter : s.counter ≤ s'.counter)
    (hcalls : ∀ (k j : Nat) (v : Option R), s'.calls[k]? = some (.holding j v) → s.calls[k]? = some (.holding j v))
    (hmade : ∀ d ∈ s'.calls, d ∈ s.calls ∨ d = .done) (hfounds : ∀ j, founds j (log ++ [(e, a)]) = founds j log)
    (hendings : ∀ j, j ≠ i → endings j (log ++ [(e, a)]) = endings j log)
    (hknown : Known s'.counter (founds i log) (endings i (log ++ [(e, a)])) c')
    (hid : c'.task.id? = c.task.id? ∨ c.task.id? = none ∧ c'.task.id? = some s.counter)
    (hentry : ∀ id j, s'.pending.lookup id = some j →
      (j ≠ i ∧ s.pending.lookup id = some j) ∨
        (j = i ∧ founds i log = [] ∧ c'.task.Listed id))
    (hpending : s'.pending_suspended + c.task.waits.toNat = s.pending_suspended + c'.task.waits.toNat)
    (hresolved : s'.suspended_resolved + (c.task.outcome.any Option.isSome).toNat =
      s.suspended_resolved + (c'.task.outcome.any Option.isSome).toNat)
    (hunresolved : s'.suspended_unresolved + (c.task.outcome.any Option.isNone).toNat =
      s.suspended_unresolved + (c'.task.outcome.any Option.isNone).toNat) :
    Consistent build s' (log ++ [(e, a)]) := by
  have hlt : i < s.connections.length := (List.getElem?_eq_some_iff.mp hc).1
  have hself : s'.connections[i]? = some c' := by rw [hconns, List.getElem?_set_self hlt]
  have hother : ∀ j, j ≠ i → s'.connections[j]? = s.connections[j]? := by
    intro j hj
    rw [hconns, List.getElem?_set_ne hj.symm]
  refine ⟨?_, ?_, ?_, ?_, ?_, ?_, ?_, ?_, ?_, ?_⟩
  · intro j d hd
    rw [hconns] at hd
    rcases getElem?_set_cases hd with ⟨rfl, rfl⟩ | ⟨hj, hd⟩
    · rw [hfounds]
      exact hknown
    · rw [hfounds, hendings j hj]
      have hk := h.known j d hd
      exact { hk with id_lt := fun id hdid => Nat.lt_of_lt_of_le (hk.id_lt id hdid) hcounter }
  · intro j hj
    rw [hconns, List.length_set] at hj
    have hne : j ≠ i := by omega
    rw [hfounds, hendings j hne]
    exact h.beyond j hj
  · rw [hconns]
    exact h.unique_move hc hid
  · intro id j hl
    rw [hfounds]
    rcases hentry id j hl with ⟨hj, hold⟩ | ⟨rfl, hnone, htask⟩
    · rw [hother j hj]
      exact h.entry id j hold
    · exact ⟨hnone, c', hself, htask⟩
  · intro k j v hk
    obtain ⟨d, id, hd, hdid, hfound⟩ := h.holding k j v (hcalls k j v hk)
    rw [hfounds]
    by_cases hj : j = i
    · subst hj
      obtain rfl := Option.some.inj (hc.symm.trans hd)
      rcases hid with hsame | ⟨hno, -⟩
      · exact ⟨c', id, hself, hsame ▸ hdid, hfound⟩
      · rw [hno] at hdid
        cases hdid
    · exact ⟨d, id, (hother j hj).trans hd, hdid, hfound⟩
  · intro d hd
    rcases hmade d hd with hold | rfl
    · exact (h.made d hold).mono
    · trivial
  · intro j id v hmem
    rw [hfounds] at hmem
    exact (h.carried j id v hmem).mono
  · have hmoved := countP_move (b := c') (fun d : Connection R => d.task.waits) hc
    have hbefore := h.pending
    rw [hconns]
    omega
  · have hmoved := countP_move (b := c') (fun d : Connection R => d.task.outcome.any Option.isSome) hc
    have hbefore := h.resolved
    rw [hconns]
    omega
  · have hmoved := countP_move (b := c') (fun d : Connection R => d.task.outcome.any Option.isNone) hc
    have hbefore := h.unresolved
    rw [hconns]
    omega

/-- The entries are of other connections than one that is not at a place to have one. -/
theorem Consistent.entry_ne {id i j : Nat} (hc : s.connections[i]? = some c)
    (htask : ¬ c.task.Listed id) (hl : s.pending.lookup id = some j) : j ≠ i := by
  rintro rfl
  obtain ⟨-, d, hd, hlisted⟩ := h.entry id j hl
  obtain rfl := Option.some.inj (hc.symm.trans hd)
  exact htask hlisted

/-- The entries are of other connections than one that was found. -/
theorem Consistent.entry_ne_found {id i j : Nat} {x : Nat × Option R}
    (hfound : founds i log = [x]) (hl : s.pending.lookup id = some j) : j ≠ i := by
  rintro rfl
  obtain ⟨hnone, -⟩ := h.entry id j hl
  rw [hfound] at hnone
  cases hnone

/-- A step of a connection's task that shows nothing and ends no wait. -/
theorem Consistent.go {i counter suspended : Nat} {pending : Table Nat Nat} {c' : Connection R} (hc : s.connections[i]? = some c) (hcounter : s.counter ≤ counter)
    (hknown : Known counter (founds i log) (endings i log) c')
    (hid : c'.task.id? = c.task.id? ∨ c.task.id? = none ∧ c'.task.id? = some s.counter)
    (hentry : ∀ id j, pending.lookup id = some j →
      (j ≠ i ∧ s.pending.lookup id = some j) ∨
        (j = i ∧ founds i log = [] ∧ c'.task.Listed id))
    (hpending : suspended + c.task.waits.toNat = s.pending_suspended + c'.task.waits.toNat)
    (houtcome : c'.task.outcome = c.task.outcome) :
    Consistent build { s.move i c' with counter, pending, pending_suspended := suspended }
      (log ++ [(e, .nothing)]) := by
  refine h.move hc rfl hcounter (fun _ _ _ hk => hk) (fun _ hd => .inl hd) (fun j => founds_quiet rfl j)
    (fun j _ => endings_quiet rfl j) ?_ hid hentry hpending ?_ ?_
  · rw [endings_quiet rfl]
    exact hknown
  · rw [houtcome]
    rfl
  · rw [houtcome]
    rfl

/-- Calls that go on without taking a sender. -/
theorem Consistent.calls {calls : List (Call J R)} (ha : a.quiet = true)
    (hcalls : ∀ (k i : Nat) (v : Option R), calls[k]? = some (.holding i v) → s.calls[k]? = some (.holding i v))
    (hmade : ∀ c ∈ calls, Made build (log ++ [(e, a)]) c) :
    Consistent build { s with calls } (log ++ [(e, a)]) := by
  refine ⟨?_, ?_, h.unique, ?_, ?_, hmade, ?_, h.pending, h.resolved, h.unresolved⟩
  · intro i c hc
    rw [founds_quiet ha, endings_quiet ha]
    exact h.known i c hc
  · intro i hi
    rw [founds_quiet ha, endings_quiet ha]
    exact h.beyond i hi
  · intro id i hl
    rw [founds_quiet ha]
    exact h.entry id i hl
  · intro k i v hk
    rw [founds_quiet ha]
    exact h.holding k i v (hcalls k i v hk)
  · intro i id v hmem
    rw [founds_quiet ha] at hmem
    exact (h.carried i id v hmem).mono

/-- A call goes on to a position without a sender. -/
theorem Consistent.advance {k : Nat} {c : Call J R} (ha : a.quiet = true)
    (hc : ∀ i v, c ≠ .holding i v) (hmade : Made build (log ++ [(e, a)]) c) :
    Consistent build (s.advance k c) (log ++ [(e, a)]) := by
  refine h.calls ha ?_ ?_
  · intro k' i v hk
    rcases getElem?_set_cases hk with ⟨-, hnew⟩ | ⟨-, hold⟩
    · exact absurd hnew.symm (hc i v)
    · exact hold
  · intro d hd
    rcases List.mem_or_eq_of_mem_set hd with hold | rfl
    · exact (h.made d hold).mono
    · exact hmade

theorem Consistent.suspended :
    Consistent build { s with connections := s.connections ++ [{}], pending_suspended := s.pending_suspended + 1 }
      (log ++ [(e, .nothing)]) := by
  have hold : ∀ (i : Nat) (c : Connection R), s.connections[i]? = some c →
      (s.connections ++ [⟨.counted, none⟩])[i]? = some c := by
    intro i c hc
    rw [List.getElem?_append_left (List.getElem?_eq_some_iff.mp hc).1]
    exact hc
  refine ⟨?_, ?_, ?_, ?_, ?_, fun c hc => (h.made c hc).mono, ?_, ?_, ?_, ?_⟩
  · intro i c hc
    rw [founds_quiet rfl, endings_quiet rfl]
    rcases getElem?_concat_cases hc with hc | ⟨rfl, rfl⟩
    · exact h.known i c hc
    · obtain ⟨hfounds, hendings⟩ := h.beyond _ (Nat.le_refl _)
      rw [hfounds, hendings]
      exact ⟨nofun, fun _ => rfl, .inl rfl, nofun, nofun, rfl⟩
  · intro i hi
    rw [founds_quiet rfl, endings_quiet rfl]
    rw [List.length_append] at hi
    exact h.beyond i (by omega)
  · intro i j c d id hc hd hcid hdid
    rcases getElem?_concat_cases hc with hc | ⟨-, rfl⟩
    · rcases getElem?_concat_cases hd with hd | ⟨-, rfl⟩
      · exact h.unique i j c d id hc hd hcid hdid
      · cases hdid
    · cases hcid
  · intro id i hl
    rw [founds_quiet rfl]
    obtain ⟨hnone, c, hc, htask⟩ := h.entry id i hl
    exact ⟨hnone, c, hold i c hc, htask⟩
  · intro k i v hk
    rw [founds_quiet rfl]
    obtain ⟨c, id, hc, hrest⟩ := h.holding k i v hk
    exact ⟨c, id, hold i c hc, hrest⟩
  · intro i id v hmem
    rw [founds_quiet rfl] at hmem
    exact (h.carried i id v hmem).mono
  · rw [List.countP_append, ← h.pending]
    rfl
  · rw [List.countP_append, ← h.resolved]
    rfl
  · rw [List.countP_append, ← h.unresolved]
    rfl

/-- A call finds an entry: nobody found it before, and nobody can find it again. -/
theorem Consistent.taken {k i id : Nat} (hk : s.calls[k]? = some (.built id v)) (hl : s.pending.lookup id = some i) :
    Consistent build { s.advance k (.holding i v) with pending := s.pending.erase id }
      (log ++ [(e, .found i id v)]) := by
  obtain ⟨hnone, c, hc, htask⟩ := h.entry id i hl
  obtain ⟨hcid, hregistered, hroute, -⟩ := htask.frame
  have hself : founds i (log ++ [(e, .found i id v)]) = [(id, v)] := by rw [founds_found, if_pos rfl, hnone]; rfl
  have hother : ∀ j, j ≠ i → founds j (log ++ [(e, .found i id v)]) = founds j log := by
    intro j hj
    rw [founds_found, if_neg hj.symm, List.append_nil]
  refine ⟨?_, ?_, h.unique, ?_, ?_, ?_, ?_, h.pending, h.resolved, h.unresolved⟩
  · intro j d hd
    rw [endings_found]
    by_cases hj : j = i
    · subst hj
      have hk := h.known j d hd
      obtain rfl := Option.some.inj (hc.symm.trans hd)
      refine ⟨hk.id_lt, ?_, .inr ⟨id, v, hcid, hself⟩, ?_, ?_, hk.ending⟩
      · intro hreg
        rw [hregistered] at hreg
        cases hreg
      · intro w hw
        obtain ⟨id', -, hsome⟩ := hk.sent w hw
        rw [hnone] at hsome
        cases hsome
      · intro id' r hr
        rw [hroute] at hr
        cases hr
    · rw [hother j hj]
      exact h.known j d hd
  · intro j hj
    have hne : j ≠ i := by
      rintro rfl
      exact absurd (List.getElem?_eq_some_iff.mp hc).1 (Nat.not_lt.mpr hj)
    rw [hother j hne, endings_found]
    exact h.beyond j hj
  · intro id' j hl'
    obtain ⟨hne, hl'⟩ := Table.lookup_erase_cases hl'
    have hj : j ≠ i := h.entry_ne hc (fun ht => hne (Option.some.inj (ht.frame.1.symm.trans hcid))) hl'
    rw [hother j hj]
    exact h.entry id' j hl'
  · intro k' j w hk'
    rcases getElem?_set_cases hk' with ⟨-, hnew⟩ | ⟨-, hold⟩
    · cases hnew
      exact ⟨c, id, hc, hcid, hself⟩
    · obtain ⟨d, id', hd, hdid, hfound⟩ := h.holding k' j w hold
      have hj : j ≠ i := by
        rintro rfl
        rw [hnone] at hfound
        cases hfound
      rw [hother j hj]
      exact ⟨d, id', hd, hdid, hfound⟩
  · intro d hd
    rcases List.mem_or_eq_of_mem_set hd with hold | rfl
    · exact (h.made d hold).mono
    · trivial
  · intro j id' w hmem
    by_cases hj : j = i
    · subst hj
      rw [hself, List.mem_singleton] at hmem
      cases hmem
      exact Carried.mono (h.made _ (List.mem_of_getElem? hk))
    · rw [hother j hj] at hmem
      exact (h.carried j id' w hmem).mono

end

section Tasks

variable {i id : Nat} {channel : Option (Option R)}

variable (h : Consistent build s log)

include h

theorem Consistent.numbered (hc : s.connections[i]? = some ⟨.counted, channel⟩) :
    Consistent build { s.move i ⟨.numbered s.counter, channel⟩ with counter := s.counter + 1 }
      (log ++ [(e, .nothing)]) := by
  have hk := h.known i _ hc
  have hnone := hk.unregistered rfl
  refine h.go hc (Nat.le_succ _) ⟨?_, fun _ => hnone, .inl hnone, ?_, nofun, hk.ending⟩ (.inr ⟨rfl, rfl⟩) ?_ rfl rfl
  · intro id hid
    cases hid
    exact Nat.lt_succ_self _
  · intro v hv
    obtain ⟨id, hid, -⟩ := hk.sent v hv
    cases hid
  · intro id j hl
    have hl : s.pending.lookup id = some j := hl
    exact .inl ⟨h.entry_ne hc nofun hl, hl⟩

theorem Consistent.inserted (hc : s.connections[i]? = some ⟨.numbered id, channel⟩) :
    Consistent build { s.move i ⟨.waiting id, channel⟩ with pending := s.pending.insert id i }
      (log ++ [(e, .nothing)]) := by
  have hk := h.known i _ hc
  refine h.go hc (Nat.le_refl _) ⟨hk.id_lt, nofun, hk.found, hk.sent, nofun, hk.ending⟩ (.inl rfl) ?_ rfl rfl
  intro id' j hl
  rcases Table.lookup_insert_cases hl with ⟨rfl, rfl⟩ | hold
  · exact .inr ⟨rfl, hk.unregistered rfl, .inl rfl⟩
  · exact .inl ⟨h.entry_ne hc nofun hold, hold⟩

/-- What a connection receives was sent by the call that found its entry. -/
theorem Consistent.received (hc : s.connections[i]? = some ⟨.waiting id, some route⟩) :
    Consistent build (s.move i ⟨.woken id route, some route⟩) (log ++ [(e, .nothing)]) := by
  have hk := h.known i _ hc
  obtain ⟨id', hid, hfound⟩ := hk.sent route rfl
  cases hid
  refine h.go hc (Nat.le_refl _) ⟨hk.id_lt, nofun, hk.found, hk.sent, ?_, hk.ending⟩ (.inl rfl) ?_ rfl rfl
  · intro id' r hr
    cases route with
    | none => cases hr
    | some route =>
      cases hr
      exact hfound
  · exact fun id' j hl => .inl ⟨h.entry_ne_found hfound hl, hl⟩

theorem Consistent.lapsed (hc : s.connections[i]? = some ⟨.waiting id, channel⟩) :
    Consistent build (s.move i ⟨.woken id none, channel⟩) (log ++ [(e, .nothing)]) := by
  have hk := h.known i _ hc
  refine h.go hc (Nat.le_refl _) ⟨hk.id_lt, nofun, hk.found, hk.sent, nofun, hk.ending⟩ (.inl rfl) ?_ rfl rfl
  intro id' j hl
  by_cases hj : j = i
  · subst hj
    obtain ⟨hnone, c, hc', htask⟩ := h.entry id' j hl
    obtain rfl := Option.some.inj (hc.symm.trans hc')
    rcases htask with ht | ht <;> cases ht
    exact .inr ⟨rfl, hnone, .inr rfl⟩
  · exact .inl ⟨hj, hl⟩

theorem Consistent.removed (hc : s.connections[i]? = some ⟨.woken id none, channel⟩) :
    Consistent build { s.move i ⟨.removed id, channel⟩ with pending := s.pending.erase id }
      (log ++ [(e, .nothing)]) := by
  have hk := h.known i _ hc
  refine h.go hc (Nat.le_refl _) ⟨hk.id_lt, nofun, hk.found, hk.sent, nofun, hk.ending⟩ (.inl rfl) ?_ rfl rfl
  intro id' j hl
  obtain ⟨hne, hold⟩ := Table.lookup_erase_cases hl
  refine .inl ⟨h.entry_ne hc ?_ hold, hold⟩
  intro ht
  exact hne (Option.some.inj ht.frame.1).symm

theorem Consistent.left {task : Waiter R} (hc : s.connections[i]? = some ⟨task, channel⟩)
    (ht : task = .removed id ∧ route = none ∨ ∃ r, task = .woken id (some r) ∧ route = some r) :
    Consistent build { s.move i ⟨.leaving id route, channel⟩ with pending_suspended := s.pending_suspended - 1 }
      (log ++ [(e, .nothing)]) := by
  have hk := h.known i _ hc
  have hid : task.id? = some id := by rcases ht with ⟨rfl, -⟩ | ⟨r, rfl, -⟩ <;> rfl
  have hwaits : task.waits = true := by rcases ht with ⟨rfl, -⟩ | ⟨r, rfl, -⟩ <;> rfl
  have houtcome : task.outcome = none := by rcases ht with ⟨rfl, -⟩ | ⟨r, rfl, -⟩ <;> rfl
  have hroute : Waiter.route? (.leaving id route) = task.route? := by
    rcases ht with ⟨rfl, rfl⟩ | ⟨r, rfl, rfl⟩ <;> rfl
  -- it is itself counted
  have hpos : 0 < s.pending_suspended := by
    rw [h.pending, List.countP_pos_iff]
    exact ⟨_, List.mem_of_getElem? hc, hwaits⟩
  refine h.go hc (Nat.le_refl _) ⟨?_, nofun, ?_, ?_, ?_, ?_⟩ (.inl hid.symm) ?_ ?_ houtcome.symm
  · exact fun id' hid' => hk.id_lt id' (hid.trans hid')
  · have hfound := hk.found
    rw [hid] at hfound
    exact hfound
  · have hsent := hk.sent
    rw [hid] at hsent
    exact hsent
  · exact fun id' r hr => hk.route id' r (hroute.symm.trans hr)
  · rw [hk.ending, houtcome]
    rfl
  · intro id' j hl
    have hl : s.pending.lookup id' = some j := hl
    refine .inl ⟨h.entry_ne hc ?_ hl, hl⟩
    rcases ht with ⟨rfl, -⟩ | ⟨r, rfl, -⟩ <;> nofun
  · rw [hwaits]
    change s.pending_suspended - 1 + 1 = s.pending_suspended + 0
    omega

theorem Consistent.counted (hc : s.connections[i]? = some ⟨.leaving id route, channel⟩) :
    Consistent build ((s.move i ⟨.ended id route, channel⟩).count route) (log ++ [(e, .ended i route)]) := by
  have hk := h.known i _ hc
  have hending : endings i (log ++ [(e, .ended i route)]) = [route] := by
    rw [endings_ended, if_pos rfl, hk.ending]
    rfl
  have hknown : Known s.counter (founds i log) [route] ⟨.ended id route, channel⟩ := by
    refine ⟨hk.id_lt, nofun, hk.found, hk.sent, ?_, rfl⟩
    intro id' r hr
    apply hk.route id' r
    cases route <;> exact hr
  rw [← hending] at hknown
  have hconns : ((s.move i ⟨.ended id route, channel⟩).count route).connections =
      s.connections.set i ⟨.ended id route, channel⟩ := by cases route <;> rfl
  refine h.move hc hconns ?_ ?_ ?_ (fun j => founds_ended j i route) ?_ ?_ (.inl rfl) ?_ ?_ ?_ ?_
  · cases route <;> exact Nat.le_refl _
  · cases route <;> exact fun _ _ _ hk' => hk'
  · cases route <;> exact fun _ hd => .inl hd
  · intro j hj
    rw [endings_ended, if_neg hj.symm, List.append_nil]
  · cases route <;> exact hknown
  · intro id' j hl
    have hl : s.pending.lookup id' = some j := by cases route <;> exact hl
    exact .inl ⟨h.entry_ne hc nofun hl, hl⟩
  · cases route <;> rfl
  · cases route <;> rfl
  · cases route <;> rfl

end Tasks

theorem Consistent.called {text : Bytes} {id : Nat} {route : Option J} (h : Consistent build s log)
    (hid : parse_u64 text = some id) :
    Consistent build { s with calls := s.calls ++ [.checked text id route] }
      (log ++ [(.call text route, .nothing)]) := by
  refine h.calls rfl ?_ ?_
  · intro k i v hk
    rcases getElem?_concat_cases hk with hold | ⟨-, hnew⟩
    · exact hold
    · cases hnew
  · intro c hc
    rcases List.mem_append.mp hc with hold | hnew
    · exact (h.made c hold).mono
    · rw [List.mem_singleton.mp hnew]
      exact ⟨hid, .nothing, List.mem_append_right _ (List.mem_singleton.mpr rfl)⟩

/-- What a call sends goes to a connection it found. -/
theorem Consistent.sent {k i : Nat} (h : Consistent build s log) (hk : s.calls[k]? = some (.holding i v)) :
    Consistent build { s.advance k .done with
      connections := s.connections.modify i fun c => { c with channel := some v } } (log ++ [(e, .nothing)]) := by
  obtain ⟨c, id, hc, hid, hfound⟩ := h.holding k i v hk
  have hknown := h.known i c hc
  have hset : s.connections.modify i (fun c => { c with channel := some v }) =
      s.connections.set i { c with channel := some v } := by
    rw [List.modify_eq_set_getElem?, hc]
    rfl
  refine h.move hc hset (Nat.le_refl _) ?_ ?_ (fun j => founds_quiet rfl j) (fun j _ => endings_quiet rfl j)
    ⟨hknown.id_lt, hknown.unregistered, hknown.found, ?_, hknown.route, ?_⟩ (.inl rfl) ?_ rfl rfl rfl
  · intro k' j w hk'
    rcases getElem?_set_cases hk' with ⟨-, hnew⟩ | ⟨-, hold⟩
    · cases hnew
    · exact hold
  · exact fun d hd => List.mem_or_eq_of_mem_set hd
  · intro w hw
    cases hw
    exact ⟨id, hid, hfound⟩
  · rw [endings_quiet rfl]
    exact hknown.ending
  · exact fun id' j hl => .inl ⟨h.entry_ne_found hfound hl, hl⟩

theorem Consistent.step (h : Consistent build s log) (he : Effect build s e a s') :
    Consistent build s' (log ++ [(e, a)]) := by
  cases he with
  | idle ha => exact h.calls ha (fun _ _ _ hk => hk) fun c hc => (h.made c hc).mono
  | suspend => exact h.suspended
  | number hc => exact h.numbered hc
  | insert hc => exact h.inserted hc
  | receive hc => exact h.received hc
  | lapse hc => exact h.lapsed hc
  | remove hc => exact h.removed hc
  | leave hc ht => exact h.left hc ht
  | count hc => exact h.counted hc
  | call hid => exact h.called hid
  | @build k id text route cache hk =>
    refine h.advance (build_resolved_quiet build text route cache) nofun ?_
    obtain ⟨hid, a', hmem⟩ := h.made _ (List.mem_of_getElem? hk)
    exact ⟨text, route, cache, a', List.mem_append_left _ hmem, hid, rfl⟩
  | missed hk => exact h.advance rfl nofun trivial
  | take hk hl => exact h.taken hk hl
  | send hk => exact h.sent hk

theorem run_consistent {clock : Nat} (h : (suspensions build).Run {} s clock log) : Consistent build s log := by
  refine Machine.Run.inv (M := suspensions build) (fun s _ log => Consistent build s log) ?_ ?_ h
  · have hnone : ∀ (i : Nat) (c : Connection R), ([] : List (Connection R))[i]? ≠ some c := by simp
    refine ⟨fun i c hc => absurd hc (hnone i c), fun _ _ => ⟨rfl, rfl⟩, fun i _ c _ _ hc => absurd hc (hnone i c),
      ?_, ?_, ?_, ?_, rfl, rfl, rfl⟩
    · intro id i hl
      cases hl
    · intro k i v hk
      cases hk
    · intro c hc
      cases hc
    · intro i id v hmem
      cases hmem
  · exact fun s _ log e h _ => h.step (step_effect build s e)

/-- The connections that have no id yet. -/
def Suspensions.unnumbered (s : Suspensions J R) : Nat := s.connections.countP (·.task.id?.isNone)

/-- The counter goes up by one for each connection that is given an id. -/
theorem Effect.counter (h : Effect build s e a s') (hs : s.counter + s.unnumbered = s.connections.length + 1) :
    s'.counter + s'.unnumbered = s'.connections.length + 1 := by
  have hmove {i : Nat} {c : Connection R} (c' : Connection R) (hc : s.connections[i]? = some c) :=
    countP_move (b := c') (fun d : Connection R => d.task.id?.isNone) hc
  unfold Suspensions.unnumbered at hs ⊢
  have hsame {i : Nat} {c c' : Connection R} (hc : s.connections[i]? = some c)
      (hid : c'.task.id?.isNone = c.task.id?.isNone) :
      s.counter + (s.connections.set i c').countP (·.task.id?.isNone) = (s.connections.set i c').length + 1 := by
    have hset := hmove c' hc
    rw [hid] at hset
    rw [Nat.add_right_cancel hset, List.length_set]
    exact hs
  cases h with
  | idle | call | build | missed | take => exact hs
  | suspend =>
    rw [List.countP_append, List.length_append, ← Nat.add_assoc, hs]
    rfl
  | @number i channel hc =>
    have hset : (s.connections.set i ⟨.numbered s.counter, channel⟩).countP (·.task.id?.isNone) + 1 = _ :=
      hmove _ hc
    change s.counter + 1 + (s.connections.set i _).countP _ = (s.connections.set i _).length + 1
    rw [List.length_set, Nat.add_right_comm, Nat.add_assoc, hset]
    exact hs
  | insert hc | receive hc | lapse hc | remove hc => exact hsame hc rfl
  | leave hc ht => rcases ht with ⟨rfl, -⟩ | ⟨r, rfl, -⟩ <;> exact hsame hc rfl
  | @count i id route channel hc => cases route <;> exact hsame hc rfl
  | @send k i v hk =>
    rw [List.modify_eq_set_getElem?]
    cases hc : s.connections[i]? with
    | none => exact hs
    | some c => exact hsame hc rfl

theorem run_counter {clock : Nat} (h : (suspensions build).Run {} s clock log) :
    s.counter + s.unnumbered = s.connections.length + 1 :=
  Machine.Run.inv (M := suspensions build) (fun s _ _ => s.counter + s.unnumbered = s.connections.length + 1) rfl
    (fun s _ _ e h _ => (step_effect build s e).counter h) h

end Invariant

/-! ## Every wait ends -/

section Ends

variable {J W R : Type} {build : J → W → Except Bytes R} {s s' : Suspensions J R} {e : SuspendEvent J W} {a : Shown R}

/-- The steps of its own that a connection has before it at most. -/
def Waiter.left : Waiter R → Nat
  | .counted => 6
  | .numbered _ => 5
  | .waiting _ => 4
  | .woken _ none => 3
  | .woken _ (some _) | .removed _ => 2
  | .leaving _ _ => 1
  | .ended _ _ => 0

/-- The last `left` steps of a connection that nobody resolves. -/
def own (conn : Nat) (left : Nat) : List (SuspendEvent J W) :=
  [.number conn, .insert conn, .lapse conn, .remove conn, .leave conn, .count conn].drop (6 - left)

/-- The task `t'` is at the place of `t` or a later one, with the same id. -/
structure Waiter.Follows (t' t : Waiter R) : Prop where
  left : t'.left ≤ t.left
  id : ∀ id, t.id? = some id → t'.id? = some id

variable {c : Connection R}

theorem Waiter.Follows.refl (t : Waiter R) : t.Follows t := ⟨Nat.le_refl _, fun _ h => h⟩

theorem follows_set {l : List (Connection R)} {i j : Nat} {d d' : Connection R} (hd : l[j]? = some d)
    (hfollows : d'.task.Follows d.task) (hc : l[i]? = some c) :
    ∃ c', (l.set j d')[i]? = some c' ∧ c'.task.Follows c.task := by
  by_cases hj : j = i
  · subst hj
    obtain rfl := Option.some.inj (hd.symm.trans hc)
    exact ⟨d', List.getElem?_set_self (List.getElem?_eq_some_iff.mp hd).1, hfollows⟩
  · exact ⟨c, (List.getElem?_set_ne hj).trans hc, .refl _⟩

/-- No step puts a connection back or changes its id. -/
theorem Effect.follows {i : Nat} (he : Effect build s e a s') (hc : s.connections[i]? = some c) :
    ∃ c', s'.connections[i]? = some c' ∧ c'.task.Follows c.task := by
  cases he with
  | idle ha => exact ⟨c, hc, .refl _⟩
  | suspend => exact ⟨c, (List.getElem?_append_left (List.getElem?_eq_some_iff.mp hc).1).trans hc, .refl _⟩
  | number hd => exact follows_set hd ⟨Nat.le_of_ble_eq_true rfl, nofun⟩ hc
  | insert hd => exact follows_set hd ⟨Nat.le_of_ble_eq_true rfl, fun _ h => h⟩ hc
  | @receive j id route hd =>
    refine follows_set hd ?_ hc
    cases route <;> exact ⟨Nat.le_of_ble_eq_true rfl, fun _ h => h⟩
  | lapse hd => exact follows_set hd ⟨Nat.le_of_ble_eq_true rfl, fun _ h => h⟩ hc
  | remove hd => exact follows_set hd ⟨Nat.le_of_ble_eq_true rfl, fun _ h => h⟩ hc
  | @leave j id task route channel hd ht =>
    refine follows_set hd ?_ hc
    rcases ht with ⟨rfl, -⟩ | ⟨r, rfl, -⟩ <;> exact ⟨Nat.le_of_ble_eq_true rfl, fun _ h => h⟩
  | @count j id route channel hd =>
    have hset : ∃ c', (s.connections.set j ⟨.ended id route, channel⟩)[i]? = some c' ∧
        c'.task.Follows c.task := follows_set hd ⟨Nat.zero_le _, fun _ h => h⟩ hc
    cases route <;> exact hset
  | call hid => exact ⟨c, hc, .refl _⟩
  | build hk => exact ⟨c, hc, .refl _⟩
  | missed hk => exact ⟨c, hc, .refl _⟩
  | take hk hl => exact ⟨c, hc, .refl _⟩
  | @send k j v hk =>
    refine ⟨if j = i then { c with channel := some v } else c, ?_, ?_⟩
    · change (s.connections.modify j _)[i]? = _
      rw [List.getElem?_modify, hc]
      split <;> rfl
    · split <;> exact .refl _

/-- A connection keeps its id for ever. -/
theorem id_kept (build : J → W → Except Bytes R) {i id : Nat} (events : List (SuspendEvent J W))
    (hc : s.connections[i]? = some c) (hid : c.task.id? = some id) :
    ∃ c', ((suspensions build).exec s events).2.connections[i]? = some c' ∧ c'.task.id? = some id := by
  induction events generalizing s c with
  | nil => exact ⟨c, hc, hid⟩
  | cons e events ih =>
    obtain ⟨c', hc', hfollows⟩ := (step_effect build s e).follows hc
    exact ih hc' (hfollows.id id hid)

/-- The connection's next step takes it on, whatever was sent to it. -/
theorem step_left (build : J → W → Except Bytes R) {i left : Nat} {rest : List (SuspendEvent J W)}
    (hc : s.connections[i]? = some c) (hleft : c.task.left = left + 1) (hown : own i (left + 1) = e :: rest) :
    ∃ c', (Suspensions.step build s e).2.connections[i]? = some c' ∧ c'.task.left ≤ left := by
  have hlt := (List.getElem?_eq_some_iff.mp hc).1
  obtain ⟨task, channel⟩ := c
  rcases task with _ | id | id | ⟨id, _ | route⟩ | id | ⟨id, _ | route⟩ | ⟨id, route⟩
  all_goals cases hleft
  all_goals cases hown
  all_goals simp only [Suspensions.step, hc]
  all_goals exact ⟨_, List.getElem?_set_self hlt, Nat.le_of_ble_eq_true rfl⟩

theorem own_succ (i left : Nat) (h : left < 6) :
    ∃ e : SuspendEvent J W, own i (left + 1) = e :: own i left := by
  have hcases : left = 0 ∨ left = 1 ∨ left = 2 ∨ left = 3 ∨ left = 4 ∨ left = 5 := by omega
  rcases hcases with rfl | rfl | rfl | rfl | rfl | rfl <;> exact ⟨_, rfl⟩

/-- A connection that takes its own steps ends its wait, whatever happens between them. -/
theorem ends_of_sublist (build : J → W → Except Bytes R) {i left : Nat} {events : List (SuspendEvent J W)}
    (h : (own i left).Sublist events) (hmost : left ≤ 6) (hc : s.connections[i]? = some c)
    (hleft : c.task.left ≤ left) :
    ∃ c', ((suspensions build).exec s events).2.connections[i]? = some c' ∧ c'.task.left = 0 := by
  induction events generalizing s left c with
  | nil =>
    cases left with
    | zero => exact ⟨c, hc, Nat.le_zero.mp hleft⟩
    | succ left =>
      obtain ⟨e, he⟩ := own_succ (J := J) (W := W) i left (by omega)
      rw [he] at h
      cases h
  | cons e events ih =>
    obtain ⟨c', hc', hfollows⟩ := (step_effect build s e).follows hc
    have hle := hfollows.left
    rcases List.sublist_cons_iff.mp h with hrest | ⟨rest, hown, hrest⟩
    · exact ih hrest hmost hc' (Nat.le_trans hle hleft)
    · cases left with
      | zero => cases hown
      | succ left =>
        obtain ⟨e', he'⟩ := own_succ (J := J) (W := W) i left (by omega)
        have hsame : e = e' ∧ rest = own i left := List.cons.inj (hown.symm.trans he')
        rw [hsame.2] at hrest
        -- the step is the connection's next one, or one that it is already past
        by_cases hnext : c.task.left = left + 1
        · obtain ⟨d, hd, hdle⟩ := step_left build hc hnext hown
          exact ih hrest (by omega) hd hdle
        · exact ih hrest (by omega) hc' (by omega)

end Ends

/-! ## Resolved once -/

section Once

variable {J W R : Type} (build : J → W → Except Bytes R)

/-- Each suspended connection is resolved at most once, by its own id. -/
structure ResolvedOnce (s : Suspensions J R) (log : List (SuspendEvent J W × Shown R)) : Prop where
  /-- Of all connections there ever were, no two have the same id. -/
  ids : DistinctIds s.connections
  /-- The id counter is ahead of the connections by one at most. -/
  counter : s.counter ≤ s.connections.length + 1
  /-- A connection keeps its id, whatever happens. -/
  id_kept : ∀ (i id : Nat) (c : Connection R) (events : List (SuspendEvent J W)), s.connections[i]? = some c →
    c.task.id? = some id →
    ∃ c', ((suspensions build).exec s events).2.connections[i]? = some c' ∧ c'.task.id? = some id
  /-- A connection has ended its wait once, or not yet. -/
  once : ∀ i, endings i log = (s.connections[i]?.bind (·.task.outcome)).toList
  /-- It does end: its own steps bring it there, whatever happens between them. -/
  ends : ∀ (i : Nat) (c : Connection R) (events : List (SuspendEvent J W)), s.connections[i]? = some c →
    (own i 6).Sublist events →
    ∃ id route channel, ((suspensions build).exec s events).2.connections[i]? = some ⟨.ended id route, channel⟩
  /-- At most one call finds the entry of a connection, and it was for its id. -/
  found : ∀ (i : Nat) (c : Connection R), s.connections[i]? = some c →
    founds i log = [] ∨ ∃ id v, c.task.id? = some id ∧ founds i log = [(id, v)]
  /-- What a call resolves with is what its own argument built to. -/
  carried : ∀ i id v, (id, v) ∈ founds i log → Carried build log id v
  /-- A connection goes on with the route of the call that found it, and otherwise is dropped. -/
  route : ∀ (i id : Nat) (r : R) (channel : Option (Option R)),
    s.connections[i]? = some ⟨.ended id (some r), channel⟩ → founds i log = [(id, some r)]
  pending : s.pending_suspended = s.connections.countP (·.task.waits)
  ended : s.suspended_resolved + s.suspended_unresolved = s.connections.countP (·.task.outcome.isSome)
  empty : (∀ c ∈ s.connections, c.task.waits = false) → s.pending.keys = []

theorem ended_split (l : List (Connection R)) :
    (l.countP fun c => c.task.outcome.any Option.isSome) + (l.countP fun c => c.task.outcome.any Option.isNone) =
      l.countP (·.task.outcome.isSome) := by
  induction l with
  | nil => rfl
  | cons c l ih =>
    rw [List.countP_cons, List.countP_cons, List.countP_cons, ← ih]
    rcases hc : c.task.outcome with _ | _ | r <;> simp <;> omega

variable {build} {s : Suspensions J R} {log : List (SuspendEvent J W × Shown R)}

theorem Consistent.once (h : Consistent build s log) (i : Nat) :
    endings i log = (s.connections[i]?.bind (·.task.outcome)).toList := by
  cases hc : s.connections[i]? with
  | none => exact (h.beyond i (List.getElem?_eq_none_iff.mp hc)).2
  | some c => exact (h.known i c hc).ending

/-- An entry is of a connection that waits. -/
theorem Consistent.empty (h : Consistent build s log) (hnone : ∀ c ∈ s.connections, c.task.waits = false) :
    s.pending.keys = [] := by
  rw [List.eq_nil_iff_forall_not_mem]
  intro id hid
  obtain ⟨i, hi⟩ := Option.isSome_iff_exists.mp (AList.lookup_isSome.mpr hid)
  obtain ⟨-, c, hc, htask⟩ := h.entry id i hi
  have hwaits := hnone c (List.mem_of_getElem? hc)
  rw [htask.frame.2.2.2] at hwaits
  cases hwaits

theorem ends_of_own (build : J → W → Except Bytes R) {i : Nat} {c : Connection R} {events : List (SuspendEvent J W)}
    (hc : s.connections[i]? = some c) (hown : (own i 6).Sublist events) :
    ∃ id route channel, ((suspensions build).exec s events).2.connections[i]? = some ⟨.ended id route, channel⟩ := by
  have hmost : c.task.left ≤ 6 := by
    rcases c.task with _ | id | id | ⟨id, _ | route⟩ | id | ⟨id, route⟩ | ⟨id, route⟩
    all_goals exact Nat.le_of_ble_eq_true rfl
  obtain ⟨⟨task, channel⟩, hc', hleft⟩ := ends_of_sublist build hown (Nat.le_refl 6) hc hmost
  rcases task with _ | id | id | ⟨id, _ | route⟩ | id | ⟨id, route⟩ | ⟨id, route⟩
  all_goals cases hleft
  exact ⟨id, route, channel, hc'⟩

/-- In every interleaving of connections, `resolveConnection` calls and timeouts, each suspended
connection is resolved at most once and by its own id, and the counters and the registry say
what is going on. -/
theorem suspended_resolved_once {clock : Nat} (h : (suspensions build).Run {} s clock log) :
    ResolvedOnce build s log := by
  have hall := run_consistent h
  exact {
    ids := hall.unique
    counter := (run_counter h).symm ▸ Nat.le_add_right _ _
    id_kept := fun i id c events hc hid => id_kept build events hc hid
    once := hall.once
    ends := fun i c events hc hown => ends_of_own build hc hown
    found := fun i c hc => (hall.known i c hc).found
    carried := hall.carried
    route := fun i id r channel hc => (hall.known i _ hc).route id r rfl
    pending := hall.pending
    ended := by rw [hall.resolved, hall.unresolved, ended_split]
    empty := hall.empty }

/-- Two connections. A call finds the second while the first runs into its timeout; the calls
with an id that is no number, one that nobody has and one that is over find nobody. -/
def twoSuspended : List (SuspendEvent Nat Unit) :=
  [.suspend, .suspend, .number 0, .number 1, .insert 0, .insert 1,
    .call (bytes "x") (some 7), .call (bytes "9") (some 7), .call (bytes "2") (some 7), .call (bytes "2") (some 8),
    .lapse 0, .build 0 (), .build 1 (), .take 0, .take 1, .send 0, .remove 0, .receive 1, .leave 0, .leave 1,
    .count 1, .count 0, .call (bytes "1") (some 9)]

/-- Every route builds, to itself. -/
def sameRoute (route : Nat) (_ : Unit) : Except Bytes Nat := .ok route

theorem two_suspended_once :
    let s := ((suspensions sameRoute).exec {} twoSuspended).2
    let log := ((suspensions sameRoute).exec {} twoSuspended).1
    s.connections.map (·.task) = [.ended 1 none, .ended 2 (some 7)] ∧ founds 1 log = [(2, some 7)] ∧
      (s.pending_suspended, s.suspended_resolved, s.suspended_unresolved) = (0, 1, 1) ∧
      ResolvedOnce sameRoute s log := by
  intro s log
  obtain ⟨clock, h⟩ := Machine.exec_untimed (M := suspensions sameRoute) (fun _ => rfl) {} twoSuspended
  exact ⟨by decide +kernel, by decide +kernel, by decide +kernel, suspended_resolved_once h⟩

end Once

end Symphony.Proxy
