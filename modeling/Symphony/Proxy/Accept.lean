import Mathlib.Data.List.Basic
import Symphony.Lib.Runs
import Symphony.Lib.Writes
/-!
# Accepting under `maxConnections`

Every accept loop of a listener reads the count of active connections and drops what it has
accepted if the count has reached the limit. Otherwise it spawns a task for the connection,
and the task itself counts it, as its first step. A guard takes it off the count when the
connection ends. So a connection that is spawned and has not run yet is not counted, and the
next accept does not see it.

The loops of the TLS and of the HTTP listener have the same steps here. All connections are
those of one listener.
-/

namespace Symphony.Proxy

open Lib (Machine countP_move)

/-- An accepted connection. -/
inductive Accepted where
  | dropped
  /-- Its task is spawned and has not run yet. -/
  | spawned
  | active
  | ended
  deriving DecidableEq, Repr

/-- The counters, and the accepted connections in their order. -/
structure Accepting where
  active_connections : Nat := 0
  total_accepted : Nat := 0
  /-- `BlockKind::MaxConnections`. -/
  blocked : Nat := 0
  conns : List Accepted := []
  deriving DecidableEq, Repr

inductive AcceptEvent where
  /-- A loop accepts a connection, reads the count and decides. -/
  | accept (loop : Nat)
  /-- The task of a connection runs for the first time. -/
  | count (conn : Nat)
  /-- A connection ends, and its guard is dropped. -/
  | finish (conn : Nat)
  deriving DecidableEq, Repr

/-- Neither dropped nor ended. -/
def Accepted.in_flight (c : Accepted) : Bool := c = .spawned || c = .active

def Accepting.in_flight (s : Accepting) : Nat := s.conns.countP (·.in_flight)

def accept (max_connections : Nat) (s : Accepting) : Accepting :=
  if max_connections > 0 && s.active_connections ≥ max_connections then
    { s with blocked := s.blocked + 1, conns := s.conns ++ [.dropped] }
  else { s with conns := s.conns ++ [.spawned] }

def inc_active (conn : Nat) (s : Accepting) : Accepting :=
  if s.conns[conn]? = some .spawned then
    { s with
      active_connections := s.active_connections + 1
      total_accepted := s.total_accepted + 1
      conns := s.conns.set conn .active }
  else s

def dec_active (conn : Nat) (s : Accepting) : Accepting :=
  if s.conns[conn]? = some .active then
    { s with active_connections := s.active_connections - 1, conns := s.conns.set conn .ended }
  else s

/-- The accept loops and connections of a listener. -/
def accepting (max_connections : Nat) : Machine Accepting AcceptEvent Unit where
  reading _ := none
  step s
    | .accept _ => ((), accept max_connections s)
    | .count conn => ((), inc_active conn s)
    | .finish conn => ((), dec_active conn s)

/-! ## The count and the connections -/

/-- The count is that of the active connections, and no more than the limit are in
flight. -/
structure Limited (max_connections : Nat) (s : Accepting) : Prop where
  counted : s.active_connections = s.conns.countP (· = .active)
  limit : s.in_flight ≤ max_connections

/-- A loop that reads a count below the limit does so while the connections that are spawned
and not counted yet leave room for one more. -/
def LeavesRoom (max_connections : Nat) (s : Accepting) : AcceptEvent → Prop
  | .accept _ => s.active_connections < max_connections →
      s.active_connections + s.conns.countP (· = .spawned) < max_connections
  | _ => True

instance (max_connections : Nat) (s : Accepting) : ∀ e, Decidable (LeavesRoom max_connections s e)
  | .accept _ => inferInstanceAs (Decidable (_ → _))
  | .count _ => .isTrue trivial
  | .finish _ => .isTrue trivial

section Steps

variable {max_connections : Nat} {s : Accepting}

theorem in_flight_eq (s : Accepting) :
    s.in_flight = s.conns.countP (· = .active) + s.conns.countP (· = .spawned) := by
  unfold Accepting.in_flight
  induction s.conns with
  | nil => rfl
  | cons c conns ih =>
    simp only [List.countP_cons, ih]
    cases c <;> simp [Accepted.in_flight] <;> omega

variable (h : Limited max_connections s)

include h

theorem Limited.accept (hmax : 0 < max_connections) {loop : Nat}
    (hroom : LeavesRoom max_connections s (.accept loop)) : Limited max_connections (accept max_connections s) := by
  obtain ⟨hcounted, hlimit⟩ := h
  have hadd (c : Accepted) : (s.conns ++ [c]).countP (·.in_flight) = s.in_flight + c.in_flight.toNat := by
    rw [List.countP_append, List.countP_singleton, Accepting.in_flight]
    cases c.in_flight <;> rfl
  unfold Proxy.accept
  split
  · exact ⟨by simpa [List.countP_append] using hcounted, le_of_eq_of_le (hadd .dropped) hlimit⟩
  · next hbelow =>
    have hbelow : s.active_connections < max_connections := by simpa [hmax] using hbelow
    have hroom := hroom hbelow
    rw [hcounted, ← in_flight_eq] at hroom
    exact ⟨by simpa [List.countP_append] using hcounted, le_of_eq_of_le (hadd .spawned) hroom⟩

theorem Limited.move {conn : Nat} {a b : Accepted} (hconn : s.conns[conn]? = some a)
    (hflight : b.in_flight = true → a.in_flight = true) {s' : Accepting} (hconns : s'.conns = s.conns.set conn b)
    (hcount : s'.active_connections + (decide (a = .active)).toNat =
      s.active_connections + (decide (b = .active)).toNat) :
    Limited max_connections s' := by
  obtain ⟨hcounted, hlimit⟩ := h
  have hactive := countP_move (b := b) (fun c => c = .active) hconn
  have hmoved := countP_move (b := b) (·.in_flight) hconn
  have hle : b.in_flight.toNat ≤ a.in_flight.toNat := by
    cases hb : b.in_flight with
    | false => exact Nat.zero_le _
    | true => exact Nat.le_of_eq (congrArg Bool.toNat (hflight hb).symm)
  unfold Accepting.in_flight at hlimit
  constructor
  · rw [hconns]
    omega
  · unfold Accepting.in_flight
    rw [hconns]
    omega

theorem Limited.inc_active (conn : Nat) :
    Limited max_connections (inc_active conn s) := by
  unfold Proxy.inc_active
  split
  · next hconn => exact h.move hconn (fun _ => rfl) rfl rfl
  · exact h

theorem Limited.dec_active (conn : Nat) :
    Limited max_connections (dec_active conn s) := by
  unfold Proxy.dec_active
  split
  · next hconn =>
    -- the connection itself is counted
    have hpos : 0 < s.active_connections := by
      rw [h.counted, List.countP_pos_iff]
      exact ⟨.active, List.mem_of_getElem? hconn, rfl⟩
    exact h.move hconn (fun hended => absurd hended (by decide)) rfl (Nat.sub_add_cancel hpos)
  · exact h

end Steps

/-- In every run in which a loop that reads a count below the limit finds room beside the
connections that are spawned and not counted yet, no more than `max_connections` are in
flight. -/
theorem max_connections_kept {max_connections : Nat} (hmax : 0 < max_connections) {s : Accepting} {clock : Nat}
    {log : List (AcceptEvent × Unit)}
    (h : (accepting max_connections).RunWhere (LeavesRoom max_connections) {} s clock log) :
    s.in_flight ≤ max_connections := by
  suffices hlimited : Limited max_connections s from hlimited.limit
  refine h.inv (fun s _ _ => Limited max_connections s) ⟨rfl, Nat.zero_le _⟩ ?_
  intro s _ _ e hs hroom _
  cases e with
  | accept loop => exact hs.accept hmax hroom
  | count conn => exact hs.inc_active conn
  | finish conn => exact hs.dec_active conn

theorem max_connections_kept_two_loops :
    let s := ((accepting 2).exec {} [.accept 0, .accept 1, .count 1, .count 0, .accept 0, .finish 0, .accept 1]).2
    s.in_flight = 2 ∧ s.blocked = 1 ∧ s.in_flight ≤ 2 := by
  intro s
  have h₀ : (accepting 2).RunWhere (LeavesRoom 2) {} {} 0 [] := .nil
  have hok : (accepting 2).Admissible (LeavesRoom 2) {} 0
    [.accept 0, .accept 1, .count 1, .count 0, .accept 0, .finish 0, .accept 1] := by decide
  obtain ⟨clock, h⟩ := h₀.exec hok
  exact ⟨by decide, by decide, max_connections_kept (by decide) h⟩

/-- Two loops accept before either connection is counted, and both are kept. -/
theorem max_connections_exceeded :
    let s := ((accepting 1).exec {} [.accept 0, .accept 1, .count 0, .count 1]).2
    (∃ clock log, (accepting 1).Run {} s clock log) ∧ s.active_connections = 2 ∧ s.in_flight = 2 := by
  intro s
  obtain ⟨clock, h⟩ := Machine.exec_untimed (M := accepting 1) (fun _ => rfl) {}
    [.accept 0, .accept 1, .count 0, .count 1]
  exact ⟨⟨clock, _, h⟩, by decide, by decide⟩

end Symphony.Proxy
