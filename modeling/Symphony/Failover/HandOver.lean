import Symphony.Failover.Forward
import Symphony.Lib.Copy
/-!
# No byte is lost or sent twice

What the sockets of a forward may answer, and what reaches whom (`serves`). A peek
returns a prefix of what is unread and consumes nothing; a write that fails, or
that the share cuts off, has sent any prefix of its bytes. Until a peer answers,
nothing is consumed and no peer has more than the header and the hello; the one
peer that answers gets the header and the client's whole stream, and the client
gets that peer's.
-/

namespace Symphony.Failover

open Lib (Prog Protocol Copy)
open Lib.Prog (Obeys Reached)
open Router (FailoverPeer)
open Sni (PeekInfo)
open Upstream (write_proxy_v2_header write_proxy_v2_header_bare)

/-! ## The sockets -/

/-- The client's stream and how much of it was read, what was written to the client,
and for each connection to a peer what was written to it and all that the peer
sends. A peer is committed once its first byte is seen. -/
structure Net where
  client : Bytes
  consumed : Nat
  delivered : Bytes
  opened : Nat
  received : Nat → Bytes
  output : Nat → Bytes
  committed : List Nat

/-- Before a forward: the hello has only been peeked. -/
def Net.start (client : Bytes) (output : Nat → Bytes) : Net := ⟨client, 0, [], 0, fun _ => [], output, []⟩

/-- `buf` is written to a connection. -/
def Net.write (s : Net) (stream : Nat) (buf : Bytes) : Net :=
  { s with received := Function.update s.received stream (s.received stream ++ buf) }

/-- How the sockets can answer an operation. The other operations concern shared
words and clocks, which may hold anything. -/
def serves : (o : Op) → Net → o.Ans → Net → Prop
  | .peek_client len, s, a, s' => (∀ b, a = some b → b <+: s.client.drop s.consumed ∧ b.length ≤ len) ∧ s' = s
  | .connect _ _, s, a, s' =>
    (a = some (.ok s.opened) ∧ s' = { s with opened := s.opened + 1 }) ∨ ((∀ i, a ≠ some (.ok i)) ∧ s' = s)
  | .write_all stream buf, s, a, s' =>
    ∃ sent, sent <+: buf ∧ (a = some (.ok ()) → sent = buf) ∧ s' = s.write stream sent
  | .peek stream, s, a, s' =>
    (∃ n, a = some (.ok (n + 1)) ∧ s.output stream ≠ [] ∧ s' = { s with committed := s.committed ++ [stream] }) ∨
      ((∀ n, a ≠ some (.ok (n + 1))) ∧ s' = s)
  | .read_exact len, s, a, s' =>
    ∃ n, n ≤ len ∧ n ≤ (s.client.drop s.consumed).length ∧ (a = .ok () → n = len) ∧
      s' = { s with consumed := s.consumed + n }
  | .forward_opaque_stream stream, s, a, s' =>
    ∃ up down : Copy UInt8, Copy.Run (.start (s.client.drop s.consumed)) up ∧ Copy.Run (.start (s.output stream)) down ∧
      (a = .ok () → up.Drained ∧ down.Drained) ∧
      s' = { s.write stream up.written with
        consumed := s.client.length - up.unread.length, delivered := s.delivered ++ down.written }
  | _, s, _, s' => s' = s

/-! ## What is to hold -/

/-- Nobody is committed, nothing was read from the client or written to it, and no
peer has more than `pre`. -/
structure Untouched (pre : Bytes) (s : Net) : Prop where
  committed : s.committed = []
  consumed : s.consumed = 0
  delivered : s.delivered = []
  received : ∀ j, s.received j <+: pre

/-- One peer is committed. It has the header, the hello and then `rest` of the
client's stream, and the client has the beginning of what the peer sends. -/
structure HandedOver (client : Bytes) (output : Nat → Bytes) (header : Bytes) (hello_len : Nat) (stream : Nat)
    (rest : Bytes) (s : Net) : Prop where
  committed : s.committed = [stream]
  hello : hello_len ≤ client.length
  received : s.received stream = header ++ client.take hello_len ++ rest
  rest : rest <+: client.drop hello_len
  delivered : s.delivered <+: output stream
  others : ∀ j, j ≠ stream → s.received j <+: header ++ client.take hello_len

/-! ## How far a forward is -/

inductive Stage where
  /-- The hello has not been peeked for the peers. -/
  | waiting
  /-- The hello is there, no attempt is going on. -/
  | between (hello : Bytes)
  | connected (hello : Bytes) (stream : Nat)
  | sent (hello : Bytes) (stream : Nat)
  | answered (stream : Nat)
  | consumed (stream : Nat)
  | finished (stream : Nat) (result : Except ErrorKind Unit)

variable (failover : Router.Failover) (mode : ForwardMode) (now : Nat)

namespace Stage

def peeked (len : Nat) : Option Bytes → Stage → Stage
  | some hello, g => if hello.length = len then .between hello else g
  | none, g => g

def tried : Option (Except ConnectError Nat) → Stage → Stage
  | some (.ok stream), .between hello => .connected hello stream
  | _, g => g

def wrote : Option (Except Unit Unit) → Stage → Stage
  | some (.ok _), .connected hello stream => .sent hello stream
  | _, .connected hello _ => .between hello
  | _, g => g

def looked : Option (Except Unit Nat) → Stage → Stage
  | some (.ok (_ + 1)), .sent _ stream => .answered stream
  | _, .sent hello _ => .between hello
  | _, g => g

def read : Except Unit Unit → Stage → Stage
  | .ok _, .answered stream => .consumed stream
  | .error _, .answered stream => .finished stream (.error .Stream)
  | _, g => g

/-- No peer has answered. -/
def Open : Stage → Prop
  | .waiting | .between _ => True
  | _ => False

end Stage

/-- The order in which a forward uses the sockets, what it writes, and whom it connects to. -/
def hand_over (peers : List FailoverPeer) (header : Bytes) (hello_len : Nat) : Protocol Op Op.Ans Stage where
  allow
    | .peek_client len, g => len = hello_len ∧ g = .waiting
    | .connect addr _, g => (∃ hello, g = .between hello) ∧ ∃ peer ∈ peers, peer.addr = addr
    | .write_all stream buf, g => ∃ hello, g = .connected hello stream ∧ buf = header ++ hello
    | .peek stream, g => ∃ hello, g = .sent hello stream
    | .read_exact len, g => len = hello_len ∧ ∃ stream, g = .answered stream
    | .forward_opaque_stream stream, g => g = .consumed stream
    | _, _ => True
  next
    | .peek_client _, g, a => g.peeked hello_len a
    | .connect _ _, g, a => g.tried a
    | .write_all _ _, g, a => g.wrote a
    | .peek _, g, a => g.looked a
    | .read_exact _, g, a => g.read a
    | .forward_opaque_stream stream, _, a => .finished stream a
    | _, g, _ => g

/-- How a forward ends: before any peer has answered, and not as a success, or with
the result of the one that has. -/
def Ended (r : Forwarded) (g : Stage) : Prop :=
  (g.Open ∧ r ≠ .Done (.ok ())) ∨ ∃ stream result, g = .finished stream result ∧ r = .Done result

/-! ## Clocks, words and counters -/

/-- The operations that touch no socket. -/
def aside : Protocol Op Op.Ans Unit where
  allow
    | .instant, _ | .now_ns, _ | .fetch_add _, _ | .next_cursor, _ => True
    | .cooldown _, _ | .clear_cooldown _, _ | .record_failure .., _ => True
    | _, _ => False
  next _ _ _ := ()

/-- It touches no socket, and what it returns has `Q`. -/
def Aside {α : Type} (Q : α → Prop) (p : Forward α) : Prop := Obeys aside (fun a _ => Q a) p ()

theorem Aside.bind {α β : Type} {Q : α → Prop} {R : β → Prop} {p : Forward α} {f : α → Forward β} (hp : Aside Q p)
    (hf : ∀ a, Q a → Aside R (f a)) : Aside R (p >>= f) :=
  Obeys.bind hp fun a _ => hf a

theorem aside_perform {o : Op} (ho : aside.allow o ()) : Aside (fun _ => True) (.perform o) := ⟨ho, fun _ => trivial⟩

theorem aside_cooling_down (peer : FailoverPeer) (now : Nat) : Aside (fun _ => True) (cooling_down peer now) :=
  ⟨trivial, fun _ => trivial⟩

theorem aside_count_ready (peers : List FailoverPeer) : Aside (fun _ => True) (count_ready now peers) := by
  induction peers with
  | nil => trivial
  | cons peer peers ih => exact Aside.bind (aside_cooling_down peer now) fun _ _ => Aside.bind ih fun _ _ => trivial

theorem aside_rotation_start (count : Nat) : Aside (fun _ => True) (rotation_start count) := by
  unfold rotation_start
  split
  · trivial
  · exact ⟨trivial, fun _ => trivial⟩

section Candidates

variable {peers : List FailoverPeer}

theorem aside_earliest_cooldown {best : Option (FailoverPeer × Nat)} {l : List FailoverPeer} (hl : l ⊆ peers)
    (hbest : ∀ b ∈ best, b.1 ∈ peers) : Aside (fun r => ∀ peer ∈ r, peer ∈ peers) (earliest_cooldown best l) := by
  induction l generalizing best with
  | nil =>
    intro peer hr
    obtain ⟨b, hb, rfl⟩ := Option.map_eq_some_iff.1 hr
    exact hbest b hb
  | cons peer l ih =>
    obtain ⟨hp, hl⟩ := List.cons_subset.1 hl
    refine ⟨trivial, fun word => ?_⟩
    rcases best with _ | ⟨p, least⟩
    · refine ih hl fun b hb => ?_
      cases hb
      exact hp
    · refine ih hl fun b hb => ?_
      cases hb
      split
      · exact hp
      · exact hbest (p, least) rfl

theorem aside_candidates (wait : Bool) : Aside (fun r => ∀ c ∈ r.2, c.peer ∈ peers) (candidates peers now wait) := by
  have hfallback (ready : Nat) : Aside (fun r => ∀ peer ∈ r, peer ∈ peers) (fallback peers wait ready) := by
    unfold fallback
    split
    · exact aside_earliest_cooldown (List.Subset.refl _) nofun
    · exact nofun
  refine Aside.bind (aside_rotation_start _) fun start _ => Aside.bind (aside_count_ready now peers) fun ready _ =>
    Aside.bind (hfallback ready) fun earliest hearliest c hc => ?_
  rcases List.mem_append.1 hc with hc | hc
  · obtain ⟨peer, hpeer, rfl⟩ := List.mem_map.1 hc
    obtain ⟨i, -, hi⟩ := List.mem_filterMap.1 hpeer
    exact List.mem_of_getElem? hi
  · obtain ⟨peer, hpeer, rfl⟩ := List.mem_map.1 hc
    exact hearliest peer (Option.mem_toList.1 hpeer)

end Candidates

theorem aside_candidates_for :
    Aside (fun r => ∀ c ∈ r.2, c.peer ∈ failover.peers) (candidates_for failover mode now) := by
  cases mode with
  | Down => exact aside_candidates now true
  | Drain => exact aside_candidates now false
  | Spill i =>
    simp only [candidates_for]
    split
    · exact nofun
    · next peer hpeer =>
      refine Aside.bind (aside_cooling_down peer now) fun cooling _ => ?_
      cases cooling with
      | true => exact nofun
      | false =>
        intro c hc
        rw [List.mem_singleton.1 hc]
        exact List.mem_of_getElem? hpeer

theorem aside_count_replay (attempt : Nat) : Aside (fun _ => True) (count_replay attempt) := by
  unfold count_replay
  split
  · exact aside_perform trivial
  · trivial

theorem aside_yielded (candidate : Candidate) : Aside (fun r => ∀ peer ∈ r, peer = candidate.peer) candidate.yielded := by
  cases candidate with
  | ready peer now =>
    refine Aside.bind (aside_cooling_down peer now) fun cooling _ => ?_
    cases cooling with
    | true => exact nofun
    | false =>
      rintro _ ⟨⟩
      rfl
  | always peer =>
    rintro _ ⟨⟩
    rfl

section Obeying

variable {peers : List FailoverPeer} {header : Bytes} {hello_len : Nat}

theorem Aside.andThen {α β : Type} {Q : α → Prop} {p : Forward α} {f : α → Forward β} {R : β → Stage → Prop} {g : Stage}
    (hp : Aside Q p) (hf : ∀ a, Q a → Obeys (hand_over peers header hello_len) R (f a) g) :
    Obeys (hand_over peers header hello_len) R (p >>= f) g := by
  refine Obeys.frame_bind hp (fun o ho => ?_) hf
  cases o <;> first | exact ⟨trivial, fun _ => rfl⟩ | exact ho.elim

/-! ## The forward keeps to the order -/

/-- An attempt that fails leaves the stage as it was; otherwise the peer answered. -/
theorem attempt_peer_obeys {peer : FailoverPeer} (hp : peer ∈ peers) (hello : Bytes) (share : Duration) :
    Obeys (hand_over peers header hello_len)
      (fun r g => (∀ stream, r = .ok stream → g = .answered stream) ∧ (∀ kind, r = .error kind → g = .between hello))
      (attempt_peer peer.addr (header ++ hello) share) (.between hello) := by
  refine ⟨⟨⟨hello, rfl⟩, peer, hp, rfl⟩, fun connected => ?_⟩
  match connected with
  | none => exact ⟨nofun, fun _ _ => rfl⟩
  | some (.error .ConnectionRefused) => exact ⟨nofun, fun _ _ => rfl⟩
  | some (.error .Other) => exact ⟨nofun, fun _ _ => rfl⟩
  | some (.ok stream) =>
    -- the header and the hello are all that is written before an answer
    refine ⟨⟨hello, rfl, rfl⟩, fun written => ?_⟩
    match written with
    | none => exact ⟨nofun, fun _ _ => rfl⟩
    | some (.error _) => exact ⟨nofun, fun _ _ => rfl⟩
    | some (.ok _) =>
      refine ⟨⟨hello, rfl⟩, fun byte => ?_⟩
      match byte with
      | none => exact ⟨nofun, fun _ _ => rfl⟩
      | some (.error _) => exact ⟨nofun, fun _ _ => rfl⟩
      | some (.ok 0) => exact ⟨nofun, fun _ _ => rfl⟩
      | some (.ok (_ + 1)) =>
        refine ⟨fun i hi => ?_, nofun⟩
        cases hi
        rfl

theorem commit_obeys (peer : FailoverPeer) (stream : Nat) :
    Obeys (hand_over peers header hello_len) Ended (commit mode hello_len peer stream) (.answered stream) := by
  refine ⟨trivial, fun _ => ⟨trivial, fun _ => ⟨⟨rfl, stream, rfl⟩, fun read => ?_⟩⟩⟩
  cases read with
  | error _ => exact .inr ⟨stream, _, rfl, rfl⟩
  | ok _ => exact ⟨rfl, fun result => .inr ⟨stream, result, rfl, rfl⟩⟩

theorem give_up_obeys (handshake started : Nat) {g : Stage} (hg : g.Open) :
    Obeys (hand_over peers header hello_len) Ended (give_up mode handshake started) g := by
  cases mode with
  | Down => exact ⟨trivial, fun _ => .inl ⟨hg, nofun⟩⟩
  | Drain => exact ⟨trivial, fun _ => ⟨trivial, fun _ => .inl ⟨hg, nofun⟩⟩⟩
  | Spill i => exact ⟨trivial, fun _ => ⟨trivial, fun _ => .inl ⟨hg, nofun⟩⟩⟩

/-- Induction over the candidates: between two attempts the stage is the same. -/
theorem try_candidates_obeys (a : Attempts) (hello : Bytes) (hlen : a.hello_len = hello_len)
    (hpre : a.pre = header ++ hello) (attempt : Nat) {rest : List Candidate} (h : ∀ c ∈ rest, c.peer ∈ peers) :
    Obeys (hand_over peers header hello_len) Ended (try_candidates a attempt rest) (.between hello) := by
  induction rest generalizing attempt with
  | nil => exact give_up_obeys _ _ _ trivial
  | cons candidate rest ih =>
    have hrest : ∀ c ∈ rest, c.peer ∈ peers := fun c hc => h c (List.mem_cons_of_mem _ hc)
    refine (aside_yielded candidate).andThen fun peer hpeer => ?_
    cases peer with
    | none => exact ih attempt hrest
    | some peer =>
      obtain rfl := hpeer peer rfl
      -- out of time, or one more attempt: it commits, or leaves the stage for the rest
      refine (aside_perform (o := .instant) trivial).andThen fun now _ => ?_
      dsimp only
      split
      · exact give_up_obeys _ _ _ trivial
      · refine (aside_count_replay attempt).andThen fun _ _ => ?_
        rw [hpre]
        refine Obeys.bind (attempt_peer_obeys (h candidate List.mem_cons_self) hello _) fun r g hr => ?_
        cases r with
        | ok stream =>
          rw [hr.1 stream rfl, hlen]
          exact commit_obeys _ _ _
        | error kind =>
          rw [hr.2 kind rfl]
          exact (aside_perform (o := .now_ns) trivial).andThen fun _ _ =>
            (aside_perform (o := .record_failure ..) trivial).andThen fun _ _ => ih _ hrest

theorem forward_to_peers_obeys (peek : PeekInfo) (failover : Router.Failover) (mode : ForwardMode)
    (handshake : Duration) {peer_addr : SocketAddr} {local_addr : Option SocketAddr}
    (hh : write_proxy_v2_header peer_addr local_addr [] = .ok header) :
    Obeys (hand_over failover.peers header peek.hello_len) Ended
      (forward_to_peers peek failover mode handshake peer_addr local_addr) .waiting := by
  refine (aside_perform (o := .instant) trivial).andThen fun started _ => ?_
  split
  · -- The hello is not whole.
    cases mode with
    | Down => exact .inl ⟨trivial, nofun⟩
    | Drain => exact give_up_obeys _ _ _ trivial
    | Spill i => exact give_up_obeys _ _ _ trivial
  · refine (aside_perform (o := .now_ns) trivial).andThen fun now _ => ?_
    refine (aside_candidates_for failover mode now).andThen fun found hfound => ?_
    dsimp only
    split
    · exact give_up_obeys _ _ _ trivial
    · rw [hh]
      refine Obeys.bind (Q := fun hello g => g = Stage.waiting.peeked peek.hello_len hello) ⟨⟨rfl, rfl⟩, fun _ => rfl⟩
        fun hello g hg => ?_
      subst hg
      cases hello with
      | none => exact give_up_obeys _ _ _ trivial
      | some hello =>
        simp only [Stage.peeked]
        split
        · refine try_candidates_obeys _ hello ?_ ?_ 0 hfound <;> rfl
        · exact give_up_obeys _ _ _ trivial

end Obeying

/-! ## Whom a forward connects to -/

/-- Connects go to one of the peers. -/
def among (peers : List FailoverPeer) : Protocol Op Op.Ans Unit where
  allow
    | .connect addr _, _ => ∃ peer ∈ peers, peer.addr = addr
    | _, _ => True
  next _ _ _ := ()

/-- A forward connects to no one but the peers of its failover. -/
theorem forward_to_peers_among (peek : PeekInfo) (failover : Router.Failover) (mode : ForwardMode)
    (handshake : Duration) (peer_addr : SocketAddr) (local_addr : Option SocketAddr) :
    Obeys (among failover.peers) (fun _ _ => True)
      (forward_to_peers peek failover mode handshake peer_addr local_addr) () := by
  obtain ⟨header, hh, -⟩ := write_proxy_v2_header_bare peer_addr local_addr
  refine Obeys.refine (fun _ _ => True) (fun o g _ _ ho => ⟨?_, fun _ => trivial⟩) (fun _ _ _ _ _ => trivial) trivial
    (forward_to_peers_obeys peek failover mode handshake hh)
  cases o with
  | connect addr share => exact ho.2
  | _ => trivial

/-! ## What each operation does to the sockets -/

section Serving

variable {peers : List FailoverPeer} {client header : Bytes} {output : Nat → Bytes} {hello_len : Nat}

/-- The hello, as it was peeked, is the beginning of the client's stream. -/
def Hello (client : Bytes) (hello_len : Nat) (hello : Bytes) : Prop :=
  hello_len ≤ client.length ∧ hello = client.take hello_len

/-- No peer has answered, and nothing was written to the connections still to come. -/
structure Trying (client header : Bytes) (hello_len : Nat) (s : Net) : Prop
    extends Untouched (header ++ client.take hello_len) s where
  fresh : ∀ j, s.opened ≤ j → s.received j = []

/-- What holds of the sockets at each stage. -/
def Stage.Holds (client header : Bytes) (hello_len : Nat) (s : Net) : Stage → Prop
  | .waiting => Trying client header hello_len s
  | .between hello => Hello client hello_len hello ∧ Trying client header hello_len s
  | .connected hello stream =>
    Hello client hello_len hello ∧ Trying client header hello_len s ∧ stream < s.opened ∧ s.received stream = []
  | .sent hello stream =>
    Hello client hello_len hello ∧ Trying client header hello_len s ∧ s.received stream =
      header ++ client.take hello_len
  | .answered stream => HandedOver client s.output header hello_len stream [] s ∧ s.consumed = 0 ∧ s.delivered = []
  | .consumed stream => HandedOver client s.output header hello_len stream [] s ∧ s.consumed = hello_len ∧ s.delivered = []
  | .finished stream result => ∃ rest, HandedOver client s.output header hello_len stream rest s ∧
      (result = .ok () → rest = client.drop hello_len ∧ s.delivered = s.output stream)

variable {s s' : Net} {stream : Nat} {hello : Bytes} {g : Stage}

theorem peeked_holds {b : Option Bytes} (hc : s.client = client) (h : Stage.waiting.Holds client header hello_len s)
    (hb : ∀ hello, b = some hello → hello <+: s.client.drop s.consumed) :
    (Stage.waiting.peeked hello_len b).Holds client header hello_len s := by
  cases b with
  | none => exact h
  | some hello =>
    simp only [Stage.peeked]
    split
    · next hlen =>
      have hpre : hello <+: client := by simpa [hc, h.consumed] using hb hello rfl
      refine ⟨⟨hlen ▸ hpre.length_le, ?_⟩, h⟩
      rw [← hlen]
      exact List.prefix_iff_eq_take.1 hpre
    · exact h

theorem Trying.write (h : Trying client header hello_len s) {sent : Bytes} (hstream : stream < s.opened)
    (hempty : s.received stream = []) (hsent : sent <+: header ++ client.take hello_len) :
    Trying client header hello_len (s.write stream sent) where
  committed := h.committed
  consumed := h.consumed
  delivered := h.delivered
  received j := by
    by_cases hj : j = stream
    · subst hj
      simpa [Net.write, hempty] using hsent
    · simpa [Net.write, hj] using h.received j
  fresh j hj := by
    have hne : j ≠ stream := by
      have : s.opened ≤ j := hj
      omega
    simpa [Net.write, hne] using h.fresh j hj

theorem tried_holds {addr : SocketAddr} {share : Duration} {a : Option (Except ConnectError Nat)}
    (h : (Stage.between hello).Holds client header hello_len s) (hs : serves (.connect addr share) s a s') :
    ((Stage.between hello).tried a).Holds client header hello_len s' := by
  rcases hs with ⟨rfl, rfl⟩ | ⟨hfail, rfl⟩
  · -- A new connection: nothing was written to it.
    refine ⟨h.1, ⟨⟨h.2.committed, h.2.consumed, h.2.delivered, h.2.received⟩, fun j hj => ?_⟩, Nat.lt_succ_self _,
      h.2.fresh _ (le_refl _)⟩
    exact h.2.fresh j (Nat.le_of_succ_le hj)
  · match a with
    | none => exact h
    | some (.error _) => exact h
    | some (.ok i) => exact absurd rfl (hfail i)

theorem wrote_holds {a : Option (Except Unit Unit)} (h : (Stage.connected hello stream).Holds client header hello_len s)
    (hs : serves (.write_all stream (header ++ hello)) s a s') :
    ((Stage.connected hello stream).wrote a).Holds client header hello_len s' := by
  obtain ⟨sent, hsent, hok, rfl⟩ := hs
  obtain ⟨hhello, htry, hlt, hempty⟩ := h
  have hpre : header ++ hello = header ++ client.take hello_len := by rw [hhello.2]
  rw [hpre] at hsent hok
  have htry' := htry.write hlt hempty hsent
  match a with
  | none => exact ⟨hhello, htry'⟩
  | some (.error _) => exact ⟨hhello, htry'⟩
  | some (.ok _) =>
    refine ⟨hhello, htry', ?_⟩
    simp [Net.write, hempty, hok rfl]

theorem looked_holds {a : Option (Except Unit Nat)} (h : (Stage.sent hello stream).Holds client header hello_len s)
    (hs : serves (.peek stream) s a s') :
    ((Stage.sent hello stream).looked a).Holds client header hello_len s' := by
  obtain ⟨hhello, htry, hfull⟩ := h
  rcases hs with ⟨n, rfl, -, rfl⟩ | ⟨hnone, rfl⟩
  · -- The first byte: it is only peeked, so the client still gets all of the peer's output.
    refine ⟨⟨by simp [htry.committed], hhello.1, by simpa using hfull, List.nil_prefix, ?_, ?_⟩, htry.consumed,
      htry.delivered⟩
    · simp [htry.delivered]
    · exact fun j _ => htry.received j
  · match a with
    | none => exact ⟨hhello, htry⟩
    | some (.error _) => exact ⟨hhello, htry⟩
    | some (.ok 0) => exact ⟨hhello, htry⟩
    | some (.ok (n + 1)) => exact absurd rfl (hnone n)

theorem read_holds {a : Except Unit Unit} (h : (Stage.answered stream).Holds client header hello_len s)
    (hs : serves (.read_exact hello_len) s a s') :
    ((Stage.answered stream).read a).Holds client header hello_len s' := by
  obtain ⟨n, -, -, hall, rfl⟩ := hs
  obtain ⟨hh, hc, hd⟩ := h
  have hh' : HandedOver client s.output header hello_len stream [] { s with consumed := s.consumed + n } :=
    ⟨hh.committed, hh.hello, hh.received, hh.rest, hh.delivered, hh.others⟩
  cases a with
  | ok _ =>
    refine ⟨hh', ?_, hd⟩
    change s.consumed + n = hello_len
    rw [hc, hall rfl, Nat.zero_add]
  | error _ => exact ⟨[], hh', nofun⟩

/-- The copy goes on where the hello ends, and from the peer's first byte. -/
theorem copied_holds {a : Except ErrorKind Unit} (hclient : s.client = client)
    (h : (Stage.consumed stream).Holds client header hello_len s) (hs : serves (.forward_opaque_stream stream) s a s') :
    (Stage.finished stream a).Holds client header hello_len s' := by
  obtain ⟨up, down, hup, hdown, hall, rfl⟩ := hs
  obtain ⟨hh, hc, hd⟩ := h
  rw [hclient, hc] at hup
  refine ⟨up.written, ⟨hh.committed, hh.hello, ?_, Copy.Run.written_le hup, ?_, fun j hj => ?_⟩, fun hok => ⟨?_, ?_⟩⟩
  · simp [Net.write, hh.received]
  · simpa [Net.write, hd] using Copy.Run.written_le hdown
  · simpa [Net.write, hj] using hh.others j hj
  · exact Copy.Run.written_all hup (hall hok).1
  · simpa [Net.write, hd] using Copy.Run.written_all hdown (hall hok).2

/-- No operation changes what the client and the peers send. -/
theorem serves_keeps {o : Op} {a : o.Ans} (h : serves o s a s') :
    s'.client = s.client ∧ s'.output = s.output := by
  cases o with
  | peek_client len =>
    obtain ⟨-, rfl⟩ := h
    exact ⟨rfl, rfl⟩
  | connect addr share => rcases h with ⟨-, rfl⟩ | ⟨-, rfl⟩ <;> exact ⟨rfl, rfl⟩
  | write_all stream buf =>
    obtain ⟨sent, -, -, rfl⟩ := h
    exact ⟨rfl, rfl⟩
  | peek stream => rcases h with ⟨n, -, -, rfl⟩ | ⟨-, rfl⟩ <;> exact ⟨rfl, rfl⟩
  | read_exact len =>
    obtain ⟨n, -, -, -, rfl⟩ := h
    exact ⟨rfl, rfl⟩
  | forward_opaque_stream stream =>
    obtain ⟨up, down, -, -, -, rfl⟩ := h
    exact ⟨rfl, rfl⟩
  | _ =>
    cases h
    exact ⟨rfl, rfl⟩

/-- One operation that the order allows keeps what holds at its stage. -/
theorem holds_step {o : Op} {a : o.Ans} (hclient : s.client = client) (h : g.Holds client header hello_len s)
    (ha : (hand_over peers header hello_len).allow o g) (hs : serves o s a s') :
    ((hand_over peers header hello_len).next o g a).Holds client header hello_len s' := by
  cases o with
  | peek_client len =>
    obtain ⟨-, rfl⟩ := ha
    obtain ⟨hb, rfl⟩ := hs
    exact peeked_holds hclient h fun hello hhello => (hb hello hhello).1
  | connect addr share =>
    obtain ⟨⟨hello, rfl⟩, -⟩ := ha
    exact tried_holds h hs
  | write_all stream buf =>
    obtain ⟨hello, rfl, rfl⟩ := ha
    exact wrote_holds h hs
  | peek stream =>
    obtain ⟨hello, rfl⟩ := ha
    exact looked_holds h hs
  | read_exact len =>
    obtain ⟨rfl, stream, rfl⟩ := ha
    exact read_holds h hs
  | forward_opaque_stream stream =>
    cases ha
    exact copied_holds hclient h hs
  | _ =>
    cases hs
    exact h

theorem start_holds (client header : Bytes) (output : Nat → Bytes) (hello_len : Nat) :
    Stage.waiting.Holds client header hello_len (Net.start client output) :=
  ⟨⟨rfl, rfl, rfl, fun _ => List.nil_prefix⟩, fun _ _ => rfl⟩

/-! ## Every forward -/

/-- At every stage nobody is committed and nothing is touched, or one peer is. -/
theorem Stage.Holds.cases (h : g.Holds client header hello_len s) :
    Untouched (header ++ client.take hello_len) s ∨
      ∃ stream rest, HandedOver client s.output header hello_len stream rest s := by
  cases g with
  | waiting => exact .inl h.toUntouched
  | between hello => exact .inl h.2.toUntouched
  | connected hello stream => exact .inl h.2.1.toUntouched
  | sent hello stream => exact .inl h.2.1.toUntouched
  | answered stream => exact .inr ⟨stream, [], h.1⟩
  | consumed stream => exact .inr ⟨stream, [], h.1⟩
  | finished stream result =>
    obtain ⟨rest, hh, -⟩ := h
    exact .inr ⟨stream, rest, hh⟩

theorem Stage.Holds.untouched (h : g.Holds client header hello_len s) (hg : g.Open) :
    Untouched (header ++ client.take hello_len) s := by
  cases g with
  | waiting => exact h.toUntouched
  | between hello => exact h.2.toUntouched
  | _ => exact hg.elim

end Serving

/-- A forward at any point of any run: in `p`, with the sockets as `s`. -/
abbrev Forwarding (client : Bytes) (output : Nat → Bytes) (peek : PeekInfo) (failover : Router.Failover)
    (mode : ForwardMode) (handshake : Duration) (peer_addr : SocketAddr) (local_addr : Option SocketAddr)
    (p : Forward Forwarded) (s : Net) : Prop :=
  Reached serves (forward_to_peers peek failover mode handshake peer_addr local_addr) (Net.start client output) p s

/-- The stage a forward is at: what holds of the sockets, and how it may go on. -/
theorem Forwarding.stage {client header : Bytes} {output : Nat → Bytes} {peek : PeekInfo} {failover : Router.Failover}
    {mode : ForwardMode} {handshake : Duration} {peer_addr : SocketAddr} {local_addr : Option SocketAddr}
    {p : Forward Forwarded} {s : Net} (hh : write_proxy_v2_header peer_addr local_addr [] = .ok header)
    (h : Forwarding client output peek failover mode handshake peer_addr local_addr p s) :
    ∃ g : Stage, Obeys (hand_over failover.peers header peek.hello_len) Ended p g ∧ s.output = output ∧
      g.Holds client header peek.hello_len s := by
  obtain ⟨g, hp, -, hout, hg⟩ := Reached.inv (forward_to_peers_obeys peek failover mode handshake hh)
    (fun g s => s.client = client ∧ s.output = output ∧ g.Holds client header peek.hello_len s)
    ⟨rfl, rfl, start_holds client header output peek.hello_len⟩
    (fun o g s a s' hI ha hs => ⟨(serves_keeps hs).1.trans hI.1, (serves_keeps hs).2.trans hI.2.1,
      holds_step hI.1 hI.2.2 ha hs⟩) h
  exact ⟨g, hp, hout, hg⟩

/-- For every client stream, mode, peers, and answers of the sockets, at any point
of a forward: at most one peer is committed. While none is, in particular when the
connection is to be served locally, nothing of the client's stream was consumed and
no peer has more than the header and the hello. The committed peer has the header,
the hello once, and then the client's stream from there on, and the client has the
peer's output from its first byte; all of both if the copy ends well. -/
theorem forward_loses_and_repeats_nothing {client : Bytes} {output : Nat → Bytes} {peek : PeekInfo}
    {failover : Router.Failover} {mode : ForwardMode} {handshake : Duration} {peer_addr : SocketAddr}
    {local_addr : Option SocketAddr} {p : Forward Forwarded} {s : Net}
    (h : Forwarding client output peek failover mode handshake peer_addr local_addr p s) :
    ∃ header, write_proxy_v2_header peer_addr local_addr [] = .ok header ∧
      s.committed.length ≤ 1 ∧
      (s.committed = [] → Untouched (header ++ client.take peek.hello_len) s) ∧
      (∀ left, p = .pure (.ServeLocally left) → s.committed = []) ∧
      (∀ stream ∈ s.committed, ∃ rest, HandedOver client output header peek.hello_len stream rest s) ∧
      (p = .pure (.Done (.ok ())) → ∃ stream, s.committed = [stream] ∧
        s.received stream = header ++ client.take peek.hello_len ++ client.drop peek.hello_len ∧
        s.delivered = output stream) := by
  obtain ⟨header, hh, -⟩ := write_proxy_v2_header_bare peer_addr local_addr
  obtain ⟨g, hp, hout, hg⟩ := h.stage hh
  refine ⟨header, hh, ?_, ?_, ?_, ?_, ?_⟩
  · obtain hu | ⟨stream, rest, ho⟩ := hg.cases
    · simp [hu.committed]
    · simp [ho.committed]
  · intro hnone
    obtain hu | ⟨stream, rest, ho⟩ := hg.cases
    · exact hu
    · simp [ho.committed] at hnone
  · rintro left rfl
    obtain ⟨hopen, -⟩ | ⟨stream, result, -, hr⟩ := hp
    · exact (hg.untouched hopen).committed
    · cases hr
  · intro stream hstream
    obtain hu | ⟨i, rest, ho⟩ := hg.cases
    · simp [hu.committed] at hstream
    · obtain rfl : stream = i := by simpa [ho.committed] using hstream
      exact ⟨rest, hout ▸ ho⟩
  · rintro rfl
    obtain ⟨-, hr⟩ | ⟨stream, result, rfl, hr⟩ := hp
    · exact absurd rfl hr
    · cases hr
      obtain ⟨rest, ho, hall⟩ := hg
      obtain ⟨hrest, hdelivered⟩ := hall rfl
      exact ⟨stream, ho.committed, hrest ▸ ho.received, hout ▸ hdelivered⟩

/-! ## A run -/

/-- Sockets that answer at once, and a copy that reaches both ends. -/
def brisk : (o : Op) → Net → o.Ans × Net
  | .instant, s | .now_ns, s | .next_cursor, s | .cooldown _, s => (0, s)
  | .fetch_add _, s | .clear_cooldown _, s | .record_failure .., s => ((), s)
  | .peek_client len, s => (some ((s.client.drop s.consumed).take len), s)
  | .connect _ _, s => (some (.ok s.opened), { s with opened := s.opened + 1 })
  | .write_all stream buf, s => (some (.ok ()), s.write stream buf)
  | .peek stream, s =>
    if s.output stream = [] then (some (.ok 0), s)
    else (some (.ok 1), { s with committed := s.committed ++ [stream] })
  | .read_exact len, s =>
    if len ≤ (s.client.drop s.consumed).length then (.ok (), { s with consumed := s.consumed + len })
    else (.error (), s)
  | .forward_opaque_stream stream, s =>
    (.ok (), { s.write stream (s.client.drop s.consumed) with
      consumed := s.client.length, delivered := s.delivered ++ s.output stream })

theorem brisk_serves (o : Op) (s : Net) : serves o s (brisk o s).1 (brisk o s).2 := by
  cases o with
  | peek_client len =>
    refine ⟨fun b hb => ?_, rfl⟩
    cases hb
    exact ⟨List.take_prefix _ _, List.length_take_le _ _⟩
  | connect addr share => exact .inl ⟨rfl, rfl⟩
  | write_all stream buf => exact ⟨buf, List.prefix_refl _, fun _ => rfl, rfl⟩
  | peek stream =>
    simp only [brisk]
    split
    · exact .inr ⟨nofun, rfl⟩
    · next h => exact .inl ⟨0, rfl, h, rfl⟩
  | read_exact len =>
    simp only [brisk]
    split
    · next h => exact ⟨len, le_refl _, h, fun _ => rfl, rfl⟩
    · exact ⟨0, Nat.zero_le _, Nat.zero_le _, nofun, rfl⟩
  | forward_opaque_stream stream =>
    exact ⟨_, _, Copy.run_all _, Copy.run_all _, fun _ => ⟨⟨rfl, rfl⟩, rfl, rfl⟩, rfl⟩
  | _ => rfl

/-- Two peers, the first of which closes without a byte. -/
def two_peers : Router.Failover :=
  ⟨0, true, 0, 1, 2, [⟨1, .new (.V4 1) 9⟩, ⟨2, .new (.V4 2) 9⟩], none, 3, none⟩

theorem forward_loses_and_repeats_nothing_second_peer :
    let output : Nat → Bytes := fun j => if j = 0 then [] else [22, 3, 3]
    ∃ s, Forwarding [22, 1, 2, 3] output ⟨none, [], [], true, 3, false⟩ two_peers .Drain 1000 (.new (.V4 7) 80) none
        (.pure (.Done (.ok ()))) s ∧
      ∃ header stream, s.committed = [stream] ∧ s.received stream = header ++ [22, 1, 2] ++ [3] ∧
        s.delivered = output stream := by
  intro output
  let prog := forward_to_peers ⟨none, [], [], true, 3, false⟩ two_peers .Drain 1000 (.new (.V4 7) 80) none
  have hrun : (Prog.run brisk prog (Net.start [22, 1, 2, 3] output)).1 = .ok (.Done (.ok ())) := by
    with_unfolding_all rfl
  have h : Forwarding [22, 1, 2, 3] output ⟨none, [], [], true, 3, false⟩ two_peers .Drain 1000 (.new (.V4 7) 80) none
      (.pure (.Done (.ok ()))) (Prog.run brisk prog (Net.start [22, 1, 2, 3] output)).2 :=
    Reached.run brisk_serves .start (Prod.ext hrun rfl)
  obtain ⟨header, -, -, -, -, -, hdone⟩ := forward_loses_and_repeats_nothing h
  obtain ⟨stream, hc, hr, hd⟩ := hdone rfl
  exact ⟨_, h, header, stream, hc, hr, hd⟩

end Symphony.Failover
