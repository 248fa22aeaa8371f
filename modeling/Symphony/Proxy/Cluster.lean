import Symphony.Proxy.Gate
/-!
# Forwards across a cluster

Connections of any number of nodes, each a run of `handle`. When a forward connects to a
peer, the listener there accepts the connection and handles it in turn. What the nodes
are configured with, and how their state changes, is in the answers the operations get;
the one thing asked of a configuration is that failover peers are ingress listeners.
-/

namespace Symphony.Proxy

open Lib Lib.Prog

/-- The failover peers of the route, if it has any, are among `listeners`. -/
def PeersAmong (listeners : SocketAddr → Prop) (route : Router.Route) : Prop :=
  ∀ failover, route.failover = some failover → ∀ peer ∈ failover.peers, listeners peer.addr

/-- Where a connection is: after this many forwards, and on an ingress listener or not. -/
structure Place where
  hops : Nat
  ingress : Bool
  deriving DecidableEq, Repr

/-- A connection that has come this far is accepted. -/
def Accepts (hops : Nat) (t : Place) (p : Handle Unit) : Prop :=
  ∃ (ctx : ConnContext) (peer_addr : SocketAddr) (local_addr : Option SocketAddr),
    t = ⟨hops, ctx.ingress⟩ ∧ p = handle ctx peer_addr local_addr

/-- Clients connect to any listener. A forward that connects to an address puts the
connection on the listener there, which is an ingress listener if the address is one
of `listeners`. -/
def cluster (listeners : SocketAddr → Prop) : Pool Op Op.Ans Empty Unit Place where
  joins := Accepts 0
  answers
    | .resolve_with .., resolved => ∀ route, resolved = some route → PeersAmong listeners route
    | _, _ => True
  starts t
    | .forwarding (.connect addr _), some (.ok _) => fun t' p' =>
      Accepts (t.hops + 1) t' p' ∧ (listeners addr → t'.ingress = true)
    | _, _ => fun _ _ => False

/-- At most one hop, the second part of it on an ingress listener; and what is left of the
handler goes on after its history, in which the peers are among the ingress listeners. -/
structure OneHop (listeners : SocketAddr → Prop) (t : Place) (p : Handle Unit) : Prop where
  hops : t.hops ≤ 1
  ingress : t.hops = 1 → t.ingress = true
  obeys : ∃ ctx peer_addr past, t.ingress = ctx.ingress ∧ Gated ctx peer_addr past (fun _ _ => True) p ∧
    ∀ sni allow_default route, Answered past (.resolve_with sni allow_default) (some route) → PeersAmong listeners route

section OneHop

variable {listeners : SocketAddr → Prop} {t : Place} {o : Op} {k : o.Ans → Handle Unit} {a : o.Ans}

theorem OneHop.accepted {hops : Nat} {p : Handle Unit} (h : Accepts hops t p) (hle : hops ≤ 1)
    (hi : hops = 1 → t.ingress = true) : OneHop listeners t p := by
  obtain ⟨ctx, peer_addr, local_addr, rfl, rfl⟩ := h
  exact ⟨hle, hi, ctx, peer_addr, [], rfl, handle_gated ctx peer_addr local_addr, fun _ _ _ h => absurd h List.not_mem_nil⟩

theorem OneHop.step (h : OneHop listeners t (.op o k)) (ha : (cluster listeners).answers o a) :
    OneHop listeners t (k a) := by
  obtain ⟨ctx, peer_addr, past, ht, ⟨-, hk⟩, hpast⟩ := h.obeys
  refine ⟨h.hops, h.ingress, ctx, peer_addr, _, ht, hk a, ?_⟩
  intro sni allow_default route hmem
  rcases List.mem_append.1 hmem with hmem | hmem
  · exact hpast sni allow_default route hmem
  · cases List.mem_singleton.1 hmem
    exact ha route rfl

theorem OneHop.start {t' : Place} {p' : Handle Unit} (h : OneHop listeners t (.op o k))
    (hs : (cluster listeners).starts t o a t' p') : OneHop listeners t' p' := by
  obtain ⟨ctx, peer_addr, past, ht, ⟨hallow, -⟩, hpast⟩ := h.obeys
  cases o with
  | forwarding o =>
    cases o with
    | connect addr share =>
      match a, hs with
      | some (.ok stream), hs =>
        -- only a connection that is not on an ingress listener forwards, so it is on its first node
        obtain ⟨hingress, v, failover, hv, hf, hpeer⟩ := hallow
        obtain ⟨peer, hmem, rfl⟩ := hpeer addr share rfl
        rw [← ht] at hingress
        have hzero : t.hops = 0 := by
          have := h.hops
          have : t.hops ≠ 1 := fun h1 => by simp [h.ingress h1] at hingress
          omega
        exact OneHop.accepted hs.1 (by omega) fun _ => hs.2 (hpast _ _ _ hv.resolved failover hf peer hmem)
    | _ => exact hs.elim
  | _ => exact hs.elim

end OneHop

/-- A forwarded connection is not forwarded again: a connection on an ingress listener
never performs an operation of `forward_to_peers`, whatever its surroundings answer, and
in a cluster whose failover peers are ingress listeners every connection has crossed at
most one hop. -/
theorem forwarded_at_most_once (listeners : SocketAddr → Prop) :
    (∀ ctx : ConnContext, ctx.ingress = true → ∀ (σ : Type) (H : (o : Op) → σ → o.Ans → σ → Prop) peer_addr
    local_addr s₀
      o k s, Reached H (handle ctx peer_addr local_addr) s₀ (.op o k) s → ∀ forward, o ≠ .forwarding forward) ∧
    ∀ conns, (cluster listeners).Run conns → ∀ c ∈ conns, c.1.hops ≤ 1 := by
  constructor
  · intro ctx hi σ H peer_addr local_addr s₀ o k s h forward
    obtain ⟨past, hobeys, -⟩ := Reached.inv (handle_gated ctx peer_addr local_addr) (fun _ _ => True) trivial
      (fun _ _ _ _ _ _ _ _ => trivial) h
    rintro rfl
    have hfree := hobeys.1.1
    rw [hi] at hfree
    cases hfree
  · intro conns h c hc
    have hall := h.each (OneHop listeners) (fun t p hj => OneHop.accepted hj (Nat.zero_le 1) nofun)
      (fun t o k a hJ ha => hJ.step ha) (fun t o k a t' p' hJ _ hs => hJ.start hs)
    exact (hall c hc).hops

/-! ### A route that is down -/

def ingressListener : ConnContext := { clientListener with ingress := true }

/-- The client's connection on the first node, when it is about to connect to the peer. -/
def aboutToForward : Handle Unit := (handle clientListener (.new (.V4 7) 50000) none).after downAnswers 9

/-- A connection to a route that is down: after nine operations it is forwarded, and
the peer handles it as an ingress connection. -/
theorem forwarded_at_most_once_down :
    (∀ o k s, Reached (fun _ _ _ _ => True) (handle ingressListener (.new (.V4 8) 40000) none) () (.op o k) s →
      ∀ forward, o ≠ .forwarding forward) ∧
    ∃ conns, (cluster (· = peerListener)).Run conns ∧ (∃ c ∈ conns, c.1.hops = 1) ∧ ∀ c ∈ conns, c.1.hops ≤ 1 := by
  obtain ⟨hingress, hhops⟩ := forwarded_at_most_once (· = peerListener)
  refine ⟨hingress ingressListener rfl Unit (fun _ _ _ _ => True) _ _ (), ?_⟩
  have hanswers : ∀ o, (cluster (· = peerListener)).answers o (downAnswers o) := by
    intro o
    cases o with
    | resolve_with sni allow_default =>
      rintro route ⟨⟩ failover ⟨⟩ peer hp
      rw [List.mem_singleton.1 hp]
    | _ => trivial
  have hjoin : (cluster (· = peerListener)).Run [(⟨0, false⟩, handle clientListener (.new (.V4 7) 50000) none)] :=
    .join .nil ⟨clientListener, _, _, rfl, rfl⟩
  have hrun : (cluster (· = peerListener)).Run ([] ++ (⟨0, false⟩, aboutToForward) :: []) := hjoin.after hanswers 9
  obtain ⟨share, k, hconnect⟩ : ∃ share k, aboutToForward = .op (.forwarding (.connect peerListener share)) k :=
    ⟨_, _, by with_unfolding_all rfl⟩
  rw [hconnect] at hrun
  have hstarts : (cluster (· = peerListener)).starts ⟨0, false⟩ (.forwarding (.connect peerListener share))
    (some (.ok 0))
      ⟨1, true⟩ (handle ingressListener (.new (.V4 8) 40000) none) :=
    ⟨⟨ingressListener, _, _, rfl, rfl⟩, fun _ => rfl⟩
  have hforward := hrun.start trivial hstarts
  exact ⟨_, hforward, ⟨_, List.mem_append_right _ (List.mem_singleton.2 rfl), rfl⟩, hhops _ hforward⟩

end Symphony.Proxy
