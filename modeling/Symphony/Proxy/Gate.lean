import Symphony.Proxy.Handle
/-!
# What a client must pass before anything is done for it

The history of a connection is what `handle` asked and how it was answered. Before
anything is done for a client, the history has what lets it through: the header of a
trusted peer on an ingress listener, the protection check, the route its name resolved
to, the route's source list and its limiter. A local upstream is reached after the
handshake, unless the route is one where it may be reached before.
-/

namespace Symphony.Proxy

open Lib Lib.Prog
open Failover (Duration)
open Router (Route Destination ServerConfig)
open Sni (PeekInfo)

abbrev Journal := History Op Op.Ans

/-! ## What has to be in the history -/

/-- A client, what its hello says, and the route it asks for. -/
structure Visit where
  client : SocketAddr
  info : PeekInfo
  route : Route

section Conditions

variable (ctx : ConnContext) (peer_addr : SocketAddr) (past : Journal)

/-- The connection is handled under this address: that of the TCP peer, or on an ingress
listener the one in the header of a trusted peer. -/
structure Identified (client : SocketAddr) : Prop where
  direct : ctx.ingress = false → client = peer_addr
  trusted : ctx.ingress = true → Answered past (.trusts peer_addr.ip) true ∧
    Answered past (.read_proxy_v2 ctx.handshake_timeout) (.ok (.Proxy client))

/-- And the protection check let it pass. -/
structure Peeked (client : SocketAddr) (info : PeekInfo) : Prop extends Identified ctx peer_addr past client where
  peeked : Answered past .peek info
  passed : ctx.protection = true →
    ∃ decision, Answered past (.check client.ip info) decision ∧ ∀ reason, decision ≠ .Block reason

/-- It may use the route, if the limiter has a token. -/
structure Admitted (v : Visit) : Prop extends Peeked ctx peer_addr past v.client v.info where
  /-- By the name in the hello; the default route is not for ingress connections. -/
  resolved : Answered past (.resolve_with v.info.sni (!ctx.ingress)) (some v.route)
  permitted : refused v.route.allowed_sources v.client.ip = false

/-- And it had one. -/
structure Cleared (v : Visit) : Prop extends Admitted ctx peer_addr past v where
  token : ∀ limiter, v.route.rate_limiter = some limiter → Answered past (.try_acquire limiter) true

/-- Where the connection goes: as the route says, or for a suspended route as
`resolveConnection` said, whose own source list the client passed. -/
inductive Effective (v : Visit) : EffectiveRoute → Prop
  | static : v.route.suspended = false →
      Effective v ⟨v.route.destination, v.route.destination_h2, v.route.tls_config, v.route.terminate_tls,
        v.route.source_address_mode, v.route.forward_fingerprint, v.route.protocol⟩
  | resolved (r : ResolvedRoute) : v.route.suspended = true →
      Answered past (.await_resolution v.route.suspend_timeout) (some r) → refused r.allowed_sources v.client.ip = false →
      Effective v ⟨r.destination, none, r.tls_config, r.terminate_tls, r.source_address_mode, r.forward_fingerprint,
        r.protocol⟩

structure Served (v : Visit) (effective : EffectiveRoute) : Prop extends Cleared ctx peer_addr past v where
  effective : Effective past v effective

/-- The handshake with the route's configuration is done, and negotiated this protocol. -/
def Handshaken (effective : EffectiveRoute) (alpn : Option Bytes) : Prop :=
  effective.terminate_tls = true ∧ ∃ config limit, effective.tls_config = some config ∧
    Answered past (.tls_accept config limit) (some alpn)

/-- Why the destination may be connected to now. -/
inductive Reachable (v : Visit) (effective : EffectiveRoute) : Destination → Prop
  /-- The bytes are passed through. -/
  | raw : effective.terminate_tls = false → Reachable v effective effective.destination
  /-- Before the handshake, so that a peer can still take the connection. -/
  | early (h2 : Bool) : ctx.ingress = false → v.route.suspended = false → v.route.failover.isSome = true →
      v.route.requires_client_cert = false → v.info.complete = true →
      Reachable v effective (effective.destination_for h2)
  | accepted (alpn : Option Bytes) : Handshaken past effective alpn →
      Reachable v effective (effective.destination_for (alpn == some (bytes "h2")))

/-- What must have happened for an operation to be performed. -/
def May : Op → Prop
  | .resolve_with name allow_default => ∃ client info, Peeked ctx peer_addr past client info ∧ name = info.sni ∧
      allow_default = !ctx.ingress
  | .try_acquire limiter => ∃ v, Admitted ctx peer_addr past v ∧ v.route.rate_limiter = some limiter
  | .locally_down .. | .spill_target .. | .forwarding _ => ∃ v, Cleared ctx peer_addr past v
  | .await_resolution _ => ∃ v, Cleared ctx peer_addr past v ∧ v.route.suspended = true
  | .connect destination ip _ _ => ∃ v effective, Served ctx peer_addr past v effective ∧ ip = v.client.ip ∧
      Reachable ctx past v effective destination
  | .tls_accept config _ => ∃ v effective, Served ctx peer_addr past v effective ∧ effective.terminate_tls = true ∧
      effective.tls_config = some config
  | .proxy_via_tls _ effective addr _ => ∃ v alpn, Served ctx peer_addr past v effective ∧ addr = v.client ∧
      Handshaken past effective alpn
  | .proxy_raw _ effective addr _ => ∃ v, Served ctx peer_addr past v effective ∧ addr = v.client ∧
      effective.terminate_tls = false
  | _ => True

/-- And besides: a connection on an ingress listener performs no operation of a forward, and
another one forwards only to the peers of the route it resolved to. -/
def Passes : Op → Prop
  | .forwarding o => ctx.ingress = false ∧ ∃ v failover, Cleared ctx peer_addr past v ∧
      v.route.failover = some failover ∧ ∀ addr share, o = .connect addr share → ∃ peer ∈ failover.peers, peer.addr = addr
  | o => May ctx peer_addr past o

end Conditions

/-! ## The handler keeps to it -/

section Gate

variable {ctx : ConnContext} {peer_addr client : SocketAddr} {past past' : Journal} {info : PeekInfo} {v : Visit}
  {effective : EffectiveRoute}

theorem Identified.mono (h : Identified ctx peer_addr past client) (hsub : past ⊆ past') :
    Identified ctx peer_addr past' client :=
  ⟨h.direct, fun hi => (h.trusted hi).imp (@hsub _) (@hsub _)⟩

theorem Peeked.mono (h : Peeked ctx peer_addr past client info) (hsub : past ⊆ past') :
    Peeked ctx peer_addr past' client info :=
  ⟨h.toIdentified.mono hsub, hsub h.peeked, fun hp => (h.passed hp).imp fun _ hd => hd.imp_left (@hsub _)⟩

theorem Cleared.mono (h : Cleared ctx peer_addr past v) (hsub : past ⊆ past') : Cleared ctx peer_addr past' v :=
  ⟨⟨h.toPeeked.mono hsub, hsub h.resolved, h.permitted⟩, fun limiter hl => hsub (h.token limiter hl)⟩

theorem Served.mono (h : Served ctx peer_addr past v effective) (hsub : past ⊆ past') :
    Served ctx peer_addr past' v effective := by
  refine ⟨h.toCleared.mono hsub, ?_⟩
  cases h.effective with
  | static hs => exact .static hs
  | resolved r hs hr hp => exact .resolved r hs (hsub hr) hp

theorem Passes.may {o : Op} (h : Passes ctx peer_addr past o) : May ctx peer_addr past o := by
  cases o with
  | forwarding o =>
    obtain ⟨-, v, -, hv, -⟩ := h
    exact ⟨v, hv⟩
  | _ => exact h

/-- Operations are performed only after what they need. -/
abbrev gate (ctx : ConnContext) (peer_addr : SocketAddr) : Protocol Op Op.Ans Journal :=
  following (Passes ctx peer_addr)

/-- What holds if the connection goes on. -/
def OnSome {α : Type} (Q : α → Journal → Prop) : Option α → Journal → Prop
  | none, _ => True
  | some a, past => Q a past

variable (ctx peer_addr past) in
/-- The program can be run after this history. -/
def Gated {α : Type} (Q : α → Journal → Prop) (p : Handle α) : Prop := Obeys (gate ctx peer_addr) Q p past

theorem read_source_gated :
    Gated ctx peer_addr [] (OnSome fun client past' => Identified ctx peer_addr past' client)
      (read_source ctx peer_addr) := by
  unfold read_source
  split
  · next hi => exact ⟨fun _ => rfl, fun hi' => by simp [hi'] at hi⟩
  · next hi =>
    refine Obeys.ask trivial fun trusted past₁ _ ht => ?_
    cases trusted with
    | false => exact ⟨trivial, fun _ => trivial⟩
    | true =>
      refine Obeys.ask trivial fun header past₂ hsub hh => ?_
      match header with
      | .error reject => exact ⟨trivial, fun _ => trivial⟩
      | .ok (.LoadQuery names) => exact ⟨trivial, fun _ => trivial⟩
      | .ok (.Proxy source) => exact ⟨fun hi' => by simp [hi'] at hi, fun _ => ⟨hsub ht, hh⟩⟩

theorem protect_gated (h : Identified ctx peer_addr past client) (hpeek : Answered past .peek info) :
    Gated ctx peer_addr past (OnSome fun _ past' => Peeked ctx peer_addr past' client info)
      (protect ctx client.ip info) := by
  unfold protect
  split
  · next hp => exact ⟨h, hpeek, fun hp' => by simp [hp'] at hp⟩
  · refine Obeys.ask trivial fun decision past₁ hsub hd => ?_
    cases decision with
    | Block reason => exact ⟨trivial, fun _ => trivial⟩
    | AllowBypassed => exact ⟨h.mono hsub, hsub hpeek, fun _ => ⟨_, hd, nofun⟩⟩
    | Allow state => exact ⟨h.mono hsub, hsub hpeek, fun _ => ⟨_, hd, nofun⟩⟩

theorem take_token_gated (h : Admitted ctx peer_addr past v) :
    Gated ctx peer_addr past (OnSome fun route past' => Cleared ctx peer_addr past' { v with route })
      (take_token v.route) := by
  unfold take_token
  split
  · next hl => exact ⟨h, fun limiter hs => by rw [hl] at hs; cases hs⟩
  · next limiter hl =>
    refine Obeys.ask ⟨v, h, hl⟩ fun token past₁ hsub ht => ?_
    cases token with
    | false => exact ⟨trivial, fun _ => trivial⟩
    | true =>
      refine ⟨⟨h.toPeeked.mono hsub, hsub h.resolved, h.permitted⟩, fun limiter' hl' => ?_⟩
      obtain rfl := Option.some.inj (hl.symm.trans hl')
      exact ht

theorem admit_route_gated {resolved : Option Route} (h : Peeked ctx peer_addr past client info)
    (hres : Answered past (.resolve_with info.sni (!ctx.ingress)) resolved) :
    Gated ctx peer_addr past (OnSome fun route past' => Cleared ctx peer_addr past' ⟨client, info, route⟩)
      (admit_route client.ip resolved) := by
  cases resolved with
  | none => exact ⟨trivial, fun _ => trivial⟩
  | some route =>
    rw [admit_route]
    split
    · exact ⟨trivial, fun _ => trivial⟩
    · next hr => exact take_token_gated (v := ⟨client, info, route⟩) ⟨h, hres, by simpa using hr⟩

section

variable (h : Cleared ctx peer_addr past v)

include h

/-- A forward asks for nothing but what a cleared client may have. -/
theorem forward_gated (hi : ctx.ingress = false) {failover : Router.Failover} (hf : v.route.failover = some failover)
    (peek_info : PeekInfo) (mode : Failover.ForwardMode) (handshake : Duration) (source : SocketAddr)
    (local_addr : Option SocketAddr) :
    Gated ctx peer_addr past (fun _ _ => True)
      (forwarding (Failover.forward_to_peers peek_info failover mode handshake source local_addr)) := by
  refine Obeys.embed_following (Failover.forward_to_peers_among ..) fun o _ hsub ho => ?_
  refine ⟨hi, v, failover, h.mono hsub, hf, ?_⟩
  rintro addr share rfl
  exact ho

theorem decide_gated (suspended down drain : Bool) (failover : Router.Failover) (source : SocketAddr) :
    Gated ctx peer_addr past (fun d _ => ∀ mode, d = .Forward mode → ctx.ingress = false)
      (decide ctx.ingress suspended down drain (spill_target failover source)) := by
  unfold decide
  split
  · intro mode hd
    split at hd <;> cases hd
  next hi =>
  have hi : ctx.ingress = false := by simpa using hi
  iterate 3
    split
    · exact fun _ _ => hi
  refine Obeys.andThen (Q := fun _ _ => True) ?_ fun peer _ _ _ => ?_
  · unfold spill_target
    split
    · trivial
    · exact ⟨⟨v, h⟩, fun _ => trivial⟩
  · cases peer <;> exact fun _ _ => hi

theorem fail_over_gated (local_addr : Option SocketAddr) :
    Gated ctx peer_addr past (fun _ _ => True) (fail_over ctx v.route v.info v.client local_addr) := by
  unfold fail_over
  split
  · trivial
  · next failover hf =>
    refine Obeys.ask ⟨v, h⟩ fun down past₁ h₁ _ => ?_
    refine Obeys.andThen (decide_gated (h.mono h₁) ..) fun decision past₂ h₂ hforward => ?_
    cases decision with
    | Refuse => exact ⟨trivial, fun _ => trivial⟩
    | Local => trivial
    | Forward mode =>
      have hcleared := (h.mono h₁).mono h₂
      refine Obeys.andThen (forward_gated hcleared (hforward mode rfl) hf ..) fun forwarded past₃ _ _ => ?_
      match forwarded with
      | .Done (.ok _) => trivial
      | .Done (.error kind) => exact ⟨trivial, fun _ => trivial⟩
      | .ServeLocally left => trivial

theorem effective_route_gated :
    Gated ctx peer_addr past (OnSome fun effective past' => Served ctx peer_addr past' v effective)
      (effective_route v.route v.client.ip) := by
  unfold effective_route
  split
  · next hs =>
    refine Obeys.ask ⟨v, h, hs⟩ fun resolved past₁ hsub ha => ?_
    cases resolved with
    | none => exact ⟨trivial, fun _ => trivial⟩
    | some resolved =>
      dsimp only
      split
      · exact ⟨trivial, fun _ => trivial⟩
      · next hr => exact ⟨h.mono hsub, .resolved resolved hs ha (by simpa using hr)⟩
  · next hs => exact ⟨h, .static (by simpa using hs)⟩

end

variable (ctx v) in
/-- The peers a failed connect goes on to are those of a route that is neither suspended
nor on an ingress listener. -/
def Offered (peers : Peers) : Prop :=
  ∀ failover deadline, peers = some (failover, deadline) →
    ctx.ingress = false ∧ v.route.suspended = false ∧ v.route.failover = some failover

theorem peers_of_gated (hs_timeout : Duration) :
    Gated ctx peer_addr past (fun peers _ => Offered ctx v peers) (peers_of ctx v.route hs_timeout) := by
  unfold peers_of
  split
  · exact nofun
  · next failover hf =>
    refine ⟨trivial, ?_⟩
    rintro now _ _ ⟨⟩
    split at hf
    · cases hf
    · next hi =>
      obtain ⟨hsome, hs⟩ := Option.filter_eq_some_iff.1 hf
      exact ⟨by simpa using hi, by simpa using hs, hsome⟩

section Serving

variable {s : Serving} {destination : Destination} (hinfo : v.info = s.peek_info) (hclient : v.client = s.peer_addr)

include hclient in
theorem connect_or_forward_gated (h : Served s.ctx peer_addr past v s.route)
    (hr : Reachable s.ctx past v s.route destination) {peers : Peers} (hp : Offered s.ctx v peers)
    (hs_timeout : Duration) :
    Gated s.ctx peer_addr past (fun _ _ => True) (connect_or_forward s destination peers hs_timeout) := by
  refine Obeys.ask ⟨v, s.route, h, by rw [hclient], hr⟩ fun upstream past₁ h₁ _ => ?_
  cases upstream with
  | some upstream => trivial
  | none =>
    refine Obeys.ask trivial fun _ past₂ h₂ _ => ?_
    match peers, hp with
    | none, _ => trivial
    | some (failover, deadline), hp =>
      obtain ⟨hi, -, hf⟩ := hp failover deadline rfl
      refine Obeys.ask trivial fun now past₃ h₃ _ => ?_
      have hcleared := ((h.toCleared.mono h₁).mono h₂).mono h₃
      refine Obeys.andThen (forward_gated hcleared hi hf ..) fun forwarded _ _ _ => ?_
      match forwarded with
      | .Done (.ok _) | .ServeLocally _ | .Done (.error .UpstreamConnect) => trivial
      | .Done (.error .IdleTimeout) | .Done (.error .HalfClosed) | .Done (.error .PeerTimeout)
      | .Done (.error .Stream) => exact ⟨trivial, fun _ => trivial⟩

theorem finish_gated (result : Except Failover.ErrorKind Unit) :
    Gated ctx peer_addr past (fun _ _ => True) (finish result) := by
  cases result with
  | ok _ => trivial
  | error kind => exact ⟨trivial, fun _ => trivial⟩

include hclient in
theorem upstream_for_gated (h : Served s.ctx peer_addr past v s.route) {alpn : Option Bytes}
    (ha : Handshaken past s.route alpn) (predicted_h2 : Bool) (early : Option Nat) :
    Gated s.ctx peer_addr past (fun _ _ => True) (upstream_for s predicted_h2 (alpn == some (bytes "h2")) early) := by
  refine Obeys.andThen (Q := fun _ _ => True) ?_ fun kept past₁ hsub _ => ?_
  · cases early with
    | none => trivial
    | some upstream =>
      rw [keep_upstream]
      split
      · trivial
      · exact ⟨trivial, fun _ => trivial⟩
  · cases kept with
    | some upstream => trivial
    | none =>
      obtain ⟨ht, config, limit, hc, ha⟩ := ha
      exact ⟨⟨v, s.route, h.mono hsub, by rw [hclient], .accepted alpn ⟨ht, config, limit, hc, hsub ha⟩⟩, fun _ => trivial⟩

include hinfo hclient in
theorem serve_tls_gated (h : Served s.ctx peer_addr past v s.route) {config : ServerConfig}
    (ht : s.route.terminate_tls = true) (hc : s.route.tls_config = some config) {peers : Peers} (hs_timeout : Duration)
    (hp : Offered s.ctx v peers) :
    Gated s.ctx peer_addr past (fun _ _ => True)
      (serve_tls s config peers v.route.requires_client_cert hs_timeout) := by
  refine Obeys.andThen (Q := fun _ _ => True) ?_ fun early past₁ h₁ _ => ?_
  · -- before the handshake only where the hello is whole and no certificate is asked for
    cases hearly : if s.peek_info.complete && !v.route.requires_client_cert then peers else none with
    | none => trivial
    | some early =>
      split at hearly
      · next hwhole =>
        simp only [Bool.and_eq_true, Bool.not_eq_true', ← hinfo] at hwhole
        rw [hearly] at hp
        obtain ⟨hi, hsus, hf⟩ := hp early.1 early.2 rfl
        have hsome : v.route.failover.isSome = true := by rw [hf]; rfl
        refine Obeys.andThen (connect_or_forward_gated hclient h (.early _ hi hsus hsome hwhole.2 hwhole.1) hp _)
          fun upstream _ _ _ => ?_
        cases upstream with
        | none => trivial
        | some upstream => exact ⟨trivial, fun _ => trivial⟩
      · cases hearly
  · cases early with
    | none => trivial
    | some early =>
      refine Obeys.ask ⟨v, s.route, h.mono h₁, ht, hc⟩ fun alpn past₂ h₂ ha => ?_
      cases alpn with
      | none => exact ⟨trivial, fun _ => trivial⟩
      | some alpn =>
        have hserved := (h.mono h₁).mono h₂
        have hshaken : Handshaken past₂ s.route alpn := ⟨ht, config, early.2, hc, ha⟩
        refine Obeys.andThen (upstream_for_gated hclient hserved hshaken ..) fun upstream past₃ h₃ _ => ?_
        cases upstream with
        | none => exact finish_gated _
        | some upstream =>
          exact Obeys.ask ⟨v, alpn, hserved.mono h₃, hclient.symm, ht, config, early.2, hc, h₃ ha⟩
            fun result _ _ _ => finish_gated _

include hinfo hclient in
theorem serve_gated (h : Served s.ctx peer_addr past v s.route) {peers : Peers} (hs_timeout : Duration)
    (hp : Offered s.ctx v peers) :
    Gated s.ctx peer_addr past (fun _ _ => True) (serve s peers v.route.requires_client_cert hs_timeout) := by
  unfold serve
  split
  · next ht =>
    split
    · next config hc => exact serve_tls_gated hinfo hclient h ht hc hs_timeout hp
    · exact ⟨trivial, fun _ => trivial⟩
  · next ht =>
    have ht : s.route.terminate_tls = false := by simpa using ht
    refine Obeys.andThen (connect_or_forward_gated hclient h (.raw ht) hp hs_timeout) fun upstream past₁ h₁ _ => ?_
    cases upstream with
    | none => trivial
    | some upstream =>
      exact Obeys.ask ⟨v, h.mono h₁, hclient.symm, ht⟩ fun result _ _ _ => finish_gated _

end Serving

theorem handle_gated (ctx : ConnContext) (peer_addr : SocketAddr) (local_addr : Option SocketAddr) :
    Gated ctx peer_addr [] (fun _ _ => True) (handle ctx peer_addr local_addr) := by
  refine Obeys.andThen read_source_gated fun source past₁ _ hsource => ?_
  cases source with
  | none => trivial
  | some client =>
    refine Obeys.ask trivial fun info past₂ h₂ hpeek => ?_
    refine Obeys.andThen (protect_gated (Identified.mono hsource h₂) hpeek) fun passed past₃ h₃ hpeeked => ?_
    cases passed with
    | none => trivial
    | some _ =>
      refine Obeys.ask ⟨client, info, hpeeked, rfl, rfl⟩ fun resolved past₄ h₄ hres => ?_
      refine Obeys.andThen (admit_route_gated (Peeked.mono hpeeked h₄) hres) fun route past₅ h₅ hcleared => ?_
      cases route with
      | none => trivial
      | some route =>
        refine Obeys.andThen (fail_over_gated hcleared local_addr) fun hs_timeout past₆ h₆ _ => ?_
        cases hs_timeout with
        | none => trivial
        | some hs_timeout =>
          refine Obeys.andThen (effective_route_gated (Cleared.mono hcleared h₆)) fun effective past₇ h₇ hserved => ?_
          cases effective with
          | none => trivial
          | some effective =>
            refine Obeys.andThen (peers_of_gated (v := ⟨client, info, route⟩) hs_timeout) fun peers past₈ h₈ hp => ?_
            exact serve_gated (v := ⟨client, info, route⟩)
              (s := ⟨ctx, info, client, local_addr, (tracked route).bind (·.tcp_health), effective⟩) rfl rfl
              (Served.mono hserved h₈) hs_timeout hp

end Gate

/-! ## For every history -/

/-- Whatever its surroundings answer, `handle` does nothing for a client before the client
is let through: every operation in the history of a connection was performed after what
`May` asks for it. -/
theorem acts_only_when_cleared (ctx : ConnContext) (peer_addr : SocketAddr) (local_addr : Option SocketAddr)
    (p : Handle Unit) (past : Journal) (h : Reached records (handle ctx peer_addr local_addr) [] p past) :
    ∀ before o a, before ++ [⟨o, a⟩] <+: past → May ctx peer_addr before o := by
  intro before o a hpast
  exact ((h.follows (handle_gated ctx peer_addr local_addr)).2 before o a hpast).may

def peerListener : SocketAddr := .new (.V4 0x0a000002) 8443

def downRoute : Router.Route where
  metric_identity := ⟨0, bytes "a.example.com", [], 1⟩
  destination := .Tcp (.new (.V4 0x7f000001) 9000)
  destination_h2 := none
  tls_config := none
  terminate_tls := false
  suspended := false
  suspend_timeout := 0
  rate_limiter := none
  source_address_mode := .None
  forward_fingerprint := ⟨false, false⟩
  protocol := .Opaque
  allowed_sources := none
  failover := some ⟨2, false, 1000000000, 5000000000, 60000000000, [⟨3, peerListener⟩], some 4, 5, none⟩
  requires_client_cert := false

/-- Surroundings in which the route is down and its peer is ready. -/
def downAnswers : (o : Op) → o.Ans
  | .trusts _ => true
  | .read_proxy_v2 _ => .error .Invalid
  | .answer_load_query .. => ()
  | .inc_blocked _ => ()
  | .inc_error _ => ()
  | .peek => ⟨some (bytes "a.example.com"), [], [], true, 3, false⟩
  | .check .. => .AllowBypassed
  | .resolve_with .. => some downRoute
  | .try_acquire _ => true
  | .locally_down .. => true
  | .spill_target .. => none
  | .forwarding .instant => (0 : Nat)
  | .forwarding .now_ns => (1 : Nat)
  | .forwarding (.fetch_add _) => ()
  | .forwarding .next_cursor => (0 : Nat)
  | .forwarding (.cooldown _) => (0 : Nat)
  | .forwarding (.clear_cooldown _) => ()
  | .forwarding (.record_failure ..) => ()
  | .forwarding (.peek_client len) => some (List.replicate len 0)
  | .forwarding (.connect ..) => some (.ok 0)
  | .forwarding (.write_all ..) => some (.ok ())
  | .forwarding (.peek _) => some (.ok 1)
  | .forwarding (.read_exact _) => .ok ()
  | .forwarding (.forward_opaque_stream _) => .ok ()
  | .await_resolution _ => none
  | .instant => (0 : Nat)
  | .connect .. => none
  | .tls_accept .. => none
  | .closed _ => true
  | .proxy_via_tls .. => .ok ()
  | .proxy_raw .. => .ok ()

def clientListener : ConnContext := ⟨false, false, 10000000000, 5000000000⟩

/-- A route that asks for a client certificate. -/
def certRoute : Route :=
  { downRoute with terminate_tls := true, tls_config := some ⟨7, [], [], none, []⟩, failover := none,
                   requires_client_cert := true }

def certAnswers : (o : Op) → o.Ans
  | .resolve_with .. => some certRoute
  | .connect .. => some 0
  | .tls_accept .. => some none
  | o => downAnswers o

/-- What `handle` asks for a client of the route: the hello, the route, the handshake and
then the upstream. -/
def certJournal : Journal := (Prog.run (recording certAnswers) (handle clientListener (.new (.V4 7) 50000) none) []).2

theorem acts_only_when_cleared_cert :
    certJournal.length = 5 ∧
    May clientListener (.new (.V4 7) 50000) (certJournal.take 3)
      (.connect certRoute.destination (.V4 7) clientListener.upstream_connect_timeout none) := by
  have h : Reached records (handle clientListener (.new (.V4 7) 50000) none) [] (.pure ()) certJournal :=
    Reached.start.run (h := recording certAnswers) (fun _ _ => rfl) rfl
  exact ⟨rfl, acts_only_when_cleared _ _ _ _ _ h (certJournal.take 3) _ _ ⟨certJournal.drop 4, rfl⟩⟩

end Symphony.Proxy
