import Mathlib.Data.List.Rotate
import Symphony.Failover.Forward
/-!
# Which peers a forward tries

The peers' cooldown words are shared: between any two operations of a forward other
connections may record a failure or clear a cooldown. The candidates are counted,
and the fallback is chosen, before the first attempt, while the rotation looks at
each peer when its turn comes. The two views agree as long as, until the first attempt,
other connections start no cooldown of a peer that is ready, and end none while all peers
are cooling down; then every peer is tried at most once, and one is tried before the
forward gives up.
-/

namespace Symphony.Failover

open Lib (Prog)
open Lib.Prog (Always Reached)
open Router (FailoverPeer)
open Sni (PeekInfo)
open Upstream (write_proxy_v2_header write_proxy_v2_header_bare)

/-! ## Cooldown words -/

/-- What `record_failure` makes of the cooldown word. -/
def failed_word (word min_ns max_ns now : Nat) : Nat :=
  let streak := min ((word >>> COOLDOWN_STREAK_SHIFT) + 1) 255
  let backoff := min (sat_mul64 min_ns (1 <<< min (streak - 1) 63)) max_ns
  let until_ := min (max (word &&& COOLDOWN_UNTIL_MASK) (sat_add64 now backoff)) COOLDOWN_UNTIL_MASK
  streak <<< COOLDOWN_STREAK_SHIFT ||| until_

/-- The answer of `cooling_down`, of the cooldown word. -/
def Cooling (now word : Nat) : Prop := min now COOLDOWN_UNTIL_MASK < cooldown_until word

instance (now word : Nat) : Decidable (Cooling now word) := by unfold Cooling; infer_instance

/-- What another connection may do to a peer. -/
inductive Interference where
  | record_failure (peer : FailoverPeer) (min_ns max_ns now : Nat)
  | clear_cooldown (peer : FailoverPeer)
  deriving DecidableEq, Repr

/-- The words afterwards. -/
def Interference.act (word : FailoverPeer → Nat) : Interference → FailoverPeer → Nat
  | .record_failure peer min_ns max_ns now =>
    Function.update word peer (failed_word (word peer) min_ns max_ns now)
  | .clear_cooldown peer => Function.update word peer 0

/-- The shared words, and of one forward: when it started, the clock reading its
candidates are judged by, the peers it has tried to connect to, and whether it has
reported the connection exhausted. -/
structure Shared where
  word : FailoverPeer → Nat
  started : Option Nat
  now : Option Nat
  attempted : List SocketAddr
  exhausted : Bool

/-- Before a forward. -/
def Shared.start (word : FailoverPeer → Nat) : Shared := ⟨word, none, none, [], false⟩

def Shared.disturb (s : Shared) (e : Interference) : Shared := { s with word := e.act s.word }

/-- Any number of steps of other connections, each of which meets `ok` in the state
it comes to. -/
inductive Disturbed (ok : Shared → Interference → Prop) (s : Shared) : Shared → Prop
  | refl : Disturbed ok s s
  | step {t : Shared} (e : Interference) : Disturbed ok s t → ok t e → Disturbed ok s (t.disturb e)

/-- An operation of the forward itself. There is budget left whenever it looks, the
hello is still there to be peeked, and every attempt fails before its share runs out. -/
def performs (handshake : Duration) : (o : Op) → Shared → o.Ans → Shared → Prop
  | .instant, s, a, s' => (∀ t, s.started = some t → a < t + handshake) ∧
    s' = { s with started := s.started <|> some a }
  | .now_ns, s, a, s' => s' = { s with now := s.now <|> some a }
  | .fetch_add counter, s, _, s' => s' = { s with exhausted := s.exhausted || counter = .exhausted }
  | .cooldown peer, s, a, s' => a = s.word peer ∧ s' = s
  | .clear_cooldown peer, s, _, s' => s' = s.disturb (.clear_cooldown peer)
  | .record_failure peer _ min_ns max_ns now, s, _, s' => s' = s.disturb (.record_failure peer min_ns max_ns now)
  | .peek_client len, s, a, s' => (∃ hello, a = some hello ∧ hello.length = len) ∧ s' = s
  | .connect addr _, s, a, s' => a ≠ none ∧ s' = { s with attempted := s.attempted ++ [addr] }
  | .write_all _ _, s, a, s' => a ≠ none ∧ s' = s
  | .peek _, s, a, s' => (a = some (.error ()) ∨ a = some (.ok 0)) ∧ s' = s
  | .next_cursor, s, _, s' => s' = s
  | .read_exact _, s, _, s' => s' = s
  | .forward_opaque_stream _, s, _, s' => s' = s

/-- An operation, after whatever the other connections have done. -/
def performs_among (ok : Shared → Interference → Prop) (handshake : Duration) (o : Op) (s : Shared) (a : o.Ans)
    (s' : Shared) : Prop :=
  ∃ t, Disturbed ok s t ∧ performs handshake o t a s'

/-- A forward of a route that is down, at any point of any run among other
connections that keep to `ok`. -/
abbrev DownForward (ok : Shared → Interference → Prop) (word : FailoverPeer → Nat) (peek : PeekInfo)
    (failover : Router.Failover) (handshake : Duration) (peer_addr : SocketAddr) (local_addr : Option SocketAddr)
    (p : Forward Forwarded) (s : Shared) : Prop :=
  Reached (performs_among ok handshake) (forward_to_peers peek failover .Down handshake peer_addr local_addr)
    (Shared.start word) p s

/-- A peer that is ready, judged by this reading of the clock; none if all are cooling down. -/
def Ready (peers : List FailoverPeer) (now : Nat) (word : FailoverPeer → Nat) : Option FailoverPeer → Prop
  | some peer => peer ∈ peers ∧ ¬ Cooling now (word peer)
  | none => ∀ peer ∈ peers, Cooling now (word peer)

/-- Until the forward's first attempt another connection leaves a ready peer ready and, if
there is none, leaves it so, judged by the forward's reading of the clock. -/
def Steady (peers : List FailoverPeer) (s : Shared) (e : Interference) : Prop :=
  s.attempted = [] → ∀ now, s.now = some now → ∀ first, Ready peers now s.word first →
    Ready peers now (s.disturb e).word first

/-- No peer was tried twice, and one was before the connection was reported exhausted. -/
structure TriedOnce (s : Shared) : Prop where
  nodup : s.attempted.Nodup
  exhausted : s.exhausted = true → s.attempted ≠ []

/-! ## Until the first attempt -/

variable {ok : Shared → Interference → Prop}

section Frozen

variable {handshake : Duration} {peers : List FailoverPeer} {started now : Nat} {first : Option FailoverPeer}
  {A : List SocketAddr} {s s' : Shared}

/-- Until the first attempt the peer that was ready when the clock was read is still ready,
or all are still cooling down. `A` has been tried, and nothing is reported yet. -/
structure Frozen (peers : List FailoverPeer) (started now : Nat) (first : Option FailoverPeer) (A : List SocketAddr)
    (s : Shared) : Prop where
  started : s.started = some started
  reading : s.now = some now
  ready : A = [] → Ready peers now s.word first
  attempted : s.attempted = A
  exhausted : s.exhausted = false

variable {peer : FailoverPeer} {a : Attempts} {attempt : Nat}

theorem Frozen.tried_once (h : Frozen peers started now first A s) (hA : A.Nodup) : TriedOnce s := by
  refine ⟨h.attempted ▸ hA, fun he => ?_⟩
  rw [h.exhausted] at he
  cases he

theorem disturbed_keeps {s t : Shared} (h : Disturbed ok s t) :
    t.started = s.started ∧ t.now = s.now ∧ t.attempted = s.attempted ∧ t.exhausted = s.exhausted := by
  induction h with
  | refl => exact ⟨rfl, rfl, rfl, rfl⟩
  | step e _ _ ih => exact ih

section

variable (h : Frozen peers started now first A s)

include h

/-- Other connections that keep to the condition leave everything frozen. -/
theorem Frozen.disturbed {t : Shared} (hd : Disturbed (Steady peers) s t) :
    Frozen peers started now first A t := by
  induction hd with
  | refl => exact h
  | @step t e hd hok ih =>
    obtain ⟨hst, hnow, hatt, hex⟩ := disturbed_keeps (hd.step e hok)
    exact ⟨hst.trans h.started, hnow.trans h.reading,
      fun hA => hok (ih.attempted.trans hA) now ih.reading first (ih.ready hA), hatt.trans h.attempted,
      hex.trans h.exhausted⟩

/-- What the peer's cooldown word says when it is read before the first attempt. -/
theorem Frozen.read_cooldown {word : Nat} (hs : performs_among (Steady peers) handshake (.cooldown peer) s word s') :
    Frozen peers started now first A s' ∧
      (A = [] → peer ∈ peers → (first = none → Cooling now word) ∧ (first = some peer → ¬ Cooling now word)) := by
  obtain ⟨t, hd, rfl, rfl⟩ := hs
  refine ⟨h.disturbed hd, fun hA hp => ⟨?_, ?_⟩⟩
  · rintro rfl
    exact (h.disturbed hd).ready hA peer hp
  · rintro rfl
    exact ((h.disturbed hd).ready hA).2

theorem Frozen.read_instant {a : Nat} (hs : performs_among (Steady peers) handshake .instant s a s') :
    Frozen peers started now first A s' ∧ a < started + handshake := by
  obtain ⟨t, hd, ha, rfl⟩ := hs
  have ht := h.disturbed hd
  exact ⟨⟨by simp [ht.started], ht.reading, ht.ready, ht.attempted, ht.exhausted⟩, ha started ht.started⟩

theorem Frozen.connected {addr : SocketAddr} {share : Duration} {a : Option (Except ConnectError Nat)}
    (hs : performs_among (Steady peers) handshake (.connect addr share) s a s') :
    Frozen peers started now first (A ++ [addr]) s' ∧ a ≠ none := by
  obtain ⟨t, hd, ha, rfl⟩ := hs
  have ht := h.disturbed hd
  exact ⟨⟨ht.started, ht.reading, fun hA => by simp at hA, by simp [ht.attempted], ht.exhausted⟩, ha⟩

theorem Frozen.recorded {kind : PeerFailureKind} {min_ns max_ns at_ : Nat} {a : Unit} (hA : peer.addr ∈ A)
    (hs : performs_among (Steady peers) handshake (.record_failure peer kind min_ns max_ns at_) s a s') :
    Frozen peers started now first A s' := by
  obtain ⟨t, hd, rfl⟩ := hs
  have ht := h.disturbed hd
  exact ⟨ht.started, ht.reading, fun hnil => absurd hnil (List.ne_nil_of_mem hA), ht.attempted, ht.exhausted⟩

end

/-- The other operations before the forward gives up. -/
def Idle : Op → Prop
  | .now_ns | .next_cursor | .peek_client _ | .write_all _ _ | .peek _ => True
  | .fetch_add counter => counter ≠ .exhausted
  | _ => False

theorem Frozen.idle {o : Op} {a : o.Ans} (h : Frozen peers started now first A s) (ho : Idle o)
    (hs : performs_among (Steady peers) handshake o s a s') : Frozen peers started now first A s' := by
  obtain ⟨t, hd, ht⟩ := hs
  have hf := h.disturbed hd
  cases o with
  | now_ns =>
    cases ht
    exact ⟨hf.started, by simp [hf.reading], hf.ready, hf.attempted, hf.exhausted⟩
  | fetch_add counter =>
    cases ht
    exact ⟨hf.started, hf.reading, hf.ready, hf.attempted, by simpa [hf.exhausted, Idle] using ho⟩
  | next_cursor =>
    cases ht
    exact hf
  | peek_client len =>
    obtain ⟨-, rfl⟩ := ht
    exact hf
  | write_all stream buf =>
    obtain ⟨-, rfl⟩ := ht
    exact hf
  | peek stream =>
    obtain ⟨-, rfl⟩ := ht
    exact hf
  | _ => exact ho.elim

/-! ## The program, step by step -/

/-- Whatever happens among steady connections, every peer is tried at most once and
one before the forward gives up, and `Q` holds at the end. -/
abbrev Sound (peers : List FailoverPeer) (handshake : Duration) {α : Type} (Q : α → Shared → Prop) (p : Forward α)
    (s : Shared) : Prop :=
  Always (performs_among (Steady peers) handshake) TriedOnce Q p s

section

variable (h : Frozen peers started now first A s)

include h

theorem Frozen.sound_idle {o : Op} (hA : A.Nodup) (ho : Idle o) :
    Sound peers handshake (fun _ s' => Frozen peers started now first A s') (.perform o) s :=
  fun _ _ hs => ⟨(h.idle ho hs).tried_once hA, h.idle ho hs⟩

theorem Frozen.sound_instant (hA : A.Nodup) :
    Sound peers handshake (fun a s' => Frozen peers started now first A s' ∧ a < started + handshake) instant s :=
  fun _ _ hs => ⟨(h.read_instant hs).1.tried_once hA, h.read_instant hs⟩

theorem Frozen.sound_record_failure {kind : PeerFailureKind} {min_ns max_ns at_ : Nat} (hA : A.Nodup)
    (hp : peer.addr ∈ A) :
    Sound peers handshake (fun _ s' => Frozen peers started now first A s')
      (record_failure peer kind min_ns max_ns at_) s :=
  fun _ _ hs => ⟨(h.recorded hp hs).tried_once hA, h.recorded hp hs⟩

theorem Frozen.sound_cooling (hA : A.Nodup) (peer : FailoverPeer) :
    Sound peers handshake (fun cooling s' => Frozen peers started now first A s' ∧
      (A = [] → peer ∈ peers → (first = none → cooling = true) ∧ (first = some peer → cooling = false)))
      (cooling_down peer now) s := by
  intro word s' hs
  obtain ⟨hf, hc⟩ := h.read_cooldown hs
  refine ⟨hf.tried_once hA, hf, fun hnil hp => ?_⟩
  rw [decide_eq_true_iff, decide_eq_false_iff_not]
  exact hc hnil hp

end

theorem Frozen.sound_peek_client (h : Frozen peers started now first [] s) (len : Nat) :
    Sound peers handshake (fun r s' => (∃ hello, r = some hello ∧ hello.length = len) ∧
      Frozen peers started now first [] s') (peek_client len) s := by
  intro r s' hs
  have hf := h.idle (o := .peek_client len) trivial hs
  obtain ⟨t, -, hr, -⟩ := hs
  exact ⟨hf.tried_once .nil, hr, hf⟩

/-- The count before the first attempt: none is ready if all are cooling down, and the peer
that stays ready is counted. -/
theorem Frozen.sound_count_ready {l : List FailoverPeer} (hl : l ⊆ peers) (h : Frozen peers started now first [] s) :
    Sound peers handshake (fun n s' => Frozen peers started now first [] s' ∧ (first = none → n = 0) ∧
      ∀ peer ∈ l, first = some peer → n ≠ 0) (count_ready now l) s := by
  induction l generalizing s with
  | nil => exact ⟨h, fun _ => rfl, nofun⟩
  | cons peer l ih =>
    obtain ⟨hp, hl⟩ := List.cons_subset.1 hl
    refine Always.bind (h.sound_cooling .nil peer) fun cooling s₁ h₁ => ?_
    obtain ⟨h₁, hc⟩ := h₁
    obtain ⟨hcold, hready⟩ := hc rfl hp
    refine Always.bind (ih hl h₁) fun ready s₂ h₂ => ?_
    obtain ⟨h₂, hnone, hsome⟩ := h₂
    refine ⟨h₂, fun hfirst => by simp [hcold hfirst, hnone hfirst], fun q hq hfirst => ?_⟩
    rcases List.mem_cons.1 hq with rfl | hq
    · simp [hready hfirst]
    · have hne := hsome q hq hfirst
      cases cooling <;> simp [hne]

theorem Frozen.sound_earliest {best : Option (FailoverPeer × Nat)} {l : List FailoverPeer}
    (hl : l ⊆ peers) (hbest : ∀ p least, best = some (p, least) → p ∈ peers) (hne : best ≠ none ∨ l ≠ [])
    (h : Frozen peers started now first [] s) :
    Sound peers handshake (fun r s' => Frozen peers started now first [] s' ∧ ∃ peer ∈ peers, r = some peer)
      (earliest_cooldown best l) s := by
  induction l generalizing best s with
  | nil =>
    obtain ⟨⟨p, least⟩, rfl⟩ := Option.ne_none_iff_exists'.1 (hne.resolve_right (by simp))
    exact ⟨h, p, hbest p least rfl, rfl⟩
  | cons peer l ih =>
    obtain ⟨hp, hl⟩ := List.cons_subset.1 hl
    intro word s' hs
    have hf := (h.read_cooldown hs).1
    refine ⟨hf.tried_once .nil, ?_⟩
    cases best with
    | none =>
      refine ih hl (fun p least he => ?_) (.inl nofun) hf
      cases he
      exact hp
    | some b =>
      obtain ⟨p₀, least₀⟩ := b
      refine ih hl (fun p least he => ?_) (.inl nofun) hf
      split at he
      · cases he
        exact hp
      · cases he
        exact hbest _ _ rfl

theorem Frozen.sound_attempt {addr : SocketAddr} (h : Frozen peers started now first A s) (hA : (A ++ [addr]).Nodup)
    (pre : Bytes) (share : Duration) :
    Sound peers handshake (fun r s' => (∃ kind, r = .error kind) ∧ Frozen peers started now first (A ++ [addr]) s')
      (attempt_peer addr pre share) s := by
  intro a s₁ hs₁
  obtain ⟨h₁, ha⟩ := h.connected hs₁
  refine ⟨h₁.tried_once hA, ?_⟩
  match a with
  | none => exact absurd rfl ha
  | some (.error .ConnectionRefused) => exact ⟨⟨_, rfl⟩, h₁⟩
  | some (.error .Other) => exact ⟨⟨_, rfl⟩, h₁⟩
  | some (.ok stream) =>
    intro w s₂ hs₂
    have h₂ := h₁.idle (o := .write_all stream pre) trivial hs₂
    refine ⟨h₂.tried_once hA, ?_⟩
    match w with
    | none => exact ⟨⟨_, rfl⟩, h₂⟩
    | some (.error _) => exact ⟨⟨_, rfl⟩, h₂⟩
    | some (.ok _) =>
      -- the peer closes before it sends a byte
      intro n s₃ hs₃
      have h₃ := h₂.idle (o := .peek stream) trivial hs₃
      refine ⟨h₃.tried_once hA, ?_⟩
      obtain ⟨t, -, hn | hn, -⟩ := hs₃
      · cases hn
        exact ⟨⟨_, rfl⟩, h₃⟩
      · cases hn
        exact ⟨⟨_, rfl⟩, h₃⟩

theorem Frozen.sound_count_replay (h : Frozen peers started now first A s) (hA : A.Nodup) (attempt : Nat) :
    Sound peers handshake (fun _ s' => Frozen peers started now first A s') (count_replay attempt) s := by
  unfold count_replay
  split
  · exact h.sound_idle hA nofun
  · exact h

/-- Once a peer was tried, the forward may give up. -/
theorem Frozen.sound_give_up (h : Frozen peers started now first A s) (hA : A.Nodup) (hne : A ≠ [])
    (handshake' started' : Nat) :
    Sound peers handshake (fun _ _ => True) (give_up .Down handshake' started') s := by
  intro _ s' hs
  obtain ⟨t, hd, rfl⟩ := hs
  have ht := h.disturbed hd
  exact ⟨⟨ht.attempted ▸ hA, fun _ => ht.attempted ▸ hne⟩, trivial⟩

/-! ## The rotation -/

/-- The rotation is all the peers, from the cursor on. -/
theorem rotation_eq (peers : List FailoverPeer) (start : Nat) :
    ((List.range peers.length).filterMap fun i => peers[(start + i) % peers.length]?) = peers.rotate start := by
  have hall : (List.range peers.length).map (fun i => peers[(start + i) % peers.length]?) =
      (peers.rotate start).map some := by
    apply List.ext_getElem?
    intro i
    by_cases hi : i < peers.length
    · have hlt : (start + i) % peers.length < peers.length := Nat.mod_lt _ (by omega)
      simp [hi, Nat.add_comm, hlt]
    · simp [hi]
  calc _ = ((List.range peers.length).map fun i => peers[(start + i) % peers.length]?).filterMap id := by
        rw [List.filterMap_map]
        rfl
    _ = _ := by rw [hall, List.filterMap_map, Function.id_comp, List.filterMap_some]

/-- A candidate that yields its peer under `Take`, and is passed over under `Pass`. -/
def Yields (peers : List FailoverPeer) (handshake : Duration) (F : Shared → Prop) (candidate : Candidate)
    (peer : FailoverPeer) (Take Pass : Prop) (s : Shared) : Prop :=
  Sound peers handshake (fun r s' => F s' ∧ (r = some peer ∧ Take ∨ r = none ∧ Pass)) candidate.yielded s

theorem Frozen.yields_ready (h : Frozen peers started now first A s) (hA : A.Nodup) (hp : peer ∈ peers) :
    Yields peers handshake (Frozen peers started now first A) (.ready peer now) peer (A = [] → first ≠ none)
      (A = [] → first ≠ some peer) s := by
  refine Always.bind (h.sound_cooling hA peer) fun cooling s' h' => ⟨h'.1, ?_⟩
  cases cooling with
  | true => exact .inr ⟨rfl, fun hnil hfirst => nomatch (h'.2 hnil hp).2 hfirst⟩
  | false => exact .inl ⟨rfl, fun hnil hfirst => nomatch (h'.2 hnil hp).1 hfirst⟩

/-- One turn of the loop: the peer is passed over, or tried in vain, and the loop
goes on. -/
theorem Frozen.sound_turn {candidate : Candidate} {rest : List Candidate} {Take Pass : Prop}
    (hdeadline : a.deadline = started + handshake) (hA : (A ++ [peer.addr]).Nodup)
    (hy : Yields peers handshake (Frozen peers started now first A) candidate peer Take Pass s)
    (htake : Take → ∀ s', Frozen peers started now first (A ++ [peer.addr]) s' →
      Sound peers handshake (fun _ _ => True) (try_candidates a (attempt + 1) rest) s')
    (hpass : Pass → ∀ s', Frozen peers started now first A s' →
      Sound peers handshake (fun _ _ => True) (try_candidates a attempt rest) s') :
    Sound peers handshake (fun _ _ => True) (try_candidates a attempt (candidate :: rest)) s := by
  have hA₀ : A.Nodup := hA.of_append_left
  refine Always.bind hy fun r s₀ h₀ => ?_
  obtain ⟨h₀, ⟨rfl, ht⟩ | ⟨rfl, hp⟩⟩ := h₀
  · refine Always.bind (h₀.sound_instant hA₀) fun t s₁ h₁ => ?_
    obtain ⟨h₁, hlt⟩ := h₁
    -- there is budget left
    have hleft : ¬ a.deadline - t = 0 := by omega
    simp only [hleft, if_false]
    refine Always.bind (h₁.sound_count_replay hA₀ attempt) fun _ s₂ h₂ => ?_
    refine Always.bind (h₂.sound_attempt hA a.pre _) fun r s₃ h₃ => ?_
    obtain ⟨⟨kind, rfl⟩, h₃⟩ := h₃
    refine Always.bind (h₃.sound_idle hA (o := .now_ns) trivial) fun n s₄ h₄ => ?_
    exact Always.bind (h₄.sound_record_failure hA (by simp)) fun _ s₅ h₅ => htake ht s₅ h₅
  · exact hpass hp s₀ h₀

/-- The loop over a rotation with no fallback, by induction on the rotation: a peer
was tried, or one of those left stays ready. -/
theorem Frozen.sound_rotation (hmode : a.mode = .Down) (hdeadline : a.deadline = started + handshake)
    {rot : List FailoverPeer} (hrot : rot ⊆ peers) (hA : (A ++ rot.map (·.addr)).Nodup)
    (hdue : A ≠ [] ∨ ∃ peer ∈ rot, first = some peer) (h : Frozen peers started now first A s) :
    Sound peers handshake (fun _ _ => True) (try_candidates a attempt (rot.map (.ready · now))) s := by
  induction rot generalizing A s attempt with
  | nil =>
    have hne : A ≠ [] := hdue.resolve_right (by simp)
    simp only [List.map_nil, try_candidates, hmode]
    exact h.sound_give_up hA.of_append_left hne _ _
  | cons peer rot ih =>
    obtain ⟨hp, hrot⟩ := List.cons_subset.1 hrot
    have hA' : (A ++ [peer.addr] ++ rot.map (·.addr)).Nodup := by simpa using hA
    refine Frozen.sound_turn hdeadline hA'.of_append_left (h.yields_ready hA.of_append_left hp) ?_ ?_
    · intro _ s' h'
      exact ih hrot hA' (.inl (by simp)) h'
    · intro hpass s' h'
      refine ih hrot (hA.sublist (by simp)) ?_ h'
      rcases hdue with hne | ⟨q, hq, hfirst⟩
      · exact .inl hne
      · rcases List.mem_cons.1 hq with rfl | hq
        · exact .inl fun hnil => hpass hnil hfirst
        · exact .inr ⟨q, hq, hfirst⟩

/-- The loop when every peer is cooling down: the rotation passes over all of them,
and the fallback is tried. -/
theorem Frozen.sound_fallback (hmode : a.mode = .Down) (hdeadline : a.deadline = started + handshake)
    {rot : List FailoverPeer} {last : FailoverPeer} (hrot : rot ⊆ peers) (h : Frozen peers started now none [] s) :
    Sound peers handshake (fun _ _ => True)
      (try_candidates a attempt (rot.map (.ready · now) ++ [.always last])) s := by
  induction rot generalizing s attempt with
  | nil =>
    have hy : Yields peers handshake (Frozen peers started now none []) (.always last) last True False s :=
      ⟨h, .inl ⟨rfl, trivial⟩⟩
    refine Frozen.sound_turn hdeadline (List.nodup_singleton _) hy ?_ nofun
    intro _ s' h'
    simp only [try_candidates, hmode]
    exact h'.sound_give_up (List.nodup_singleton _) (by simp) _ _
  | cons peer rot ih =>
    obtain ⟨hp, hrot⟩ := List.cons_subset.1 hrot
    refine Frozen.sound_turn hdeadline (List.nodup_singleton _) (h.yields_ready .nil hp) ?_ ?_
    · intro htake
      exact absurd rfl (htake rfl)
    · intro _ s' h'
      exact ih hrot h'

/-! ## A whole forward -/

/-- What the candidates are: all the peers in rotation if one of them stays ready, and
the rotation with one of the peers after it if none is. -/
theorem Frozen.sound_candidates (hne : peers ≠ []) (h : Frozen peers started now first [] s) :
    Sound peers handshake (fun r s' => Frozen peers started now first [] s' ∧ r.1 ≠ 0 ∧ ∃ start,
        (r.2 = (peers.rotate start).map (.ready · now) ∧ ∃ peer ∈ peers, first = some peer) ∨
        ∃ last, r.2 = (peers.rotate start).map (.ready · now) ++ [.always last] ∧ first = none)
      (candidates peers now true) s := by
  have hstart : Sound peers handshake (fun _ s' => Frozen peers started now first [] s')
    (rotation_start peers.length) s := by
    unfold rotation_start
    split
    · exact h
    · exact Always.bind (h.sound_idle .nil (o := .next_cursor) trivial) fun _ _ h' => h'
  refine Always.bind hstart fun start s₁ h₁ => ?_
  refine Always.bind (h₁.sound_count_ready (List.Subset.refl _)) fun ready s₂ h₂ => ?_
  obtain ⟨h₂, hnone, hsome⟩ := h₂
  cases first with
  | none =>
    -- none is ready: there is a fallback
    have hr := hnone rfl
    have hfall : Sound peers handshake
        (fun r s' => Frozen peers started now none [] s' ∧ ∃ peer ∈ peers, r = some peer)
          (fallback peers true ready) s₂ := by
      simp only [fallback, hr]
      exact h₂.sound_earliest (List.Subset.refl _) nofun (.inr hne)
    refine Always.bind hfall fun r s₃ h₃ => ?_
    obtain ⟨h₃, last, -, rfl⟩ := h₃
    refine ⟨h₃, by simp, start, .inr ⟨last, ?_, rfl⟩⟩
    simp only [rotation_eq]
    rfl
  | some peer =>
    have hp := (h₂.ready rfl).1
    have hr := hsome peer hp rfl
    have hfall : Sound peers handshake (fun r s' => Frozen peers started now (some peer) [] s' ∧ r = none)
        (fallback peers true ready) s₂ := by
      simp only [fallback, hr]
      exact ⟨h₂, rfl⟩
    refine Always.bind hfall fun r s₃ h₃ => ?_
    obtain ⟨h₃, rfl⟩ := h₃
    refine ⟨h₃, by simpa using hr, start, .inl ⟨?_, peer, hp, rfl⟩⟩
    simp only [rotation_eq]
    exact List.append_nil _

end Frozen

/-- Before its reading of the clock other connections may do anything; from there on
the peer that is ready stays so. -/
theorem sound_clock (peers : List FailoverPeer) (handshake : Duration) (word : FailoverPeer → Nat) :
    Sound peers handshake (fun started s => TriedOnce s ∧ Sound peers handshake
      (fun now s' => ∃ first, Frozen peers started now first [] s') now_ns s) instant (Shared.start word) := by
  rintro started s₁ ⟨t₁, hd₁, -, rfl⟩
  obtain ⟨hst, hnow, hatt, hex⟩ := disturbed_keeps hd₁
  have hquiet : TriedOnce { t₁ with started := t₁.started <|> some started } :=
    ⟨by simp [hatt, Shared.start], fun he => by simp [hex, Shared.start] at he⟩
  refine ⟨hquiet, hquiet, ?_⟩
  rintro now s₂ ⟨t₂, hd₂, rfl⟩
  obtain ⟨hst₂, hnow₂, hatt₂, hex₂⟩ := disturbed_keeps hd₂
  obtain ⟨first, hfirst⟩ : ∃ first, Ready peers now t₂.word first := by
    by_cases hall : ∀ peer ∈ peers, Cooling now (t₂.word peer)
    · exact ⟨none, hall⟩
    · push Not at hall
      obtain ⟨peer, hp, hready⟩ := hall
      exact ⟨some peer, hp, hready⟩
  have hf : Frozen peers started now first [] { t₂ with now := t₂.now <|> some now } :=
    ⟨by simp [hst₂, hst, Shared.start], by simp [hnow₂, hnow, Shared.start], fun _ => hfirst,
      by simp [hatt₂, hatt, Shared.start], by simp [hex₂, hex, Shared.start]⟩
  exact ⟨hf.tried_once .nil, _, hf⟩

theorem forward_to_peers_sound {failover : Router.Failover} (hne : failover.peers ≠ [])
    (hdistinct : (failover.peers.map (·.addr)).Nodup) (word : FailoverPeer → Nat) (peek : PeekInfo)
    (handshake : Duration) (peer_addr : SocketAddr) (local_addr : Option SocketAddr) :
    Sound failover.peers handshake (fun _ _ => True)
      (forward_to_peers peek failover .Down handshake peer_addr local_addr) (Shared.start word) := by
  refine Always.bind (sound_clock failover.peers handshake word) fun started s₁ h₁ => ?_
  split
  · trivial
  · refine Always.bind h₁.2 fun now s₂ h₂ => ?_
    obtain ⟨first, h₂⟩ := h₂
    refine Always.bind (h₂.sound_candidates hne) fun r s₃ h₃ => ?_
    obtain ⟨count, cands⟩ := r
    obtain ⟨h₃, hcount, start, hcands⟩ := h₃
    obtain ⟨header, hheader, -⟩ := write_proxy_v2_header_bare peer_addr local_addr
    simp only [hcount, if_false, hheader]
    refine Always.bind (h₃.sound_peek_client peek.hello_len) fun r s₄ h₄ => ?_
    obtain ⟨⟨hello, rfl, hlen⟩, h₄⟩ := h₄
    simp only [hlen, if_true]
    have hrot : failover.peers.rotate start ⊆ failover.peers := fun q hq => List.mem_rotate.1 hq
    obtain ⟨hcands, q, hq, hfirst⟩ | ⟨last, hcands, rfl⟩ := hcands
    · simp only at hcands
      rw [hcands]
      refine Frozen.sound_rotation rfl rfl hrot ?_ (.inr ⟨q, List.mem_rotate.2 hq, hfirst⟩) h₄
      simpa [List.map_rotate] using hdistinct
    · simp only at hcands
      rw [hcands]
      exact Frozen.sound_fallback rfl rfl hrot h₄

/-- The peers of a route, as an accepted spec names them. -/
def Accepted (failover : Router.Failover) : Prop :=
  ∃ (spec : FailoverSpec) (policy : FailoverPolicy), spec.parse = .ok policy ∧
    failover.peers.map (·.addr) = policy.peers

/-- For a route that is down, whatever other connections do to the cooldown words
between any two operations of a forward: if, until its first attempt, no step of theirs
starts the cooldown of a ready peer, or ends one while all are cooling down, the forward
tries no peer twice, and it has tried one when it reports the connection exhausted. -/
theorem steady_forward_tries_each_peer_once {failover : Router.Failover} (hpeers : Accepted failover)
    {word : FailoverPeer → Nat} {peek : PeekInfo} {handshake : Duration} {peer_addr : SocketAddr}
    {local_addr : Option SocketAddr} {p : Forward Forwarded} {s : Shared}
    (h : DownForward (Steady failover.peers) word peek failover handshake peer_addr local_addr p s) :
    s.attempted.Nodup ∧ (s.exhausted = true → s.attempted ≠ []) := by
  obtain ⟨spec, policy, hparse, haddrs⟩ := hpeers
  obtain ⟨hne, hnodup⟩ := FailoverSpec.parse_distinct hparse
  have hne' : failover.peers ≠ [] := fun he => hne (by rw [← haddrs, he]; rfl)
  have hsound := forward_to_peers_sound hne' (haddrs ▸ hnodup) word peek handshake peer_addr local_addr
  have hstart : TriedOnce (Shared.start word) := ⟨.nil, nofun⟩
  obtain ⟨hnodup, hex⟩ := (hsound.reached hstart h).1
  exact ⟨hnodup, hex⟩

/-! ## Runs -/

/-- Every connect is refused. While the hello is peeked, other connections act. -/
def refusing_peers (meanwhile : List Interference) : (o : Op) → Shared → o.Ans × Shared
  | .instant, s => (0, { s with started := s.started <|> some 0 })
  | .now_ns, s => (1, { s with now := s.now <|> some 1 })
  | .fetch_add counter, s => ((), { s with exhausted := s.exhausted || counter = .exhausted })
  | .next_cursor, s => (0, s)
  | .cooldown peer, s => (s.word peer, s)
  | .clear_cooldown peer, s => ((), s.disturb (.clear_cooldown peer))
  | .record_failure peer _ min_ns max_ns now, s => ((), s.disturb (.record_failure peer min_ns max_ns now))
  | .peek_client len, s => (some (List.replicate len 0), meanwhile.foldl Shared.disturb s)
  | .connect addr _, s => (some (.error .ConnectionRefused), { s with attempted := s.attempted ++ [addr] })
  | .write_all _ _, s => (some (.ok ()), s)
  | .peek _, s => (some (.ok 0), s)
  | .read_exact _, s => (.ok (), s)
  | .forward_opaque_stream _, s => (.ok (), s)

theorem disturbed_foldl {meanwhile : List Interference} (hok : ∀ s, ∀ e ∈ meanwhile, ok s e) {s t : Shared}
    (h : Disturbed ok s t) :
    Disturbed ok s (meanwhile.foldl Shared.disturb t) := by
  induction meanwhile generalizing t with
  | nil => exact h
  | cons e rest ih =>
    exact ih (fun s e' he => hok s e' (List.mem_cons_of_mem _ he)) (h.step e (hok t e List.mem_cons_self))

theorem refusing_peers_performs {meanwhile : List Interference} (hok : ∀ s, ∀ e ∈ meanwhile, ok s e)
    {handshake : Duration} (hpos : 0 < handshake) (o : Op) (s : Shared) :
    performs_among ok handshake o s (refusing_peers meanwhile o s).1 (refusing_peers meanwhile o s).2 := by
  cases o with
  | peek_client len => exact ⟨_, disturbed_foldl hok .refl, ⟨_, rfl, List.length_replicate⟩, rfl⟩
  | instant => exact ⟨s, .refl, fun t _ => Nat.lt_of_lt_of_le hpos (Nat.le_add_left _ _), rfl⟩
  | cooldown peer => exact ⟨s, .refl, rfl, rfl⟩
  | connect addr share => exact ⟨s, .refl, nofun, rfl⟩
  | write_all stream buf => exact ⟨s, .refl, nofun, rfl⟩
  | peek stream => exact ⟨s, .refl, .inr rfl, rfl⟩
  | _ => exact ⟨s, .refl, rfl⟩

/-- The route of an accepted spec. -/
def routed (peers : List FailoverPeer) : Router.Failover :=
  ⟨0, false, from_millis 1000, from_millis 5000, from_millis 60000, peers, none, 3, none⟩

def peer_a : FailoverPeer := ⟨1, .new (.V4 0x0a000002) 8443⟩
def peer_b : FailoverPeer := ⟨2, .new (.V4 0x0a000003) 8443⟩

/-- A forward of a client's whole hello of three bytes, with one second of budget. -/
def forward_hello (peers : List FailoverPeer) : Forward Forwarded :=
  forward_to_peers ⟨none, [], [], true, 3, false⟩ (routed peers) .Down 1000000000 (.new (.V4 7) 80) none

/-- Two ready peers, both refusing, while the cooldown of another route's peer is cleared. -/
theorem steady_forward_tries_each_peer_once_refused :
    ∃ s, DownForward (Steady [peer_a, peer_b]) (fun _ => 0) ⟨none, [], [], true, 3, false⟩ (routed [peer_a, peer_b])
        1000000000 (.new (.V4 7) 80) none (.pure (.Done (.error .UpstreamConnect))) s ∧
      s.attempted = [peer_a.addr, peer_b.addr] ∧ s.attempted.Nodup ∧ s.attempted ≠ [] := by
  let other : FailoverPeer := ⟨9, .new (.V4 0x0a000009) 8443⟩
  let run := Prog.run (refusing_peers [.clear_cooldown other]) (forward_hello [peer_a, peer_b])
    (Shared.start fun _ => 0)
  have hsteady : ∀ s, ∀ e ∈ [Interference.clear_cooldown other], Steady [peer_a, peer_b] s e := by
    intro s e he _ now _ first hfirst
    obtain rfl := List.mem_singleton.1 he
    have hword : ∀ peer ∈ [peer_a, peer_b], (s.disturb (.clear_cooldown other)).word peer = s.word peer := by
      intro peer hp
      exact Function.update_of_ne (by rintro rfl; revert hp; decide) _ _
    cases first with
    | none => exact fun peer hp => (hword peer hp).symm ▸ hfirst peer hp
    | some peer => exact ⟨hfirst.1, (hword peer hfirst.1).symm ▸ hfirst.2⟩
  have hrun : run.1 = .ok (.Done (.error .UpstreamConnect)) := by with_unfolding_all rfl
  have h : DownForward (Steady [peer_a, peer_b]) (fun _ => 0) ⟨none, [], [], true, 3, false⟩
      (routed [peer_a, peer_b]) 1000000000 (.new (.V4 7) 80) none (.pure (.Done (.error .UpstreamConnect))) run.2 :=
    Reached.run (refusing_peers_performs hsteady (by decide)) .start (Prod.ext hrun rfl)
  have hpeers : Accepted (routed [peer_a, peer_b]) :=
    ⟨{ peers := [(bytes "10.0.0.2", 8443), (bytes "10.0.0.3", 8443)], drain := false },
      ⟨_, false, from_millis 1000, from_millis 5000, from_millis 60000, none⟩, by decide +kernel, rfl⟩
  obtain ⟨hnodup, hex⟩ := steady_forward_tries_each_peer_once hpeers h
  exact ⟨run.2, h, by with_unfolding_all rfl, hnodup, hex (by with_unfolding_all rfl)⟩

/-- One peer. Its cooldown ends after the candidates were counted, because another
connection reached it: the rotation tries it, and then the fallback does. It starts
after they were counted: nothing is tried. -/
theorem forward_tries_a_peer_twice_or_none :
    Accepted (routed [peer_a]) ∧
    (∃ s, DownForward (fun _ _ => True) (fun _ => 100) ⟨none, [], [], true, 3, false⟩ (routed [peer_a]) 1000000000
        (.new (.V4 7) 80) none (.pure (.Done (.error .UpstreamConnect))) s ∧
      s.attempted = [peer_a.addr, peer_a.addr]) ∧
    (∃ s, DownForward (fun _ _ => True) (fun _ => 0) ⟨none, [], [], true, 3, false⟩ (routed [peer_a]) 1000000000
        (.new (.V4 7) 80) none (.pure (.Done (.error .UpstreamConnect))) s ∧
      s.attempted = [] ∧ s.exhausted = true) := by
  have hany : ∀ (e : Interference) (s : Shared), ∀ e' ∈ [e], (fun _ _ => True : Shared → Interference → Prop) s e' :=
    fun _ _ _ _ => trivial
  refine ⟨⟨{ peers := [(bytes "10.0.0.2", 8443)], drain := false },
    ⟨_, false, from_millis 1000, from_millis 5000, from_millis 60000, none⟩, by decide +kernel, rfl⟩, ?_, ?_⟩
  · let run := Prog.run (refusing_peers [.clear_cooldown peer_a]) (forward_hello [peer_a]) (Shared.start fun _ => 100)
    have hrun : run.1 = .ok (.Done (.error .UpstreamConnect)) := by with_unfolding_all rfl
    exact ⟨run.2, Reached.run (refusing_peers_performs (hany _) (by decide)) .start (Prod.ext hrun rfl),
      by with_unfolding_all rfl⟩
  · let run := Prog.run (refusing_peers [.record_failure peer_a (from_millis 5000) (from_millis 60000) 2])
      (forward_hello [peer_a]) (Shared.start fun _ => 0)
    have hrun : run.1 = .ok (.Done (.error .UpstreamConnect)) := by with_unfolding_all rfl
    exact ⟨run.2, Reached.run (refusing_peers_performs (hany _) (by decide)) .start (Prod.ext hrun rfl),
      by with_unfolding_all rfl, by with_unfolding_all rfl⟩

end Symphony.Failover
