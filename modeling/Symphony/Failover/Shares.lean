import Symphony.Failover.Rotation
/-!
# Fair shares of the budget

Each attempt is given what is left of the budget, divided by the attempts that are still to
come. However long the attempts before it lasted within their shares, that is at least what
it would have been given by an equal division at the start.
-/

namespace Symphony.Failover

open Lib (Prog)
open Lib.Prog (Always Reached)
open Router (FailoverPeer)
open Sni (PeekInfo)
open Upstream (write_proxy_v2_header)

/-! ## A clock that only attempts move -/

/-- An attempt: the share it was given, and how long it has lasted. -/
structure Attempt where
  share : Duration
  lasted : Duration
  deriving DecidableEq, Repr

/-- When the budget began, and the attempts since. -/
structure Timed where
  start : Nat
  attempts : List Attempt
  deriving DecidableEq, Repr

namespace Timed

/-- How long the attempts have lasted together. -/
def spent (s : Timed) : Nat := (s.attempts.map (·.lasted)).sum

/-- No time passes outside of an attempt. -/
def clock (s : Timed) : Nat := s.start + s.spent

def attempted (s : Timed) (share lasted : Duration) : Timed := { s with attempts := s.attempts ++ [⟨share, lasted⟩] }

/-- The last attempt goes on, within its share. -/
def GoesOn (s s' : Timed) : Prop :=
  ∃ before share lasted lasted', s = attempted before share lasted ∧ lasted ≤ lasted' ∧ lasted' ≤ share ∧
    s' = attempted before share lasted'

@[simp] theorem spent_attempted (s : Timed) (share lasted : Duration) :
    (s.attempted share lasted).spent = s.spent + lasted := by
  simp [spent, attempted]

end Timed

/-- The operations of a forward whose candidates keep their cooldown words and whose
attempts all fail, none after the end of its share. -/
def timed (word : FailoverPeer → Nat) : (o : Op) → Timed → o.Ans → Timed → Prop
  | .instant, s, a, s' => a = s.clock ∧ s' = s
  | .cooldown peer, s, a, s' => a = word peer ∧ s' = s
  | .connect _ share, s, _, s' => ∃ lasted ≤ share, s' = s.attempted share lasted
  | .write_all _ _, s, _, s' => s.GoesOn s'
  | .peek _, s, a, s' => (∀ n, a ≠ some (.ok (n + 1))) ∧ s.GoesOn s'
  | .now_ns, s, _, s' | .fetch_add _, s, _, s' | .next_cursor, s, _, s' | .clear_cooldown _, s, _, s'
  | .record_failure .., s, _, s' | .peek_client _, s, _, s' | .read_exact _, s, _, s'
  | .forward_opaque_stream _, s, _, s' => s' = s

/-- The candidate is tried when its turn comes. -/
def Candidate.due (word : FailoverPeer → Nat) : Candidate → Bool
  | .ready peer now => !decide (Cooling now (word peer))
  | .always _ => true

/-- Every attempt got an equal share of the budget `B` at least, and together they have not
outlasted it. -/
structure Fair (B c : Nat) (s : Timed) : Prop where
  share : ∀ x ∈ s.attempts, B / c ≤ x.share
  spent : s.spent ≤ B

/-! ## What is left for those still to come -/

/-- A part of what is left, at most: enough is left for the others. -/
theorem left_after {R q n t : Nat} (hR : (n + 1) * q ≤ R) (ht : t ≤ R / (n + 1)) : n * q ≤ R - t := by
  have hq : q ≤ R / (n + 1) := (Nat.le_div_iff_mul_le (Nat.succ_pos n)).2 (by rwa [Nat.mul_comm])
  have hdiv : R / (n + 1) * (n + 1) ≤ R := Nat.div_mul_le_self R (n + 1)
  have hn : n * q ≤ n * (R / (n + 1)) := Nat.mul_le_mul_left n hq
  rw [Nat.mul_succ, Nat.mul_comm] at hdiv
  omega

/-- Before a turn of the loop: `n` candidates are still to come. -/
structure Turn (B c n : Nat) (s : Timed) : Prop where
  fair : Fair B c s
  tried : s.attempts.length + n = c
  left : n * (B / c) ≤ B - s.spent

section Turn

variable {B c n : Nat} {s : Timed} (h : Turn B c (n + 1) s)
include h

theorem Turn.enough : B / c ≤ (B - s.spent) / (n + 1) :=
  (Nat.le_div_iff_mul_le (Nat.succ_pos n)).2 (by rw [Nat.mul_comm]; exact h.left)

theorem Turn.attempted {lasted : Duration} (ht : lasted ≤ (B - s.spent) / (n + 1)) :
    Turn B c n (s.attempted ((B - s.spent) / (n + 1)) lasted) := by
  have hle : (B - s.spent) / (n + 1) ≤ B - s.spent := Nat.div_le_self _ _
  have hspent := h.fair.spent
  refine ⟨⟨fun x hx => ?_, ?_⟩, ?_, ?_⟩
  · rcases List.mem_append.1 hx with hx | hx
    · exact h.fair.share x hx
    · rw [List.mem_singleton.1 hx]
      exact h.enough
  · rw [Timed.spent_attempted, Nat.add_comm]
    exact Nat.add_le_of_le_sub hspent (ht.trans hle)
  · have htried := h.tried
    simp only [Timed.attempted, List.length_append, List.length_singleton]
    omega
  · rw [Timed.spent_attempted, ← Nat.sub_sub]
    exact left_after h.left ht

end Turn

/-! ## The program, step by step -/

section Program

variable {word : FailoverPeer → Nat} {B c n : Nat} {s : Timed}

theorem Fair.still {o : Op} (h : Fair B c s) (ho : ∀ a s', timed word o s a s' → s' = s) :
    Always (timed word) (Fair B c) (fun _ s' => s' = s) (.perform o : Forward o.Ans) s :=
  fun a s' hs => ⟨ho a s' hs ▸ h, ho a s' hs⟩

theorem Fair.give_up (h : Fair B c s) (mode : ForwardMode) (handshake started : Nat) :
    Always (timed word) (Fair B c) (fun _ s' => s' = s) (give_up mode handshake started) s := by
  have hlocal : Always (timed word) (Fair B c) (fun _ s' => s' = s) (do
      fetch_add .local_fallbacks
      return Forwarded.ServeLocally (handshake - ((← instant) - started)) : Forward Forwarded) s := by
    refine Always.bind (h.still fun _ _ hs => hs) fun _ s₁ h₁ => ?_
    subst h₁
    exact Always.bind (h.still fun _ _ hs => hs.2) fun _ s₂ h₂ => h₂
  cases mode with
  | Down => exact Always.bind (h.still fun _ _ hs => hs) fun _ s₁ h₁ => h₁
  | Drain => exact hlocal
  | Spill peer => exact hlocal

theorem Fair.cooling_down (h : Fair B c s) (peer : FailoverPeer) (now : Nat) :
    Always (timed word) (Fair B c) (fun r s' => s' = s ∧ r = decide (Cooling now (word peer)))
      (cooling_down peer now) s := by
  rintro _ s' ⟨rfl, rfl⟩
  exact ⟨h, rfl, rfl⟩

theorem Fair.yielded (h : Fair B c s) (candidate : Candidate) :
    Always (timed word) (Fair B c)
      (fun r s' => s' = s ∧ r = if candidate.due word then some candidate.peer else none) candidate.yielded s := by
  cases candidate with
  | always peer => exact ⟨rfl, rfl⟩
  | ready peer now =>
    refine Always.bind (h.cooling_down peer now) fun cooling s₁ h₁ => ?_
    obtain ⟨rfl, rfl⟩ := h₁
    refine ⟨rfl, ?_⟩
    by_cases hcool : Cooling now (word peer) <;> simp [Candidate.due, Candidate.peer, hcool]

theorem attempt_peer_timed {share : Duration} (h : ∀ lasted ≤ share, Fair B c (s.attempted share lasted))
    (addr : SocketAddr) (pre : Bytes) :
    Always (timed word) (Fair B c)
      (fun r s' => (∃ kind, r = .error kind) ∧ ∃ lasted ≤ share, s' = s.attempted share lasted)
      (attempt_peer addr pre share) s := by
  have hgoes : ∀ {lasted s'}, (s.attempted share lasted).GoesOn s' →
      ∃ lasted' ≤ share, s' = s.attempted share lasted' := by
    rintro lasted s' ⟨before, share', t, t', heq, -, ht', rfl⟩
    obtain ⟨hstart, hattempts⟩ := Timed.mk.inj heq
    obtain ⟨hbefore, hlast⟩ := List.append_inj' hattempts rfl
    cases hlast
    exact ⟨t', ht', Timed.mk.injEq .. ▸ ⟨hstart.symm, by rw [← hbefore]⟩⟩
  rintro a s₁ ⟨t₁, ht₁, rfl⟩
  refine ⟨h t₁ ht₁, ?_⟩
  match a with
  | none => exact ⟨⟨_, rfl⟩, t₁, ht₁, rfl⟩
  | some (.error .ConnectionRefused) => exact ⟨⟨_, rfl⟩, t₁, ht₁, rfl⟩
  | some (.error .Other) => exact ⟨⟨_, rfl⟩, t₁, ht₁, rfl⟩
  | some (.ok stream) =>
    intro w s₂ hs₂
    obtain ⟨t₂, ht₂, rfl⟩ := hgoes hs₂
    refine ⟨h t₂ ht₂, ?_⟩
    match w with
    | none => exact ⟨⟨_, rfl⟩, t₂, ht₂, rfl⟩
    | some (.error _) => exact ⟨⟨_, rfl⟩, t₂, ht₂, rfl⟩
    | some (.ok _) =>
      intro r s₃ hs₃
      obtain ⟨t₃, ht₃, rfl⟩ := hgoes hs₃.2
      refine ⟨h t₃ ht₃, ?_⟩
      match r with
      | none => exact ⟨⟨_, rfl⟩, t₃, ht₃, rfl⟩
      | some (.error _) => exact ⟨⟨_, rfl⟩, t₃, ht₃, rfl⟩
      | some (.ok 0) => exact ⟨⟨_, rfl⟩, t₃, ht₃, rfl⟩
      | some (.ok (m + 1)) => exact absurd rfl (hs₃.1 m)

theorem Fair.count_replay (h : Fair B c s) (attempt : Nat) :
    Always (timed word) (Fair B c) (fun _ s' => s' = s) (count_replay attempt) s := by
  unfold Failover.count_replay
  split
  · exact h.still fun _ _ hs => hs
  · exact rfl

/-- The loop, by induction on the candidates: as many as are due are still to come. -/
theorem try_candidates_fair {a : Attempts} (hcount : a.candidate_count = c) {cs : List Candidate} {attempt : Nat}
    (hdeadline : a.deadline = s.start + B) (hattempt : s.attempts.length = attempt)
    (h : Turn B c (cs.countP (·.due word)) s) :
    Always (timed word) (Fair B c) (fun _ s' => c ≤ B → s'.attempts.length = c) (try_candidates a attempt cs) s := by
  induction cs generalizing s attempt with
  | nil =>
    refine Always.imp (fun _ hJ => hJ) ?_ (h.fair.give_up a.mode a.handshake a.started)
    rintro _ s' rfl _
    exact h.tried
  | cons candidate rest ih =>
    refine Always.bind (h.fair.yielded candidate) fun r s₀ h₀ => ?_
    obtain ⟨rfl, rfl⟩ := h₀
    by_cases hdue : candidate.due word = true
    · rw [List.countP_cons_of_pos hdue] at h
      simp only [hdue, if_true]
      refine Always.bind (Always.perform fun _ _ hs => (show _ = _ from hs.2) ▸ h.fair) fun t s₁ h₁ => ?_
      obtain ⟨rfl, rfl⟩ := h₁
      have hremaining : a.deadline - s₁.clock = B - s₁.spent := by
        rw [hdeadline, Timed.clock, Nat.add_sub_add_left]
      have hturns : max (a.candidate_count - attempt) 1 = rest.countP (·.due word) + 1 := by
        rw [hcount, ← h.tried, ← hattempt, Nat.add_sub_cancel_left]
        exact max_eq_left (Nat.le_add_left 1 _)
      rw [hremaining, hturns]
      split
      · -- out of time: then there was not a nanosecond for each
        rename_i hzero
        refine Always.imp (fun _ hJ => hJ) ?_ (h.fair.give_up a.mode a.handshake a.started)
        rintro _ s' rfl hB
        have hleft := h.left
        have hone : 1 ≤ B / c := (Nat.le_div_iff_mul_le (by have := h.tried; omega)).2 (by omega)
        rw [hzero, Nat.succ_mul] at hleft
        omega
      · refine Always.bind (h.fair.count_replay attempt) fun _ s₂ h₂ => ?_
        subst h₂
        refine Always.bind (attempt_peer_timed (fun lasted ht => (h.attempted ht).fair) candidate.peer.addr a.pre)
          fun r s₃ h₃ => ?_
        obtain ⟨⟨kind, rfl⟩, lasted, ht, rfl⟩ := h₃
        have hturn := h.attempted ht
        refine Always.bind (hturn.fair.still (o := .now_ns) fun _ _ hs => hs) fun _ s₄ h₄ => ?_
        subst h₄
        refine Always.bind (hturn.fair.still (o := .record_failure ..) fun _ _ hs => hs) fun _ s₅ h₅ => ?_
        subst h₅
        refine ih hdeadline ?_ hturn
        rw [← hattempt]
        simp [Timed.attempted]
    · rw [List.countP_cons_of_neg hdue] at h
      simp only [hdue, if_false, Bool.false_eq_true]
      exact ih hdeadline hattempt h

end Program

theorem Turn.start {B c : Nat} {s : Timed} (h : s.attempts = []) : Turn B c c s := by
  have hspent : s.spent = 0 := by simp [Timed.spent, h]
  refine ⟨⟨by simp [h], ?_⟩, by simp [h], ?_⟩
  · rw [hspent]
    exact Nat.zero_le B
  · rw [hspent]
    exact Nat.mul_div_le B c

/-- **Fair shares.** In a loop that begins with `B` nanoseconds of budget and counts `c`
candidates, all of which fail within their shares: each is given at least an equal share,
together they last at most the budget, and if that has a nanosecond for each, all of them
are tried before the loop ends. -/
theorem try_candidates_shares {word : FailoverPeer → Nat} {a : Attempts} {cs : List Candidate} {start B c : Nat}
    (hdeadline : a.deadline = start + B) (hcount : a.candidate_count = c) (hdue : cs.countP (·.due word) = c)
    {p : Forward Forwarded} {s : Timed} (h : Reached (timed word) (try_candidates a 0 cs) ⟨start, []⟩ p s) :
    (∀ x ∈ s.attempts, B / c ≤ x.share) ∧ s.spent ≤ B ∧
      ∀ r, p = .pure r → c ≤ B → s.attempts.length = c := by
  have hturn : Turn B c (cs.countP (·.due word)) ⟨start, []⟩ := hdue.symm ▸ Turn.start rfl
  obtain ⟨hfair, hend⟩ := (try_candidates_fair hcount hdeadline rfl hturn).reached hturn.fair h
  refine ⟨hfair.share, hfair.spent, ?_⟩
  rintro r rfl
  exact hend

/-- Eleven nanoseconds for two peers, of which the first stays silent. -/
def elevenForTwo : Attempts := ⟨routed [peer_a, peer_b], .Down, 11, 100, 111, 2, 0, []⟩

theorem try_candidates_shares_silent :
    ∃ r, Reached (timed fun _ => 0) (try_candidates elevenForTwo 0 [.always peer_a, .always peer_b]) ⟨100, []⟩
        (.pure r) ⟨100, [⟨5, 5⟩, ⟨6, 1⟩]⟩ ∧
      Timed.spent ⟨100, [⟨5, 5⟩, ⟨6, 1⟩]⟩ ≤ 11 ∧ 11 / 2 ≤ (⟨6, 1⟩ : Attempt).share := by
  have hrun : Reached (timed fun _ => 0) (try_candidates elevenForTwo 0 [.always peer_a, .always peer_b]) ⟨100, []⟩
      (.pure (.Done (.error .UpstreamConnect))) ⟨100, [⟨5, 5⟩, ⟨6, 1⟩]⟩ := by
    have begun : Reached (timed fun _ => 0) (try_candidates elevenForTwo 0 [.always peer_a, .always peer_b])
        ⟨100, []⟩ _ _ := .start
    have first := (((begun.step (o := Op.instant) (a := (100 : Nat)) ⟨rfl, rfl⟩).step
      (o := Op.connect peer_a.addr 5) (a := none) ⟨5, by decide, rfl⟩).step (o := Op.now_ns) (a := (0 : Nat)) rfl).step
      (o := Op.record_failure peer_a .Timeout 5000000000 60000000000 0) (a := ()) rfl
    have second := (((first.step (o := Op.instant) (a := (105 : Nat)) ⟨rfl, rfl⟩).step
      (o := Op.fetch_add .replays) (a := ()) rfl).step (o := Op.connect peer_b.addr 6)
      (a := some (.error .ConnectionRefused)) ⟨1, by decide, rfl⟩).step (o := Op.now_ns) (a := (0 : Nat)) rfl
    exact (second.step (o := Op.record_failure peer_b .Refused 5000000000 60000000000 0) (a := ()) rfl).step
      (o := Op.fetch_add .exhausted) (a := ()) rfl
  obtain ⟨hshare, hspent, -⟩ := try_candidates_shares (show elevenForTwo.deadline = 100 + 11 from rfl) rfl rfl hrun
  exact ⟨_, hrun, hspent, hshare _ (by simp)⟩

/-! ## A whole forward -/

section Forward

variable {word : FailoverPeer → Nat} {B c : Nat} {s : Timed}

theorem Fair.count_ready (h : Fair B c s) (now : Nat) (l : List FailoverPeer) :
    Always (timed word) (Fair B c) (fun n s' => s' = s ∧ n = l.countP fun peer => !decide (Cooling now (word peer)))
      (count_ready now l) s := by
  induction l with
  | nil => exact ⟨rfl, rfl⟩
  | cons peer l ih =>
    refine Always.bind (h.cooling_down peer now) fun cooling s₁ h₁ => ?_
    obtain ⟨rfl, rfl⟩ := h₁
    refine Always.bind ih fun ready s₂ h₂ => ?_
    obtain ⟨rfl, rfl⟩ := h₂
    refine ⟨rfl, ?_⟩
    by_cases hcool : Cooling now (word peer) <;> simp [hcool]

theorem Fair.earliest_cooldown (h : Fair B c s) (best : Option (FailoverPeer × Nat)) (l : List FailoverPeer) :
    Always (timed word) (Fair B c) (fun r s' => s' = s ∧ r.isSome = (best.isSome || !l.isEmpty))
      (earliest_cooldown best l) s := by
  induction l generalizing best with
  | nil => exact ⟨rfl, by simp⟩
  | cons peer l ih =>
    refine Always.bind (h.still (o := .cooldown peer) fun _ _ hs => hs.2) fun read s₁ h₁ => ?_
    subst h₁
    have hsome : ∀ b, Always (timed word) (Fair B c) (fun r s' => s' = s₁ ∧ r.isSome = true)
        (Failover.earliest_cooldown (some b) l) s₁ := by
      intro b
      exact (ih (some b)).imp (fun _ hJ => hJ) fun r s' hr => by simpa using hr
    cases best with
    | none => exact (hsome _).imp (fun _ hJ => hJ) fun r s' hr => by simpa using hr
    | some b => exact (hsome _).imp (fun _ hJ => hJ) fun r s' hr => by simpa using hr

/-- As many candidates are counted as are due, and never more than there are peers. -/
theorem Fair.candidates (h : Fair B c s) (peers : List FailoverPeer) (now : Nat) (wait_for_cooldown : Bool) :
    Always (timed word) (Fair B c)
      (fun r s' => s' = s ∧ r.1 = r.2.countP (·.due word) ∧ r.1 ≤ peers.length)
      (candidates peers now wait_for_cooldown) s := by
  have hstart : Always (timed word) (Fair B c) (fun _ s' => s' = s) (rotation_start peers.length) s := by
    unfold rotation_start
    split
    · exact rfl
    · exact Always.bind (h.still (o := .next_cursor) fun _ _ hs => hs) fun _ _ h' => h'
  refine Always.bind hstart fun start s₁ h₁ => ?_
  subst h₁
  refine Always.bind (h.count_ready now peers) fun ready s₂ h₂ => ?_
  obtain ⟨rfl, hready⟩ := h₂
  have hfall : Always (timed word) (Fair B c)
      (fun r s' => s' = s₂ ∧ (r.toList.length = 0 ∨ ready = 0 ∧ r.toList.length = 1 ∧ peers ≠ []))
      (fallback peers wait_for_cooldown ready) s₂ := by
    unfold fallback
    split
    · rename_i hnone
      refine (h.earliest_cooldown none peers).imp (fun _ hJ => hJ) ?_
      rintro r s' ⟨rfl, hr⟩
      refine ⟨rfl, ?_⟩
      cases r with
      | none => exact .inl rfl
      | some last =>
        refine .inr ⟨by simp at hnone; exact hnone.1, rfl, ?_⟩
        rintro rfl
        simp at hr
    · exact ⟨rfl, .inl rfl⟩
  refine Always.bind hfall fun r s₃ h₃ => ?_
  obtain ⟨rfl, hr⟩ := h₃
  have hrot : ((peers.rotate start).map (Candidate.ready · now)).countP (·.due word) = ready := by
    rw [List.countP_map, (List.rotate_perm peers start).countP_eq, hready]
    rfl
  have hlast : (r.toList.map Candidate.always).countP (·.due word) = r.toList.length := by
    cases r <;> rfl
  have hle : ready ≤ peers.length := hready ▸ List.countP_le_length
  refine ⟨rfl, ?_, ?_⟩
  · simp only [rotation_eq, List.countP_append, hrot, hlast]
    omega
  · rcases hr with hr | ⟨-, hr, hne⟩
    · simp only [hr]
      omega
    · have hpos := List.length_pos_iff.2 hne
      simp only [hr]
      omega

theorem Fair.candidates_for (h : Fair B c s) (failover : Router.Failover) (mode : ForwardMode) (now : Nat) :
    Always (timed word) (Fair B c)
      (fun r s' => s' = s ∧ r.1 = r.2.countP (·.due word) ∧ r.1 ≤ failover.peers.length)
      (candidates_for failover mode now) s := by
  cases mode with
  | Down => exact h.candidates failover.peers now true
  | Drain => exact h.candidates failover.peers now false
  | Spill i =>
    simp only [Failover.candidates_for]
    cases hpeer : failover.peers[i]? with
    | none => exact ⟨rfl, rfl, Nat.zero_le _⟩
    | some peer =>
      refine Always.bind (h.cooling_down peer now) fun cooling s₁ h₁ => ?_
      obtain ⟨rfl, -⟩ := h₁
      have hpos : 0 < failover.peers.length := by
        have := (List.getElem?_eq_some_iff.1 hpeer).1
        omega
      cases cooling with
      | true => exact ⟨rfl, rfl, Nat.zero_le _⟩
      | false => exact ⟨rfl, rfl, hpos⟩

theorem forward_to_peers_fair (hempty : s.attempts = []) (peek : PeekInfo) (failover : Router.Failover)
    (mode : ForwardMode) (handshake : Duration) (peer_addr : SocketAddr) (local_addr : Option SocketAddr) :
    Always (timed word) (Fair (budget mode handshake) failover.peers.length) (fun _ _ => True)
      (forward_to_peers peek failover mode handshake peer_addr local_addr) s := by
  have h₀ : Fair (budget mode handshake) failover.peers.length s := (Turn.start hempty).fair
  have hgive_up : ∀ started, Always (timed word) (Fair (budget mode handshake) failover.peers.length) (fun _ _ => True)
      (give_up mode handshake started) s := fun started =>
    (h₀.give_up mode handshake started).imp (fun _ hJ => hJ) fun _ _ _ => trivial
  refine Always.bind (Always.perform fun _ _ hs => (show _ = _ from hs.2) ▸ h₀) fun started s₁ h₁ => ?_
  obtain ⟨rfl, rfl⟩ := h₁
  split
  · cases mode with
    | Down => trivial
    | Drain => exact hgive_up _
    | Spill i => exact hgive_up _
  · refine Always.bind (h₀.still (o := .now_ns) fun _ _ hs => hs) fun now s₂ h₂ => ?_
    subst h₂
    refine Always.bind (h₀.candidates_for failover mode now) fun r s₃ h₃ => ?_
    obtain ⟨count, cs⟩ := r
    obtain ⟨rfl, hcount, hle⟩ := h₃
    simp only at hcount hle ⊢
    split
    · exact hgive_up _
    · rename_i hne
      split
      · exact hgive_up _
      · refine Always.bind (h₀.still (o := .peek_client _) fun _ _ hs => hs) fun hello s₄ h₄ => ?_
        subst h₄
        split
        · exact hgive_up _
        · split
          · -- no time has passed since the budget began
            have hclock : s₄.clock = s₄.start := by simp [Timed.clock, Timed.spent, hempty]
            have hturn : Turn (budget mode handshake) count (cs.countP (·.due word)) s₄ := hcount ▸ Turn.start hempty
            rw [hclock]
            refine (try_candidates_fair rfl rfl (by simp [hempty]) hturn).imp ?_ fun _ _ _ => trivial
            intro s' hs'
            refine ⟨fun x hx => le_trans ?_ (hs'.share x hx), hs'.spent⟩
            exact Nat.div_le_div_left hle (Nat.pos_of_ne_zero hne)
          · exact hgive_up _

/-- A forward whose attempts all fail gives each of them at least an equal share of its
budget among the peers, and lasts no longer than that. -/
theorem forward_to_peers_shares {failover : Router.Failover} {mode : ForwardMode} {peek : PeekInfo}
    {handshake : Duration} {peer_addr : SocketAddr} {local_addr : Option SocketAddr} {start : Nat}
    {p : Forward Forwarded}
    (h : Reached (timed word) (forward_to_peers peek failover mode handshake peer_addr local_addr) ⟨start, []⟩ p s) :
    (∀ x ∈ s.attempts, budget mode handshake / failover.peers.length ≤ x.share) ∧ s.spent ≤ budget mode handshake := by
  obtain ⟨hend, -⟩ := (forward_to_peers_fair rfl peek failover mode handshake peer_addr local_addr).reached
    (Turn.start rfl).fair h
  exact ⟨hend.share, hend.spent⟩

end Forward

/-- Two peers get half a second each, and the first one refuses at once. -/
theorem forward_to_peers_shares_hello :
    ∃ p, Reached (timed fun _ => 0) (forward_hello [peer_a, peer_b]) ⟨100, []⟩ p ⟨100, [⟨500000000, 7⟩]⟩ ∧
      1000000000 / 2 ≤ (⟨500000000, 7⟩ : Attempt).share := by
  have begun : Reached (timed fun _ => 0) (forward_hello [peer_a, peer_b]) ⟨100, []⟩ _ _ := .start
  have turned := ((begun.step (o := Op.instant) (a := (100 : Nat)) ⟨rfl, rfl⟩).step (o := Op.now_ns) (a := (0 : Nat))
    rfl).step (o := Op.next_cursor) (a := (0 : Nat)) rfl
  have counted := (turned.step (o := Op.cooldown peer_a) (a := (0 : Nat)) ⟨rfl, rfl⟩).step (o := Op.cooldown peer_b)
    (a := (0 : Nat)) ⟨rfl, rfl⟩
  have first := (counted.step (o := Op.peek_client 3) (a := some [1, 2, 3]) rfl).step (o := Op.cooldown peer_a)
    (a := (0 : Nat)) ⟨rfl, rfl⟩
  have h := (first.step (o := Op.instant) (a := (100 : Nat)) ⟨rfl, rfl⟩).step
    (o := Op.connect peer_a.addr 500000000) (a := some (.error .ConnectionRefused)) ⟨7, by decide, rfl⟩
  exact ⟨_, h, (forward_to_peers_shares h).1 ⟨500000000, 7⟩ (List.mem_singleton_self _)⟩

end Symphony.Failover
