import Symphony.Protection.Entries
import Symphony.Protection.Rate
/-!
# The penalty box

A check that finds a rate bucket empty puts its address in the box, or keeps it there:
the address's deadline is the greatest end of such a penalty. The checks are observed
together with whether they found a bucket empty, since one that is blocked by the box
answers the same either way.
-/

namespace Symphony.Protection

open Lib (Machine)
open Sni (PeekInfo)

/-! ## Checks and what they found -/

/-- The check gets as far as the rate buckets and finds one empty. -/
def found_empty (st : ProtectionState) (peer_ip : IpAddr) (peek_info : PeekInfo) (now : Nat) : Bool :=
  (static_check st.config peer_ip.to_canonical peek_info).isNone &&
    let (id, st) := get_or_create_state st peer_ip.to_canonical st.config.burst_fp st.config.sustained_burst_fp now
    finds_empty st.config now (st.states id)

/-- The protection state, with checks that also tell whether they found a bucket empty. -/
def observed : Machine ProtectionState Event (Option (Decision × Bool)) where
  step st e := match e with
    | .check peer_ip peek_info now =>
      (some ((check_at st peer_ip peek_info now).1, found_empty st peer_ip peek_info now),
        (check_at st peer_ip peek_info now).2)
    | .evict now => (none, evict_at st now)
    | .release id => (none, release st id)
  reading := machine.reading

/-- Observing changes no run. -/
theorem observed_run {init st : ProtectionState} {clock : Nat} {log : List (Event × Option (Decision × Bool))}
    (h : observed.Run init st clock log) : machine.Run init st clock (log.map fun e => (e.1, e.2.map Prod.fst)) := by
  induction h with
  | nil => exact .nil
  | step e _ hc ih =>
    have hstep := ih.step e hc
    rw [List.map_append]
    cases e <;> exact hstep

/-- A check of `ip` at reading `s` found a rate bucket empty. -/
def FoundEmpty (ip : IpAddr) (s : Nat) (x : Event × Option (Decision × Bool)) : Prop :=
  ∃ peer_ip info d, x = (.check peer_ip info s, some (d, true)) ∧ peer_ip.to_canonical = ip

/-- A check of `ip` at reading `t` was answered `d`. -/
def Answered (ip : IpAddr) (t : Nat) (d : Decision) (x : Event × Option (Decision × Bool)) : Prop :=
  ∃ peer_ip info found, x = (.check peer_ip info t, some (d, found)) ∧ peer_ip.to_canonical = ip

theorem foundEmpty_check {ip peer_ip : IpAddr} {info : PeekInfo} {s now : Nat} {d : Decision} {found : Bool} :
    FoundEmpty ip s (.check peer_ip info now, some (d, found)) ↔
      s = now ∧ found = true ∧ peer_ip.to_canonical = ip := by
  constructor
  · rintro ⟨_, _, _, he, rfl⟩
    cases he
    exact ⟨rfl, rfl, rfl⟩
  · rintro ⟨rfl, rfl, rfl⟩
    exact ⟨peer_ip, info, d, rfl, rfl⟩

/-- Where a penalty that starts at `s` ends. -/
def penaltyEnd (cfg : ProtectionConfig) (s : Nat) : Nat := min (s + cfg.penalty_box_duration_ms * 1000000) U64_MAX

theorem penalty_saturates (cfg : ProtectionConfig) (s : Nat) :
    sat_add64 s (sat_mul64 cfg.penalty_box_duration_ms 1000000) = penaltyEnd cfg s := by
  unfold sat_add64 sat_mul64 penaltyEnd
  omega

/-! ## The deadline of an address -/

/-- The deadline of an address: zero when it has no entry. -/
def deadline (st : ProtectionState) (ip : IpAddr) : Nat := view IpState.penalty_deadline_ns 0 st ip

section Deadline

variable {cfg : ProtectionConfig} {st : ProtectionState}

/-- What a check does to the deadlines, and what its answer says about its own. -/
structure Checked (cfg : ProtectionConfig) (st : ProtectionState) (peer_ip : IpAddr) (info : PeekInfo) (now : Nat) :
    Prop where
  owned : Owned (check_at st peer_ip info now).2
  config : (check_at st peer_ip info now).2.config = cfg
  moved : ∀ ip, deadline (check_at st peer_ip info now).2 ip =
    if ip = peer_ip.to_canonical ∧ found_empty st peer_ip info now = true
    then max (deadline st ip) (penaltyEnd cfg now) else deadline st ip
  allow : ∀ id, (check_at st peer_ip info now).1 = .Allow id → deadline st peer_ip.to_canonical ≤ now
  boxed : (check_at st peer_ip info now).1 = .Block .PenaltyBoxed → now < deadline st peer_ip.to_canonical

theorem static_check_ne_boxed {ip : IpAddr} {info : PeekInfo} {d : Decision}
    (h : static_check cfg ip info = some d) : d ≠ .Block .PenaltyBoxed := by
  rintro rfl
  unfold static_check at h
  split_ifs at h <;> cases h

theorem deadline_of_admitted (hp : 0 < cfg.penalty_box_duration_ms) {now : Nat} {s : IpState}
    (h : (ip_check cfg now s).1 = none) : s.penalty_deadline_ns ≤ now := by
  have hb := (ip_check_admits h).1
  simp only [boxed, hp, decide_true, Bool.true_and, Bool.and_eq_false_iff, decide_eq_false_iff_not] at hb
  omega

theorem deadline_of_boxed {now : Nat} {s : IpState} (h : (ip_check cfg now s).1 = some .PenaltyBoxed) :
    now < s.penalty_deadline_ns := by
  rw [ip_check_answer] at h
  cases hb : boxed cfg now s with
  | true =>
    simp only [boxed, Bool.and_eq_true, decide_eq_true_eq] at hb
    exact hb.2
  | false =>
    simp only [hb, Bool.false_eq_true, if_false] at h
    split at h
    · cases h
    · split at h <;> cases h

theorem checked (hp : 0 < cfg.penalty_box_duration_ms) (h : Owned st) (hcfg : st.config = cfg) (peer_ip : IpAddr)
    (info : PeekInfo) (now : Nat) : Checked cfg st peer_ip info now := by
  subst hcfg
  rcases check_at_cases st peer_ip info now with ⟨d, hd, he⟩ | ⟨hn, id, st₁, hg, he⟩
  · have hfound : found_empty st peer_ip info now = false := by simp [found_empty, hd]
    refine ⟨by rwa [he], by rw [he], ?_, ?_, ?_⟩
    · simp [he, hfound]
    · intro id hid
      rw [he] at hid
      exact absurd hid (static_check_ne_allow hd id)
    · intro hb
      rw [he] at hb
      exact absurd hb (static_check_ne_boxed hd)
  · -- the entry decides: what the check leaves there is what `ip_check` makes of it
    obtain ⟨h₁, hcfg, hl⟩ := h.get_or_create hg
    have hview : ∀ ip, deadline st₁ ip = deadline st ip := view_get_or_create h hg rfl
    have hown : deadline st peer_ip.to_canonical = (st₁.states id).penalty_deadline_ns := by
      rw [← hview]
      exact view_some hl
    have hfound : found_empty st peer_ip info now = finds_empty st.config now (st₁.states id) := by
      simp [found_empty, hn, hg, hcfg]
    refine ⟨by rw [he]; exact h₁.setState _ _, by rw [he]; exact hcfg, ?_, ?_, ?_⟩
    · intro ip
      have hset : deadline (check_at st peer_ip info now).2 ip = if ip = peer_ip.to_canonical
          then (ip_check st.config now (st₁.states id)).2.penalty_deadline_ns else deadline st₁ ip := by
        rw [he]
        exact view_setState h₁ hl _ ip
      rw [hset, hview, ip_check_deadline hp, penalty_saturates, hfound]
      by_cases hip : ip = peer_ip.to_canonical
      · subst hip
        simp only [if_true, true_and, hown]
      · simp only [hip, if_false, false_and]
    · intro id' hid
      rw [he] at hid
      rw [hown]
      apply deadline_of_admitted hp
      cases hv : (ip_check st.config now (st₁.states id)).1 with
      | none => rfl
      | some reason => simp [verdict, hv] at hid
    · intro hb
      rw [he] at hb
      rw [hown]
      apply deadline_of_boxed
      cases hv : (ip_check st.config now (st₁.states id)).1 with
      | none => simp [verdict, hv] at hb
      | some reason =>
        simp only [verdict, hv, Decision.Block.injEq] at hb
        rw [hb]

/-- An eviction forgets a deadline only once it has passed. -/
theorem deadline_evict (hp : 0 < st.config.penalty_box_duration_ms) (now : Nat) (ip : IpAddr) :
    deadline (evict_at st now) ip = deadline st ip ∨
      (deadline st ip ≤ now ∧ deadline (evict_at st now) ip = 0) := by
  rcases view_evict (f := IpState.penalty_deadline_ns) (d := 0) st now ip with hsame | ⟨id, hl, hr, hgone⟩
  · exact .inl hsame
  · right
    refine ⟨?_, hgone⟩
    have hown : deadline st ip = (st.states id).penalty_deadline_ns := view_some hl
    rw [hown]
    simp only [retained, boxed, hp, Bool.or_eq_false_iff, decide_true, Bool.true_and, Bool.and_eq_false_iff,
      decide_eq_false_iff_not] at hr
    omega

theorem deadline_release (id : Nat) (ip : IpAddr) : deadline (release st id) ip = deadline st ip :=
  view_release (fun _ => rfl) id ip

end Deadline

/-! ## Along a run -/

/-- The deadline of `ip` is behind no penalty of the log that has not ended, and is the
end of one of them. -/
structure Boxing (cfg : ProtectionConfig) (ip : IpAddr) (st : ProtectionState) (clock : Nat)
    (log : List (Event × Option (Decision × Bool))) : Prop where
  owned : Owned st
  config : st.config = cfg
  held : ∀ x ∈ log, ∀ s, FoundEmpty ip s x → penaltyEnd cfg s ≤ deadline st ip ∨ penaltyEnd cfg s ≤ clock
  caused : 0 < deadline st ip → ∃ x ∈ log, ∃ s, FoundEmpty ip s x ∧ deadline st ip = penaltyEnd cfg s

section Run

variable {cfg : ProtectionConfig} {ip : IpAddr} {st st₁ : ProtectionState} {clock : Nat}
  {log : List (Event × Option (Decision × Bool))}

theorem Boxing.fresh (cfg : ProtectionConfig) (ip : IpAddr) : Boxing cfg ip (.fresh cfg) 0 [] where
  owned := .fresh cfg
  config := rfl
  held x hx := by cases hx
  caused h := absurd h (Nat.lt_irrefl 0)

/-- A step that finds no bucket of `ip` empty keeps its deadline, or forgets it once it
has passed. -/
theorem Boxing.quiet (h : Boxing cfg ip st clock log) {now : Nat} (hclock : clock ≤ now)
    {x : Event × Option (Decision × Bool)} (hx : ∀ s, ¬ FoundEmpty ip s x) (howned : Owned st₁)
    (hcfg : st₁.config = cfg) (hd : deadline st₁ ip = deadline st ip ∨ (deadline st ip ≤ now ∧ deadline st₁ ip = 0)) :
    Boxing cfg ip st₁ now (log ++ [x]) := by
  refine ⟨howned, hcfg, ?_, ?_⟩
  · intro y hy s hfound
    rcases List.mem_append.1 hy with hold | hnew
    · rcases h.held y hold s hfound with hle | hle
      · rcases hd with he | ⟨hpast, -⟩
        · exact .inl (he ▸ hle)
        · exact .inr (hle.trans hpast)
      · exact .inr (hle.trans hclock)
    · rw [List.mem_singleton.1 hnew] at hfound
      exact absurd hfound (hx s)
  · intro hpos
    rcases hd with he | ⟨-, h0⟩
    · rw [he] at hpos ⊢
      obtain ⟨y, hy, hcause⟩ := h.caused hpos
      exact ⟨y, List.mem_append_left _ hy, hcause⟩
    · omega

/-- A check of `ip` that finds a bucket empty. -/
theorem Boxing.penalty (h : Boxing cfg ip st clock log) {now : Nat} (hclock : clock ≤ now)
    {x : Event × Option (Decision × Bool)} (hx : ∀ s, FoundEmpty ip s x ↔ s = now) (howned : Owned st₁)
    (hcfg : st₁.config = cfg) (hd : deadline st₁ ip = max (deadline st ip) (penaltyEnd cfg now)) :
    Boxing cfg ip st₁ now (log ++ [x]) := by
  refine ⟨howned, hcfg, ?_, ?_⟩
  · intro y hy s hfound
    rw [hd]
    rcases List.mem_append.1 hy with hold | hnew
    · rcases h.held y hold s hfound with hle | hle
      · exact .inl (hle.trans (le_max_left _ _))
      · exact .inr (hle.trans hclock)
    · rw [List.mem_singleton.1 hnew] at hfound
      obtain rfl := (hx s).1 hfound
      exact .inl (le_max_right _ _)
  · intro hpos
    rw [hd] at hpos ⊢
    rcases le_total (deadline st ip) (penaltyEnd cfg now) with hle | hle
    · rw [max_eq_right hle]
      exact ⟨x, by simp, now, (hx now).2 rfl, rfl⟩
    · rw [max_eq_left hle] at hpos ⊢
      obtain ⟨y, hy, hcause⟩ := h.caused hpos
      exact ⟨y, List.mem_append_left _ hy, hcause⟩

theorem Boxing.check (hp : 0 < cfg.penalty_box_duration_ms) (h : Boxing cfg ip st clock log) (peer_ip : IpAddr)
    (info : PeekInfo) {now : Nat} (hclock : clock ≤ now) :
    Boxing cfg ip (check_at st peer_ip info now).2 now
      (log ++ [(.check peer_ip info now,
        some ((check_at st peer_ip info now).1, found_empty st peer_ip info now))]) := by
  have hc := checked hp h.owned h.config peer_ip info now
  have hmoved := hc.moved ip
  by_cases hfound : ip = peer_ip.to_canonical ∧ found_empty st peer_ip info now = true
  · rw [if_pos hfound] at hmoved
    apply h.penalty hclock _ hc.owned hc.config hmoved
    intro s
    rw [foundEmpty_check]
    exact ⟨fun hs => hs.1, fun hs => ⟨hs, hfound.2, hfound.1.symm⟩⟩
  · rw [if_neg hfound] at hmoved
    apply h.quiet hclock _ hc.owned hc.config (.inl hmoved)
    intro s hs
    rw [foundEmpty_check] at hs
    exact hfound ⟨hs.2.2.symm, hs.2.1⟩

/-- The deadline of an address after any run. -/
theorem run_boxing (hp : 0 < cfg.penalty_box_duration_ms) (h : observed.Run (.fresh cfg) st clock log) (ip : IpAddr) :
    Boxing cfg ip st clock log := by
  apply h.inv (Boxing cfg ip)
  · exact .fresh cfg ip
  · intro st clock log e hb hclock
    cases e with
    | check peer_ip info now => exact hb.check hp peer_ip info hclock
    | evict now =>
      have hp' : 0 < st.config.penalty_box_duration_ms := by rw [hb.config]; exact hp
      apply hb.quiet hclock _ (hb.owned.evict now) hb.config (deadline_evict hp' now ip)
      rintro s ⟨_, _, _, he, -⟩
      cases he
    | release id =>
      apply hb.quiet hclock _ (hb.owned.setState _ _) hb.config (.inl (deadline_release id ip))
      rintro s ⟨_, _, _, he, -⟩
      cases he

end Run

/-- After a check of an address that found a rate bucket empty, no check of it before the
end of that penalty admits; and a check is blocked by the box only within a penalty that
an earlier check of the address started. -/
theorem penalty_box {cfg : ProtectionConfig} (hp : 0 < cfg.penalty_box_duration_ms) {st : ProtectionState} {clock : Nat}
    {log : List (Event × Option (Decision × Bool))} (h : observed.Run (.fresh cfg) st clock log) (ip : IpAddr) :
    (∀ past x between y rest s t d, log = past ++ x :: between ++ y :: rest → FoundEmpty ip s x → Answered ip t d y →
      t < penaltyEnd cfg s → ∀ id, d ≠ .Allow id) ∧
    (∀ past y rest t, log = past ++ y :: rest → Answered ip t (.Block .PenaltyBoxed) y →
      ∃ x ∈ past, ∃ s, FoundEmpty ip s x ∧ t < penaltyEnd cfg s) := by
  constructor
  · rintro past x between _ rest s t d hlog hfound ⟨peer_ip, info, found, rfl, rfl⟩ hend id rfl
    obtain ⟨st', clock', hrun, hclock, hanswer⟩ := h.answered hlog
    have hb := run_boxing hp hrun peer_ip.to_canonical
    have hc := checked hp hb.owned hb.config peer_ip info t
    have hallow : (check_at st' peer_ip info t).1 = .Allow id := congrArg Prod.fst (Option.some.inj hanswer).symm
    have hpast := hc.allow id hallow
    -- the penalty is still held by the deadline, or it ended before this check
    rcases hb.held x (by simp) s hfound with hle | hle
    · omega
    · change clock' ≤ t at hclock
      omega
  · rintro past _ rest t hlog ⟨peer_ip, info, found, rfl, rfl⟩
    obtain ⟨st', clock', hrun, -, hanswer⟩ := h.answered hlog
    have hb := run_boxing hp hrun peer_ip.to_canonical
    have hc := checked hp hb.owned hb.config peer_ip info t
    have hboxed : (check_at st' peer_ip info t).1 = .Block .PenaltyBoxed :=
      congrArg Prod.fst (Option.some.inj hanswer).symm
    have hlt := hc.boxed hboxed
    obtain ⟨x, hx, s, hfound, hend⟩ := hb.caused (Nat.zero_lt_of_lt hlt)
    exact ⟨x, hx, s, hfound, hend ▸ hlt⟩

/-- One connection a second, and a penalty of a second. -/
def oneASecond : ProtectionConfig :=
  { tokens_per_ns := 1 / 1000000000, burst_fp := 1000, penalty_box_duration_ms := 1000 }

/-- A client's second check finds the bucket empty. Its third finds a token, within the
penalty that the second started. -/
theorem penalty_box_third_check : ∃ st clock log, observed.Run (.fresh oneASecond) st clock log ∧
    log.map Prod.snd =
      [some (.Allow 0, false), some (.Block .RateLimited, true), some (.Block .PenaltyBoxed, false)] ∧
    ∃ x ∈ log, ∃ s, FoundEmpty (.V4 1) s x ∧ 1000000000 < penaltyEnd oneASecond s := by
  have h₀ : observed.Run (.fresh oneASecond) (.fresh oneASecond) 0 [] := .nil
  have h₁ := h₀.step (Event.check (.V4 1) .default 0) (Nat.le_refl _)
  have h₂ := h₁.step (Event.check (.V4 1) .default 1) (Nat.zero_le _)
  have h := h₂.step (Event.check (.V4 1) .default 1000000000) (by decide)
  refine ⟨_, _, _, h, by decide +kernel, ?_⟩
  obtain ⟨x, hx, hfound⟩ := (penalty_box (by decide) h (.V4 1)).2 _ _ [] 1000000000 rfl
    ⟨.V4 1, .default, false, Prod.ext rfl (by decide +kernel), rfl⟩
  exact ⟨x, List.mem_append_left _ hx, hfound⟩

end Symphony.Protection
