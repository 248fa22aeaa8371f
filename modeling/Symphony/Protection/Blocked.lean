import Symphony.Protection.Rate
/-!
# What the next check would find

`blocked_ips` and `evict_at` look at an entry without debiting it: they project what a
refill would leave. On every state that checks, evictions and releases can reach, the
projection is what a check finds, so the report names the answer of the next check, and
an eviction changes no answer.
-/

namespace Symphony.Protection

open Lib (Bucket Machine Table)
open Sni (PeekInfo)

/-! ## The report -/

/-- The projection leaves less than a token. -/
def short (cfg : ProtectionConfig) (k : Limit) (now : Nat) (s : IpState) : Bool :=
  0 < cfg.rate k && projected cfg k now s < ONE_TOKEN

/-- The three lists of `blocked_ips`. -/
structure BlockedIps where
  rate_limited : List IpAddr := []
  concurrency_limited : List IpAddr := []
  penalty_boxed : List IpAddr := []

/-- One turn of the loop over the table. -/
def BlockedIps.push (cfg : ProtectionConfig) (now : Nat) (r : BlockedIps) (ip : IpAddr) (s : IpState) : BlockedIps :=
  if boxed cfg now s then { r with penalty_boxed := r.penalty_boxed ++ [ip] }
  else
    let is_rate_limited := short cfg .perSecond now s || short cfg .sustained now s
    let r := if is_rate_limited then { r with rate_limited := r.rate_limited ++ [ip] } else r
    if 0 < cfg.max_concurrent_per_ip && cfg.max_concurrent_per_ip ≤ s.active then
      { r with concurrency_limited := r.concurrency_limited ++ [ip] }
    else r

/-- `blocked_ips`, at reading `now`. -/
def blocked_ips (st : ProtectionState) (now : Nat) : BlockedIps :=
  st.ip_table.entries.foldl (fun r e => r.push st.config now e.1 (st.states e.2)) {}

/-- The entries that `blocked_ips` calls limited by a rate. -/
def rate_limited (cfg : ProtectionConfig) (now : Nat) (s : IpState) : Bool :=
  !boxed cfg now s && (short cfg .perSecond now s || short cfg .sustained now s)

/-- The entries that `blocked_ips` calls limited by their number of connections. -/
def concurrency_limited (cfg : ProtectionConfig) (now : Nat) (s : IpState) : Bool := !boxed cfg now s && crowded cfg s

theorem BlockedIps.push_eq (cfg : ProtectionConfig) (now : Nat) (r : BlockedIps) (ip : IpAddr) (s : IpState) :
    r.push cfg now ip s =
      ⟨if Protection.rate_limited cfg now s then r.rate_limited ++ [ip] else r.rate_limited,
        if Protection.concurrency_limited cfg now s then r.concurrency_limited ++ [ip] else r.concurrency_limited,
        if boxed cfg now s then r.penalty_boxed ++ [ip] else r.penalty_boxed⟩ := by
  unfold push Protection.rate_limited Protection.concurrency_limited crowded
  cases boxed cfg now s with
  | true => simp
  | false =>
    cases short cfg .perSecond now s || short cfg .sustained now s <;>
      cases decide (0 < cfg.max_concurrent_per_ip) && decide (cfg.max_concurrent_per_ip ≤ s.active) <;> rfl

/-- Each list holds the addresses of the entries it is for, in the order of the table. -/
theorem blocked_ips_lists (st : ProtectionState) (now : Nat) :
    blocked_ips st now =
      ⟨(st.ip_table.entries.filter fun e => rate_limited st.config now (st.states e.2)).map Sigma.fst,
        (st.ip_table.entries.filter fun e => concurrency_limited st.config now (st.states e.2)).map Sigma.fst,
        (st.ip_table.entries.filter fun e => boxed st.config now (st.states e.2)).map Sigma.fst⟩ := by
  have hfold : ∀ (es : List (Sigma fun _ : IpAddr => Nat)) (r : BlockedIps),
      es.foldl (fun r e => r.push st.config now e.1 (st.states e.2)) r =
        ⟨r.rate_limited ++ (es.filter fun e => rate_limited st.config now (st.states e.2)).map Sigma.fst,
          r.concurrency_limited ++ (es.filter fun e => concurrency_limited st.config now (st.states e.2)).map Sigma.fst,
          r.penalty_boxed ++ (es.filter fun e => boxed st.config now (st.states e.2)).map Sigma.fst⟩ := by
    intro es
    induction es with
    | nil => simp
    | cons e es ih =>
      intro r
      rw [List.foldl_cons, ih, BlockedIps.push_eq]
      simp only [List.filter_cons]
      congr 1 <;> split <;> simp
  exact hfold st.ip_table.entries {}

theorem mem_listed {st : ProtectionState} {ip : IpAddr} {id : Nat} (h : st.ip_table.lookup ip = some id)
    (p : IpState → Bool) :
    ip ∈ (st.ip_table.entries.filter fun e => p (st.states e.2)).map Sigma.fst ↔ p (st.states id) = true := by
  have hmem : (⟨ip, id⟩ : Sigma fun _ : IpAddr => Nat) ∈ st.ip_table.entries := AList.mem_lookup_iff.1 h
  constructor
  · intro hip
    obtain ⟨⟨ip', id'⟩, he, rfl⟩ := List.mem_map.1 hip
    obtain ⟨he, hp⟩ := List.mem_filter.1 he
    have hl : st.ip_table.lookup ip' = some id' := AList.mem_lookup_iff.2 he
    rw [h] at hl
    cases hl
    exact hp
  · intro hp
    exact List.mem_map.2 ⟨_, List.mem_filter.2 ⟨hmem, hp⟩, rfl⟩

/-! ## Projections of reachable entries -/

theorem consume_ok (cfg : ProtectionConfig) (k : Limit) (now : Nat) (s : IpState) :
    (consume cfg k now s).1 = !(0 < cfg.rate k && (refilled cfg k now (s.bucket k)).units < ONE_TOKEN) := by
  by_cases hk : 0 < cfg.rate k
  · rw [consume_on hk]
    unfold Bucket.pay
    by_cases hu : (refilled cfg k now (s.bucket k)).units < ONE_TOKEN
    · simp [hk, hu]
    · simp [hk, hu]
  · simp [consume, hk]

theorem consume_short {cfg : ProtectionConfig} {k : Limit} {now : Nat} {s : IpState}
    (h : (s.bucket k).units ≤ cfg.ceiling k) : (consume cfg k now s).1 = !short cfg k now s := by
  have hiff : (refilled cfg k now (s.bucket k)).units < ONE_TOKEN ↔ projected cfg k now s < ONE_TOKEN := by
    rw [projected_eq]
    exact Bucket.refill_lt_iff h (by decide)
  rw [consume_ok, short]
  simp only [hiff]

/-- A check finds a bucket empty exactly when the projection of one is short. -/
theorem finds_empty_short {cfg : ProtectionConfig} {now : Nat} {s : IpState}
    (h : ∀ k, (s.bucket k).units ≤ cfg.ceiling k) :
    finds_empty cfg now s = (short cfg .perSecond now s || short cfg .sustained now s) := by
  have hother := consume_other cfg (show Limit.sustained ≠ .perSecond by decide) now s
  have hfull := h .sustained
  rw [← hother] at hfull
  have hshort : short cfg .sustained now (consume cfg .perSecond now s).2 = short cfg .sustained now s := by
    unfold short
    rw [projected_eq, projected_eq, hother]
  rw [finds_empty, consume_short (h .perSecond), consume_short hfull, hshort]
  simp

/-- A bucket after one debit of its limit. -/
def debited (cfg : ProtectionConfig) (k : Limit) (now : Nat) (b : Bucket) : Bucket :=
  if 0 < cfg.rate k then (refill_and_consume b now (cfg.rate k) (cfg.ceiling k)).2 else b

theorem consume_bucket (cfg : ProtectionConfig) (k : Limit) (now : Nat) (s : IpState) :
    (consume cfg k now s).2.bucket k = debited cfg k now (s.bucket k) := by
  unfold consume debited
  split
  · exact bucket_setBucket ..
  · rfl

theorem debited_on {cfg : ProtectionConfig} {k : Limit} (hk : 0 < cfg.rate k) (now : Nat) (b : Bucket) :
    debited cfg k now b = ⟨if (refilled cfg k now b).units < ONE_TOKEN then (refilled cfg k now b).units
      else (refilled cfg k now b).units - ONE_TOKEN, (refilled cfg k now b).last⟩ := by
  have hrefill : b.refill (cfg.rate k * 1000) U32_MAX (cfg.ceiling k) now = refilled cfg k now b := rfl
  rw [debited, if_pos hk, refill_and_consume_eq, hrefill, Bucket.pay]
  by_cases hu : (refilled cfg k now b).units < ONE_TOKEN
  · rw [if_pos hu, if_pos hu]
  · rw [if_neg hu, if_neg hu]

/-- Each limit is debited once, except that the sustained one is not reached by a check
that the per-second one blocks. -/
theorem ip_check_debited (cfg : ProtectionConfig) (k : Limit) (now : Nat) (s : IpState) :
    (ip_check cfg now s).2.bucket k =
      if k = .sustained ∧ boxed cfg now s = false ∧ (consume cfg .perSecond now s).1 = false then s.bucket k
      else debited cfg k now (s.bucket k) := by
  have hfirst : (consume cfg .perSecond now s).2.bucket k =
      if k = .perSecond then debited cfg k now (s.bucket k) else s.bucket k := by
    cases k with
    | perSecond => exact consume_bucket ..
    | sustained => exact consume_other cfg (by decide) now s
  have hboth : (consume cfg .sustained now (consume cfg .perSecond now s).2).2.bucket k =
      debited cfg k now (s.bucket k) := by
    cases k with
    | perSecond =>
      rw [consume_other cfg (by decide)]
      exact hfirst
    | sustained =>
      rw [consume_bucket, hfirst]
      rfl
  unfold ip_check
  dsimp only
  cases boxed cfg now s with
  | true =>
    simp only [Bool.true_eq_false, false_and, and_false, if_false, if_true]
    split
    · exact hboth
    · rw [bucket_extend_penalty]
      exact hboth
  | false =>
    cases (consume cfg .perSecond now s).1 with
    | false =>
      simp only [Bool.false_eq_true, if_false, Bool.not_false, if_true, bucket_penalize, hfirst]
      cases k <;> simp
    | true =>
      simp only [Bool.false_eq_true, if_false, Bool.not_true, Bool.true_eq_false, and_false]
      split
      · rw [bucket_penalize]
        exact hboth
      · split
        · split
          · rw [bucket_active]
            exact hboth
          · exact hboth
        · rw [bucket_active]
          exact hboth

/-! ## A check and the entries -/

section CheckAt

variable {st : ProtectionState} {peer_ip : IpAddr} {info : PeekInfo} {now created : Nat} {round : ℚ → ℚ}

/-- A check that passes the static ones is decided by the entry it looks at. -/
theorem check_at_entryAt (hs : static_check st.config peer_ip.to_canonical info = none) :
    ∃ id, (check_at st peer_ip info now created round).1 =
      verdict id (ip_check st.config now (entryAt st peer_ip.to_canonical created) round).1 := by
  rcases check_at_cases st peer_ip info now created round with ⟨d, hd, -⟩ | ⟨-, id, st₁, hg, he⟩
  · rw [hs] at hd
    cases hd
  · rw [he, entryAt_eq hg]
    exact ⟨id, rfl⟩

theorem Owned.check_at (h : Owned st) :
    Owned (check_at st peer_ip info now created round).2 ∧
      (Protection.check_at st peer_ip info now created round).2.config = st.config := by
  rcases check_at_cases st peer_ip info now created round with ⟨d, -, he⟩ | ⟨-, id, st₁, hg, he⟩
  · rw [he]
    exact ⟨h, rfl⟩
  · obtain ⟨h₁, hcfg₁, -⟩ := h.get_or_create hg
    rw [he]
    exact ⟨h₁.setState _ _, hcfg₁⟩

/-- An entry after a check: one that was there and is as it was, or the one checked. -/
theorem Owned.check_at_lookup (h : Owned st) {ip : IpAddr} {id : Nat}
    (hl : (Protection.check_at st peer_ip info now created round).2.ip_table.lookup ip = some id) :
    (st.ip_table.lookup ip = some id ∧
        (Protection.check_at st peer_ip info now created round).2.states id = st.states id) ∨
      (static_check st.config peer_ip.to_canonical info = none ∧ ip = peer_ip.to_canonical ∧
        (Protection.check_at st peer_ip info now created round).2.states id =
          (ip_check st.config now (entryAt st peer_ip.to_canonical created) round).2) := by
  rcases check_at_cases st peer_ip info now created round with ⟨d, -, he⟩ | ⟨hstatic, id₁, st₁, hg, he⟩
  · rw [he] at hl ⊢
    exact .inl ⟨hl, rfl⟩
  · obtain ⟨-, -, hl₁⟩ := h.get_or_create hg
    rw [he] at hl ⊢
    by_cases hip : ip = peer_ip.to_canonical
    · subst hip
      obtain rfl : id = id₁ := Option.some.inj (hl.symm.trans hl₁)
      rw [entryAt_eq hg]
      exact .inr ⟨hstatic, rfl, Function.update_self ..⟩
    · obtain ⟨hold, hne, hs⟩ := h.other_entry hg hip hl
      exact .inl ⟨hold, (Function.update_of_ne hne ..).trans hs⟩

end CheckAt

/-! ## Entries along a run -/

/-- Nothing happens before reading `T`. -/
def NotBefore (T : Nat) (_ : ProtectionState) (e : Event) : Prop := ∀ r ∈ machine.reading e, T ≤ r

section Entries

variable {cfg : ProtectionConfig} {T : Nat} {I : IpAddr → Nat → List (Event × Option Decision) → IpState → Prop}
  (hlater : ∀ {ip clock now log s}, clock ≤ now → I ip clock log s → I ip now log s)
  (hgrow : ∀ {ip clock log s} x, I ip clock log s → I ip clock (log ++ [x]) s)
  (hrelease : ∀ {ip clock log s}, I ip clock log s → I ip clock log s.release)
  (hcheck : ∀ {peer_ip info now log s} w, T ≤ now → static_check cfg peer_ip.to_canonical info = none →
    I peer_ip.to_canonical now log s ∨ s = IpState.new cfg.burst_fp cfg.sustained_burst_fp now →
      I peer_ip.to_canonical now (log ++ [(.check peer_ip info now, w)]) (ip_check cfg now s).2)
include hlater hgrow hrelease hcheck

/-- What a check makes true of the entry it leaves, and time, releases and other events
keep, holds of every entry of the table along a run in which it held at the start. -/
theorem run_entries_from {init : ProtectionState} (hinit : init.config = cfg) (howned : Owned init)
    (hstart : ∀ ip id, init.ip_table.lookup ip = some id → I ip 0 [] (init.states id)) {st : ProtectionState}
    {clock : Nat} {log : List (Event × Option Decision)} (h : machine.RunWhere (NotBefore T) init st clock log) :
    st.config = cfg ∧ Owned st ∧ ∀ ip id, st.ip_table.lookup ip = some id → I ip clock log (st.states id) := by
  refine h.inv (fun st clock log => st.config = cfg ∧ Owned st ∧
    ∀ ip id, st.ip_table.lookup ip = some id → I ip clock log (st.states id)) ⟨hinit, howned, hstart⟩ ?_
  rintro st clock log e ⟨hcfg, howned, hall⟩ hT hclock
  cases e with
  | release id =>
    refine ⟨hcfg, howned.setState _ _, fun ip id' hl => ?_⟩
    have hold := hgrow (.release id, none) (hall ip id' hl)
    change I ip clock _ (Function.update st.states id (st.states id).release id')
    by_cases hid : id' = id
    · subst hid
      rw [Function.update_self]
      exact hrelease hold
    · rwa [Function.update_of_ne hid]
  | evict now =>
    exact ⟨hcfg, howned.evict now, fun ip id hl => hgrow _ (hlater hclock (hall ip id (lookup_evict_at now hl)))⟩
  | check peer_ip info now =>
    refine ⟨howned.check_at.2.trans hcfg, howned.check_at.1, fun ip id hl => ?_⟩
    rcases howned.check_at_lookup hl with ⟨hold, hs⟩ | ⟨hstatic, rfl, hs⟩
    · have hkept := hgrow (.check peer_ip info now, some (check_at st peer_ip info now).1)
        (hlater hclock (hall ip id hold))
      rwa [← hs] at hkept
    · rw [hcfg] at hstatic hs
      have hfound : I peer_ip.to_canonical now log (entryAt st peer_ip.to_canonical now) ∨
          entryAt st peer_ip.to_canonical now = IpState.new cfg.burst_fp cfg.sustained_burst_fp now := by
        unfold entryAt
        cases hl : st.ip_table.lookup peer_ip.to_canonical with
        | none => exact .inr (by rw [hcfg, Option.elim_none])
        | some old => exact .inl (hlater hclock (hall _ old hl))
      have hchecked := hcheck (some (check_at st peer_ip info now).1) (hT now rfl) hstatic hfound
      rwa [← hs] at hchecked

end Entries

/-- No bucket of the entry holds more than its limit's ceiling or was refilled after
`clock`; one whose limit is off is full. -/
structure Filled (cfg : ProtectionConfig) (clock : Nat) (s : IpState) : Prop where
  full : ∀ k, (s.bucket k).units ≤ cfg.ceiling k
  past : ∀ k, (s.bucket k).last ≤ clock
  off : ∀ k, ¬ 0 < cfg.rate k → (s.bucket k).units = cfg.ceiling k

variable {cfg : ProtectionConfig} {now clock : Nat} {st : ProtectionState} {s : IpState}

theorem Filled.new (cfg : ProtectionConfig) (now : Nat) :
    Filled cfg now (IpState.new cfg.burst_fp cfg.sustained_burst_fp now) := by
  refine ⟨fun k => ?_, fun k => ?_, fun k _ => ?_⟩ <;> rw [bucket_new]

theorem Filled.check (h : Filled cfg now s) :
    Filled cfg now (ip_check cfg now s).2 := by
  have hoff : ∀ k, ¬ 0 < cfg.rate k → (ip_check cfg now s).2.bucket k = s.bucket k := by
    intro k hk
    rw [ip_check_debited, debited, if_neg hk, ite_self]
  refine ⟨fun k => ?_, fun k => ?_, fun k hk => ?_⟩
  · by_cases hk : 0 < cfg.rate k
    · exact (ip_check_bucket hk now s).1.full (h.full k)
    · rw [hoff k hk]
      exact h.full k
  · by_cases hk : 0 < cfg.rate k
    · exact (ip_check_bucket hk now s).1.past (h.past k)
    · rw [hoff k hk]
      exact h.past k
  · rw [hoff k hk]
    exact h.off k hk

theorem Filled.later (h : Filled cfg clock s) (hc : clock ≤ now) :
    Filled cfg now s := ⟨h.full, fun k => (h.past k).trans hc, h.off⟩

theorem Filled.release (h : Filled cfg clock s) :
    Filled cfg clock s.release := by
  refine ⟨fun k => ?_, fun k => ?_, fun k hk => ?_⟩ <;> rw [bucket_release]
  · exact h.full k
  · exact h.past k
  · exact h.off k hk

theorem run_filled {log : List (Event × Option Decision)} (h : machine.Run (.fresh cfg) st clock log) :
    st.config = cfg ∧ Owned st ∧ ∀ ip id, st.ip_table.lookup ip = some id → Filled cfg clock (st.states id) := by
  refine run_entries_from (T := 0) (I := fun _ clock _ s => Filled cfg clock s) ?_ ?_ ?_ ?_ rfl (.fresh cfg)
    (fun _ _ hl => by cases hl) (h.meets (NotBefore 0) fun s e r _ => Nat.zero_le r)
  · intro ip clock now log s hc hf
    exact hf.later hc
  · intro ip clock log s x hf
    exact hf
  · intro ip clock log s hf
    exact hf.release
  · rintro peer_ip info now log s w - - (hf | rfl)
    · exact hf.check
    · exact (Filled.new cfg now).check

/-! ## The report names the next answer -/

/-- What a check that reaches the entry answers, by what one can see of the entry. -/
theorem check_at_answer {peer_ip : IpAddr} {info : PeekInfo} (hcfg : st.config = cfg)
    (hs : static_check cfg peer_ip.to_canonical info = none)
    (hf : ∀ k, ((entryAt st peer_ip.to_canonical now).bucket k).units ≤ cfg.ceiling k) :
    ∃ id, (check_at st peer_ip info now).1 = verdict id (
      if boxed cfg now (entryAt st peer_ip.to_canonical now) then some .PenaltyBoxed
      else if short cfg .perSecond now (entryAt st peer_ip.to_canonical now) ||
        short cfg .sustained now (entryAt st peer_ip.to_canonical now) then some .RateLimited
      else if crowded cfg (entryAt st peer_ip.to_canonical now) then some .TooManyConnections else none) := by
  subst hcfg
  rw [← finds_empty_short hf, ← ip_check_answer]
  exact check_at_entryAt hs

/-- **The report agrees with enforcement.** For an address with an entry whose hello
passes the static checks, after any run: it is on the list of the penalty box exactly when
its next check would be blocked by it; off that list, on the list of the rate limits
exactly when that check would be rate limited; and off both, on the list of the
concurrency limit exactly when that check would find too many connections. -/
theorem blocked_ips_agrees {cfg : ProtectionConfig} {st : ProtectionState} {clock : Nat}
    {log : List (Event × Option Decision)} (h : machine.Run (.fresh cfg) st clock log) (peer_ip : IpAddr)
    (info : PeekInfo) (now : Nat) {id : Nat} (hl : st.ip_table.lookup peer_ip.to_canonical = some id)
    (hs : static_check cfg peer_ip.to_canonical info = none) :
    (peer_ip.to_canonical ∈ (blocked_ips st now).penalty_boxed ↔
      (check_at st peer_ip info now).1 = .Block .PenaltyBoxed) ∧
    (peer_ip.to_canonical ∉ (blocked_ips st now).penalty_boxed →
      (peer_ip.to_canonical ∈ (blocked_ips st now).rate_limited ↔
        (check_at st peer_ip info now).1 = .Block .RateLimited)) ∧
    (peer_ip.to_canonical ∉ (blocked_ips st now).penalty_boxed →
      peer_ip.to_canonical ∉ (blocked_ips st now).rate_limited →
      (peer_ip.to_canonical ∈ (blocked_ips st now).concurrency_limited ↔
        (check_at st peer_ip info now).1 = .Block .TooManyConnections)) := by
  obtain ⟨hcfg, -, hfilled⟩ := run_filled h
  have hentry : entryAt st peer_ip.to_canonical now = st.states id := by simp [entryAt, hl]
  obtain ⟨id', hanswer⟩ := @check_at_answer cfg now st peer_ip info hcfg hs (by
    rw [hentry]
    exact (hfilled _ _ hl).full)
  rw [hentry] at hanswer
  rw [blocked_ips_lists, mem_listed hl (boxed st.config now), mem_listed hl (rate_limited st.config now),
    mem_listed hl (concurrency_limited st.config now), hanswer, hcfg]
  unfold rate_limited concurrency_limited
  cases boxed cfg now (st.states id) with
  | true => simp [verdict]
  | false =>
    cases short cfg .perSecond now (st.states id) || short cfg .sustained now (st.states id) with
    | true => simp [verdict]
    | false => cases crowded cfg (st.states id) <;> simp [verdict]

/-- After its first connection a client is listed, and would be blocked. -/
theorem blocked_ips_agrees_limited : ∃ st clock log, machine.Run (.fresh onePerMicro) st clock log ∧
    IpAddr.V4 1 ∈ (blocked_ips st 1).rate_limited ∧ (check_at st (.V4 1) .default 1).1 = .Block .RateLimited := by
  have h : machine.Run (.fresh onePerMicro) _ _ _ := .step (.check (.V4 1) .default 0) .nil (Nat.zero_le _)
  have hunboxed : IpAddr.V4 1 ∉
      (blocked_ips (machine.step (.fresh onePerMicro) (.check (.V4 1) .default 0)).2 1).penalty_boxed := by
    decide +kernel
  have hlisted : IpAddr.V4 1 ∈
      (blocked_ips (machine.step (.fresh onePerMicro) (.check (.V4 1) .default 0)).2 1).rate_limited := by
    decide +kernel
  have hagrees := @blocked_ips_agrees _ _ _ _ h (.V4 1) .default 1 0 (by decide +kernel) (by decide +kernel)
  exact ⟨_, _, _, h, hlisted, (hagrees.2.1 hunboxed).1 hlisted⟩

end Symphony.Protection
