import Symphony.Protection.Blocked
/-!
# Evictions cannot be seen

An entry is evicted when both its buckets would be full, no penalty holds and no
connection is open: what is left of it is what a new entry starts with. So a check after
the eviction answers as it would have without it, and the address is given no credit.
-/

namespace Symphony.Protection

open Lib (Bucket Machine Table)
open Sni (PeekInfo)

/-! ## The credit of an address -/

/-- What a new entry's bucket holds. -/
def ProtectionConfig.stock (cfg : ProtectionConfig) (k : Limit) : Nat := min U32_MAX (cfg.ceiling k)

/-- Tokens and the refill owed at `u`, capped at the ceiling. An address without an entry
has those of a new one. -/
def credit_at (cfg : ProtectionConfig) (k : Limit) (st : ProtectionState) (ip : IpAddr) (u : Nat) : Nat :=
  view (projected cfg k u) (cfg.stock k) st ip

/-- The same answer, for connections that may have been admitted with different entries. -/
def SameAnswer (d d' : Decision) : Prop := d = d' ∨ (d.isAllow = true ∧ d'.isAllow = true)

theorem projected_new (cfg : ProtectionConfig) (k : Limit) (now u : Nat) :
    projected cfg k u (IpState.new cfg.burst_fp cfg.sustained_burst_fp now) = cfg.stock k := by
  rw [projected_eq, bucket_new]
  unfold Bucket.projected ProtectionConfig.stock
  dsimp only
  omega

/-! ## Evicted entries -/

/-- An entry that need not be kept. -/
structure Idle (cfg : ProtectionConfig) (t : Nat) (s : IpState) : Prop where
  filled : Filled cfg t s
  unboxed : boxed cfg t s = false
  idle : s.active = 0
  full : ∀ k, 0 < cfg.rate k → cfg.ceiling k ≤ projected cfg k t s

theorem Idle.of_retained {cfg : ProtectionConfig} {t : Nat} {s : IpState} (hf : Filled cfg t s)
    (h : retained cfg t s = false) : Idle cfg t s := by
  simp only [retained, Bool.or_eq_false_iff, Bool.and_eq_false_imp, decide_eq_true_eq, decide_eq_false_iff_not] at h
  refine ⟨hf, h.1.1.1, Nat.eq_zero_of_not_pos h.1.1.2, fun k hk => ?_⟩
  cases k with
  | perSecond => exact Nat.le_of_not_lt (h.1.2 hk)
  | sustained => exact Nat.le_of_not_lt (h.2 hk)

section Idle

variable {cfg : ProtectionConfig} {t t' : Nat} {s : IpState} (h : Idle cfg t s) (ht : t ≤ t')
include h ht

theorem Idle.still_unboxed : boxed cfg t' s = false := by
  have hb := h.unboxed
  simp only [boxed, Bool.and_eq_false_iff, decide_eq_false_iff_not] at hb ⊢
  omega

/-- It is projected to hold as much as a new one. -/
theorem Idle.stocked (k : Limit) : cfg.stock k ≤ projected cfg k t' s := by
  rw [projected_eq]
  by_cases hk : 0 < cfg.rate k
  · have hfull := h.full k hk
    rw [projected_eq] at hfull
    exact (min_le_right _ _).trans (hfull.trans (Bucket.projected_mono (earning_nonneg hk) ht))
  · have hoff := h.filled.off k hk
    unfold Bucket.projected ProtectionConfig.stock
    omega

theorem Idle.refilled {k : Limit} (hk : 0 < cfg.rate k) :
    (refilled cfg k t' (s.bucket k)).units = cfg.ceiling k ∧ (refilled cfg k t' (s.bucket k)).last ≤ t' := by
  have hfull := h.full k hk
  rw [projected_eq] at hfull
  exact ⟨Bucket.refill_full (earning_nonneg hk) (h.filled.full k) ht hfull,
    Bucket.refill_last_le ((h.filled.past k).trans ht)⟩

/-- A check finds it as it finds a new one. -/
theorem Idle.consume (k : Limit) :
    (consume cfg k t' s).1 = (consume cfg k t' (IpState.new cfg.burst_fp cfg.sustained_burst_fp t')).1 := by
  rw [consume_ok, consume_ok, bucket_new]
  by_cases hk : 0 < cfg.rate k
  · have hnew : (Protection.refilled cfg k t' ⟨cfg.ceiling k, t'⟩).units = cfg.ceiling k := by
      simp [Protection.refilled, Bucket.refill]
    rw [(h.refilled ht hk).1, hnew]
  · simp [hk]

theorem Idle.answer :
    (ip_check cfg t' s).1 = (ip_check cfg t' (IpState.new cfg.burst_fp cfg.sustained_burst_fp t')).1 := by
  have hnew : boxed cfg t' (IpState.new cfg.burst_fp cfg.sustained_burst_fp t') = false := by
    simp [boxed, IpState.new]
  have hempty : finds_empty cfg t' s = finds_empty cfg t' (IpState.new cfg.burst_fp cfg.sustained_burst_fp t') := by
    have hother : ∀ x : IpState, (Protection.consume cfg .sustained t' (Protection.consume cfg .perSecond t' x).2).1 =
        (Protection.consume cfg .sustained t' x).1 := by
      intro x
      rw [consume_ok, consume_ok, consume_other cfg (by decide)]
    rw [finds_empty, finds_empty, hother, hother, h.consume ht, h.consume ht]
  have hcrowded : crowded cfg s = crowded cfg (IpState.new cfg.burst_fp cfg.sustained_burst_fp t') := by
    simp [crowded, h.idle, IpState.new]
  rw [ip_check_answer, ip_check_answer, h.still_unboxed ht, hnew, hempty, hcrowded]

/-- And leaves it with no less. -/
theorem Idle.left {u : Nat} (hu : t' ≤ u) (k : Limit) :
    projected cfg k u (ip_check cfg t' (IpState.new cfg.burst_fp cfg.sustained_burst_fp t')).2 ≤
      projected cfg k u (ip_check cfg t' s).2 := by
  have hnew : boxed cfg t' (IpState.new cfg.burst_fp cfg.sustained_burst_fp t') = false := by
    simp [boxed, IpState.new]
  have huntouched := h.stocked (ht.trans hu) k
  rw [← projected_new cfg k t' u] at huntouched
  rw [projected_eq, projected_eq] at huntouched ⊢
  rw [ip_check_debited, ip_check_debited, hnew, h.still_unboxed ht, h.consume ht]
  split
  · exact huntouched
  · by_cases hk : 0 < cfg.rate k
    · obtain ⟨hunits, hlast⟩ := h.refilled ht hk
      have hrefill : Protection.refilled cfg k t' ⟨cfg.ceiling k, t'⟩ = ⟨cfg.ceiling k, t'⟩ := by
        simp [Protection.refilled, Bucket.refill]
      rw [debited_on hk, debited_on hk, bucket_new, hrefill, hunits]
      exact Bucket.projected_anti (earning_nonneg hk) hlast
    · rw [debited, debited, if_neg hk, if_neg hk]
      exact huntouched

end Idle

/-! ## With and without an eviction -/

section Evict

variable {cfg : ProtectionConfig} {st : ProtectionState} {clock t : Nat}

/-- What is to be known of a state to evict from it. -/
structure Evictable (cfg : ProtectionConfig) (st : ProtectionState) (t : Nat) : Prop where
  config : st.config = cfg
  owned : Owned st
  filled : ∀ ip id, st.ip_table.lookup ip = some id → Filled cfg t (st.states id)

theorem Evictable.of_run {log : List (Event × Option Decision)} (h : machine.Run (.fresh cfg) st clock log)
    (ht : clock ≤ t) : Evictable cfg st t := by
  obtain ⟨hcfg, howned, hfilled⟩ := run_filled h
  refine ⟨hcfg, howned, fun ip id hl => ?_⟩
  have hf := hfilled ip id hl
  exact ⟨hf.full, fun k => (hf.past k).trans ht, hf.off⟩

/-- An address keeps its entry, or loses an idle one. -/
theorem Evictable.lookup (h : Evictable cfg st t) (ip : IpAddr) :
    (evict_at st t).ip_table.lookup ip = st.ip_table.lookup ip ∨
      ∃ id, st.ip_table.lookup ip = some id ∧ (evict_at st t).ip_table.lookup ip = none ∧
        Idle cfg t (st.states id) := by
  have hr : (evict_at st t).ip_table.lookup ip =
      (st.ip_table.lookup ip).filter fun id => retained cfg t (st.states id) := by
    rw [← h.config]
    exact Table.lookup_retain ..
  cases hl : st.ip_table.lookup ip with
  | none =>
    rw [hl] at hr
    exact .inl hr
  | some id =>
    rw [hl, Option.filter_some] at hr
    cases hkept : retained cfg t (st.states id) with
    | true =>
      rw [hkept, if_pos rfl] at hr
      exact .inl hr
    | false =>
      rw [hkept, if_neg Bool.false_ne_true] at hr
      exact .inr ⟨id, rfl, hr, .of_retained (h.filled ip id hl) hkept⟩

/-- A check after the eviction looks at the same entry, or at a new one for an idle one. -/
theorem Evictable.entryAt (h : Evictable cfg st t) (ip : IpAddr) (now : Nat) :
    entryAt (evict_at st t) ip now = Protection.entryAt st ip now ∨
      (Protection.entryAt (evict_at st t) ip now = IpState.new cfg.burst_fp cfg.sustained_burst_fp now ∧
        Idle cfg t (Protection.entryAt st ip now)) := by
  unfold Protection.entryAt
  rcases h.lookup ip with hsame | ⟨id, hl, hgone, hidle⟩
  · rw [hsame]
    exact .inl rfl
  · rw [hgone, hl, ← h.config]
    exact .inr ⟨rfl, h.config ▸ hidle⟩

/-- An eviction gives no credit. -/
theorem Evictable.credit (h : Evictable cfg st t) (k : Limit) (ip : IpAddr) {u : Nat} (hu : t ≤ u) :
    credit_at cfg k (evict_at st t) ip u ≤ credit_at cfg k st ip u := by
  unfold credit_at
  rcases h.lookup ip with hsame | ⟨id, hl, hgone, hidle⟩
  · unfold view
    rw [hsame]
    exact le_refl _
  · rw [view_none hgone, view_some hl]
    exact hidle.stocked hu k

/-- A check leaves credit by the entry it looked at, and every other address as it was. -/
theorem credit_at_check (hcfg : st.config = cfg) (ho : Owned st) {peer_ip : IpAddr} {info : PeekInfo} (now : Nat)
    (hs : static_check cfg peer_ip.to_canonical info = none) (k : Limit) (ip : IpAddr) (u : Nat) :
    credit_at cfg k (check_at st peer_ip info now).2 ip u =
      if ip = peer_ip.to_canonical then projected cfg k u (ip_check cfg now (entryAt st peer_ip.to_canonical now)).2
      else credit_at cfg k st ip u := by
  subst hcfg
  rcases check_at_cases st peer_ip info now with ⟨d, hd, -⟩ | ⟨-, id, st₁, hg, he⟩
  · rw [hs] at hd
    cases hd
  · obtain ⟨h₁, -, hl⟩ := ho.get_or_create hg
    unfold credit_at
    rw [he, entryAt_eq hg, view_setState h₁ hl, view_get_or_create ho hg (projected_new st.config k now u)]

end Evict

theorem SameAnswer.of_verdict {r : Option BlockReason} (id id' : Nat) : SameAnswer (verdict id r) (verdict id' r) := by
  cases r with
  | none => exact .inr ⟨rfl, rfl⟩
  | some reason => exact .inl rfl

/-- **An eviction cannot be seen.** After any run, a check that follows an eviction
answers as it would without it, and leaves every address with no more credit, at any
later time, than it would have had. -/
theorem evict_unseen {cfg : ProtectionConfig} {st : ProtectionState} {clock : Nat}
    {log : List (Event × Option Decision)} (h : machine.Run (.fresh cfg) st clock log) {t t' : Nat} (ht : clock ≤ t)
    (ht' : t ≤ t') (peer_ip : IpAddr) (info : PeekInfo) :
    SameAnswer (check_at (evict_at st t) peer_ip info t').1 (check_at st peer_ip info t').1 ∧
    ∀ k ip u, t' ≤ u → credit_at cfg k (check_at (evict_at st t) peer_ip info t').2 ip u ≤
      credit_at cfg k (check_at st peer_ip info t').2 ip u := by
  have hev := Evictable.of_run h ht
  have hcfg' : (evict_at st t).config = cfg := hev.config
  cases hs : static_check cfg peer_ip.to_canonical info with
  | some d =>
    have hfix : ∀ st' : ProtectionState, st'.config = cfg → check_at st' peer_ip info t' = (d, st') := by
      intro st' hcfg
      rcases check_at_cases st' peer_ip info t' with ⟨d', hd, he⟩ | ⟨hn, -⟩
      · rw [hcfg, hs] at hd
        cases hd
        exact he
      · rw [hcfg, hs] at hn
        cases hn
    rw [hfix st hev.config, hfix _ hcfg']
    exact ⟨.inl rfl, fun k ip u hu => hev.credit k ip (ht'.trans hu)⟩
  | none =>
    have hcredit := credit_at_check hev.config hev.owned t' hs
    have hcredit' := credit_at_check hcfg' (hev.owned.evict t) t' hs
    obtain ⟨_, hanswer⟩ := @check_at_entryAt st peer_ip info t' t' id (hev.config ▸ hs)
    obtain ⟨_, hanswer'⟩ := @check_at_entryAt (evict_at st t) peer_ip info t' t' id (hcfg' ▸ hs)
    rw [hanswer, hanswer', hev.config, hcfg']
    rcases hev.entryAt peer_ip.to_canonical t' with hsame | ⟨hnew, hidle⟩
    · refine ⟨hsame ▸ .of_verdict _ _, fun k ip u hu => ?_⟩
      rw [hcredit, hcredit', hsame]
      split
      · exact le_refl _
      · exact hev.credit k ip (ht'.trans hu)
    · refine ⟨?_, fun k ip u hu => ?_⟩
      · rw [hnew, hidle.answer ht']
        exact .of_verdict _ _
      · rw [hcredit, hcredit', hnew]
        split
        · exact hidle.left ht' hu k
        · exact hev.credit k ip (ht'.trans hu)

/-- A client whose connection has ended, and whose bucket is full again, loses its entry. -/
theorem evict_unseen_idle : ∃ st clock log, machine.Run (.fresh onePerMicro) st clock log ∧
    st.ip_table.lookup (.V4 1) = some 0 ∧ (evict_at st 1000).ip_table.lookup (.V4 1) = none ∧
    SameAnswer (check_at (evict_at st 1000) (.V4 1) .default 1000).1 (check_at st (.V4 1) .default 1000).1 := by
  have h₁ : machine.Run (.fresh onePerMicro) _ _ _ := .step (.check (.V4 1) .default 0) .nil (Nat.zero_le _)
  have h := h₁.step (.release 0) (Nat.le_refl _)
  refine ⟨_, _, _, h, by decide +kernel, by decide +kernel, ?_⟩
  exact (evict_unseen h (Nat.zero_le 1000) (Nat.le_refl _) (.V4 1) .default).1

end Symphony.Protection
