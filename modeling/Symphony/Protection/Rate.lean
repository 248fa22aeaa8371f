import Symphony.Lib.Binary64
import Symphony.Protection.Entries
/-!
# The admission rate of one peer

Each limit of an entry is a `Lib.Bucket`, and a peer without an entry has a full
one (`credit`). No step lets a peer earn more than its rate: a check debits the
credit, an eviction only replaces credit that would be full anyway. So the
number of admissions in any window is bounded over every run.
-/

namespace Symphony.Protection

open Lib (Binary64.round Bucket Machine Table)
open Lib.Bucket (Owes)
open Sni (PeekInfo)

/-! ## The limits as library buckets -/

/-- Fixed-point units a limit earns per nanosecond. -/
def ProtectionConfig.earning (cfg : ProtectionConfig) (k : Limit) : ℚ := cfg.rate k * 1000

def refilled (cfg : ProtectionConfig) (k : Limit) (now : Nat) (b : Bucket) : Bucket :=
  b.refill (cfg.earning k) U32_MAX (cfg.ceiling k) now

variable {st : ProtectionState} {now clock : Nat}

variable (s : IpState) (b : Bucket)

theorem refillFor_exact (r : ℚ) (elapsed : Nat) :
    refillFor id r elapsed = Bucket.refillAmount (r * 1000) U32_MAX elapsed := by
  simp only [refillFor, id_eq]
  rw [as_u32, Bucket.refillAmount, show (elapsed : ℚ) * r * 1000 = r * 1000 * elapsed by ring]

theorem refill_and_consume_eq (now : Nat) (r : ℚ) (burst_fp : Nat) :
    refill_and_consume b now r burst_fp =
      match Bucket.pay ONE_TOKEN (b.refill (r * 1000) U32_MAX burst_fp now) with
      | none => (false, b.refill (r * 1000) U32_MAX burst_fp now)
      | some b' => (true, b') := by
  simp only [refill_and_consume, refillFor_exact, sat_add32, Bucket.refill]
  generalize (if _ = 0 then b else _ : Bucket) = c
  unfold Bucket.pay
  by_cases h : c.units < ONE_TOKEN <;> simp [h]

theorem projected_eq (cfg : ProtectionConfig) (k : Limit) (now : Nat) (s : IpState) :
    projected cfg k now s = (s.bucket k).projected (cfg.earning k) U32_MAX (cfg.ceiling k) now := by
  simp only [projected, refillFor_exact, sat_add32, Bucket.projected, ProtectionConfig.earning]

/-! ## Calls in f64 -/

/-- A whole token stays one in fixed point: the rounding does not go below a whole number. -/
theorem one_token_le_as_u32 {q : ℚ} (hq : 1 ≤ q) : ONE_TOKEN ≤ as_u32 (Binary64.round (q * 1000)) := by
  have hle : ((ONE_TOKEN : Nat) : ℚ) ≤ Binary64.round (q * 1000) := by
    apply Lib.Binary64.le_round (by norm_num [ONE_TOKEN])
    norm_num [ONE_TOKEN]
    linarith
  exact le_min (Nat.le_floor hle) (by decide)

/-- A refill over elapsed time that earns a token in f64 brings one. -/
theorem one_token_le_refillFor {rate_per_ns : ℚ} {elapsed : Nat} (h : 1 ≤ Binary64.round elapsed * rate_per_ns) :
    ONE_TOKEN ≤ refillFor Binary64.round rate_per_ns elapsed := by
  have hone : ((1 : Nat) : ℚ) ≤ Binary64.round (Binary64.round elapsed * rate_per_ns) :=
    Lib.Binary64.le_round (by norm_num) (by simpa using h)
  exact one_token_le_as_u32 (by simpa using hone)

/-- A call that finds a token, or refills one, is granted, whatever the rounding. -/
theorem refill_and_consume_grants {b : Bucket} {rate_per_ns : ℚ} {burst_fp : Nat} {round : ℚ → ℚ}
    (hburst : ONE_TOKEN ≤ burst_fp) (h : ONE_TOKEN ≤ b.units ∨ ONE_TOKEN ≤ refillFor round rate_per_ns (now - b.last)) :
    (refill_and_consume b now rate_per_ns burst_fp round).1 = true := by
  have htop : ONE_TOKEN ≤ U32_MAX := by decide
  simp only [refill_and_consume]
  generalize refillFor round rate_per_ns (now - b.last) = refill at h
  have hunits : ¬ (if refill = 0 then b else ⟨min (sat_add32 b.units refill) burst_fp, now⟩ : Bucket).units < ONE_TOKEN := by
    unfold sat_add32
    split
    · rename_i h0
      subst h0
      exact Nat.not_lt.2 (h.resolve_right (by decide))
    · dsimp only
      omega
  rw [if_neg hunits]

/-- A call leaves the timestamp, or sets it to its reading. -/
theorem refill_and_consume_last (now : Nat) (rate_per_ns : ℚ) (burst_fp : Nat) (round : ℚ → ℚ) :
    (refill_and_consume b now rate_per_ns burst_fp round).2.last = b.last ∨
      (refill_and_consume b now rate_per_ns burst_fp round).2.last = now := by
  simp only [refill_and_consume]
  split <;> split <;> simp

@[simp] theorem bucket_setBucket (k : Limit) : (s.setBucket b k).bucket k = b := by
  cases k <;> rfl

theorem bucket_setBucket_ne {j k : Limit} (h : j ≠ k) :
    (s.setBucket b k).bucket j = s.bucket j := by
  cases j <;> cases k <;> first | rfl | exact absurd rfl h

@[simp] theorem bucket_extend_penalty (cfg : ProtectionConfig) (now : Nat) (s : IpState) (k : Limit) :
    (extend_penalty cfg now s).bucket k = s.bucket k := by
  cases k <;> rfl

@[simp] theorem bucket_penalize (cfg : ProtectionConfig) (now : Nat) (s : IpState) (k : Limit) :
    (penalize cfg now s).bucket k = s.bucket k := by
  unfold penalize
  split <;> simp

@[simp] theorem bucket_active (n : Nat) (k : Limit) :
    ({ s with active := n } : IpState).bucket k = s.bucket k := by
  cases k <;> rfl

@[simp] theorem bucket_release (k : Limit) : s.release.bucket k = s.bucket k := bucket_active s _ k

@[simp] theorem bucket_new (cfg : ProtectionConfig) (now : Nat) (k : Limit) :
    (IpState.new cfg.burst_fp cfg.sustained_burst_fp now).bucket k = ⟨cfg.ceiling k, now⟩ := by
  cases k <;> rfl

/-- What a check does to a bucket: nothing, a refill, or a refill and a debit. -/
inductive Debit (cfg : ProtectionConfig) (k : Limit) (now : Nat) (b : Bucket) : Bucket → Prop where
  | untouched : Debit cfg k now b b
  | empty : Debit cfg k now b (refilled cfg k now b)
  | paid {b' : Bucket} : Bucket.pay ONE_TOKEN (refilled cfg k now b) = some b' → Debit cfg k now b b'

theorem consume_on {cfg : ProtectionConfig} {k : Limit} (hk : 0 < cfg.rate k) (now : Nat) (s : IpState) :
    consume cfg k now s =
      match Bucket.pay ONE_TOKEN (refilled cfg k now (s.bucket k)) with
      | none => (false, s.setBucket (refilled cfg k now (s.bucket k)) k)
      | some b' => (true, s.setBucket b' k) := by
  simp only [consume, if_pos hk, refill_and_consume_eq]
  change _ = match Bucket.pay ONE_TOKEN ((s.bucket k).refill (cfg.rate k * 1000) U32_MAX (cfg.ceiling k) now) with
    | none => (false, s.setBucket ((s.bucket k).refill (cfg.rate k * 1000) U32_MAX (cfg.ceiling k) now) k)
    | some b' => (true, s.setBucket b' k)
  cases Bucket.pay ONE_TOKEN ((s.bucket k).refill (cfg.rate k * 1000) U32_MAX (cfg.ceiling k) now) <;> rfl

theorem consume_other (cfg : ProtectionConfig) {j k : Limit} (h : j ≠ k) (now : Nat) (s : IpState)
    (round : ℚ → ℚ := id) : (consume cfg k now s round).2.bucket j = s.bucket j := by
  unfold consume
  split
  · exact bucket_setBucket_ne _ _ h
  · rfl

theorem consume_self {cfg : ProtectionConfig} {k : Limit} (hk : 0 < cfg.rate k) (now : Nat) (s : IpState) :
    Debit cfg k now (s.bucket k) ((consume cfg k now s).2.bucket k) ∧
    ((consume cfg k now s).1 = true →
      Bucket.pay ONE_TOKEN (refilled cfg k now (s.bucket k)) = some ((consume cfg k now s).2.bucket k)) := by
  rw [consume_on hk]
  cases hp : Bucket.pay ONE_TOKEN (refilled cfg k now (s.bucket k)) with
  | none => simpa using Debit.empty
  | some b' => simpa using Debit.paid hp

/-- The two debits in a row touch each limit once. -/
theorem consume_both {cfg : ProtectionConfig} {k : Limit} (hk : 0 < cfg.rate k) (now : Nat) (s s₁ s₂ : IpState)
    (ok₁ ok₂ : Bool) (h₁ : consume cfg .perSecond now s = (ok₁, s₁)) (h₂ : consume cfg .sustained now s₁ = (ok₂, s₂)) :
    Debit cfg k now (s.bucket k) (s₁.bucket k) ∧ Debit cfg k now (s.bucket k) (s₂.bucket k) ∧
    (ok₁ = true → ok₂ = true → Bucket.pay ONE_TOKEN (refilled cfg k now (s.bucket k)) = some (s₂.bucket k)) := by
  cases k with
  | perSecond =>
    have hs := consume_self hk now s
    have ho := consume_other cfg (show Limit.perSecond ≠ .sustained by decide) now s₁
    rw [h₁] at hs
    rw [h₂] at ho
    rw [ho]
    exact ⟨hs.1, hs.1, fun h _ => hs.2 h⟩
  | sustained =>
    have hs := consume_self hk now s₁
    have ho := consume_other cfg (show Limit.sustained ≠ .perSecond by decide) now s
    rw [h₂] at hs
    rw [h₁] at ho
    rw [ho] at hs ⊢
    exact ⟨.untouched, hs.1, fun _ h => hs.2 h⟩

/-- Both limits of a check that admits have paid; a check that blocks has at
most debited them. -/
theorem ip_check_bucket {cfg : ProtectionConfig} {k : Limit} (hk : 0 < cfg.rate k) (now : Nat) (s : IpState) :
    Debit cfg k now (s.bucket k) ((ip_check cfg now s).2.bucket k) ∧
    ((ip_check cfg now s).1 = none →
      Bucket.pay ONE_TOKEN (refilled cfg k now (s.bucket k)) = some ((ip_check cfg now s).2.bucket k)) := by
  rcases h₁ : consume cfg .perSecond now s with ⟨ok₁, s₁⟩
  rcases h₂ : consume cfg .sustained now s₁ with ⟨ok₂, s₂⟩
  obtain ⟨hd₁, hd₂, hp⟩ := consume_both hk now s s₁ s₂ ok₁ ok₂ h₁ h₂
  simp only [ip_check, h₁, h₂]
  split
  · refine ⟨?_, by simp⟩
    split
    · exact hd₂
    · simpa using hd₂
  · cases ok₁
    · simpa using hd₁
    · cases ok₂
      · simpa using hd₂
      · have hp := hp rfl rfl
        by_cases hm : 0 < cfg.max_concurrent_per_ip
        · by_cases ha : s₂.active < cfg.max_concurrent_per_ip
          · simpa [hm, ha] using ⟨hd₂, hp⟩
          · simpa [hm, ha] using hd₂
        · simpa [hm] using ⟨hd₂, hp⟩

/-! ## What a check does to the rest of an entry -/

theorem consume_active (cfg : ProtectionConfig) (k : Limit) (now : Nat) (s : IpState) :
    (consume cfg k now s).2.active = s.active := by
  unfold consume
  split
  · cases k <;> rfl
  · rfl

theorem consume_deadline (cfg : ProtectionConfig) (k : Limit) (now : Nat) (s : IpState) :
    (consume cfg k now s).2.penalty_deadline_ns = s.penalty_deadline_ns := by
  unfold consume
  split
  · cases k <;> rfl
  · rfl

/-- A check of the entry at `now` finds a rate bucket empty. -/
def finds_empty (cfg : ProtectionConfig) (now : Nat) (s : IpState) : Bool :=
  !((consume cfg .perSecond now s).1 && (consume cfg .sustained now (consume cfg .perSecond now s).2).1)

/-- The other connections of the peer leave no room for one more. -/
def crowded (cfg : ProtectionConfig) (s : IpState) : Bool :=
  0 < cfg.max_concurrent_per_ip && cfg.max_concurrent_per_ip ≤ s.active

theorem ip_check_answer (cfg : ProtectionConfig) (now : Nat) (s : IpState) :
    (ip_check cfg now s).1 = if boxed cfg now s then some .PenaltyBoxed
      else if finds_empty cfg now s then some .RateLimited
      else if crowded cfg s then some .TooManyConnections else none := by
  have h₁ := consume_active cfg .perSecond now s
  have h₂ := consume_active cfg .sustained now (consume cfg .perSecond now s).2
  rw [h₁] at h₂
  unfold ip_check finds_empty crowded
  dsimp only
  cases boxed cfg now s with
  | true => rfl
  | false =>
    cases (consume cfg .perSecond now s).1 with
    | false => rfl
    | true =>
      cases (consume cfg .sustained now (consume cfg .perSecond now s).2).1 with
      | false => rfl
      | true =>
        by_cases hm : 0 < cfg.max_concurrent_per_ip
        · by_cases ha : s.active < cfg.max_concurrent_per_ip
          · simp [hm, h₂, ha]
          · simp [hm, h₂, ha, Nat.le_of_not_lt ha]
        · simp [hm]

/-- An admitted connection was not boxed, found tokens, and found room. -/
theorem ip_check_admits {cfg : ProtectionConfig} {s : IpState} (h : (ip_check cfg now s).1 = none) :
    boxed cfg now s = false ∧ finds_empty cfg now s = false ∧ crowded cfg s = false := by
  rw [ip_check_answer] at h
  cases hb : boxed cfg now s with
  | true => simp [hb] at h
  | false =>
    cases he : finds_empty cfg now s with
    | true => simp [hb, he] at h
    | false =>
      cases hc : crowded cfg s with
      | true => simp [hb, he, hc] at h
      | false => exact ⟨rfl, rfl, rfl⟩

theorem penalize_active (cfg : ProtectionConfig) (now : Nat) (s : IpState) :
    (penalize cfg now s).active = s.active := by
  unfold penalize extend_penalty
  split <;> rfl

/-- Under a limit, an admission counts one connection more and a block counts none. -/
theorem ip_check_active {cfg : ProtectionConfig} (hm : 0 < cfg.max_concurrent_per_ip) (now : Nat) (s : IpState) :
    (ip_check cfg now s).2.active = s.active + if (ip_check cfg now s).1 = none then 1 else 0 := by
  have h₁ := consume_active cfg .perSecond now s
  have h₂ := consume_active cfg .sustained now (consume cfg .perSecond now s).2
  rw [h₁] at h₂
  unfold ip_check
  dsimp only
  split
  · split
    · exact h₂
    · exact h₂
  · split
    · rw [penalize_active]
      exact h₁
    · split
      · rw [penalize_active]
        exact h₂
      · split
        · exact congrArg (· + 1) h₂
        · exact h₂

/-- The deadline moves exactly when a bucket was found empty. -/
theorem ip_check_deadline {cfg : ProtectionConfig} (hp : 0 < cfg.penalty_box_duration_ms) (now : Nat) (s : IpState) :
    (ip_check cfg now s).2.penalty_deadline_ns = if finds_empty cfg now s
      then max s.penalty_deadline_ns (sat_add64 now (sat_mul64 cfg.penalty_box_duration_ms 1000000))
      else s.penalty_deadline_ns := by
  have h₁ := consume_deadline cfg .perSecond now s
  have h₂ := consume_deadline cfg .sustained now (consume cfg .perSecond now s).2
  rw [h₁] at h₂
  unfold ip_check finds_empty penalize extend_penalty
  dsimp only
  simp only [if_pos hp]
  cases boxed cfg now s with
  | true =>
    cases (consume cfg .perSecond now s).1 && (consume cfg .sustained now (consume cfg .perSecond now s).2).1 with
    | false => simp [h₂]
    | true => simp [h₂]
  | false =>
    cases (consume cfg .perSecond now s).1 with
    | false => simp [h₁]
    | true =>
      cases (consume cfg .sustained now (consume cfg .perSecond now s).2).1 with
      | false => simp [h₂]
      | true =>
        simp only [Bool.not_true, Bool.false_eq_true, if_false, Bool.and_self]
        split
        · split
          · exact h₂
          · exact h₂
        · exact h₂

/-! ## The credit of a peer -/

/-- A peer's bucket: its entry's, or a full one when it has no entry. -/
def credit (cfg : ProtectionConfig) (k : Limit) (st : ProtectionState) (ip : IpAddr) (clock : Nat) : Bucket :=
  match st.ip_table.lookup ip with
  | some id => (st.states id).bucket k
  | none => ⟨cfg.ceiling k, clock⟩

/-- Entries are allocated and not shared; buckets are within their ceiling and
were refilled in the past. -/
structure Tracked (cfg : ProtectionConfig) (k : Limit) (st : ProtectionState) (clock : Nat) : Prop where
  config : st.config = cfg
  allocated : ∀ {ip id}, st.ip_table.lookup ip = some id → id < st.next
  unshared : ∀ {ip ip' id}, st.ip_table.lookup ip = some id → st.ip_table.lookup ip' = some id → ip = ip'
  full : ∀ ip, (credit cfg k st ip clock).units ≤ cfg.ceiling k
  past : ∀ ip, (credit cfg k st ip clock).last ≤ clock

theorem Debit.full {cfg : ProtectionConfig} {k : Limit} {b b' : Bucket} (h : Debit cfg k now b b')
    (hf : b.units ≤ cfg.ceiling k) : b'.units ≤ cfg.ceiling k := by
  have hr : (refilled cfg k now b).units ≤ cfg.ceiling k := Bucket.refill_units_le now hf
  cases h with
  | untouched => exact hf
  | empty => exact hr
  | paid hp =>
    have := (Bucket.pay_spec hp).1
    omega

theorem Debit.past {cfg : ProtectionConfig} {k : Limit} {b b' : Bucket} (h : Debit cfg k now b b') (hl : b.last ≤ now) :
    b'.last ≤ now := by
  have hr : (refilled cfg k now b).last ≤ now := Bucket.refill_last_le hl
  cases h with
  | untouched => exact hl
  | empty => exact hr
  | paid hp => rwa [(Bucket.pay_spec hp).2]

/-! ## What a step does to the credits -/

theorem credit_eq (cfg : ProtectionConfig) (k : Limit) (st : ProtectionState) (ip : IpAddr) (clock : Nat) :
    credit cfg k st ip clock = view (·.bucket k) ⟨cfg.ceiling k, clock⟩ st ip := by
  unfold credit view
  cases st.ip_table.lookup ip <;> rfl

theorem credit_some {cfg : ProtectionConfig} {k : Limit} {ip : IpAddr} {id : Nat} (h : st.ip_table.lookup ip = some id)
    (clock : Nat) :
    credit cfg k st ip clock = (st.states id).bucket k := by
  rw [credit_eq, view_some h]

theorem credit_none {cfg : ProtectionConfig} {k : Limit} {ip : IpAddr} (h : st.ip_table.lookup ip = none)
    (clock : Nat) :
    credit cfg k st ip clock = ⟨cfg.ceiling k, clock⟩ := by
  rw [credit_eq, view_none h]

theorem Tracked.owned {cfg : ProtectionConfig} {k : Limit} (h : Tracked cfg k st clock) : Owned st :=
  ⟨h.allocated, h.unshared⟩

/-- A step keeps track of the credits if each is as it was, or within its ceiling and
refilled in the past. -/
theorem Tracked.change {cfg : ProtectionConfig} {k : Limit} {st' : ProtectionState} (h : Tracked cfg k st now)
    (hc : st'.config = cfg) (ho : Owned st')
    (hcr : ∀ ip, credit cfg k st' ip now = credit cfg k st ip now ∨
      (credit cfg k st' ip now).units ≤ cfg.ceiling k ∧ (credit cfg k st' ip now).last ≤ now) :
    Tracked cfg k st' now := by
  refine ⟨hc, ho.allocated, ho.unshared, fun ip => ?_, fun ip => ?_⟩
  · rcases hcr ip with e | ⟨hfull, -⟩
    · rw [e]
      exact h.full ip
    · exact hfull
  · rcases hcr ip with e | ⟨-, hpast⟩
    · rw [e]
      exact h.past ip
    · exact hpast

theorem Tracked.fresh (cfg : ProtectionConfig) (k : Limit) : Tracked cfg k (.fresh cfg) 0 where
  config := rfl
  allocated h := by cases h
  unshared h := by cases h
  full _ := Nat.le_refl _
  past _ := Nat.le_refl _

theorem Tracked.later {cfg : ProtectionConfig} {k : Limit} (h : Tracked cfg k st clock) (hc : clock ≤ now) :
    Tracked cfg k st now := by
  refine ⟨h.config, h.allocated, h.unshared, fun ip => ?_, fun ip => ?_⟩
  · have := h.full ip
    unfold credit at this ⊢
    split <;> simp_all
  · have := h.past ip
    unfold credit at this ⊢
    split <;> simp_all
    omega

/-- Looking up a peer's entry, or creating it, changes no credit. -/
theorem get_or_create_spec {cfg : ProtectionConfig} {k : Limit} {st₁ : ProtectionState} {ip : IpAddr} {id : Nat}
    (h : Tracked cfg k st now) (hg : get_or_create_state st ip cfg.burst_fp cfg.sustained_burst_fp now = (id, st₁)) :
    st₁.ip_table.lookup ip = some id ∧ Tracked cfg k st₁ now ∧
      ∀ ip', credit cfg k st₁ ip' now = credit cfg k st ip' now := by
  obtain ⟨ho, hc, hl⟩ := h.owned.get_or_create hg
  have hcredit (ip' : IpAddr) : credit cfg k st₁ ip' now = credit cfg k st ip' now := by
    simp only [credit_eq]
    exact view_get_or_create h.owned hg (bucket_new cfg now k) ip'
  exact ⟨hl, h.change (hc.trans h.config) ho fun ip' => .inl (hcredit ip'), hcredit⟩

theorem credit_setState {cfg : ProtectionConfig} {k : Limit} {ip : IpAddr} {id : Nat} (h : Tracked cfg k st now)
    (hl : st.ip_table.lookup ip = some id) (s : IpState) (ip' : IpAddr) :
    credit cfg k (st.setState id s) ip' now = if ip' = ip then s.bucket k else credit cfg k st ip' now := by
  simp only [credit_eq]
  exact view_setState h.owned hl s ip'

theorem Tracked.setState {cfg : ProtectionConfig} {k : Limit} {ip : IpAddr} {id : Nat} (h : Tracked cfg k st now)
    (hl : st.ip_table.lookup ip = some id) {s : IpState} (hd : Debit cfg k now ((st.states id).bucket k) (s.bucket k)) :
    Tracked cfg k (st.setState id s) now := by
  have hf := h.full ip
  have hp := h.past ip
  rw [credit_some hl] at hf hp
  refine h.change h.config (h.owned.setState id s) fun ip' => ?_
  rw [credit_setState h hl]
  split
  · exact .inr ⟨hd.full hf, hd.past hp⟩
  · exact .inl rfl

theorem static_check_ne_allow {cfg : ProtectionConfig} {ip : IpAddr} {info : PeekInfo} {d : Decision}
    (h : static_check cfg ip info = some d) (id : Nat) : d ≠ .Allow id := by
  rintro rfl
  unfold static_check at h
  split_ifs at h <;> cases h

/-- The answer a check gives on the peer's entry. -/
def verdict (id : Nat) : Option BlockReason → Decision
  | none => .Allow id
  | some reason => .Block reason

/-- A check is decided before the peer's entry is looked at, or by it. -/
theorem check_at_cases (st : ProtectionState) (peer_ip : IpAddr) (info : PeekInfo) (now : Nat) (created : Nat := now)
    (round : ℚ → ℚ := id) :
    (∃ d, static_check st.config peer_ip.to_canonical info = some d ∧
      check_at st peer_ip info now created round = (d, st)) ∨
    (static_check st.config peer_ip.to_canonical info = none ∧ ∃ id st₁,
      get_or_create_state st peer_ip.to_canonical st.config.burst_fp st.config.sustained_burst_fp created = (id, st₁) ∧
      check_at st peer_ip info now created round = (verdict id (ip_check st.config now (st₁.states id) round).1,
        st₁.setState id (ip_check st.config now (st₁.states id) round).2)) := by
  unfold check_at
  cases hs : static_check st.config peer_ip.to_canonical info with
  | some d => exact .inl ⟨d, rfl, by simp [hs]⟩
  | none =>
    rcases hg : get_or_create_state st peer_ip.to_canonical st.config.burst_fp st.config.sustained_burst_fp created
      with ⟨id, st₁⟩
    refine .inr ⟨rfl, id, st₁, rfl, ?_⟩
    simp only [hs, hg]
    rcases ha : ip_check st.config now (st₁.states id) round with ⟨_ | reason, s⟩ <;> rfl

/-- A check debits its own peer's credit, and has taken a token when it admits. -/
theorem check_at_credit {cfg : ProtectionConfig} {k : Limit} (hk : 0 < cfg.rate k) (h : Tracked cfg k st now)
    (peer_ip : IpAddr) (info : PeekInfo) :
    Tracked cfg k (check_at st peer_ip info now).2 now ∧
    (∀ ip, ip ≠ peer_ip.to_canonical →
      credit cfg k (check_at st peer_ip info now).2 ip now = credit cfg k st ip now) ∧
    Debit cfg k now (credit cfg k st peer_ip.to_canonical now)
      (credit cfg k (check_at st peer_ip info now).2 peer_ip.to_canonical now) ∧
    ∀ id, (check_at st peer_ip info now).1 = .Allow id →
      Bucket.pay ONE_TOKEN (refilled cfg k now (credit cfg k st peer_ip.to_canonical now)) =
        some (credit cfg k (check_at st peer_ip info now).2 peer_ip.to_canonical now) := by
  have hcfg := h.config
  subst hcfg
  rcases check_at_cases st peer_ip info now with ⟨d, hd, he⟩ | ⟨-, id, st₁, hg, he⟩
  · rw [he]
    exact ⟨h, fun _ _ => rfl, .untouched, fun id hid => absurd hid (static_check_ne_allow hd id)⟩
  · obtain ⟨hl, h₁, hcr⟩ := get_or_create_spec h hg
    obtain ⟨hd, hp⟩ := ip_check_bucket hk now (st₁.states id)
    rw [← hcr, credit_some hl, he]
    refine ⟨h₁.setState hl hd, fun ip hip => ?_, ?_, fun id' hid => ?_⟩
    · rw [credit_setState h₁ hl, if_neg hip, hcr]
    · rw [credit_setState h₁ hl, if_pos rfl]
      exact hd
    · rw [credit_setState h₁ hl, if_pos rfl]
      apply hp
      cases hv : (ip_check st.config now (st₁.states id)).1 with
      | none => rfl
      | some reason => simp [verdict, hv] at hid

/-- An eviction leaves a credit as it was, or replaces it where it would be full. -/
theorem evict_at_credit {cfg : ProtectionConfig} {k : Limit} (hk : 0 < cfg.rate k) (h : Tracked cfg k st now) :
    Tracked cfg k (evict_at st now) now ∧ ∀ ip,
      credit cfg k (evict_at st now) ip now = credit cfg k st ip now ∨
      (credit cfg k (evict_at st now) ip now = ⟨cfg.ceiling k, now⟩ ∧
        cfg.ceiling k ≤ (credit cfg k st ip now).projected (cfg.earning k) U32_MAX (cfg.ceiling k) now) := by
  have hcfg := h.config
  subst hcfg
  have hcr (ip : IpAddr) : credit st.config k (evict_at st now) ip now = credit st.config k st ip now ∨
      (credit st.config k (evict_at st now) ip now = ⟨st.config.ceiling k, now⟩ ∧ st.config.ceiling k ≤
        (credit st.config k st ip now).projected (st.config.earning k) U32_MAX (st.config.ceiling k) now) := by
    simp only [credit_eq]
    rcases view_evict st now ip with hsame | ⟨id, hl, hr, hnew⟩
    · exact .inl hsame
    · refine .inr ⟨hnew, ?_⟩
      -- an entry is only removed when neither of its buckets would still be short of its ceiling
      simp only [retained, Bool.or_eq_false_iff, Bool.and_eq_false_imp, decide_eq_true_eq,
        decide_eq_false_iff_not] at hr
      rw [view_some hl, ← projected_eq]
      cases k with
      | perSecond => exact Nat.le_of_not_lt (hr.1.2 hk)
      | sustained => exact Nat.le_of_not_lt (hr.2 hk)
  refine ⟨h.change rfl (h.owned.evict now) fun ip => ?_, hcr⟩
  rcases hcr ip with e | ⟨e, -⟩
  · exact .inl e
  · rw [e]
    exact .inr ⟨le_refl _, le_refl _⟩

/-- A release changes no credit: it may even name an entry already evicted. -/
theorem release_credit {cfg : ProtectionConfig} {k : Limit} (h : Tracked cfg k st clock) (id : Nat) :
    Tracked cfg k (release st id) clock ∧
      ∀ ip, credit cfg k (release st id) ip clock = credit cfg k st ip clock := by
  have hcr (ip : IpAddr) : credit cfg k (release st id) ip clock = credit cfg k st ip clock := by
    simp only [credit_eq]
    exact view_release (fun s => bucket_release s k) id ip
  exact ⟨h.change h.config ⟨h.allocated, h.unshared⟩ fun ip => .inl (hcr ip), hcr⟩

/-! ## Admissions in a window -/

def Decision.isAllow : Decision → Bool
  | .Allow _ => true
  | _ => false

theorem isAllow_iff {d : Decision} : d.isAllow = true ↔ ∃ id, d = .Allow id := by
  cases d <;> simp [Decision.isAllow]

/-- The event admitted `ip` at a reading in `[t₀, t₁]`. -/
def admittedIn (ip : IpAddr) (t₀ t₁ : Nat) : Event × Option Decision → Bool
  | (.check peer_ip _ now, some d) => d.isAllow && (peer_ip.to_canonical == ip && (t₀ ≤ now && now ≤ t₁))
  | _ => false

def admissions (ip : IpAddr) (t₀ t₁ : Nat) (log : List (Event × Option Decision)) : Nat :=
  log.countP (admittedIn ip t₀ t₁)

section Window

variable {cfg : ProtectionConfig} {k : Limit} (hk : 0 < cfg.rate k) {ip : IpAddr} {t₀ t₁ : Nat}
include hk

theorem earning_nonneg : 0 ≤ cfg.earning k := mul_nonneg hk.le (by norm_num)

theorem Debit.owes {n : Nat} {b b' : Bucket} (h : Debit cfg k now b b') (hl : b.last ≤ now)
    (ho : Owes (cfg.earning k) (cfg.ceiling k) t₀ n b) : Owes (cfg.earning k) (cfg.ceiling k) t₀ n b' := by
  have hr : Owes (cfg.earning k) (cfg.ceiling k) t₀ n (refilled cfg k now b) :=
    Bucket.owes_refill (earning_nonneg hk) hl ho
  cases h with
  | untouched => exact ho
  | empty => exact hr
  | paid hp => exact Bucket.owes_spend hr hp

/-- The clock goes on; a peer without an entry then has a full bucket of a later date. -/
theorem window_later (h01 : t₀ ≤ t₁) {n : Nat} (ht : Tracked cfg k st clock) (hc : clock ≤ now)
    (h : Bucket.Window (cfg.earning k) (cfg.ceiling k) ONE_TOKEN t₀ t₁ (credit cfg k st ip clock) clock n) :
    Bucket.Window (cfg.earning k) (cfg.ceiling k) ONE_TOKEN t₀ t₁ (credit cfg k st ip now) now n := by
  refine (h.later (earning_nonneg hk) h01 (ht.past ip) hc).change fun p ho => ?_
  cases hl : st.ip_table.lookup ip with
  | none =>
    rw [credit_none hl] at ho ⊢
    exact Bucket.owes_later (earning_nonneg hk) hc ho
  | some id => rwa [credit_some hl] at ho ⊢

theorem window_step {n : Nat} (ht : Tracked cfg k st clock) (e : Event) (he : (machine.reading e).getD clock = clock)
    (h : Bucket.Window (cfg.earning k) (cfg.ceiling k) ONE_TOKEN t₀ t₁ (credit cfg k st ip clock) clock n) :
    Tracked cfg k (machine.step st e).2 clock ∧
    Bucket.Window (cfg.earning k) (cfg.ceiling k) ONE_TOKEN t₀ t₁ (credit cfg k (machine.step st e).2 ip clock) clock
      (n + if admittedIn ip t₀ t₁ (e, (machine.step st e).1) then 1 else 0) := by
  cases e with
  | check peer_ip info now =>
    obtain rfl : now = clock := he
    obtain ⟨ht', hother, hdebit, hpaid⟩ := check_at_credit hk ht peer_ip info
    refine ⟨ht', ?_⟩
    by_cases hip : ip = peer_ip.to_canonical
    · subst hip
      cases hallow : (check_at st peer_ip info now).1.isAllow with
      | true =>
        obtain ⟨id, hid⟩ := isAllow_iff.1 hallow
        have hpay := h.pay (earning_nonneg hk) (by decide) (ht.full _) (ht.past _) (hpaid id hid)
        simpa [admittedIn, machine, hallow] using hpay
      | false =>
        -- not admitted: the bucket may have been refilled or debited all the same
        simpa [admittedIn, machine, hallow] using h.change fun _ ho => hdebit.owes hk (ht.past _) ho
    · have hne : (peer_ip.to_canonical == ip) = false := by simpa using Ne.symm hip
      change Bucket.Window _ _ _ _ _ (credit cfg k (check_at st peer_ip info now).2 ip now) _ _
      rw [hother ip hip]
      simpa [admittedIn, machine, hne] using h
  | evict now =>
    obtain rfl : now = clock := he
    obtain ⟨ht', hcr⟩ := evict_at_credit hk ht
    refine ⟨ht', h.change fun p ho => ?_⟩
    change Owes _ _ _ _ (credit cfg k (evict_at st now) _ now)
    rcases hcr ip with hsame | ⟨hfull, hle⟩
    · rwa [hsame]
    · rw [hfull]
      exact Bucket.owes_replace (earning_nonneg hk) (ht.past ip) (Nat.le_refl _) hle ho
  | release id =>
    obtain ⟨ht', hcr⟩ := release_credit ht id
    refine ⟨ht', h.change fun p ho => ?_⟩
    change Owes _ _ _ _ (credit cfg k (release st id) _ clock)
    rwa [hcr]

end Window

/-- Every run keeps the bound: the clock moves to the event's reading, then the
event happens. -/
theorem run_window {cfg : ProtectionConfig} {k : Limit} (hk : 0 < cfg.rate k) (ip : IpAddr) {t₀ t₁ : Nat}
    (h01 : t₀ ≤ t₁) {log : List (Event × Option Decision)} (h : machine.Run (.fresh cfg) st clock log) :
    Tracked cfg k st clock ∧ Bucket.Window (cfg.earning k) (cfg.ceiling k) ONE_TOKEN t₀ t₁ (credit cfg k st ip clock)
      clock (admissions ip t₀ t₁ log) := by
  refine h.inv (fun st clock log => Tracked cfg k st clock ∧ Bucket.Window (cfg.earning k) (cfg.ceiling k) ONE_TOKEN
    t₀ t₁ (credit cfg k st ip clock) clock (admissions ip t₀ t₁ log)) ⟨.fresh cfg k, Bucket.window_start⟩ ?_
  rintro st clock log e ⟨ht, hw⟩ hc
  have hstep := window_step hk (ht.later hc) e (by cases e <;> rfl) (window_later hk h01 ht hc hw)
  simpa [admissions, List.countP_append, List.countP_cons] using hstep

/-- In any window, whatever was evicted in between, a peer is admitted no more
often than a full bucket and the rate allow. -/
theorem admission_rate (cfg : ProtectionConfig) (k : Limit) (hk : 0 < cfg.rate k) {st : ProtectionState} {clock : Nat}
    {log : List (Event × Option Decision)} (h : machine.Run (.fresh cfg) st clock log) (ip : IpAddr) (t₀ t₁ : Nat)
    (h01 : t₀ ≤ t₁) :
    1000 * (admissions ip t₀ t₁ log : ℚ) < cfg.ceiling k + 1000 * cfg.rate k * (t₁ - t₀) + 1 := by
  obtain ⟨ht, hw⟩ := run_window hk ip h01 h
  have := hw.final (earning_nonneg hk) h01 (ht.past ip)
  rw [ProtectionConfig.earning, ONE_TOKEN] at this
  push_cast at this
  linarith

/-- One connection a microsecond, one at a time. -/
def onePerMicro : ProtectionConfig := { tokens_per_ns := 1 / 1000, burst_fp := 1000 }

/-- Admitted, blocked, admitted after a refill, evicted and admitted anew. -/
def revisits : List Event :=
  [.check (.V4 1) .default 0, .check (.V4 1) .default 10, .check (.V4 1) .default 1000, .release 0, .release 0,
    .evict 2500, .check (.V4 1) .default 3000]

theorem admission_rate_revisits : ∃ st clock log, machine.Run (.fresh onePerMicro) st clock log ∧
    (log.map (·.2)) = [some (.Allow 0), some (.Block .RateLimited), some (.Allow 0), none, none, none,
      some (.Allow 1)] ∧
    1000 * (admissions (.V4 1) 0 3000 log : ℚ) < 1000 + 1000 * (1 / 1000) * ((3000 : Nat) - (0 : Nat)) + 1 := by
  obtain ⟨clock, h⟩ := Machine.exec_run (show machine.Admissible _ (.fresh onePerMicro) 0 revisits by decide +kernel)
  have hrate : 0 < onePerMicro.rate .perSecond := by norm_num [onePerMicro, ProtectionConfig.rate]
  exact ⟨_, _, _, h, by decide +kernel, admission_rate onePerMicro .perSecond hrate h (.V4 1) 0 3000 (by decide)⟩

end Symphony.Protection
