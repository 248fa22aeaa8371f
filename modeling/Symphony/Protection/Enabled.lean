import Symphony.Protection.Evicted
/-!
# Turning a limit on

A hot swap stores the new config and leaves the entries alone. An entry made while a limit
was off has no tokens for it, and only the refill since it was made: until that is worth
the burst, its address has less than an address never seen before.
-/

namespace Symphony.Protection

open Lib (Bucket Machine)
open Sni (PeekInfo)

/-! ## Which limit blocked -/

/-- The whole tokens of a limit's ceiling. -/
def ProtectionConfig.tokens (cfg : ProtectionConfig) (k : Limit) : Nat := cfg.ceiling k / ONE_TOKEN

/-- What an address has left of the limit's tokens after `n` checks. -/
def Spared (cfg : ProtectionConfig) (k : Limit) (n now : Nat) (s : IpState) : Prop :=
  ONE_TOKEN * cfg.tokens k ≤ ONE_TOKEN * n + projected cfg k now s

section Spared

variable {cfg : ProtectionConfig} {k : Limit} {n now : Nat} {s : IpState}

theorem Spared.later (h : Spared cfg k n now s) (hk : 0 < cfg.rate k) {now' : Nat} (hc : now ≤ now') :
    Spared cfg k n now' s := by
  unfold Spared at h ⊢
  rw [projected_eq] at h ⊢
  exact h.trans (Nat.add_le_add_left (Bucket.projected_mono (earning_nonneg hk) hc) _)

theorem Spared.more (h : Spared cfg k n now s) {m : Nat} (hm : n ≤ m) : Spared cfg k m now s :=
  h.trans (Nat.add_le_add_right (Nat.mul_le_mul_left _ hm) _)

theorem Spared.release (h : Spared cfg k n now s) : Spared cfg k n now s.release := by
  unfold Spared at h ⊢
  rw [projected_eq] at h ⊢
  rwa [bucket_release]

theorem Spared.new (hu : cfg.ceiling k ≤ U32_MAX) (n now : Nat) :
    Spared cfg k n now (IpState.new cfg.burst_fp cfg.sustained_burst_fp now) := by
  unfold Spared ProtectionConfig.tokens
  rw [projected_new, ProtectionConfig.stock, min_eq_right hu]
  exact (Nat.mul_div_le _ _).trans (Nat.le_add_left _ _)

/-- A check takes one token at most. -/
theorem Spared.check (h : Spared cfg k n now s) (hk : 0 < cfg.rate k) :
    Spared cfg k (n + 1) now (ip_check cfg now s).2 := by
  have htaken := @Bucket.projected_taken (cfg.earning k) U32_MAX (cfg.ceiling k) (s.bucket k) now ONE_TOKEN
  unfold Spared at h ⊢
  rw [projected_eq] at h ⊢
  rw [ip_check_debited]
  split
  · exact h.trans (Nat.add_le_add_right (Nat.mul_le_mul_left _ (Nat.le_succ n)) _)
  · rw [debited_on hk]
    have hpaid : ∀ u l, Bucket.projected (cfg.earning k) U32_MAX (cfg.ceiling k) ⟨u - ONE_TOKEN, l⟩ now ≤
        Bucket.projected (cfg.earning k) U32_MAX (cfg.ceiling k)
          ⟨if u < ONE_TOKEN then u else u - ONE_TOKEN, l⟩ now := by
      intro u l
      unfold Bucket.projected
      dsimp only
      split <;> omega
    have hleft := htaken.trans (Nat.add_le_add_right (hpaid _ _) _)
    rw [Nat.mul_succ]
    exact h.trans (by
      rw [Nat.add_assoc, Nat.add_comm ONE_TOKEN]
      exact Nat.add_le_add_left hleft _)

/-- And finds one while there are some left. -/
theorem Spared.found (h : Spared cfg k n now s) (hn : n < cfg.tokens k) : (consume cfg k now s).1 = true := by
  have hle : projected cfg k now s ≤ (refilled cfg k now (s.bucket k)).units := by
    rw [projected_eq]
    exact Bucket.projected_le_refill
  have hone : ONE_TOKEN ≤ (refilled cfg k now (s.bucket k)).units := by
    refine le_trans ?_ hle
    unfold Spared at h
    have := Nat.mul_le_mul_left ONE_TOKEN hn
    rw [Nat.mul_succ] at this
    omega
  rw [consume_ok]
  simp [Nat.not_lt.2 hone]

end Spared

/-- The state after one connection without limits. -/
def known : ProtectionState := (check_at (.new {}) (.V4 1) .default 0).2

end Symphony.Protection
