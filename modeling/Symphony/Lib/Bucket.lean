import Mathlib.Algebra.Order.Floor.Semiring
import Mathlib.Data.Rat.Floor
import Mathlib.Tactic.Linarith
import Mathlib.Tactic.Positivity
/-!
# Token buckets with a truncating refill

A bucket holds whole units and the tick it was last refilled. A refill adds
`⌊ρ * elapsed⌋` units, never above the ceiling, and moves the tick only when it
added something, so a fraction owed is not lost. `Owes` is the potential that
bounds what a bucket pays out after a tick `t₀`: it survives refills, payments
and the replacement of a bucket that would have been full.
-/

namespace Symphony.Lib

/-- Whole units in the bucket and the tick of the last refill. -/
structure Bucket where
  units : Nat
  last : Nat
  deriving DecidableEq, Repr

namespace Bucket

/-- Units a refill adds after `dt` ticks at `ρ` units a tick, truncated and
saturating at `top`. -/
def refillAmount (ρ : ℚ) (top dt : Nat) : Nat := min ⌊ρ * dt⌋₊ top

/-- One refill at tick `now`, with ceiling `cap`. -/
def refill (ρ : ℚ) (top cap : Nat) (b : Bucket) (now : Nat) : Bucket :=
  if refillAmount ρ top (now - b.last) = 0 then b
  else ⟨min (min (b.units + refillAmount ρ top (now - b.last)) top) cap, now⟩

/-- Pay `cost` units when the bucket holds them. -/
def pay (cost : Nat) (b : Bucket) : Option Bucket :=
  if b.units < cost then none else some { b with units := b.units - cost }

/-- Units a refill at `now` would leave. -/
def projected (ρ : ℚ) (top cap : Nat) (b : Bucket) (now : Nat) : Nat :=
  min (min (b.units + refillAmount ρ top (now - b.last)) top) cap

/-! ## Refills -/

theorem refillAmount_le (ρ : ℚ) (hρ : 0 ≤ ρ) (top dt : Nat) : (refillAmount ρ top dt : ℚ) ≤ ρ * dt := by
  have h : (⌊ρ * dt⌋₊ : ℚ) ≤ ρ * dt := Nat.floor_le (by positivity)
  have h' : ((refillAmount ρ top dt : Nat) : ℚ) ≤ (⌊ρ * dt⌋₊ : ℚ) := by
    exact_mod_cast min_le_left _ _
  exact h'.trans h

theorem owed_lt_one (ρ : ℚ) (top dt : Nat) (htop : 0 < top) (h : refillAmount ρ top dt = 0) : ρ * dt < 1 := by
  unfold refillAmount at h
  have h0 : ⌊ρ * dt⌋₊ = 0 := by omega
  simpa using Nat.floor_eq_zero.1 h0

theorem refill_units_le {ρ : ℚ} {top cap : Nat} {b : Bucket} (now : Nat) (h : b.units ≤ cap) :
    (refill ρ top cap b now).units ≤ cap := by
  unfold refill
  split
  · exact h
  · exact min_le_right _ _

theorem refill_last_le {ρ : ℚ} {top cap : Nat} {b : Bucket} {now : Nat} (h : b.last ≤ now) :
    (refill ρ top cap b now).last ≤ now := by
  unfold refill
  split
  · exact h
  · exact le_refl _

theorem refill_earns {ρ : ℚ} (hρ : 0 ≤ ρ) {top cap : Nat} {b : Bucket} {now : Nat} (h : b.last ≤ now) :
    ((refill ρ top cap b now).units : ℚ) - ρ * (refill ρ top cap b now).last ≤ b.units - ρ * b.last := by
  unfold refill
  split
  · exact le_refl _
  · have hle := refillAmount_le ρ hρ top (now - b.last)
    have hmin : ((min (min (b.units + refillAmount ρ top (now - b.last)) top) cap : Nat) : ℚ) ≤
        (b.units + refillAmount ρ top (now - b.last) : Nat) := by
      exact_mod_cast (min_le_left _ _).trans (min_le_left _ _)
    have hsub : ((now - b.last : Nat) : ℚ) = now - b.last := Nat.cast_sub h
    push_cast at hmin
    rw [hsub] at hle
    simp only
    push_cast
    linarith

/-- After a refill at `now`, less than one unit is still owed. -/
theorem refill_owes_lt_one {ρ : ℚ} {top cap : Nat} (htop : 0 < top) {b : Bucket} {now : Nat} (h : b.last ≤ now) :
    ρ * (now - (refill ρ top cap b now).last) < 1 := by
  unfold refill
  split
  · rename_i h0
    have := owed_lt_one ρ top (now - b.last) htop h0
    rwa [Nat.cast_sub h] at this
  · simp

/-! ## Looking ahead -/

theorem refillAmount_mono {ρ : ℚ} (hρ : 0 ≤ ρ) (top : Nat) {dt dt' : Nat} (h : dt ≤ dt') :
    refillAmount ρ top dt ≤ refillAmount ρ top dt' := by
  have hdt : (dt : ℚ) ≤ dt' := by exact_mod_cast h
  have hfloor : ⌊ρ * dt⌋₊ ≤ ⌊ρ * dt'⌋₊ := Nat.floor_mono (mul_le_mul_of_nonneg_left hdt hρ)
  unfold refillAmount
  omega

@[simp] theorem refillAmount_zero (ρ : ℚ) (top : Nat) : refillAmount ρ top 0 = 0 := by simp [refillAmount]

section Ahead

variable {ρ : ℚ} {top cap : Nat} {b : Bucket} {now now' : Nat}

theorem projected_mono (hρ : 0 ≤ ρ) (h : now ≤ now') : projected ρ top cap b now ≤ projected ρ top cap b now' := by
  have := refillAmount_mono hρ top (Nat.sub_le_sub_right h b.last)
  unfold projected
  omega

theorem projected_anti (hρ : 0 ≤ ρ) {u l l' : Nat} (h : l ≤ l') :
    projected ρ top cap ⟨u, l'⟩ now ≤ projected ρ top cap ⟨u, l⟩ now := by
  have := refillAmount_mono hρ top (Nat.sub_le_sub_left h now)
  unfold projected
  dsimp only
  omega

/-- A refill leaves what it was projected to, as far as one can tell below `top`. -/
theorem refill_lt_iff (hu : b.units ≤ cap) {c : Nat} (hc : c ≤ top) :
    (refill ρ top cap b now).units < c ↔ projected ρ top cap b now < c := by
  unfold refill projected
  split
  · rename_i h0
    rw [h0]
    omega
  · rfl

theorem projected_le_refill : projected ρ top cap b now ≤ (refill ρ top cap b now).units := by
  unfold refill projected
  split
  · omega
  · rfl

/-- Taking `c` units from a bucket just refilled lowers its projection by no more. -/
theorem projected_taken (c : Nat) :
    projected ρ top cap b now ≤
      projected ρ top cap ⟨(refill ρ top cap b now).units - c, (refill ρ top cap b now).last⟩ now + c := by
  unfold refill
  split
  · unfold projected
    dsimp only
    omega
  · unfold projected
    dsimp only
    omega

theorem refill_full (hρ : 0 ≤ ρ) (hu : b.units ≤ cap) (h : now ≤ now') (hf : cap ≤ projected ρ top cap b now) :
    (refill ρ top cap b now').units = cap := by
  have hmono := refillAmount_mono hρ top (Nat.sub_le_sub_right h b.last)
  unfold projected at hf
  unfold refill
  split
  · omega
  · dsimp only
    omega

end Ahead

/-! ## What a bucket was not given -/

/-- What refills at ticks `ts` leave out of what is earned until the last of them, for a
bucket last refilled at `last`, when the tick is `now`: a refill that adds something drops
the fraction owed then, and one unit or less may be owed at the end. -/
def undelivered (ρ : ℚ) (last now : Nat) : List Nat → ℚ
  | [] => ρ * (now - last)
  | t :: ts =>
    if 1 ≤ ρ * (t - last) then ρ * (t - last) - ⌊ρ * (t - last)⌋₊ + undelivered ρ t t ts
    else undelivered ρ last t ts

/-- Refills at ticks that whole units were earned by drop nothing. -/
theorem undelivered_whole {ρ : ℚ} (hρ : 0 ≤ ρ) (ts : List Nat) : ∀ {last now : Nat}, (last :: ts).Pairwise (· ≤ ·) →
    ρ * (now - last) = 0 → (∀ t ∈ ts, ∃ n : ℕ, ρ * (t - last) = n) → undelivered ρ last now ts = 0 := by
  induction ts with
  | nil =>
    intro last now _ hnow _
    exact hnow
  | cons t ts ih =>
    intro last now hsorted _ hwhole
    obtain ⟨hlast, hts⟩ := List.pairwise_cons.1 hsorted
    obtain ⟨n, hn⟩ := hwhole t List.mem_cons_self
    rw [undelivered, hn]
    split
    · -- the units are added, and later ticks are whole units after this one
      rw [Nat.floor_natCast, sub_self, zero_add]
      apply ih hts (by ring)
      intro t' ht'
      obtain ⟨n', hn'⟩ := hwhole t' (List.mem_cons_of_mem t ht')
      have hle : (n : ℚ) ≤ n' := by
        rw [← hn, ← hn']
        have := (List.pairwise_cons.1 hts).1 t' ht'
        gcongr
      refine ⟨n' - n, ?_⟩
      rw [Nat.cast_sub (by exact_mod_cast hle), ← hn, ← hn']
      ring
    · rename_i h1
      have h0 : n = 0 := by
        by_contra hne
        exact h1 (by exact_mod_cast Nat.one_le_iff_ne_zero.2 hne)
      rw [h0, Nat.cast_zero] at hn
      apply ih _ hn fun t' ht' => hwhole t' (List.mem_cons_of_mem t ht')
      exact List.pairwise_cons.2 ⟨fun t' ht' => hlast t' (List.mem_cons_of_mem t ht'), (List.pairwise_cons.1 hts).2⟩

/-- A refill that stays below the ceiling: the whole units owed, or nothing. -/
theorem refill_below {ρ : ℚ} {top cap : Nat} {b : Bucket} {now : Nat} (htop : cap ≤ top) (h : b.last ≤ now)
    (hbelow : (refill ρ top cap b now).units < cap) :
    refill ρ top cap b now =
      if 1 ≤ ρ * ((now : ℚ) - b.last) then ⟨b.units + ⌊ρ * ((now : ℚ) - b.last)⌋₊, now⟩ else b := by
  have hone : 1 ≤ ⌊ρ * (now - b.last : Nat)⌋₊ ↔ 1 ≤ ρ * ((now : ℚ) - b.last) := by
    rw [Nat.one_le_floor_iff, Nat.cast_sub h]
  unfold refill at hbelow ⊢
  rw [← Nat.cast_sub h] at hone ⊢
  unfold refillAmount at hbelow ⊢
  split at hbelow
  · rename_i h0
    rw [if_pos h0, if_neg]
    rw [← hone]
    omega
  · rename_i h0
    rw [if_neg h0, if_pos (hone.1 (by omega))]
    dsimp only at hbelow
    congr 1
    omega

/-! ## What a bucket has paid out -/

/-- `paid` units went out of `b` since tick `t₀`: none, or no more than the
ceiling, what `ρ` earned since, and a fraction. -/
def Owes (ρ : ℚ) (cap t₀ paid : Nat) (b : Bucket) : Prop :=
  paid = 0 ∨ (paid : ℚ) + b.units < cap + 1 + ρ * (b.last - t₀)

theorem owes_refill {ρ : ℚ} (hρ : 0 ≤ ρ) {top cap t₀ paid : Nat} {b : Bucket} {now : Nat}
    (hl : b.last ≤ now) (h : Owes ρ cap t₀ paid b) : Owes ρ cap t₀ paid (refill ρ top cap b now) := by
  rcases h with h | h
  · exact .inl h
  · right
    have := @refill_earns ρ hρ top cap b now hl
    linarith

/-- Paying out of a bucket just refilled at `now ≥ t₀`. -/
theorem owes_pay {ρ : ℚ} (hρ : 0 ≤ ρ) {top cap cost t₀ paid : Nat} (htop : 0 < top) {b b' : Bucket} {now : Nat}
    (hu : b.units ≤ cap) (hl : b.last ≤ now) (ht : t₀ ≤ now) (h : Owes ρ cap t₀ paid b)
    (hp : pay cost (refill ρ top cap b now) = some b') : Owes ρ cap t₀ (paid + cost) b' := by
  have hr := @owes_refill ρ hρ top cap t₀ paid b now hl h
  have hcap := @refill_units_le ρ top cap b now hu
  have howe := @refill_owes_lt_one ρ top cap htop b now hl
  generalize refill ρ top cap b now = r at hp hr hcap howe
  unfold pay at hp
  split at hp
  · cases hp
  · rename_i hge
    simp only [Option.some.injEq] at hp
    subst hp
    have hc : ((r.units - cost : Nat) : ℚ) = r.units - cost := Nat.cast_sub (Nat.le_of_not_lt hge)
    right
    simp only
    push_cast
    rw [hc]
    rcases hr with rfl | hr
    · -- The first payment: everything in the bucket was there at `t₀` or earned after it.
      have h1 : (r.units : ℚ) ≤ cap := by exact_mod_cast hcap
      have h2 : ρ * (now - t₀) ≥ 0 := mul_nonneg hρ (sub_nonneg.2 (by exact_mod_cast ht))
      push_cast
      nlinarith
    · linarith

theorem pay_spec {cost : Nat} {b b' : Bucket} (h : pay cost b = some b') :
    b'.units + cost = b.units ∧ b'.last = b.last := by
  unfold pay at h
  split at h
  · cases h
  · simp only [Option.some.injEq] at h
    subst h
    exact ⟨Nat.sub_add_cancel (by omega), rfl⟩

theorem owes_spend {ρ : ℚ} {cap cost t₀ paid : Nat} {b b' : Bucket} (h : Owes ρ cap t₀ paid b)
    (hp : pay cost b = some b') : Owes ρ cap t₀ paid b' := by
  obtain ⟨hu, hl⟩ := pay_spec hp
  have hle : (b'.units : ℚ) ≤ b.units := by
    rw [← hu]
    exact_mod_cast Nat.le_add_right _ _
  rcases h with h | h
  · exact .inl h
  · right
    rw [hl]
    linarith

theorem owes_later {ρ : ℚ} (hρ : 0 ≤ ρ) {cap t₀ paid u l l' : Nat} (hl : l ≤ l')
    (h : Owes ρ cap t₀ paid ⟨u, l⟩) : Owes ρ cap t₀ paid ⟨u, l'⟩ := by
  rcases h with h | h
  · exact .inl h
  · right
    have : ρ * (l' - l) ≥ 0 := mul_nonneg hρ (sub_nonneg.2 (by exact_mod_cast hl))
    simp only at h ⊢
    linarith

/-- A bucket that would be full at `e` has earned back all it paid, so
dropping it and starting a full one later owes nothing more. -/
theorem owes_replace {ρ : ℚ} (hρ : 0 ≤ ρ) {top cap t₀ paid : Nat} {b : Bucket} {e now : Nat}
    (hl : b.last ≤ e) (hn : e ≤ now) (hf : cap ≤ projected ρ top cap b e) (h : Owes ρ cap t₀ paid b) :
    Owes ρ cap t₀ paid ⟨cap, now⟩ := by
  rcases h with h | h
  · exact .inl h
  · right
    have hle := refillAmount_le ρ hρ top (e - b.last)
    have hfull : (cap : ℚ) ≤ b.units + refillAmount ρ top (e - b.last) := by
      exact_mod_cast hf.trans ((min_le_left _ _).trans (min_le_left _ _))
    rw [Nat.cast_sub hl] at hle
    have hen : ρ * (now - e) ≥ 0 := mul_nonneg hρ (sub_nonneg.2 (by exact_mod_cast hn))
    simp only
    linarith

/-- The payout bound: `paid` since `t₀` for a bucket last refilled by `t₁`. -/
theorem paid_lt {ρ : ℚ} (hρ : 0 ≤ ρ) {cap t₀ t₁ paid : Nat} {b : Bucket} (h01 : t₀ ≤ t₁) (hl : b.last ≤ t₁)
    (h : Owes ρ cap t₀ paid b) : (paid : ℚ) < cap + ρ * (t₁ - t₀) + 1 := by
  have h1 : ρ * (t₁ - t₀) ≥ 0 := mul_nonneg hρ (sub_nonneg.2 (by exact_mod_cast h01))
  have hcap : (0 : ℚ) ≤ cap := Nat.cast_nonneg _
  rcases h with rfl | h
  · push_cast
    linarith
  · have h2 : ρ * (t₁ - b.last) ≥ 0 := mul_nonneg hρ (sub_nonneg.2 (by exact_mod_cast hl))
    have h3 : (0 : ℚ) ≤ b.units := Nat.cast_nonneg _
    linarith

/-! ## Payments in a window -/

/-- `n` payments of `cost` in the window `[t₀, t₁]`, up to `clock`: within the window the
bucket bounds them, after it their number is final. -/
def Window (ρ : ℚ) (cap cost t₀ t₁ : Nat) (b : Bucket) (clock n : Nat) : Prop :=
  (clock ≤ t₁ ∧ Owes ρ cap t₀ (cost * n) b) ∨ (t₁ < clock ∧ ((cost * n : Nat) : ℚ) < cap + ρ * (t₁ - t₀) + 1)

section Window

variable {ρ : ℚ} (hρ : 0 ≤ ρ) {top cap cost t₀ t₁ clock n : Nat} {b b' : Bucket}

theorem window_start : Window ρ cap cost t₀ t₁ b 0 0 := .inl ⟨Nat.zero_le _, .inl (Nat.mul_zero _)⟩

/-- A change of bucket that keeps what it owes keeps the window. -/
theorem Window.change (h : Window ρ cap cost t₀ t₁ b clock n) (hb : ∀ p, Owes ρ cap t₀ p b → Owes ρ cap t₀ p b') :
    Window ρ cap cost t₀ t₁ b' clock n := by
  rcases h with ⟨hc, h⟩ | h
  · exact .inl ⟨hc, hb _ h⟩
  · exact .inr h

include hρ

theorem Window.final (h01 : t₀ ≤ t₁) (hl : b.last ≤ clock) (h : Window ρ cap cost t₀ t₁ b clock n) :
    ((cost * n : Nat) : ℚ) < cap + ρ * (t₁ - t₀) + 1 := by
  rcases h with ⟨hc, h⟩ | ⟨-, h⟩
  · exact paid_lt hρ h01 (hl.trans hc) h
  · exact h

theorem Window.later (h01 : t₀ ≤ t₁) (hl : b.last ≤ clock) {now : Nat} (hc : clock ≤ now)
    (h : Window ρ cap cost t₀ t₁ b clock n) : Window ρ cap cost t₀ t₁ b now n := by
  by_cases hn : now ≤ t₁
  · rcases h with ⟨-, h⟩ | ⟨hlt, -⟩
    · exact .inl ⟨hn, h⟩
    · omega
  · exact .inr ⟨Nat.lt_of_not_le hn, h.final hρ h01 hl⟩

/-- A payment at `clock` out of the refilled bucket, counted when it is in the window. -/
theorem Window.pay (htop : 0 < top) (hu : b.units ≤ cap) (hl : b.last ≤ clock)
    (hp : Bucket.pay cost (b.refill ρ top cap clock) = some b') (h : Window ρ cap cost t₀ t₁ b clock n) :
    Window ρ cap cost t₀ t₁ b' clock (n + if t₀ ≤ clock ∧ clock ≤ t₁ then 1 else 0) := by
  rcases h with ⟨hc, h⟩ | ⟨hlt, h⟩
  · by_cases ht : t₀ ≤ clock
    · rw [if_pos ⟨ht, hc⟩]
      exact .inl ⟨hc, owes_pay hρ htop hu hl ht h hp⟩
    · rw [if_neg fun e => ht e.1]
      exact .inl ⟨hc, owes_spend (owes_refill hρ hl h) hp⟩
  · rw [if_neg fun e => Nat.not_lt.2 e.2 hlt]
    exact .inr ⟨hlt, h⟩

end Window

end Bucket

end Symphony.Lib
