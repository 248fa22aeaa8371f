import Symphony.Lib.Binary64
import Symphony.Lib.SharedBucket
import Symphony.Router.Limiter
/-!
# The token buckets under contention

`refill_and_consume` and `RouteTokenBucket::try_acquire` as their callers interleave,
load by load and compare-exchange by compare-exchange. A refill credits ticks twice when
it swaps its tokens in with a timestamp another refill has since moved, or is about to. It
credits more than they earn when its f64 products round up.
-/

namespace Symphony.Protection

open Lib (Alone Binary64.round Bucket CallEvent Earned Scheme paid)
open Router (RouteTokenBucket)

/-- The loops of `refill_and_consume`. -/
def refillLoops (round : ℚ → ℚ) (rate_per_ns : ℚ) (burst_fp : Nat) : Scheme where
  earn := refillFor round rate_per_ns
  add old_tokens refill := min (sat_add32 old_tokens refill) burst_fp
  cost := ONE_TOKEN

/-- The loops of `try_acquire`. -/
def acquireLoops (round : ℚ → ℚ) (limiter : RouteTokenBucket) : Scheme where
  earn elapsed := limiter.refill elapsed round
  add old refill := min (sat_add32 old refill) limiter.burst_fp
  cost := ONE_TOKEN

section Loops

variable (round : ℚ → ℚ)

/-- With no other caller about, the loops are the functions of one caller. -/
theorem solo_refill_and_consume (b : Bucket) (now : Nat) (rate_per_ns : ℚ) (burst_fp : Nat) :
    (refillLoops round rate_per_ns burst_fp).Solo b (.load now)
      (refill_and_consume b now rate_per_ns burst_fp round).1 (refill_and_consume b now rate_per_ns burst_fp round).2 :=
  (refillLoops round rate_per_ns burst_fp).solo_call b now

theorem solo_try_acquire (limiter : RouteTokenBucket) (b : Bucket) (now : Nat) :
    (acquireLoops round limiter).Solo b (.load now) (limiter.try_acquire b now round).1
      (limiter.try_acquire b now round).2 :=
  (acquireLoops round limiter).solo_call b now

theorem acquireLoops_finite {limiter : RouteTokenBucket} {rate : ℚ} (h : limiter.rate_per_ns = .finite rate) :
    acquireLoops round limiter = refillLoops round rate limiter.burst_fp := by
  unfold acquireLoops refillLoops
  congr 1
  funext elapsed
  exact RouteTokenBucket.refill_finite h elapsed round

theorem refilled_le (rate : ℚ) (burst_fp old refill : Nat) :
    (refillLoops round rate burst_fp).add old refill ≤ old + refill :=
  (min_le_left _ _).trans (min_le_left _ _)

end Loops

/-- Where every refill that lands is the only one to credit its ticks and was not rounded
above what they earn, the calls with readings in `[t₀, t₁]` that return true are at most
what the bucket could hold and earn. -/
theorem no_over_grant (round : ℚ → ℚ) {ι : Type} [DecidableEq ι] {rate : ℚ} (hrate : 0 ≤ rate)
    {burst_fp t₀ t₁ : Nat} (ht : t₀ ≤ t₁) {b : Bucket} (hlast : b.last = t₀) (hunits : b.units ≤ burst_fp) :
    (∀ s clock log,
      (refillLoops round rate burst_fp).contention.RunWhere
        (fun (s : Lib.Shared ι) e => e.Within t₀ t₁ ∧ Alone s e ∧ Earned (1000 * rate) s e) ⟨b, fun _ => .idle⟩
        s clock log →
      (paid log : ℚ) ≤ (burst_fp + 1000 * rate * (t₁ - t₀)) / 1000) ∧
    ∀ limiter : RouteTokenBucket, limiter.rate_per_ns = .finite rate → limiter.burst_fp = burst_fp →
      ∀ s clock log,
        (acquireLoops round limiter).contention.RunWhere
          (fun (s : Lib.Shared ι) e => e.Within t₀ t₁ ∧ Alone s e ∧ Earned (1000 * rate) s e) ⟨b, fun _ => .idle⟩
          s clock log →
        (paid log : ℚ) ≤ (burst_fp + 1000 * rate * (t₁ - t₀)) / 1000 := by
  have hip : ∀ s clock log,
      (refillLoops round rate burst_fp).contention.RunWhere
        (fun (s : Lib.Shared ι) e => e.Within t₀ t₁ ∧ Alone s e ∧ Earned (1000 * rate) s e) ⟨b, fun _ => .idle⟩
        s clock log →
      (paid log : ℚ) ≤ (burst_fp + 1000 * rate * (t₁ - t₀)) / 1000 := by
    intro s clock log h
    have hpaid := Lib.paid_le (by positivity) (refilled_le round rate burst_fp) hunits hlast ht h
    change ((1000 : Nat) : ℚ) * _ ≤ _ at hpaid
    push_cast at hpaid
    linarith
  refine ⟨hip, ?_⟩
  intro limiter hfin hburst s clock log h
  rw [acquireLoops_finite round hfin, hburst] at h
  exact hip s clock log h

/-- Caller 1 computes its refill while caller 0 takes the token there is, so that its
exchange fails; it starts again and is paid from the refill it then makes. -/
def interleaved : List (CallEvent (Fin 2)) :=
  [.begin 0 0, .begin 1 1024, .advance 0, .advance 1, .advance 0, .advance 1, .advance 0, .advance 1, .advance 1,
    .advance 1, .advance 1, .advance 1, .advance 1, .advance 1]

theorem no_over_grant_interleaved : ∃ s clock log,
    (refillLoops Binary64.round (1 / 1024) 1000).contention.RunWhere
      (fun s e => e.Within 0 1024 ∧ Alone s e ∧ Earned (1000 * (1 / 1024)) s e)
      ⟨⟨1000, 0⟩, fun _ : Fin 2 => .idle⟩ s clock log ∧
    paid log = 2 ∧ (paid log : ℚ) ≤ ((1000 : Nat) + 1000 * (1 / 1024) * ((1024 : Nat) - (0 : Nat))) / 1000 := by
  have h₀ : (refillLoops Binary64.round (1 / 1024) 1000).contention.RunWhere
      (fun s e => e.Within 0 1024 ∧ Alone s e ∧ Earned (1000 * (1 / 1024)) s e)
      ⟨⟨1000, 0⟩, fun _ : Fin 2 => .idle⟩ ⟨⟨1000, 0⟩, fun _ => .idle⟩ 0 [] := .nil
  obtain ⟨clock, h⟩ := h₀.exec (show Lib.Machine.Admissible _ _ _ _ interleaved by decide +kernel)
  refine ⟨_, _, _, h, by decide +kernel, ?_⟩
  exact (no_over_grant Binary64.round (by norm_num) (Nat.zero_le 1024) rfl (le_refl 1000)).1 _ _ _ h

/-- Caller 0 takes the token there is. Callers 1 and 2 load the timestamp; caller 1 then
runs to its end, and caller 2 after it. -/
def doubleRefill : List (CallEvent Nat) :=
  [.begin 0 0, .advance 0, .advance 0, .advance 0, .begin 1 1024, .begin 2 1024, .advance 1, .advance 2,
    .advance 1, .advance 1, .advance 1, .advance 1, .advance 1,
    .advance 2, .advance 2, .advance 2, .advance 2, .advance 2]

/-- Three tokens out of a bucket that could hold and earn two: both refills at reading
1024 start from the timestamp 0, and the second lands after the first was spent. -/
theorem no_over_grant_raced : ∃ s clock log,
    (refillLoops Binary64.round (1 / 1024) 1000).contention.RunWhere (fun _ e => e.Within 0 1024)
      ⟨⟨1000, 0⟩, fun _ : Nat => .idle⟩ s clock log ∧
    ((1000 : Nat) + 1000 * (1 / 1024) * ((1024 : Nat) - (0 : Nat))) / 1000 < (paid log : ℚ) := by
  have h₀ : (refillLoops Binary64.round (1 / 1024) 1000).contention.RunWhere (fun _ e => e.Within 0 1024)
      ⟨⟨1000, 0⟩, fun _ : Nat => .idle⟩ ⟨⟨1000, 0⟩, fun _ => .idle⟩ 0 [] := .nil
  obtain ⟨clock, h⟩ := h₀.exec (show Lib.Machine.Admissible _ _ _ _ doubleRefill by decide +kernel)
  refine ⟨_, _, _, h, ?_⟩
  have hpaid : paid ((refillLoops Binary64.round (1 / 1024) 1000).contention.exec
      ⟨⟨1000, 0⟩, fun _ : Nat => .idle⟩ doubleRefill).1 = 3 := by
    decide +kernel
  rw [List.nil_append, hpaid]
  norm_num

end Symphony.Protection
