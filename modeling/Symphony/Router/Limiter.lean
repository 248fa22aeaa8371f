import Symphony.Protection.Rate
import Symphony.Router.Route
/-!
# The route limiter

`RouteTokenBucket::try_acquire`. The limiter's two words are a bucket of their own: the
table holds them behind an `Arc`, as they were when the limiter was built.
-/

namespace Symphony.Router

open Lib (Bucket)
open Protection (ONE_TOKEN refillFor refill_and_consume)

namespace RouteTokenBucket

variable (limiter : RouteTokenBucket)

/-- The limiter's words when it was built. -/
def words : Bucket := ⟨limiter.tokens, limiter.last_refill_ns⟩

/-- `(elapsed as f64 * self.rate_per_ns * 1000.0) as u32`; infinity times zero is NaN. -/
def refill (elapsed : Nat) (round : ℚ → ℚ := id) : Nat :=
  match limiter.rate_per_ns with
  | .finite q => refillFor round q elapsed
  | .infinite false => if elapsed = 0 then 0 else U32_MAX
  | .infinite true => 0
  | .nan => 0

/-- `try_acquire` by one caller at reading `now`, on the words `b`. -/
def try_acquire (b : Bucket) (now : Nat) (round : ℚ → ℚ := id) : Bool × Bucket :=
  let refill := limiter.refill (now - b.last) round
  let b := if refill = 0 then b else ⟨min (sat_add32 b.units refill) limiter.burst_fp, now⟩
  if b.units < ONE_TOKEN then (false, b) else (true, { b with units := b.units - ONE_TOKEN })

variable {limiter}

theorem refill_finite {rate : ℚ} (h : limiter.rate_per_ns = .finite rate) (elapsed : Nat) (round : ℚ → ℚ) :
    limiter.refill elapsed round = refillFor round rate elapsed := by
  simp [refill, h]

/-- A limiter with a finite rate is the per-IP bucket at that rate. -/
theorem try_acquire_finite {rate : ℚ} (h : limiter.rate_per_ns = .finite rate) (b : Bucket) (now : Nat)
    (round : ℚ → ℚ) : limiter.try_acquire b now round = refill_and_consume b now rate limiter.burst_fp round := by
  simp only [try_acquire, refill_finite h, refill_and_consume]

theorem try_acquire_cases {rate : ℚ} (h : limiter.rate_per_ns = .finite rate) (b : Bucket) (now : Nat) :
    limiter.try_acquire b now = (false, b.refill (rate * 1000) U32_MAX limiter.burst_fp now) ∨
      ∃ b', Bucket.pay ONE_TOKEN (b.refill (rate * 1000) U32_MAX limiter.burst_fp now) = some b' ∧
        limiter.try_acquire b now = (true, b') := by
  rw [try_acquire_finite h, Protection.refill_and_consume_eq]
  cases Bucket.pay ONE_TOKEN (b.refill (rate * 1000) U32_MAX limiter.burst_fp now) with
  | none => exact .inl rfl
  | some b' => exact .inr ⟨b', rfl, rfl⟩

end RouteTokenBucket

end Symphony.Router
