import Symphony.Router.Limiter
/-!
# Recovery of the route limiter

The limiter reads the system clock, which may be set forwards or backwards between two
calls. A refill stores the reading it was made at. When the clock is set back, that
reading lies ahead of every later one until the clock has caught up with it, and until
then no call refills. Otherwise a call that comes a token's time after the one before it
is admitted, but for the rounding of the rate and of the elapsed time.
-/

namespace Symphony.Router

open Lib (Binary64.round Bucket)
open Protection (ONE_TOKEN)

/-- Real time, and how far the system clock is ahead of it (behind it, when negative). -/
structure Reading where
  real : Nat
  offset : Int
  deriving DecidableEq, Repr

/-- The system time, in nanoseconds since the epoch. -/
def Reading.system (t : Reading) : Int := t.real + t.offset

/-- `now_ns`: a system time before the epoch reads zero, and 64 bits of it are kept. -/
def Reading.now_ns (t : Reading) : Nat := t.system.toNat % 2 ^ 64

/-- While the clock is not set, readings after the epoch are as far apart as real time. -/
theorem Reading.apart {p n : Reading} (h : n.offset = p.offset) (hp : 0 ≤ p.system) (hn : n.system < 2 ^ 64)
    (hreal : p.real ≤ n.real) : n.now_ns = p.now_ns + (n.real - p.real) := by
  unfold now_ns
  unfold system at hp hn ⊢
  omega

namespace RouteTokenBucket

/-! ## A new limiter -/

theorem one_token_le_fixed_point (x : F64) : ONE_TOKEN ≤ fixed_point (at_least_one x) Binary64.round := by
  cases x with
  | finite q => exact Protection.one_token_le_as_u32 (le_max_right q 1)
  | infinite negative =>
    cases negative with
    | false => decide
    | true => exact Protection.one_token_le_as_u32 le_rfl
  | nan => exact Protection.one_token_le_as_u32 le_rfl

/-! ## Calls -/

/-- The words after calls at the given readings, from a new limiter on. -/
def after (limiter : RouteTokenBucket) (readings : List Reading) : Bucket :=
  readings.foldl (fun b t => (limiter.try_acquire b t.now_ns Binary64.round).2) limiter.words

theorem after_append (limiter : RouteTokenBucket) (readings : List Reading) (p : Reading) :
    limiter.after (readings ++ [p]) = (limiter.try_acquire (limiter.after readings) p.now_ns Binary64.round).2 := by
  unfold after
  rw [List.foldl_append]
  rfl

section Calls

variable {limiter : RouteTokenBucket} {rate : ℚ} {b : Bucket}

/-- A call not behind the stored reading leaves one that is not ahead of it. -/
theorem last_le_now_ns (hrate : limiter.rate_per_ns = .finite rate) {p : Reading} (hp : p.system < 2 ^ 64)
    (hlast : (b.last : Int) ≤ p.system) : (limiter.try_acquire b p.now_ns Binary64.round).2.last ≤ p.now_ns := by
  have hle : b.last ≤ p.now_ns := by
    unfold Reading.now_ns
    omega
  rw [try_acquire_finite hrate]
  rcases Protection.refill_and_consume_last b p.now_ns rate limiter.burst_fp Binary64.round with h | h <;> omega

/-- What is earned in `elapsed` is a token, and a little more than the roundings can lose. -/
theorem admits {cps : ℚ} (hrate : limiter.rate_per_ns = .finite (Binary64.round (cps / 1000000000)))
    (hone : ONE_TOKEN ≤ limiter.burst_fp) {now : Nat} (hnow : now < 2 ^ 64)
    (hearned : 1 + 1 / 2 ^ 50 ≤ ((now - b.last : Nat) : ℚ) * (cps / 1000000000)) :
    (limiter.try_acquire b now Binary64.round).1 = true := by
  have hnormal : 2 ^ (-1022 : ℤ) ≤ cps / 1000000000 := by
    -- a smaller rate earns no token in the time that 64 bits can count
    by_contra hsmall
    have hsmall : cps / 1000000000 ≤ 2 ^ (-64 : ℤ) :=
      (not_le.1 hsmall).le.trans (zpow_le_zpow_right₀ one_le_two (by norm_num))
    have helapsed : ((now - b.last : Nat) : ℚ) ≤ 2 ^ 64 := by exact_mod_cast (Nat.sub_le now b.last).trans hnow.le
    have hle := mul_le_mul_of_nonneg_left hsmall (Nat.cast_nonneg (now - b.last))
    norm_num at hearned hle
    linarith
  rw [try_acquire_finite hrate]
  exact Protection.refill_and_consume_grants hone
    (.inr (Protection.one_token_le_refillFor (Lib.Binary64.one_le_mul hnormal hearned)))

end Calls

/-- **Recovery.** A limiter for `cps` connections a second, any calls at any readings, then
a call at `p` that is not behind the stored reading and a call at `n`, with the clock not set
in between: it is admitted, after the time a token takes and one part in `2 ^ 50` of it. -/
theorem recovers {cps : ℚ} (hcps : 0 < cps) (burst : Option F64) (h : Heap) (readings : List Reading)
    (p n : Reading) (hoffset : n.offset = p.offset) (hn : n.system < 2 ^ 64)
    (hreal : (1 + 1 / 2 ^ 50) * (1000000000 / cps) ≤ (n.real : ℚ) - p.real) :
    let limiter := (RouteTokenBucket.new (.finite cps) burst Binary64.round h).1
    ((limiter.after readings).last : Int) ≤ p.system →
      (limiter.try_acquire (limiter.after (readings ++ [p])) n.now_ns Binary64.round).1 = true := by
  intro limiter hlast
  have hle : p.real ≤ n.real := by
    have hpos : 0 < (1 + 1 / 2 ^ 50) * (1000000000 / cps) := by positivity
    have : (p.real : ℚ) ≤ n.real := by linarith
    exact_mod_cast this
  have hp : p.system < 2 ^ 64 := by
    unfold Reading.system at hn ⊢
    omega
  have hstored := @last_le_now_ns limiter _ _ rfl p hp hlast
  have hapart := Reading.apart hoffset ((Int.natCast_nonneg _).trans hlast) hn hle
  rw [after_append]
  generalize limiter.try_acquire (limiter.after readings) p.now_ns Binary64.round = call at hstored ⊢
  -- the stored reading is at most `p`, so at least the real time between the calls has passed
  have helapsed : (n.real : ℚ) - p.real ≤ ((n.now_ns - call.2.last : Nat) : ℚ) := by
    rw [← Nat.cast_sub hle]
    exact_mod_cast (by omega : n.real - p.real ≤ n.now_ns - call.2.last)
  apply admits rfl (one_token_le_fixed_point _) (Nat.mod_lt _ (by norm_num))
  calc (1 + 1 / 2 ^ 50 : ℚ) = (1 + 1 / 2 ^ 50) * (1000000000 / cps) * (cps / 1000000000) := by field_simp
    _ ≤ ((n.now_ns - call.2.last : Nat) : ℚ) * (cps / 1000000000) :=
      mul_le_mul_of_nonneg_right (hreal.trans helapsed) (by positivity)

/-- The same limiter with a clock that is set forwards only. -/
theorem recovers_set_forwards :
    let limiter := (RouteTokenBucket.new (.finite 1) none Binary64.round { wall_ns := 1000000000000 }).1
    (limiter.try_acquire (limiter.after ([⟨0, 1000000000000⟩] ++ [⟨100, 2000000000000⟩]))
      (⟨1000000101, 2000000000000⟩ : Reading).now_ns Binary64.round).1 = true :=
  recovers (by decide) none { wall_ns := 1000000000000 } [⟨0, 1000000000000⟩] ⟨100, 2000000000000⟩
    ⟨1000000101, 2000000000000⟩ rfl (by decide) (by norm_num) (by decide +kernel)

/-- One connection a second, no burst: the limiter is made and called at second 1000, then the
clock is set back by 1000 seconds. It refuses a call a second later, and another one a
second after that. -/
theorem frozen_after_setback :
    let limiter := (RouteTokenBucket.new (.finite 1) none Binary64.round { wall_ns := 1000000000000 }).1
    let p : Reading := ⟨1000000000, 0⟩
    let n : Reading := ⟨2000000000, 0⟩
    n.offset = p.offset ∧ 1000000000 / (1 : ℚ) ≤ (n.real : ℚ) - p.real ∧
      (limiter.try_acquire (limiter.after ([⟨0, 1000000000000⟩] ++ [p])) n.now_ns Binary64.round).1 = false := by
  decide +kernel

end RouteTokenBucket

end Symphony.Router
