import Symphony.Router.Limiter
/-!
# What the buckets deliver

A call that owes less than a fixed-point unit leaves the timestamp alone, so that what is
owed adds up over frequent calls. A call that owes a unit and a fraction credits the unit
and moves the timestamp to its reading: the fraction is lost.
-/

namespace Symphony.Router

open Lib (Bucket)
open Protection (ONE_TOKEN refill_and_consume)

/-- The two buckets, at a finite rate and with a ceiling. -/
inductive Limits (rate_per_ns : ℚ) (burst_fp : Nat) : (Bucket → Nat → Bool × Bucket) → Prop
  | perIp : Limits rate_per_ns burst_fp fun b now => refill_and_consume b now rate_per_ns burst_fp
  | route {limiter : RouteTokenBucket} (hrate : limiter.rate_per_ns = .finite rate_per_ns)
    (hburst : limiter.burst_fp = burst_fp) : Limits rate_per_ns burst_fp fun b now => limiter.try_acquire b now

section Calls

variable (call : Bucket → Nat → Bool × Bucket)

/-- Calls at the given readings: how many were admitted, and the words after them. -/
def calls (b : Bucket) : List Nat → Nat × Bucket
  | [] => (0, b)
  | t :: ts => ((calls (call b t).2 ts).1 + if (call b t).1 then 1 else 0, (calls (call b t).2 ts).2)

/-- The tokens credited over the calls: what was paid out and is left, but for what was
there. -/
def credited (b : Bucket) (ts : List Nat) : ℚ :=
  ONE_TOKEN * (calls call b ts).1 + (calls call b ts).2.units - b.units

/-- The token count, as each call finds it after its refill, never reaches the ceiling. -/
def Below (burst_fp : Nat) (b : Bucket) : List Nat → Prop
  | [] => True
  | t :: ts => ((call b t).2.units + if (call b t).1 then ONE_TOKEN else 0) < burst_fp ∧ Below burst_fp (call b t).2 ts

instance decidableBelow (burst_fp : Nat) (b : Bucket) : ∀ ts, Decidable (Below call burst_fp b ts)
  | [] => .isTrue trivial
  | t :: ts => @instDecidableAnd _ _ _ (decidableBelow burst_fp (call b t).2 ts)

end Calls

variable {rate_per_ns : ℚ} {burst_fp : Nat} {call : Bucket → Nat → Bool × Bucket}

/-- A call refills, and takes a token when it is admitted. -/
theorem Limits.spec (h : Limits rate_per_ns burst_fp call) (b : Bucket) (now : Nat) :
    ((call b now).2.units + if (call b now).1 then ONE_TOKEN else 0) =
        (b.refill (rate_per_ns * 1000) U32_MAX burst_fp now).units ∧
      (call b now).2.last = (b.refill (rate_per_ns * 1000) U32_MAX burst_fp now).last := by
  have hcall : call b now = refill_and_consume b now rate_per_ns burst_fp := by
    cases h with
    | perIp => rfl
    | route hrate hburst =>
      subst hburst
      exact RouteTokenBucket.try_acquire_finite hrate b now id
  rw [hcall, Protection.refill_and_consume_eq]
  cases hpay : Bucket.pay ONE_TOKEN (b.refill (rate_per_ns * 1000) U32_MAX burst_fp now) with
  | none => exact ⟨rfl, rfl⟩
  | some b' => exact Bucket.pay_spec hpay

theorem credited_cons (b : Bucket) (t : Nat) (ts : List Nat) :
    credited call b (t :: ts) = credited call (call b t).2 ts +
      (((call b t).2.units + if (call b t).1 then ONE_TOKEN else 0 : Nat) : ℚ) - b.units := by
  unfold credited
  rw [calls]
  by_cases hok : (call b t).1 = true
  · rw [if_pos hok, if_pos hok]
    push_cast
    ring
  · rw [if_neg hok, if_neg hok]
    push_cast
    ring

theorem Limits.credited_eq (h : Limits rate_per_ns burst_fp call) (hburst : burst_fp ≤ U32_MAX) (ts : List Nat) :
    ∀ (b : Bucket) (now : Nat), b.last ≤ now → (now :: ts).Pairwise (· ≤ ·) → Below call burst_fp b ts →
      credited call b ts = rate_per_ns * 1000 * ((ts.getLastD now : Nat) - b.last) -
        Bucket.undelivered (rate_per_ns * 1000) b.last now ts := by
  induction ts with
  | nil =>
    intro b now _ _ _
    simp [credited, calls, Bucket.undelivered]
  | cons t ts ih =>
    intro b now hlast hsorted hbelow
    obtain ⟨hunder, hrest⟩ := hbelow
    obtain ⟨hunits, hmoved⟩ := h.spec b t
    have htimes := List.pairwise_cons.1 hsorted
    have ht : b.last ≤ t := hlast.trans (htimes.1 t List.mem_cons_self)
    rw [hunits] at hunder
    rw [Bucket.refill_below hburst ht hunder] at hunits hmoved
    rw [List.getLastD_cons, Bucket.undelivered, credited_cons, hunits]
    by_cases hone : 1 ≤ rate_per_ns * 1000 * ((t : ℚ) - b.last)
    · rw [if_pos hone] at hmoved
      rw [if_pos hone, if_pos hone, ih _ t hmoved.le htimes.2 hrest, hmoved]
      push_cast
      ring
    · rw [if_neg hone] at hmoved
      rw [if_neg hone, if_neg hone, ih _ t (hmoved.le.trans ht) htimes.2 hrest, hmoved]
      ring

/-- Calls at readings by which whole units were earned credit all that the rate earned. -/
theorem Limits.credited_whole (h : Limits rate_per_ns burst_fp call) (hburst : burst_fp ≤ U32_MAX)
    (hrate : 0 ≤ rate_per_ns) (b : Bucket) (ts : List Nat) (hsorted : (b.last :: ts).Pairwise (· ≤ ·))
    (hbelow : Below call burst_fp b ts) (hwhole : ∀ t ∈ ts, ∃ n : ℕ, rate_per_ns * 1000 * (t - b.last) = n) :
    credited call b ts = rate_per_ns * 1000 * ((ts.getLastD b.last : Nat) - b.last) := by
  have hnone : Bucket.undelivered (rate_per_ns * 1000) b.last b.last ts = 0 :=
    Bucket.undelivered_whole (by positivity) ts hsorted (by ring) hwhole
  rw [h.credited_eq hburst ts b b.last (Nat.le_refl _) hsorted hbelow, hnone, sub_zero]

/-- **The delivered rate.** Over calls by one caller at readings that do not go back, from
the last refill on, during which the ceiling is not reached: the tokens credited are within
a unit of what the rate earned exactly when the fractions that the refills drop, and what
is owed at the end, are less than a unit. -/
theorem delivered_iff (hcall : Limits rate_per_ns burst_fp call) (hburst : burst_fp ≤ U32_MAX) (b : Bucket)
    (ts : List Nat) (hsorted : (b.last :: ts).Pairwise (· ≤ ·)) (hbelow : Below call burst_fp b ts) :
    1000 * rate_per_ns * ((ts.getLastD b.last : Nat) - b.last) - 1 < credited call b ts ↔
      Bucket.undelivered (rate_per_ns * 1000) b.last b.last ts < 1 := by
  rw [hcall.credited_eq hburst ts b b.last (Nat.le_refl _) hsorted hbelow]
  constructor <;> intro h <;> linarith

/-- Two calls, 1.9 ms apart, at a connection a second: two units of the 3.8 earned. -/
theorem fractions_dropped :
    Below (fun b now => refill_and_consume b now (1 / 1000000000) 5000) 5000 ⟨0, 0⟩ [1900000, 3800000] ∧
    credited (fun b now => refill_and_consume b now (1 / 1000000000) 5000) ⟨0, 0⟩ [1900000, 3800000] = 2 ∧
    ¬ (1000 * (1 / 1000000000) * (3800000 - 0) - 1 : ℚ) <
      credited (fun b now => refill_and_consume b now (1 / 1000000000) 5000) ⟨0, 0⟩ [1900000, 3800000] := by
  decide +kernel

/-- Two calls, 1 ms apart. -/
theorem delivered_whole :
    (1000 * (1 / 1000000000) * (2000000 - 0) - 1 : ℚ) <
      credited (fun b now => refill_and_consume b now (1 / 1000000000) 5000) ⟨0, 0⟩ [1000000, 2000000] :=
  (delivered_iff .perIp (by decide) ⟨0, 0⟩ [1000000, 2000000] (by decide) (by decide +kernel)).2 (by decide +kernel)

end Symphony.Router
