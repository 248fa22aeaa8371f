import Symphony.Lib.Bucket
import Symphony.Lib.Runs
/-!
# A bucket shared by callers that race

The bucket is two words, and every load and every compare-exchange is a step of its
own. A caller first refills: it loads the tick, loads the units, swaps in the refilled
units, and then stamps the tick. Then it pays: it loads the units and swaps in fewer.
Between the swap and the stamp the elapsed ticks are already credited but not dated, so
another refill can credit them again. In runs where no refill does (`Alone`) and none
brings more than its ticks earn (`Earned`), the callers are paid no more than the bucket
earns.
-/

namespace Symphony.Lib

/-- How a bucket refills and what a payment costs. -/
structure Scheme where
  /-- Units earned in this many ticks. -/
  earn : Nat → Nat
  /-- Units after a refill of this many. -/
  add : Nat → Nat → Nat
  cost : Nat

/-- Where a caller stands: the step it takes next, and what it has loaded. -/
inductive Caller where
  | idle
  | load (now : Nat)
  | fetch (now last earned : Nat)
  | swap (now last earned old : Nat)
  | stamp (now last : Nat)
  | look
  | take (seen : Nat)
  deriving DecidableEq, Repr

namespace Scheme

variable (S : Scheme)

/-- One step of a caller: what it returns if it returns, the bucket, and where it stands. -/
def advance (b : Bucket) : Caller → Option Bool × Bucket × Caller
  | .idle => (none, b, .idle)
  | .load now =>
    let earned := S.earn (now - b.last)
    (none, b, if earned = 0 then .look else .fetch now b.last earned)
  | .fetch now last earned => (none, b, .swap now last earned b.units)
  | .swap now last earned old =>
    if b.units = old then (none, { b with units := S.add old earned }, .stamp now last) else (none, b, .load now)
  | .stamp now last => (none, if b.last = last then { b with last := now } else b, .look)
  | .look => if b.units < S.cost then (some false, b, .idle) else (none, b, .take b.units)
  | .take seen =>
    if b.units = seen then (some true, { b with units := seen - S.cost }, .idle) else (none, b, .look)

/-- A whole call with nobody else about. -/
def call (b : Bucket) (now : Nat) : Bool × Bucket :=
  let earned := S.earn (now - b.last)
  let b := if earned = 0 then b else ⟨S.add b.units earned, now⟩
  if b.units < S.cost then (false, b) else (true, { b with units := b.units - S.cost })

/-- The steps of a caller that nobody interrupts, up to its return. -/
inductive Solo : Bucket → Caller → Bool → Bucket → Prop where
  | returned {b b' : Bucket} {c : Caller} {r : Bool} : S.advance b c = (some r, b', .idle) → Solo b c r b'
  | more {b b' b'' : Bucket} {c c' : Caller} {r : Bool} :
      S.advance b c = (none, b', c') → Solo b' c' r b'' → Solo b c r b''

theorem solo_look (b : Bucket) :
    S.Solo b .look (decide (¬ b.units < S.cost))
      (if b.units < S.cost then b else { b with units := b.units - S.cost }) := by
  by_cases h : b.units < S.cost
  · apply Solo.returned
    simp [advance, h]
  · have hlook : S.advance b .look = (none, b, .take b.units) := by simp [advance, h]
    apply Solo.more hlook
    apply Solo.returned
    simp [advance, h]

/-- Uninterrupted, the steps are the call. -/
theorem solo_call (b : Bucket) (now : Nat) : S.Solo b (.load now) (S.call b now).1 (S.call b now).2 := by
  by_cases h : S.earn (now - b.last) = 0
  · have hload : S.advance b (.load now) = (none, b, .look) := by simp [advance, h]
    have hlook := S.solo_look b
    apply Solo.more hload
    unfold call
    simp only [h, if_true]
    split <;> simp_all
  · let earned := S.earn (now - b.last)
    have hload : S.advance b (.load now) = (none, b, .fetch now b.last earned) := by simp [advance, h, earned]
    have hfetch : S.advance b (.fetch now b.last earned) = (none, b, .swap now b.last earned b.units) := rfl
    have hswap : S.advance b (.swap now b.last earned b.units) =
        (none, ⟨S.add b.units earned, b.last⟩, .stamp now b.last) := by simp [advance]
    have hstamp : S.advance ⟨S.add b.units earned, b.last⟩ (.stamp now b.last) =
        (none, ⟨S.add b.units earned, now⟩, .look) := by simp [advance]
    have hlook := S.solo_look ⟨S.add b.units earned, now⟩
    apply Solo.more hload
    apply Solo.more hfetch
    apply Solo.more hswap
    apply Solo.more hstamp
    unfold call
    simp only [h, if_false]
    split <;> simp_all [earned]

end Scheme

/-! ## Any number of callers -/

section Callers

variable {ι : Type}

structure Shared (ι : Type) where
  bucket : Bucket
  callers : ι → Caller

/-- Caller `i` begins a call at reading `now`, or takes its next step. -/
inductive CallEvent (ι : Type) where
  | begin (i : ι) (now : Nat)
  | advance (i : ι)

variable {i : ι} {c : Caller}

namespace Scheme

variable (S : Scheme) [DecidableEq ι]

def step (s : Shared ι) : CallEvent ι → Option Bool × Shared ι
  | .begin i now =>
    if s.callers i = .idle then (none, { s with callers := Function.update s.callers i (.load now) }) else (none, s)
  | .advance i =>
    let r := S.advance s.bucket (s.callers i)
    (r.1, ⟨r.2.1, Function.update s.callers i r.2.2⟩)

/-- The readings only go into the calls: they need not be in order. -/
def contention : Machine (Shared ι) (CallEvent ι) (Option Bool) where
  step := S.step
  reading _ := none

end Scheme

/-- The calls of a log that were paid. -/
def paid (log : List (CallEvent ι × Option Bool)) : Nat := log.countP fun e => e.2 = some true

/-- The event begins no call outside `[t₀, t₁]`. -/
def CallEvent.Within (t₀ t₁ : Nat) : CallEvent ι → Prop
  | .begin _ now => t₀ ≤ now ∧ now ≤ t₁
  | .advance _ => True

instance (t₀ t₁ : Nat) : ∀ e : CallEvent ι, Decidable (e.Within t₀ t₁)
  | .begin _ now => inferInstanceAs (Decidable (t₀ ≤ now ∧ now ≤ t₁))
  | .advance _ => .isTrue trivial

/-- The caller has credited ticks that it has yet to date. -/
def Caller.stamping : Caller → Bool
  | .stamp _ _ => true
  | _ => false

/-- The refill that an event swaps in: its reading, the tick it loaded, and the units. -/
def landing (s : Shared ι) : CallEvent ι → Option (Nat × Nat × Nat)
  | .begin _ _ => none
  | .advance i =>
    match s.callers i with
    | .swap now last earned old => if s.bucket.units = old then some (now, last, earned) else none
    | _ => none

/-- A refill that lands credits ticks nobody else has credited: the tick it loaded is
still there, and no caller has yet to stamp. -/
def Alone (s : Shared ι) (e : CallEvent ι) : Prop :=
  ∀ r ∈ landing s e, s.bucket.last = r.2.1 ∧ ∀ j, (s.callers j).stamping = false

/-- A refill that lands brings no more than `ρ` earns in the ticks it credits. -/
def Earned (ρ : ℚ) (s : Shared ι) (e : CallEvent ι) : Prop :=
  ∀ r ∈ landing s e, (r.2.2 : ℚ) ≤ ρ * (r.1 - r.2.1 : Nat)

instance [Fintype ι] (s : Shared ι) (e : CallEvent ι) : Decidable (Alone s e) :=
  inferInstanceAs (Decidable (∀ r ∈ landing s e, _))

instance (ρ : ℚ) (s : Shared ι) (e : CallEvent ι) : Decidable (Earned ρ s e) :=
  inferInstanceAs (Decidable (∀ r ∈ landing s e, _))

/-! ## What the callers are paid -/

/-- The tick up to which the bucket has been credited: that of a caller which has yet to
stamp, else the bucket's own. -/
inductive Credited (s : Shared ι) : Nat → Prop where
  | calm : (∀ i, (s.callers i).stamping = false) → Credited s s.bucket.last
  | stamping {i : ι} {now : Nat} : s.callers i = .stamp now s.bucket.last →
      (∀ j, j ≠ i → (s.callers j).stamping = false) → Credited s now

/-- What a caller holds is within the window, and it swaps in something. -/
def Caller.Sane (S : Scheme) (t₀ t₁ : Nat) : Caller → Prop
  | .idle => True
  | .load now => t₀ ≤ now ∧ now ≤ t₁
  | .fetch now _ earned => (t₀ ≤ now ∧ now ≤ t₁) ∧ earned ≠ 0
  | .swap now _ earned _ => (t₀ ≤ now ∧ now ≤ t₁) ∧ earned ≠ 0
  | .stamp now _ => t₀ ≤ now ∧ now ≤ t₁
  | .look => True
  | .take seen => S.cost ≤ seen

/-- The units left and those paid out are within what was there and what `ρ` has earned. -/
structure Balanced (S : Scheme) (ρ : ℚ) (t₀ t₁ cap : Nat) (s : Shared ι) (n : Nat) : Prop where
  sane : ∀ i, (s.callers i).Sane S t₀ t₁
  balance : ∃ date, Credited s date ∧ t₀ ≤ date ∧ date ≤ t₁ ∧ (s.bucket.units : ℚ) + S.cost * n ≤ cap + ρ * (date - t₀)

variable [DecidableEq ι] {S : Scheme} {ρ : ℚ} {t₀ t₁ cap : Nat} {s : Shared ι} {n date : Nat}

/-- A caller that does not stamp before or after its step changes no date. -/
theorem Credited.move (h : Credited s date) {units : Nat} (hold : (s.callers i).stamping = false)
    (hnew : c.stamping = false) :
    Credited ⟨⟨units, s.bucket.last⟩, Function.update s.callers i c⟩ date := by
  cases h with
  | calm hno =>
    apply Credited.calm
    intro j
    by_cases hj : j = i
    · subst hj
      simpa using hnew
    · simpa [Function.update_of_ne hj] using hno j
  | stamping hk hno =>
    rename_i k
    -- the stamping caller is another one
    have hki : k ≠ i := by
      rintro rfl
      rw [hk] at hold
      cases hold
    apply Credited.stamping (i := k)
    · simpa [Function.update_of_ne hki] using hk
    · intro j hj
      by_cases hji : j = i
      · subst hji
        simpa using hnew
      · simpa [Function.update_of_ne hji] using hno j hj

theorem sane_update (h : ∀ i, (s.callers i).Sane S t₀ t₁) (i : ι) (hc : c.Sane S t₀ t₁) (j : ι) :
    (Function.update s.callers i c j).Sane S t₀ t₁ := by
  by_cases hj : j = i
  · subst hj
    simpa using hc
  · simpa [Function.update_of_ne hj] using h j

/-- A step that neither swaps units in, stamps nor pays leaves the balance as it is. -/
theorem Balanced.move (h : Balanced S ρ t₀ t₁ cap s n) (hc : c.Sane S t₀ t₁) (hold : (s.callers i).stamping = false)
    (hnew : c.stamping = false) :
    Balanced S ρ t₀ t₁ cap ⟨s.bucket, Function.update s.callers i c⟩ n := by
  obtain ⟨date, hd, h₀, h₁, hb⟩ := h.balance
  exact ⟨sane_update h.sane i hc, date, hd.move hold hnew, h₀, h₁, hb⟩

/-- A swap that credits ticks nobody else has credited, with what they earn. -/
theorem Balanced.swap (hadd : ∀ old e, S.add old e ≤ old + e) (h : Balanced S ρ t₀ t₁ cap s n) {now last earned : Nat}
    (hi : s.callers i = .swap now last earned s.bucket.units) (hlast : s.bucket.last = last)
    (hno : ∀ j, (s.callers j).stamping = false) (hearned : (earned : ℚ) ≤ ρ * (now - last : Nat)) :
    Balanced S ρ t₀ t₁ cap ⟨⟨S.add s.bucket.units earned, s.bucket.last⟩, Function.update s.callers i
      (.stamp now last)⟩ n := by
  subst hlast
  have hs := h.sane i
  rw [hi] at hs
  obtain ⟨hw, hne⟩ := hs
  obtain ⟨date, hd, h₀, h₁, hb⟩ := h.balance
  have hdate : date = s.bucket.last := by
    cases hd with
    | calm => rfl
    | stamping hk =>
      have hstamping := congrArg Caller.stamping hk
      rw [hno] at hstamping
      cases hstamping
  subst hdate
  -- something was earned, so the reading is past the tick
  have hlt : s.bucket.last ≤ now := by
    by_contra hgt
    rw [Nat.sub_eq_zero_of_le (Nat.le_of_not_le hgt), Nat.cast_zero, mul_zero] at hearned
    exact hne (Nat.le_zero.1 (by exact_mod_cast hearned))
  rw [Nat.cast_sub hlt] at hearned
  have hunits : ((S.add s.bucket.units earned : Nat) : ℚ) ≤ s.bucket.units + earned := by
    exact_mod_cast hadd s.bucket.units earned
  refine ⟨sane_update h.sane i hw, now, ?_, hw.1, hw.2, ?_⟩
  · apply Credited.stamping (i := i)
    · simp
    · intro j hj
      simpa [Function.update_of_ne hj] using hno j
  · simp only
    linarith

/-- Stamping dates what was credited. -/
theorem Balanced.stamp (h : Balanced S ρ t₀ t₁ cap s n) {now last : Nat} (hi : s.callers i = .stamp now last) :
    Balanced S ρ t₀ t₁ cap
      ⟨if s.bucket.last = last then { s.bucket with last := now } else s.bucket, Function.update s.callers i
        .look⟩ n := by
  have hstamping : (s.callers i).stamping = true := by rw [hi]; rfl
  obtain ⟨date, hd, h₀, h₁, hb⟩ := h.balance
  cases hd with
  | calm hno => exact absurd ((hno i).symm.trans hstamping) Bool.false_ne_true
  | stamping hk hno =>
    rename_i k
    have hik : i = k := by
      by_contra hne
      exact absurd ((hno i hne).symm.trans hstamping) Bool.false_ne_true
    subst hik
    rw [hi] at hk
    cases hk
    rw [if_pos rfl]
    refine ⟨sane_update h.sane i trivial, now, ?_, h₀, h₁, hb⟩
    apply Credited.calm
    intro j
    by_cases hj : j = i
    · subst hj
      simp [Caller.stamping]
    · simpa [Function.update_of_ne hj] using hno j hj

/-- A payment takes its cost out of the bucket. -/
theorem Balanced.take (h : Balanced S ρ t₀ t₁ cap s n) (hi : s.callers i = .take s.bucket.units) :
    Balanced S ρ t₀ t₁ cap
      ⟨{ s.bucket with units := s.bucket.units - S.cost }, Function.update s.callers i .idle⟩ (n + 1) := by
  have hs := h.sane i
  rw [hi] at hs
  obtain ⟨date, hd, h₀, h₁, hb⟩ := h.balance
  refine ⟨sane_update h.sane i trivial, date, hd.move (by rw [hi]; rfl) rfl, h₀, h₁, ?_⟩
  simp only [Nat.cast_sub hs]
  push_cast
  linarith

/-- One step of one caller. -/
theorem Balanced.advance (hadd : ∀ old e, S.add old e ≤ old + e) (h : Balanced S ρ t₀ t₁ cap s n)
    (halone : Alone s (.advance i)) (hearned : Earned ρ s (.advance i)) :
    Balanced S ρ t₀ t₁ cap (S.step s (.advance i)).2
      (if (S.step s (.advance i)).1 = some true then n + 1 else n) := by
  have hs := h.sane i
  obtain ⟨c, hi⟩ : ∃ c, s.callers i = c := ⟨_, rfl⟩
  simp only [Alone, Earned, landing, hi] at halone hearned
  simp only [Scheme.step, hi]
  have hmove {c' : Caller} (hc' : c'.Sane S t₀ t₁) (hold : c.stamping = false) (hnew : c'.stamping = false) :
      Balanced S ρ t₀ t₁ cap ⟨s.bucket, Function.update s.callers i c'⟩ n := h.move hc' (by rw [hi, hold]) hnew
  rw [hi] at hs
  cases c with
  | idle =>
    simp only [Scheme.advance, reduceCtorEq, if_false]
    exact hmove trivial rfl rfl
  | load now =>
    simp only [Scheme.advance, reduceCtorEq, if_false]
    split
    · exact hmove trivial rfl rfl
    · rename_i hne
      exact hmove ⟨hs, hne⟩ rfl rfl
  | fetch now last earned =>
    simp only [Scheme.advance, reduceCtorEq, if_false]
    exact hmove hs rfl rfl
  | swap now last earned old =>
    simp only [Scheme.advance]
    split
    · -- the swap lands: nobody else is about to credit these ticks
      rename_i hold
      subst hold
      simp only [if_true, Option.mem_def, Option.some.injEq, forall_eq'] at halone hearned
      simp only [reduceCtorEq, if_false]
      exact h.swap hadd hi halone.1 halone.2 hearned
    · simp only [reduceCtorEq, if_false]
      exact hmove hs.1 rfl rfl
  | stamp now last =>
    simp only [Scheme.advance, reduceCtorEq, if_false]
    exact h.stamp hi
  | look =>
    simp only [Scheme.advance]
    split
    · simp only [Option.some.injEq, reduceCtorEq, if_false]
      exact hmove trivial rfl rfl
    · rename_i hge
      simp only [reduceCtorEq, if_false]
      exact hmove (Nat.le_of_not_lt hge) rfl rfl
  | take seen =>
    simp only [Scheme.advance]
    split
    · rename_i hold
      subst hold
      simp only [if_true]
      exact h.take hi
    · simp only [reduceCtorEq, if_false]
      exact hmove trivial rfl rfl

theorem Balanced.step (hadd : ∀ old e, S.add old e ≤ old + e) (h : Balanced S ρ t₀ t₁ cap s n) {e : CallEvent ι}
    (hw : e.Within t₀ t₁) (halone : Alone s e) (hearned : Earned ρ s e) :
    Balanced S ρ t₀ t₁ cap (S.step s e).2 (if (S.step s e).1 = some true then n + 1 else n) := by
  cases e with
  | begin i now =>
    simp only [Scheme.step]
    split
    · rename_i hi
      simp only [reduceCtorEq, if_false]
      exact h.move hw (by rw [hi]; rfl) rfl
    · simpa using h
  | advance i => exact h.advance hadd halone hearned

/-- Callers whose refills never credit the same ticks, nor more than these earn, are paid at
most what was in the bucket and what it earned in the window of their readings. -/
theorem paid_le (hρ : 0 ≤ ρ) (hadd : ∀ old e, S.add old e ≤ old + e) {b : Bucket} (hunits : b.units ≤ cap)
    (hlast : b.last = t₀) (ht : t₀ ≤ t₁) {clock : Nat} {log : List (CallEvent ι × Option Bool)}
    (h : S.contention.RunWhere (fun s e => e.Within t₀ t₁ ∧ Alone s e ∧ Earned ρ s e) ⟨b, fun _ => .idle⟩ s clock log) :
    (S.cost : ℚ) * paid log ≤ cap + ρ * (t₁ - t₀) := by
  have hbal : Balanced S ρ t₀ t₁ cap s (paid log) := by
    apply h.inv fun s _ log => Balanced S ρ t₀ t₁ cap s (paid log)
    · refine ⟨fun i => trivial, t₀, ?_, le_refl _, ht, ?_⟩
      · subst hlast
        exact .calm fun _ => rfl
      · have : (b.units : ℚ) ≤ cap := by exact_mod_cast hunits
        simpa [paid] using this
    · -- one more payment in the log is one more in the balance
      intro s _ log e hb ⟨hw, halone, hearned⟩ _
      have hstep := hb.step hadd hw halone hearned
      simp only [paid, List.countP_append, List.countP_singleton, decide_eq_true_eq] at hstep ⊢
      change Balanced S ρ t₀ t₁ cap (S.step s e).2 (_ + if (S.step s e).1 = some true then 1 else 0)
      split at hstep
      · simp_all
      · simp_all
  obtain ⟨date, -, h₀, h₁, hb⟩ := hbal.balance
  have hdate : (date : ℚ) ≤ t₁ := by exact_mod_cast h₁
  have hunits' : (0 : ℚ) ≤ s.bucket.units := Nat.cast_nonneg _
  nlinarith

end Callers

end Symphony.Lib
