/-!
# Programs that perform operations

A program is a tree: it returns, fails, or performs an operation and goes on with
the answer. It has two readings. `run` feeds it from a handler that answers every
operation from a state. `Obeys` is a rule of pre- and postconditions for every
possible answer: each operation performed is allowed by a protocol, whose ghost
state follows the answers. A program that obeys a protocol does so in any
environment: on its own (`Reached`), or with another program (`Interleaved`).
`Always` is the rule for one given environment, in terms of its own state. A program can
perform the operations of another among its own (`embed`), and programs can start
others (`Pool`).
-/

namespace Symphony.Lib

/-- Programs over operations `Op` with answers `Ans`, failures `ε` and results `α`. -/
inductive Prog (Op : Type) (Ans : Op → Type) (ε α : Type) where
  | pure (a : α)
  | fail (e : ε)
  | op (o : Op) (k : Ans o → Prog Op Ans ε α)

/-- A protocol: which operations are allowed in a ghost state, and how the ghost
state follows the answers. -/
structure Protocol (Op : Type) (Ans : Op → Type) (γ : Type) where
  allow : Op → γ → Prop
  next : (o : Op) → γ → Ans o → γ

namespace Prog

variable {Op : Type} {Ans : Op → Type} {ε α β σ γ : Type}

def bind : Prog Op Ans ε α → (α → Prog Op Ans ε β) → Prog Op Ans ε β
  | .pure a, f => f a
  | .fail e, _ => .fail e
  | .op o k, f => .op o fun a => (k a).bind f

instance : Monad (Prog Op Ans ε) where
  pure := .pure
  bind := bind

/-- Perform one operation and return its answer. -/
def perform (o : Op) : Prog Op Ans ε (Ans o) := .op o .pure

/-! ## Running against a handler -/

/-- Run with a handler that answers each operation and changes the state. -/
def run (h : (o : Op) → σ → Ans o × σ) : Prog Op Ans ε α → σ → Except ε α × σ
  | .pure a, s => (.ok a, s)
  | .fail e, s => (.error e, s)
  | .op o k, s => run h (k (h o s).1) (h o s).2

variable (h : (o : Op) → σ → Ans o × σ)

variable {s₀ : σ} {g g₀ : γ} {P₀ : Protocol Op Ans Unit} {τ : Type}

@[simp] theorem run_pure (a : α) (s : σ) : run h (Pure.pure a : Prog Op Ans ε α) s = (.ok a, s) := rfl

/-- Go on after a result; a failure ends the run. -/
def andThen (r : Except ε α × σ) (f : α → σ → Except ε β × σ) : Except ε β × σ :=
  match r with
  | (.ok a, s) => f a s
  | (.error e, s) => (.error e, s)

@[simp] theorem andThen_ok (a : α) (s : σ) (f : α → σ → Except ε β × σ) : andThen (.ok a, s) f = f a s := rfl

@[simp] theorem andThen_error (e : ε) (s : σ) (f : α → σ → Except ε β × σ) :
    andThen (.error e, s) f = (.error e, s) := rfl

/-- Running a sequence is running its parts, one after the other. -/
@[simp] theorem run_bind (p : Prog Op Ans ε α) (f : α → Prog Op Ans ε β) (s : σ) :
    run h (p >>= f) s = andThen (run h p s) fun a => run h (f a) := by
  change run h (p.bind f) s = _
  induction p generalizing s with
  | pure a => rfl
  | fail e => rfl
  | op o k ih => exact ih _ _

/-! ## Obeying a protocol -/

/-- Every operation the program performs is allowed, whatever the answers are, and
it returns in a ghost state the postcondition holds of. -/
def Obeys (P : Protocol Op Ans γ) (Q : α → γ → Prop) : Prog Op Ans ε α → γ → Prop
  | .pure a, g => Q a g
  | .fail _, _ => True
  | .op o k, g => P.allow o g ∧ ∀ a, Obeys P Q (k a) (P.next o g a)

variable {P : Protocol Op Ans γ} {Q : α → γ → Prop} {R : β → γ → Prop}

theorem Obeys.bind {p : Prog Op Ans ε α} {f : α → Prog Op Ans ε β} (hp : Obeys P Q p g)
    (hf : ∀ a g', Q a g' → Obeys P R (f a) g') : Obeys P R (p >>= f) g := by
  change Obeys P R (p.bind f) g
  induction p generalizing g with
  | pure a => exact hf a g hp
  | fail e => trivial
  | op o k ih => exact ⟨hp.1, fun a => ih a (hp.2 a)⟩

/-- A program that obeys a protocol obeys another that allows as much and keeps up with it. -/
theorem Obeys.refine {δ : Type} {P' : Protocol Op Ans δ} {Q' : α → δ → Prop} (J : γ → δ → Prop)
    (hallow : ∀ o g d, J g d → P.allow o g → P'.allow o d ∧ ∀ a, J (P.next o g a) (P'.next o d a))
    (hQ : ∀ a g d, J g d → Q a g → Q' a d) {p : Prog Op Ans ε α} {d : δ} (hJ : J g d) (h : Obeys P Q p g) :
    Obeys P' Q' p d := by
  induction p generalizing g d with
  | pure a => exact hQ a g d hJ h
  | fail e => trivial
  | op o k ih => exact ⟨(hallow o g d hJ h.1).1, fun a => ih a ((hallow o g d hJ h.1).2 a) (h.2 a)⟩

/-- A program that keeps to some operations obeys any protocol that allows them and
does not follow them. -/
theorem Obeys.frame {Q₀ : α → Prop} {p : Prog Op Ans ε α} (h : Obeys P₀ (fun a _ => Q₀ a) p ()) (g : γ)
    (hP : ∀ o, P₀.allow o () → P.allow o g ∧ ∀ a, P.next o g a = g) : Obeys P (fun a g' => Q₀ a ∧ g' = g) p g := by
  refine Obeys.refine (fun _ g' => g' = g) (fun o _ g' hg ho => ?_) (fun _ _ _ hg hQ => ⟨hQ, hg⟩) rfl h
  subst hg
  exact hP o ho

theorem Obeys.frame_bind {Q₀ : α → Prop} {p : Prog Op Ans ε α} {f : α → Prog Op Ans ε β}
    (h : Obeys P₀ (fun a _ => Q₀ a) p ()) (hP : ∀ o, P₀.allow o () → P.allow o g ∧ ∀ a, P.next o g a = g)
    (hf : ∀ a, Q₀ a → Obeys P R (f a) g) : Obeys P R (p >>= f) g := by
  refine Obeys.bind (h.frame g hP) ?_
  rintro a _ ⟨ha, rfl⟩
  exact hf a ha

/-! ## Programs inside programs -/

section Embed

variable {Op' : Type} {Ans' : Op' → Type} (f : Op → Op') (back : ∀ o, Ans' (f o) → Ans o)

/-- The program with its operations among those of another. -/
def embed : Prog Op Ans ε α → Prog Op' Ans' ε α
  | .pure a => .pure a
  | .fail e => .fail e
  | .op o k => .op (f o) fun a => embed (k (back o a))

end Embed

/-! ## One program in an open environment -/

/-- Where a program can be after some of its operations, each answered by a
relation on the state. -/
inductive Reached (H : (o : Op) → σ → Ans o → σ → Prop) (p₀ : Prog Op Ans ε α) (s₀ : σ) : Prog Op Ans ε α → σ → Prop
  | start : Reached H p₀ s₀ p₀ s₀
  | step {o k s a s'} : Reached H p₀ s₀ (.op o k) s → H o s a s' → Reached H p₀ s₀ (k a) s'

/-- An invariant of the state and the ghost state: kept by every allowed operation,
it holds wherever the program gets. -/
theorem Reached.inv {H : (o : Op) → σ → Ans o → σ → Prop} {p₀ p : Prog Op Ans ε α} {s : σ} (hp : Obeys P Q p₀ g₀)
    (I : γ → σ → Prop) (h₀ : I g₀ s₀) (hI : ∀ o g s a s', I g s → P.allow o g → H o s a s' → I (P.next o g a) s')
    (h : Reached H p₀ s₀ p s) :
    ∃ g, Obeys P Q p g ∧ I g s := by
  induction h with
  | start => exact ⟨g₀, hp, h₀⟩
  | step _ hs ih =>
    obtain ⟨g, hp, hg⟩ := ih
    exact ⟨_, hp.2 _, hI _ g _ _ _ hg hp.1 hs⟩

/-- A run with a handler is one of the ways through the program. -/
theorem Reached.run {H : (o : Op) → σ → Ans o → σ → Prop} {h : (o : Op) → σ → Ans o × σ}
    (hH : ∀ o s, H o s (h o s).1 (h o s).2) {p₀ p : Prog Op Ans ε α} {s s' : σ} {a : α} (hr : Reached H p₀ s₀ p s)
    (he : Prog.run h p s = (.ok a, s')) : Reached H p₀ s₀ (.pure a) s' := by
  induction p generalizing s with
  | pure b =>
    obtain ⟨hb, rfl⟩ := Prod.mk.inj he
    cases hb
    exact hr
  | fail e => cases (Prod.mk.inj he).1
  | op o k ih => exact ih _ (hr.step (hH o s)) he

/-! ## Histories -/

/-- What was asked and how it was answered, oldest first. -/
abbrev History (Op : Type) (Ans : Op → Type) := List (Σ o : Op, Ans o)

/-- Any answer will do, and it goes into the history. -/
def records (o : Op) (past : History Op Ans) (a : Ans o) (past' : History Op Ans) : Prop := past' = past ++ [⟨o, a⟩]

/-- A handler with one answer for each operation, which goes into the history. -/
def recording (answer : (o : Op) → Ans o) (o : Op) (past : History Op Ans) : Ans o × History Op Ans :=
  (answer o, past ++ [⟨o, answer o⟩])

def Answered (past : History Op Ans) (o : Op) (a : Ans o) : Prop := ⟨o, a⟩ ∈ past

/-- The protocol that allows an operation by what went before it. -/
def following (may : History Op Ans → Op → Prop) : Protocol Op Ans (History Op Ans) where
  allow o past := may past o
  next o past a := past ++ [⟨o, a⟩]

section Following

variable {may : History Op Ans → Op → Prop} {past : History Op Ans}

/-- One after the other: the history only grows. -/
theorem Obeys.andThen {Q : α → History Op Ans → Prop} {R : β → History Op Ans → Prop} {p : Prog Op Ans ε α}
    {f : α → Prog Op Ans ε β} (hp : Obeys (following may) Q p past)
    (hf : ∀ a past', past ⊆ past' → Q a past' → Obeys (following may) R (f a) past') :
    Obeys (following may) R (p >>= f) past := by
  change Obeys (following may) R (p.bind f) past
  induction p generalizing past with
  | pure a => exact hf a past (fun _ h => h) hp
  | fail e => trivial
  | op o k ih =>
    refine ⟨hp.1, fun a => ih a (hp.2 a) fun b past' hsub => hf b past' fun _ h => hsub ?_⟩
    exact List.mem_append_left _ h

/-- One operation first: its answer is in the history. -/
theorem Obeys.ask {R : β → History Op Ans → Prop} {o : Op} {f : Ans o → Prog Op Ans ε β} (ho : may past o)
    (hf : ∀ a past', past ⊆ past' → Answered past' o a → Obeys (following may) R (f a) past') :
    Obeys (following may) R (.perform o >>= f) past :=
  ⟨ho, fun a => hf a _ (List.subset_append_left _ _) (List.mem_append_right _ (List.mem_singleton_self _))⟩

/-- Every operation of an embedded program may be performed from here on. -/
theorem Obeys.embed_following {Op' : Type} {Ans' : Op' → Type} {may' : History Op' Ans' → Op' → Prop}
    {past' : History Op' Ans'} {f : Op → Op'} {back : (o : Op) → Ans' (f o) → Ans o} {p : Prog Op Ans ε α}
    (h : Obeys P₀ (fun _ _ => True) p ()) (hmay : ∀ o later, past' ⊆ later → P₀.allow o () → may' later (f o)) :
    Obeys (following may') (fun _ _ => True) (p.embed f back) past' := by
  induction p generalizing past' with
  | pure a => trivial
  | fail e => trivial
  | op o k ih =>
    refine ⟨hmay o past' (fun _ h => h) h.1, fun a => ih _ (h.2 _) fun o' later hsub => hmay o' later fun _ h => hsub ?_⟩
    exact List.mem_append_left _ h

/-- Every operation in the history of a program was allowed by what went before it. -/
theorem Reached.follows {Q : α → History Op Ans → Prop} {p₀ p : Prog Op Ans ε α} (hp : Obeys (following may) Q p₀ [])
    (h : Reached records p₀ [] p past) : Obeys (following may) Q p past ∧
      ∀ before o (a : Ans o), before ++ [⟨o, a⟩] <+: past → may before o := by
  induction h with
  | start => exact ⟨hp, fun before o a h => by simp at h⟩
  | @step o k past a past' hr hs ih =>
    obtain ⟨⟨hallow, hk⟩, hall⟩ := ih
    unfold records at hs
    subst hs
    refine ⟨hk a, fun before o' a' hpre => ?_⟩
    rcases List.prefix_concat_iff.1 hpre with heq | hpre
    · -- the operation just performed
      obtain ⟨rfl, hlast⟩ := List.append_inj' heq rfl
      cases hlast
      exact hallow
    · exact hall before o' a' hpre

end Following

/-- Whatever the relation answers, `J` holds after every operation, and the program
returns in a state the postcondition holds of. -/
def Always (H : (o : Op) → σ → Ans o → σ → Prop) (J : σ → Prop) (Q : α → σ → Prop) : Prog Op Ans ε α → σ → Prop
  | .pure a, s => Q a s
  | .fail _, _ => True
  | .op o k, s => ∀ a s', H o s a s' → J s' ∧ Always H J Q (k a) s'

section Always

variable {H : (o : Op) → σ → Ans o → σ → Prop} {J : σ → Prop} {S : α → σ → Prop} {T : β → σ → Prop}

variable {s : σ} {p : Prog Op Ans ε α}

theorem Always.bind {f : α → Prog Op Ans ε β} (hp : Always H J S p s) (hf : ∀ a s', S a s' → Always H J T (f a) s') :
    Always H J T (p >>= f) s := by
  change Always H J T (p.bind f) s
  induction p generalizing s with
  | pure a => exact hf a s hp
  | fail e => trivial
  | op o k ih => exact fun a s' hs => ⟨(hp a s' hs).1, ih a (hp a s' hs).2⟩

theorem Always.perform {o : Op} (hJ : ∀ a s', H o s a s' → J s') :
    Always H J (fun a s' => H o s a s') (Prog.perform o : Prog Op Ans ε (Ans o)) s :=
  fun a s' hs => ⟨hJ a s' hs, hs⟩

theorem Always.imp {J' : σ → Prop} {S' : α → σ → Prop} (hJ : ∀ s, J s → J' s) (hS : ∀ a s, S a s → S' a s)
    (h : Always H J S p s) : Always H J' S' p s := by
  induction p generalizing s with
  | pure a => exact hS a s h
  | fail e => trivial
  | op o k ih => exact fun a s' hs => ⟨hJ s' (h a s' hs).1, ih a (h a s' hs).2⟩

/-- A part that may throw: what it throws is thrown on. -/
theorem Always.attempt {ε' : Type} {S : Except ε' α → σ → Prop} {T : Except ε' β → σ → Prop}
    {p : ExceptT ε' (Prog Op Ans ε) α} {f : α → ExceptT ε' (Prog Op Ans ε) β} (hp : Always H J S p.run s)
    (herror : ∀ e s', S (.error e) s' → T (.error e) s') (hok : ∀ a s', S (.ok a) s' → Always H J T (f a).run s') :
    Always H J T (p >>= f).run s := by
  refine Always.bind hp fun r s' hr => ?_
  cases r with
  | error e => exact herror e s' hr
  | ok a => exact hok a s' hr

/-- A loop: what holds of the items done so far, the accumulator and the state is kept by
every item. -/
theorem Always.foldlM {f : β → α → Prog Op Ans ε β} {l : List α} (I : List α → β → σ → Prop)
    (hf : ∀ done a b s, a ∈ l → I done b s → Always H J (I (done ++ [a])) (f b a) s) {b : β} (h : I [] b s) :
    Always H J (I l) (l.foldlM f b) s := by
  suffices hrest : ∀ rest done b s, (∀ a ∈ rest, a ∈ l) → I done b s →
      Always H J (I (done ++ rest)) (rest.foldlM f b) s from hrest l [] b s (fun _ ha => ha) h
  intro rest
  induction rest with
  | nil =>
    intro done b s _ h
    rw [List.append_nil]
    exact h
  | cons a rest ih =>
    intro done b s hl h
    rw [List.foldlM_cons]
    refine Always.bind (hf done a b s (hl a List.mem_cons_self) h) fun b' s' h' => ?_
    have hnext := ih (done ++ [a]) b' s' (fun a' ha' => hl a' (List.mem_cons_of_mem a ha')) h'
    rwa [List.append_assoc] at hnext

theorem Always.reached {p₀ : Prog Op Ans ε α} (hp : Always H J S p₀ s₀) (h₀ : J s₀) (h : Reached H p₀ s₀ p s) :
    J s ∧ Always H J S p s := by
  induction h with
  | start => exact ⟨h₀, hp⟩
  | step _ hs ih => exact ih.2 _ _ hs

end Always

/-! ## Two programs at once -/

/-- Where two programs can be after some of their operations, in any order: each
operation is answered by the program's own relation on the shared state. -/
inductive Interleaved (H₁ H₂ : (o : Op) → σ → Ans o → σ → Prop) (p₀ : Prog Op Ans ε α) (q₀ : Prog Op Ans ε β)
    (s₀ : σ) : Prog Op Ans ε α → Prog Op Ans ε β → σ → Prop
  | start : Interleaved H₁ H₂ p₀ q₀ s₀ p₀ q₀ s₀
  | left {o k q s a s'} : Interleaved H₁ H₂ p₀ q₀ s₀ (.op o k) q s → H₁ o s a s' →
      Interleaved H₁ H₂ p₀ q₀ s₀ (k a) q s'
  | right {p o k s a s'} : Interleaved H₁ H₂ p₀ q₀ s₀ p (.op o k) s → H₂ o s a s' →
      Interleaved H₁ H₂ p₀ q₀ s₀ p (k a) s'

/-- An invariant of the shared state and the two ghost states: kept by every
allowed operation of either program, it holds wherever they get. -/
theorem Interleaved.inv {δ : Type} {H₁ H₂ : (o : Op) → σ → Ans o → σ → Prop} {P₁ : Protocol Op Ans γ}
    {P₂ : Protocol Op Ans δ} {R : β → δ → Prop} {p₀ p : Prog Op Ans ε α} {q₀ q : Prog Op Ans ε β} {s : σ} {d₀ : δ}
    (hp : Obeys P₁ Q p₀ g₀) (hq : Obeys P₂ R q₀ d₀) (I : γ → δ → σ → Prop) (h₀ : I g₀ d₀ s₀)
    (h₁ : ∀ o g d s a s', I g d s → P₁.allow o g → H₁ o s a s' → I (P₁.next o g a) d s')
    (h₂ : ∀ o g d s a s', I g d s → P₂.allow o d → H₂ o s a s' → I g (P₂.next o d a) s')
    (h : Interleaved H₁ H₂ p₀ q₀ s₀ p q s) : ∃ g d, Obeys P₁ Q p g ∧ Obeys P₂ R q d ∧ I g d s := by
  induction h with
  | start => exact ⟨g₀, d₀, hp, hq, h₀⟩
  | left _ hs ih =>
    obtain ⟨g, d, hp, hq, hI⟩ := ih
    exact ⟨_, d, hp.2 _, hq, h₁ _ g d _ _ _ hI hp.1 hs⟩
  | right _ hs ih =>
    obtain ⟨g, d, hp, hq, hI⟩ := ih
    exact ⟨g, _, hp, hq.2 _, h₂ _ g d _ _ _ hI hq.1 hs⟩

theorem Interleaved.symm {H₁ H₂ : (o : Op) → σ → Ans o → σ → Prop} {p₀ p : Prog Op Ans ε α} {q₀ q : Prog Op Ans ε β}
    {s : σ} (h : Interleaved H₁ H₂ p₀ q₀ s₀ p q s) : Interleaved H₂ H₁ q₀ p₀ s₀ q p s := by
  induction h with
  | start => exact .start
  | left _ hs ih => exact ih.right hs
  | right _ hs ih => exact ih.left hs

/-- One of two programs in its own view of the state: where the allowed operations of the
other do not show in the view, it runs as if it were alone. -/
theorem Interleaved.left_alone {H₁ H₂ : (o : Op) → σ → Ans o → σ → Prop} {K : (o : Op) → τ → Ans o → τ → Prop}
    {R : β → γ → Prop} {p₀ p : Prog Op Ans ε α} {q₀ q : Prog Op Ans ε β} {s : σ} (view : σ → τ) (hq : Obeys P R q₀ g₀)
    (h₁ : ∀ o s a s', H₁ o s a s' → K o (view s) a (view s'))
    (h₂ : ∀ o g s a s', P.allow o g → H₂ o s a s' → view s' = view s) (h : Interleaved H₁ H₂ p₀ q₀ s₀ p q s) :
    Reached K p₀ (view s₀) p (view s) := by
  suffices hboth : Reached K p₀ (view s₀) p (view s) ∧ ∃ g, Obeys P R q g from hboth.1
  induction h with
  | start => exact ⟨.start, g₀, hq⟩
  | left _ hs ih => exact ⟨ih.1.step (h₁ _ _ _ _ hs), ih.2⟩
  | right _ hs ih =>
    obtain ⟨hp, g, hg⟩ := ih
    exact ⟨(h₂ _ g _ _ _ hg.1 hs).symm ▸ hp, _, hg.2 _⟩

/-! ## Programs that start others -/

/-- How a pool of programs, each under a tag, goes on: which programs may join it at any
time, which answers an operation may get, and which program it may start with an answer. -/
structure Pool (Op : Type) (Ans : Op → Type) (ε α τ : Type) where
  joins : τ → Prog Op Ans ε α → Prop
  answers : (o : Op) → Ans o → Prop
  starts : τ → (o : Op) → Ans o → τ → Prog Op Ans ε α → Prop

/-- The pools that can come about, one operation of one program after the other. -/
inductive Pool.Run {τ : Type} (pool : Pool Op Ans ε α τ) : List (τ × Prog Op Ans ε α) → Prop
  | nil : Run pool []
  | join {l t p} : Run pool l → pool.joins t p → Run pool (l ++ [(t, p)])
  | perform {l₁ l₂ t o k a} : Run pool (l₁ ++ (t, .op o k) :: l₂) → pool.answers o a → Run pool (l₁ ++ (t, k a) :: l₂)
  | start {l₁ l₂ t o k a t' p'} : Run pool (l₁ ++ (t, .op o k) :: l₂) → pool.answers o a → pool.starts t o a t' p' →
      Run pool (l₁ ++ (t, k a) :: l₂ ++ [(t', p')])

/-- What every program has when it joins or is started, and keeps, every program of the
pool has. -/
theorem Pool.Run.each {pool : Pool Op Ans ε α τ} (J : τ → Prog Op Ans ε α → Prop)
    (hjoin : ∀ t p, pool.joins t p → J t p) (hstep : ∀ t o k a, J t (.op o k) → pool.answers o a → J t (k a))
    (hstart : ∀ t o k a t' p', J t (.op o k) → pool.answers o a → pool.starts t o a t' p' → J t' p')
    {l : List (τ × Prog Op Ans ε α)} (h : pool.Run l) : ∀ m ∈ l, J m.1 m.2 := by
  induction h with
  | nil => nofun
  | join _ hj ih =>
    intro m hm
    rcases List.mem_append.1 hm with hm | hm
    · exact ih m hm
    · obtain rfl := List.mem_singleton.1 hm
      exact hjoin _ _ hj
  | @perform l₁ l₂ t o k a _ ha ih =>
    intro m hm
    rcases List.mem_append.1 hm with hm | hm
    · exact ih m (List.mem_append_left _ hm)
    · rcases List.mem_cons.1 hm with rfl | hm
      · exact hstep t o k a (ih (t, .op o k) (by simp)) ha
      · exact ih m (List.mem_append_right _ (List.mem_cons_of_mem _ hm))
  | @start l₁ l₂ t o k a t' p' _ ha hs ih =>
    have hmid := ih (t, .op o k) (by simp)
    intro m hm
    rcases List.mem_append.1 hm with hm | hm
    · rcases List.mem_append.1 hm with hm | hm
      · exact ih m (List.mem_append_left _ hm)
      · rcases List.mem_cons.1 hm with rfl | hm
        · exact hstep t o k a hmid ha
        · exact ih m (List.mem_append_right _ (List.mem_cons_of_mem _ hm))
    · obtain rfl := List.mem_singleton.1 hm
      exact hstart t o k a _ _ hmid ha hs

/-- The program after at most `n` operations, answered by `answer`. -/
def after (answer : (o : Op) → Ans o) : Nat → Prog Op Ans ε α → Prog Op Ans ε α
  | n + 1, .op o k => after answer n (k (answer o))
  | _, p => p

theorem Pool.Run.after {pool : Pool Op Ans ε α τ} {answer : (o : Op) → Ans o} (ha : ∀ o, pool.answers o (answer o))
    (n : Nat) {l₁ l₂ : List (τ × Prog Op Ans ε α)} {t : τ} {p : Prog Op Ans ε α} (h : pool.Run (l₁ ++ (t, p) :: l₂)) :
    pool.Run (l₁ ++ (t, p.after answer n) :: l₂) := by
  induction n generalizing p with
  | zero => exact h
  | succ n ih =>
    cases p with
    | pure a => exact h
    | fail e => exact h
    | op o k => exact ih (h.perform (ha o))

end Prog

end Symphony.Lib
