import Symphony.Router.Heap
import Symphony.Router.Limiter
import Symphony.Router.Reload
/-!
# The rate cap of a route across reloads

A build makes every route it rebuilds a new limiter, and a new limiter is full. The cap
therefore holds over a reload only when the limiter it replaces would have been full too;
a route carried forward keeps its limiter.
-/

namespace Symphony.Router

open Lib (Bucket Machine)
open Protection (ONE_TOKEN)

/-! ## Where limiters come from -/

/-- The limiter a spec is built with. -/
def limiterOf (spec : RouteSpec) (cps : F64) (arc now : Nat) : RouteTokenBucket :=
  ⟨arc, fixed_point (at_least_one (spec.burst.getD cps)), now, per_ns cps,
    fixed_point (at_least_one (spec.burst.getD cps))⟩

theorem build_rate_limiter_eq (spec : RouteSpec) (h : Heap) :
    (build_rate_limiter spec h).1 = spec.max_cps.map fun cps => limiterOf spec cps h.next h.wall_ns := by
  unfold build_rate_limiter
  cases spec.max_cps <;> rfl

theorem assemble_limiter (spec : RouteSpec) (listener_tls : ListenerTlsSpec) (tls_config : Option ServerConfig)
    (destination : Destination) (destination_h2 : Option Destination) (h : Heap) :
    (assemble spec listener_tls tls_config destination destination_h2 h).1.rate_limiter =
        (spec.max_cps.map fun cps => limiterOf spec cps h.next h.wall_ns) ∧
      h.next < (assemble spec listener_tls tls_config destination destination_h2 h).2.next := by
  refine ⟨build_rate_limiter_eq spec h, ?_⟩
  have hgrows := (grows_limiter spec h).next
  change h.next < (build_rate_limiter spec h).2.next + 1 + 1
  omega

def RouteTable.limiter {D : Type} (t : RouteTable D) (k : Bytes) : Option RouteTokenBucket :=
  (t.get_for_spec_sni k).bind (·.rate_limiter)

/-- Limiters were built before identity `next`, and no two names share one. -/
structure RouteTable.Apart {D : Type} (t : RouteTable D) (next : Nat) : Prop where
  allocated : ∀ {k limiter}, t.limiter k = some limiter → limiter.arc < next
  unshared : ∀ {k k' limiter limiter'}, t.limiter k = some limiter → t.limiter k' = some limiter' →
    limiter.arc = limiter'.arc → k = k'

section Build

variable {D : Type} [DecidableEq D] {C : Crates D} {held : Nat → Bool} {conns : Nat → Bool}
  {listener_tls : ListenerTlsSpec} {previous : Option (RouteTable D)} {specs : List RouteSpec}

/-- A judged route has a new limiter, or that of the previous route of its name. -/
theorem judged_limiter {spec : RouteSpec} {w : World D} {r : Route}
    (hr : (judge C held listener_tls previous spec w).1.fate.route = some r) :
    (∃ arc, w.heap.next ≤ arc ∧ arc < (judge C held listener_tls previous spec w).2.heap.next ∧
      r.rate_limiter = spec.max_cps.map fun cps => limiterOf spec cps arc w.heap.wall_ns) ∨
    ∃ p, previous = some p ∧ r.rate_limiter = p.limiter spec.sni := by
  rcases judge_cases C held listener_tls previous spec w with
    ⟨hf, -⟩ | ⟨allowed_sources, r₀, w₁, -, hb, hf, hw⟩ | ⟨allowed_sources, e, r₀, w₁, -, hb, hl, hf, hw⟩
  · rw [hf] at hr
    cases hr
  · left
    rw [hf] at hr
    cases hr
    obtain ⟨tls_config, h₁, destination, destination_h2, h₂, hgrows₁, -, hgrows₂, hasm, -⟩ := build_route_grown hb
    have hgrows := hgrows₁.trans hgrows₂
    obtain ⟨hlim, hlt⟩ := assemble_limiter spec listener_tls tls_config destination destination_h2 h₂
    rw [hasm] at hlim hlt
    have hfin := (grows_finish_route (previous_state previous spec.sni w.heap).1
      (previous_state previous spec.sni w.heap).2 false spec allowed_sources (read_failover spec).policy r₀
        w₁.heap).next
    refine ⟨h₂.next, hgrows.next, ?_, ?_⟩
    · rw [hw]
      exact Nat.lt_of_lt_of_le hlt hfin
    · have hsettings := congrArg Route.rate_limiter (finish_route_settings (previous_state previous spec.sni w.heap).1
        (previous_state previous spec.sni w.heap).2 false spec allowed_sources (read_failover spec).policy r₀ w₁.heap)
      rw [← hgrows.wall_ns]
      exact hsettings.trans hlim
  · right
    rw [hf] at hr
    cases hr
    obtain ⟨p, hp, hget⟩ := last_good_previous previous hl
    refine ⟨p, hp, ?_⟩
    have hsettings := congrArg Route.rate_limiter (finish_route_settings (previous_state previous spec.sni w.heap).1
      (previous_state previous spec.sni w.heap).2 true spec allowed_sources (read_failover spec).policy r₀ w₁.heap)
    rw [RouteTable.limiter, hget]
    exact hsettings

/-- The limiters of a build that started at `h₀`: each was made for the spec that decides
its name, or was the previous table's. -/
structure Limiting (previous : Option (RouteTable D)) (specs : List RouteSpec) (h₀ : Heap) (b : Builder D) : Prop where
  grown : h₀.Extends b.world.heap
  origin : ∀ {k limiter}, b.limiter k = some limiter →
    (∃ n spec cps arc, decider specs k = some n ∧ specs[n]? = some spec ∧ spec.max_cps = some cps ∧
      h₀.next ≤ arc ∧ limiter = limiterOf spec cps arc h₀.wall_ns) ∨
    ∃ p, previous = some p ∧ p.limiter k = some limiter
  apart : b.Apart b.world.heap.next

variable {h₀ : Heap}

omit [DecidableEq D] in
/-- A name that gets a limiter no other name has. -/
theorem RouteTable.Apart.update {t t' : RouteTable D} {next next' : Nat} (h : t.Apart next) (hn : next ≤ next')
    {sni : Bytes} (hother : ∀ k, k ≠ sni → t'.limiter k = t.limiter k)
    (hnew : ∀ limiter, t'.limiter sni = some limiter → limiter.arc < next' ∧
      ∀ k limiter', k ≠ sni → t.limiter k = some limiter' → limiter'.arc ≠ limiter.arc) : t'.Apart next' := by
  constructor
  · intro k limiter hk
    by_cases hks : k = sni
    · subst hks
      exact (hnew limiter hk).1
    · rw [hother k hks] at hk
      exact Nat.lt_of_lt_of_le (h.allocated hk) hn
  · intro k k' limiter limiter' hk hk' harc
    by_cases hks : k = sni
    · by_cases hks' : k' = sni
      · rw [hks, hks']
      · subst hks
        rw [hother k' hks'] at hk'
        exact absurd harc.symm ((hnew limiter hk).2 k' limiter' hks' hk')
    · rw [hother k hks] at hk
      by_cases hks' : k' = sni
      · subst hks'
        exact absurd harc ((hnew limiter' hk').2 k limiter hks hk)
      · rw [hother k' hks'] at hk'
        exact h.unshared hk hk' harc

theorem consider_limiting (hp : ∀ p, previous = some p → p.Apart h₀.next) {b : Builder D}
    (h : Limiting previous specs h₀ b)
    {n : Nat} {spec : RouteSpec} (hn : specs[n]? = some spec) (hd : decider specs spec.sni = some n)
    (hb : b.status spec.sni = none) : Limiting previous specs h₀ (consider C conns listener_tls previous b spec) := by
  have hgrows := grows_judge C (held_by conns previous b.toRouteTable) listener_tls previous spec b.world
  have hworld := consider_world C conns listener_tls previous b spec
  have hother (k : Bytes) (hk : k ≠ spec.sni) :
      (consider C conns listener_tls previous b spec).limiter k = b.limiter k := by
    unfold RouteTable.limiter
    rw [consider_live hb, if_neg hk]
  have hnew {limiter : RouteTokenBucket}
      (hl : (consider C conns listener_tls previous b spec).limiter spec.sni = some limiter) :
      (∃ cps arc, spec.max_cps = some cps ∧ b.world.heap.next ≤ arc ∧
        arc < (consider C conns listener_tls previous b spec).world.heap.next ∧
        limiter = limiterOf spec cps arc h₀.wall_ns) ∨
      ∃ p, previous = some p ∧ p.limiter spec.sni = some limiter := by
    unfold RouteTable.limiter at hl
    rw [consider_live hb, if_pos rfl] at hl
    obtain ⟨r, hr, hrl⟩ := Option.bind_eq_some_iff.1 hl
    rcases judged_limiter hr with ⟨arc, hge, hlt, he⟩ | ⟨p, hp, he⟩
    · left
      rw [hrl] at he
      obtain ⟨cps, hcps, rfl⟩ := Option.map_eq_some_iff.1 he.symm
      refine ⟨cps, arc, hcps, hge, ?_, ?_⟩
      · rw [hworld]
        exact hlt
      · rw [h.grown.wall_ns]
    · right
      exact ⟨p, hp, he.symm.trans hrl⟩
  refine ⟨?_, ?_, ?_⟩
  · rw [hworld]
    exact h.grown.trans hgrows
  · intro k limiter hk
    by_cases hks : k = spec.sni
    · subst hks
      rcases hnew hk with ⟨cps, arc, hcps, hge, -, he⟩ | hprev
      · exact .inl ⟨n, spec, cps, arc, hd, hn, hcps, h.grown.next.trans hge, he⟩
      · exact .inr hprev
    · rw [hother k hks] at hk
      exact h.origin hk
  · have hnext : b.world.heap.next ≤ (consider C conns listener_tls previous b spec).world.heap.next := by
      rw [hworld]
      exact hgrows.next
    apply h.apart.update hnext hother
    intro limiter hl
    rcases hnew hl with ⟨cps, arc, -, hge, hlt, rfl⟩ | ⟨p, hp', hlp⟩
    · refine ⟨hlt, ?_⟩
      intro k limiter' _ hk harc
      have hold := h.apart.allocated hk
      rw [harc] at hold
      exact absurd hold (Nat.not_lt.2 hge)
    · -- carried forward: the previous table shared it with no other name, and new ones are younger
      have hold := (hp p hp').allocated hlp
      refine ⟨Nat.lt_of_lt_of_le hold (h.grown.next.trans hnext), ?_⟩
      intro k limiter' hne hk harc
      rcases h.origin hk with ⟨_, _, _, arc, _, _, _, hge, rfl⟩ | ⟨p', hp'', hlp'⟩
      · change arc = _ at harc
        omega
      · rw [hp'] at hp''
        cases hp''
        exact hne ((hp p hp').unshared hlp' hlp harc)

variable (C conns listener_tls previous specs) in
theorem build_limiting (w : World D) (hp : ∀ p, previous = some p → p.Apart w.heap.next) :
    Limiting previous specs w.heap (builderAt C conns listener_tls previous specs w specs.length) := by
  apply builder_inv
  · have hnone (k : Bytes) : (Builder.start conns previous w).limiter k = none := by
      unfold RouteTable.limiter
      rw [live_of_status (start_status conns previous w k)]
      rfl
    refine ⟨.refl _, ?_, ?_, ?_⟩
    · intro k limiter hk
      rw [hnone] at hk
      cases hk
    · intro k limiter hk
      rw [hnone] at hk
      cases hk
    · intro k k' limiter limiter' hk
      rw [hnone] at hk
      cases hk
  · intro b names h
    exact ⟨h.grown, h.origin, h.apart.1, h.apart.2⟩
  · intro b ws n spec hn hd hb h
    exact consider_limiting (b := { b with configured_wildcards := ws }) hp ⟨h.grown, h.origin, h.apart.1,
      h.apart.2⟩ hn hd hb

end Build

/-! ## Connections and reloads -/

/-- A proxy, and the words of every limiter that was used. -/
structure Metered (D : Type) where
  proxy : Proxy D
  words : Nat → Option Bucket

inductive MeterEvent where
  /-- A reload event at reading `now`. -/
  | reload (e : Event) (now : Nat)
  /-- A connection that resolves to the route of the name `k`, at reading `now`. -/
  | connect (k : Bytes) (now : Nat)

namespace Metered

variable {D : Type}

/-- A limiter's words now. -/
def current (s : Metered D) (limiter : RouteTokenBucket) : Bucket := (s.words limiter.arc).getD limiter.words

def limiter (s : Metered D) (k : Bytes) : Option RouteTokenBucket := s.proxy.live.bind (·.limiter k)

/-- The proxy with the wall clock at `now`. -/
def at_wall (p : Proxy D) (now : Nat) : Proxy D :=
  { p with world := { p.world with heap := { p.world.heap with wall_ns := now } } }

def connect (s : Metered D) (k : Bytes) (now : Nat) : Option Bool × Metered D :=
  match s.limiter k with
  | none => (none, s)
  | some limiter =>
    let r := limiter.try_acquire (s.current limiter) now
    (some r.1, { s with words := Function.update s.words limiter.arc (some r.2) })

end Metered

/-- Routes, their limiters and the connections that ask them. -/
def metering {D : Type} [DecidableEq D] (C : Crates D) : Machine (Metered D) MeterEvent (Option Bool) where
  step s
    | .reload e now => (none, { s with proxy := ((reloads C).step (Metered.at_wall s.proxy now) e).2 })
    | .connect k now => s.connect k now
  reading
    | .reload _ now => some now
    | .connect _ now => some now

/-- The connections to `k` that its limiter admitted in `[t₀, t₁]`. -/
def admitted (k : Bytes) (t₀ t₁ : Nat) (log : List (MeterEvent × Option Bool)) : Nat :=
  log.countP fun
    | (.connect k' now, some true) => k' = k ∧ t₀ ≤ now ∧ now ≤ t₁
    | _ => false

/-- A committed update leaves the spec of `k` as it is; before the route is there, an
update may leave it out. -/
def Unchanged {D : Type} (k : Bytes) (spec : RouteSpec) (s : Metered D) : MeterEvent → Prop
  | .reload (.commit _ _ specs) _ =>
    ((decider specs k).bind fun n => specs[n]?) = some spec ∨ (decider specs k = none ∧ s.limiter k = none)
  | _ => True

/-- A committed update finds the limiter of `k` with time enough behind it to be full. -/
def Refilled {D : Type} (k : Bytes) (s : Metered D) : MeterEvent → Prop
  | .reload (.commit _ _ _) now => ∀ limiter, s.limiter k = some limiter →
      limiter.burst_fp ≤ sat_add32 (s.current limiter).units (limiter.refill (now - (s.current limiter).last))
  | _ => True

instance {D : Type} (k : Bytes) (spec : RouteSpec) (s : Metered D) : ∀ e, Decidable (Unchanged k spec s e)
  | .reload (.commit _ _ specs) _ =>
    inferInstanceAs (Decidable (((decider specs k).bind fun n => specs[n]?) = some spec ∨
      (decider specs k = none ∧ s.limiter k = none)))
  | .reload (.abandon ..) _ | .reload (.sweep _) _ | .reload (.resolve ..) _ | .reload (.serve ..) _ | .connect _ _ =>
    .isTrue trivial

instance {D : Type} (k : Bytes) (s : Metered D) : ∀ e, Decidable (Refilled k s e)
  | .reload (.commit _ _ _) now =>
    decidable_of_iff ((s.limiter k).all fun limiter => decide (limiter.burst_fp ≤
      sat_add32 (s.current limiter).units (limiter.refill (now - (s.current limiter).last))) = true) (by
        simp only [Option.all_eq_true, decide_eq_true_eq]
        rfl)
  | .reload (.abandon ..) _ | .reload (.sweep _) _ | .reload (.resolve ..) _ | .reload (.serve ..) _ | .connect _ _ =>
    .isTrue trivial

/-! ## The credit of a route -/

/-- The words of the limiter of `k`, or those of a new one when the name has none. -/
def Metered.credit {D : Type} (s : Metered D) (k : Bytes) (cap clock : Nat) : Bucket :=
  (s.limiter k).elim ⟨cap, clock⟩ s.current

/-- Limiters are told apart by their identity, that of `k` is made as `spec` says, and its
credit is within the ceiling and from the past. -/
structure Capped {D : Type} (k : Bytes) (rate : ℚ) (cap : Nat) (s : Metered D) (clock : Nat) : Prop where
  apart : ∀ t, s.proxy.live = some t → t.Apart s.proxy.world.heap.next
  touched : ∀ {arc b}, s.words arc = some b → arc < s.proxy.world.heap.next
  made : ∀ {limiter}, s.limiter k = some limiter → limiter.rate_per_ns = .finite rate ∧ limiter.burst_fp = cap
  full : (s.credit k cap clock).units ≤ cap
  past : (s.credit k cap clock).last ≤ clock

section Steps

variable {D : Type} {k : Bytes} {rate : ℚ} {cap t₀ t₁ : Nat} {s s' : Metered D} {clock now n : Nat}

variable {limiter : RouteTokenBucket} {k' : Bytes}

theorem credit_some (h : s.limiter k = some limiter) :
    s.credit k cap clock = s.current limiter := by
  simp [Metered.credit, h]

theorem credit_none (h : s.limiter k = none) : s.credit k cap clock = ⟨cap, clock⟩ := by
  simp [Metered.credit, h]

theorem Capped.later (h : Capped k rate cap s clock) (hc : clock ≤ now) : Capped k rate cap s now := by
  have hfull := h.full
  have hpast := h.past
  refine ⟨h.apart, h.touched, h.made, ?_, ?_⟩
  · cases hl : s.limiter k with
    | none =>
      rw [credit_none hl]
    | some limiter =>
      rw [credit_some hl] at hfull ⊢
      exact hfull
  · cases hl : s.limiter k with
    | none =>
      rw [credit_none hl]
    | some limiter =>
      rw [credit_some hl] at hpast ⊢
      exact hpast.trans hc

theorem credit_later (hrate : 0 ≤ rate) (hc : clock ≤ now) {p : Nat}
    (h : Bucket.Owes rate cap t₀ p (s.credit k cap clock)) : Bucket.Owes rate cap t₀ p (s.credit k cap now) := by
  cases hl : s.limiter k with
  | none =>
    rw [credit_none hl] at h ⊢
    exact Bucket.owes_later hrate hc h
  | some limiter =>
    rw [credit_some hl] at h ⊢
    exact h

theorem Capped.frame (h : Capped k rate cap s now) (hwords : s'.words = s.words)
    (hlive : s'.proxy.live = s.proxy.live) (hnext : s.proxy.world.heap.next ≤ s'.proxy.world.heap.next) :
    Capped k rate cap s' now ∧ s'.credit k cap now = s.credit k cap now := by
  have hlim : s'.limiter k = s.limiter k := by
    unfold Metered.limiter
    rw [hlive]
  have hcredit : s'.credit k cap now = s.credit k cap now := by
    unfold Metered.credit Metered.current
    rw [hlim, hwords]
  refine ⟨⟨?_, ?_, ?_, ?_, ?_⟩, hcredit⟩
  · intro t ht
    have hapart := h.apart t (hlive ▸ ht)
    exact ⟨fun hl => Nat.lt_of_lt_of_le (hapart.allocated hl) hnext, hapart.unshared⟩
  · intro arc b hb
    exact Nat.lt_of_lt_of_le (h.touched (hwords ▸ hb)) hnext
  · intro limiter hl
    exact h.made (hlim ▸ hl)
  · rw [hcredit]
    exact h.full
  · rw [hcredit]
    exact h.past

theorem limiter_live (h : s.limiter k = some limiter) :
    ∃ t, s.proxy.live = some t ∧ t.limiter k = some limiter := Option.bind_eq_some_iff.1 h

/-- Writing the words of a route's limiter is seen at that route only. -/
theorem Capped.credit_write (h : Capped k rate cap s now) (hl : s.limiter k' = some limiter) (b : Bucket) :
    Metered.credit { s with words := Function.update s.words limiter.arc (some b) } k cap now =
      if k' = k then b else s.credit k cap now := by
  by_cases hk : k' = k
  · subst hk
    rw [if_pos rfl]
    unfold Metered.credit
    rw [show Metered.limiter { s with words := Function.update s.words limiter.arc (some b) } k' = some limiter from hl]
    simp [Metered.current]
  · rw [if_neg hk]
    unfold Metered.credit
    change (s.limiter k).elim _ _ = (s.limiter k).elim _ _
    cases hk' : s.limiter k with
    | none => rfl
    | some own =>
      obtain ⟨t, ht, hlt⟩ := limiter_live hl
      obtain ⟨t', ht', hlt'⟩ := limiter_live hk'
      rw [ht] at ht'
      cases ht'
      have hne : own.arc ≠ limiter.arc := by
        intro e
        exact hk ((h.apart t ht).unshared hlt hlt' e.symm)
      simp only [Option.elim_some, Metered.current, Function.update_of_ne hne]

theorem Capped.write (h : Capped k rate cap s now) (hl : s.limiter k' = some limiter) {b : Bucket}
    (hb : k' = k → b.units ≤ cap ∧ b.last ≤ now) :
    Capped k rate cap { s with words := Function.update s.words limiter.arc (some b) } now := by
  refine ⟨h.apart, ?_, h.made, ?_, ?_⟩
  · intro arc b' hb'
    by_cases ha : arc = limiter.arc
    · obtain ⟨t, ht, hlt⟩ := limiter_live hl
      rw [ha]
      exact (h.apart t ht).allocated hlt
    · change Function.update s.words limiter.arc (some b) arc = some b' at hb'
      rw [Function.update_of_ne ha] at hb'
      exact h.touched hb'
  · rw [h.credit_write hl]
    split
    · rename_i hk
      exact (hb hk).1
    · exact h.full
  · rw [h.credit_write hl]
    split
    · rename_i hk
      exact (hb hk).2
    · exact h.past

theorem connect_none (hl : s.limiter k' = none) : s.connect k' now = (none, s) := by
  simp [Metered.connect, hl]

theorem connect_some (hl : s.limiter k' = some limiter) {ok : Bool} {b : Bucket}
    (hacq : limiter.try_acquire (s.current limiter) now = (ok, b)) :
    s.connect k' now = (some ok, { s with words := Function.update s.words limiter.arc (some b) }) := by
  simp [Metered.connect, hl, hacq]

/-- A connection to a route debits that route's credit, and counts when it is admitted. -/
theorem Capped.connect (hrate : 0 ≤ rate) (h : Capped k (rate / 1000) cap s now) (k' : Bytes)
    (hw : Bucket.Window rate cap ONE_TOKEN t₀ t₁ (s.credit k cap now) now n) :
    Capped k (rate / 1000) cap (s.connect k' now).2 now ∧
      Bucket.Window rate cap ONE_TOKEN t₀ t₁ ((s.connect k' now).2.credit k cap now) now
        (n + if (s.connect k' now).1 = some true ∧ k' = k ∧ t₀ ≤ now ∧ now ≤ t₁ then 1 else 0) := by
  cases hl : s.limiter k' with
  | none =>
    rw [connect_none hl]
    exact ⟨h, by simpa using hw⟩
  | some limiter =>
    by_cases hk : k' = k
    · subst hk
      obtain ⟨hfin, hburst⟩ := h.made hl
      have hfull := h.full
      have hpast := h.past
      rw [credit_some hl] at hfull hpast hw
      have hrate' : rate / 1000 * 1000 = rate := div_mul_cancel₀ rate (by norm_num)
      rcases RouteTokenBucket.try_acquire_cases hfin (s.current limiter) now with hno | ⟨b, hpay, hyes⟩
      · rw [hrate', hburst] at hno
        rw [connect_some hl hno]
        refine ⟨h.write hl fun _ => ⟨Bucket.refill_units_le now hfull, Bucket.refill_last_le hpast⟩, ?_⟩
        rw [h.credit_write hl, if_pos rfl]
        simpa using hw.change fun p => Bucket.owes_refill hrate hpast
      · rw [hrate', hburst] at hpay
        obtain ⟨hunits, hlast⟩ := Bucket.pay_spec hpay
        have hb : b.units ≤ cap ∧ b.last ≤ now := by
          constructor
          · exact Nat.le_of_add_right_le (hunits ▸ Bucket.refill_units_le now hfull)
          · exact hlast ▸ Bucket.refill_last_le hpast
        rw [connect_some hl hyes]
        refine ⟨h.write hl fun _ => hb, ?_⟩
        rw [h.credit_write hl, if_pos rfl]
        simpa using hw.pay hrate (by decide) hfull hpast hpay
    · -- another route's limiter: its words are not the ones of `k`
      obtain ⟨⟨ok, b⟩, hacq⟩ : ∃ r, limiter.try_acquire (s.current limiter) now = r := ⟨_, rfl⟩
      rw [connect_some hl hacq]
      refine ⟨h.write hl fun e => absurd e hk, ?_⟩
      rw [h.credit_write hl, if_neg hk]
      simpa [hk] using hw

theorem Capped.unused (h : Capped k rate cap s now) {arc : Nat} (hge : s.proxy.world.heap.next ≤ arc) :
    s.words arc = none := by
  cases hw : s.words arc with
  | none => rfl
  | some w => exact absurd (h.touched hw) (Nat.not_lt.2 hge)

section Commit

variable [DecidableEq D] {C : Crates D} {conns : Nat → Bool} {listener_tls : ListenerTlsSpec} {specs : List RouteSpec}
  {spec : RouteSpec} {cps : F64}

/-- A committed build leaves the words alone and puts a table live whose limiters are new
or those of the table before. -/
theorem Capped.built (h : Capped k rate cap s now)
    (hs' : s' = ((metering C).step s (.reload (.commit conns listener_tls specs) now)).2) :
    s'.words = s.words ∧ ∃ (b : Builder D) (identities : List RouteMetricIdentity),
      Limiting s.proxy.live specs (Metered.at_wall s.proxy now).world.heap b ∧
      s'.proxy = ⟨b.world, some { b.toRouteTable with metric_identities := identities }⟩ := by
  let p := Metered.at_wall s.proxy now
  let b := builderAt C conns listener_tls p.live specs p.world specs.length
  refine ⟨by rw [hs']; rfl, b, (b.toRouteTable.routes.map fun e => e.2.metric_identity).mergeSort identity_le,
    build_limiting C conns listener_tls p.live specs p.world h.apart, ?_⟩
  rw [hs']
  change Proxy.mk (build_route_table C conns listener_tls p.live specs p.world).2
    (some (build_route_table C conns listener_tls p.live specs p.world).1) = _
  rw [build_route_table_eq]

/-- The limiter of `k` is new, made from its spec, or the one it had. -/
theorem Capped.origin (hcps : spec.max_cps = some cps) (h : Capped k rate cap s now)
    (hspec : Unchanged k spec s (.reload (.commit conns listener_tls specs) now))
    (hs' : s' = ((metering C).step s (.reload (.commit conns listener_tls specs) now)).2)
    (hl : s'.limiter k = some limiter) :
    (∃ arc, s.proxy.world.heap.next ≤ arc ∧ limiter = limiterOf spec cps arc now) ∨ s.limiter k = some limiter := by
  obtain ⟨-, b, identities, hbuild, hproxy⟩ := h.built hs'
  obtain ⟨t, ht, hlt⟩ := limiter_live hl
  rw [hproxy] at ht
  cases ht
  rcases hbuild.origin hlt with ⟨n, spec', cps', arc, hd, hn, hcps', hge, he⟩ | ⟨t, ht, hlt⟩
  · left
    rcases hspec with hsome | ⟨hnone, -⟩
    · rw [hd, Option.bind_some, hn] at hsome
      cases hsome
      rw [hcps] at hcps'
      cases hcps'
      exact ⟨arc, hge, he⟩
    · rw [hd] at hnone
      cases hnone
  · exact .inr (Option.bind_eq_some_iff.2 ⟨t, ht, hlt⟩)

/-- A committed build: the credit of `k` is as it was, or that of a new limiter. -/
theorem Capped.commit_credit (hcps : spec.max_cps = some cps)
    (hburst : fixed_point (at_least_one (spec.burst.getD cps)) = cap) (h : Capped k rate cap s now)
    (hspec : Unchanged k spec s (.reload (.commit conns listener_tls specs) now))
    (hs' : s' = ((metering C).step s (.reload (.commit conns listener_tls specs) now)).2) :
    s'.credit k cap now = s.credit k cap now ∨ s'.credit k cap now = ⟨cap, now⟩ := by
  have hwords := (h.built hs').1
  cases hl : s'.limiter k with
  | none => exact .inr (credit_none hl)
  | some limiter =>
    rw [credit_some hl]
    unfold Metered.current
    rw [hwords]
    rcases h.origin hcps hspec hs' hl with ⟨arc, hge, rfl⟩ | hsame
    · -- a new limiter was never used
      right
      rw [← hburst]
      change (s.words arc).getD _ = _
      rw [h.unused hge]
      rfl
    · left
      rw [credit_some hsame]
      rfl

theorem Capped.commit (hcps : spec.max_cps = some cps) (hper : per_ns cps = .finite rate)
    (hburst : fixed_point (at_least_one (spec.burst.getD cps)) = cap) (h : Capped k rate cap s now)
    (hspec : Unchanged k spec s (.reload (.commit conns listener_tls specs) now))
    (hs' : s' = ((metering C).step s (.reload (.commit conns listener_tls specs) now)).2) :
    Capped k rate cap s' now ∧
      (s'.credit k cap now = s.credit k cap now ∨ s'.credit k cap now = ⟨cap, now⟩) := by
  obtain ⟨hwords, b, identities, hbuild, hproxy⟩ := h.built hs'
  have hcredit := h.commit_credit hcps hburst hspec hs'
  refine ⟨⟨?_, ?_, ?_, ?_, ?_⟩, hcredit⟩
  · intro t ht
    rw [hproxy] at ht
    cases ht
    rw [hproxy]
    exact ⟨hbuild.apart.allocated, hbuild.apart.unshared⟩
  · intro arc w hw
    rw [hwords] at hw
    rw [hproxy]
    exact Nat.lt_of_lt_of_le (h.touched hw) hbuild.grown.next
  · intro limiter hl
    rcases h.origin hcps hspec hs' hl with ⟨arc, -, rfl⟩ | hsame
    · exact ⟨hper, hburst⟩
    · exact h.made hsame
  · rcases hcredit with e | e
    · rw [e]
      exact h.full
    · rw [e]
  · rcases hcredit with e | e
    · rw [e]
      exact h.past
    · rw [e]

end Commit

/-- Where the limiter of `k` had time to fill, replacing it by a new one owes nothing. -/
theorem refilled_owes (hrate : 0 ≤ rate) (h : Capped k (rate / 1000) cap s now) {conns : Nat → Bool}
    {listener_tls : ListenerTlsSpec} {specs : List RouteSpec}
    (hfull : Refilled k s (.reload (.commit conns listener_tls specs) now)) {p : Nat}
    (ho : Bucket.Owes rate cap t₀ p (s.credit k cap now)) : Bucket.Owes rate cap t₀ p ⟨cap, now⟩ := by
  cases hl : s.limiter k with
  | none =>
    rwa [credit_none hl] at ho
  | some limiter =>
    have hpast := h.past
    rw [credit_some hl] at ho hpast
    obtain ⟨hfin, hburst⟩ := h.made hl
    have hproj : cap ≤ (s.current limiter).projected rate U32_MAX cap now := by
      have hle := hfull limiter hl
      rw [RouteTokenBucket.refill_finite hfin, Protection.refillFor_exact, div_mul_cancel₀ rate (by norm_num),
        hburst] at hle
      exact Nat.le_min.2 ⟨hle, Nat.le_refl _⟩
    exact Bucket.owes_replace hrate hpast (Nat.le_refl _) hproj ho

theorem Capped.reload [DecidableEq D] {C : Crates D} {e : Event}
    (he : ∀ conns listener_tls specs, e ≠ .commit conns listener_tls specs)
    (h : Capped k rate cap s now) (hs' : s' = ((metering C).step s (.reload e now)).2) :
    Capped k rate cap s' now ∧ s'.credit k cap now = s.credit k cap now := by
  subst hs'
  cases e with
  | commit conns listener_tls specs => exact absurd rfl (he conns listener_tls specs)
  | abandon conns listener_tls specs =>
    refine h.frame rfl rfl ?_
    have hbuild := build_limiting C conns listener_tls s.proxy.live specs (Metered.at_wall s.proxy now).world h.apart
    change _ ≤ (build_route_table C conns listener_tls s.proxy.live specs
      (Metered.at_wall s.proxy now).world).2.heap.next
    rw [build_route_table_eq]
    exact hbuild.grown.next
  | sweep held => exact h.frame rfl rfl (Nat.le_refl _)
  | resolve held cert mtls http2 =>
    refine h.frame rfl rfl ?_
    exact (grows_get_or_build_unmarked C held cert mtls http2 (Metered.at_wall s.proxy now).world).next
  | serve refused_at now_ns wall_ns => exact h.frame rfl rfl (Nat.le_refl _)

end Steps

theorem admitted_append (k : Bytes) (t₀ t₁ : Nat) (log : List (MeterEvent × Option Bool)) (e : MeterEvent)
    (answer : Option Bool) :
    admitted k t₀ t₁ (log ++ [(e, answer)]) = admitted k t₀ t₁ log + admitted k t₀ t₁ [(e, answer)] :=
  List.countP_append

theorem meter_step {D : Type} [DecidableEq D] {C : Crates D} {k : Bytes} {spec : RouteSpec} {cps : F64} {rate : ℚ}
    (hrate : 0 ≤ rate) {cap : Nat} (hcps : spec.max_cps = some cps) (hper : per_ns cps = .finite (rate / 1000))
    (hburst : fixed_point (at_least_one (spec.burst.getD cps)) = cap) {t₀ t₁ n clock : Nat} {s : Metered D}
    {e : MeterEvent} (hclock : ((metering C).reading e).getD clock = clock) (hcap : Capped k (rate / 1000) cap s clock)
    (hw : Bucket.Window rate cap ONE_TOKEN t₀ t₁ (s.credit k cap clock) clock n) (hspec : Unchanged k spec s e)
    (hfull : Refilled k s e) :
    Capped k (rate / 1000) cap ((metering C).step s e).2 clock ∧
      Bucket.Window rate cap ONE_TOKEN t₀ t₁ (((metering C).step s e).2.credit k cap clock) clock
        (n + admitted k t₀ t₁ [(e, ((metering C).step s e).1)]) := by
  cases e with
  | connect k' now =>
    obtain rfl : now = clock := hclock
    have hcount (answer : Option Bool) : admitted k t₀ t₁ [(.connect k' now, answer)] =
        if answer = some true ∧ k' = k ∧ t₀ ≤ now ∧ now ≤ t₁ then 1 else 0 := by
      cases answer with
      | none => rfl
      | some ok => cases ok <;> simp [admitted, List.countP_cons]
    rw [hcount]
    exact hcap.connect hrate k' hw
  | reload e now =>
    obtain rfl : now = clock := hclock
    have h0 : admitted k t₀ t₁ [(.reload e now, ((metering C).step s (.reload e now)).1)] = 0 := rfl
    rw [h0, Nat.add_zero]
    by_cases he : ∃ conns listener_tls specs, e = .commit conns listener_tls specs
    · -- a new limiter is full, which is no gain where the old one would have been
      obtain ⟨conns, listener_tls, specs, rfl⟩ := he
      obtain ⟨hcap', hcredit⟩ := hcap.commit hcps hper hburst hspec rfl
      refine ⟨hcap', ?_⟩
      rcases hcredit with hsame | hnew
      · rw [hsame]
        exact hw
      · rw [hnew]
        exact hw.change fun p => refilled_owes hrate hcap hfull
    · have hno : ∀ conns listener_tls specs, e ≠ .commit conns listener_tls specs := by
        intro conns listener_tls specs h
        exact he ⟨conns, listener_tls, specs, h⟩
      obtain ⟨hcap', hsame⟩ := hcap.reload hno rfl
      rw [hsame]
      exact ⟨hcap', hw⟩

/-- The cap holds over every run whose committed updates leave the route's spec alone and
find its limiter with time enough behind it to be full. -/
theorem rate_cap {D : Type} [DecidableEq D] {C : Crates D} {k : Bytes} {spec : RouteSpec} {c b : ℚ} (hc : 0 ≤ c)
    (hcps : spec.max_cps = some (.finite c)) (hb : spec.burst.getD (.finite c) = .finite b) {heap : Heap}
    {s : Metered D} {clock : Nat} {log : List (MeterEvent × Option Bool)}
    (h : (metering C).RunWhere (fun s e => Unchanged k spec s e ∧ Refilled k s e) ⟨.fresh heap, fun _ => none⟩ s
    clock log)
    {t₀ t₁ : Nat} (h01 : t₀ ≤ t₁) :
    (admitted k t₀ t₁ log : ℚ) < max b 1 + c * ((t₁ - t₀) / 1000000000) + 1 / 1000 := by
  let rate : ℚ := c / 1000000
  let cap : Nat := fixed_point (at_least_one (.finite b))
  have hrate : 0 ≤ rate := by positivity
  have hper : per_ns (.finite c) = .finite (rate / 1000) := by
    simp only [per_ns, rate, F64.finite.injEq, id_eq]
    ring
  have hburst : fixed_point (at_least_one (spec.burst.getD (.finite c))) = cap := by rw [hb]
  have hrun : Capped k (rate / 1000) cap s clock ∧
      Bucket.Window rate cap ONE_TOKEN t₀ t₁ (s.credit k cap clock) clock (admitted k t₀ t₁ log) := by
    apply h.inv fun s clock log => Capped k (rate / 1000) cap s clock ∧
      Bucket.Window rate cap ONE_TOKEN t₀ t₁ (s.credit k cap clock) clock (admitted k t₀ t₁ log)
    · refine ⟨⟨?_, ?_, ?_, Nat.le_refl _, Nat.le_refl _⟩, Bucket.window_start⟩
      · intro t ht
        cases ht
      · intro arc b hb
        cases hb
      · intro limiter hl
        cases hl
    · intro s clock log e ⟨hcap, hw⟩ ⟨hspec, hfull⟩ hclock
      -- the clock moves to the event's reading, then the event happens
      have hw' := (hw.later hrate h01 hcap.past hclock).change fun p => credit_later hrate hclock
      rw [admitted_append]
      exact meter_step hrate hcps hper hburst (by cases e <;> rfl) (hcap.later hclock) hw' hspec hfull
  have hfinal := hrun.2.final hrate h01 hrun.1.past
  have hcap : (cap : ℚ) ≤ max b 1 * 1000 := by
    have hpos : (0 : ℚ) ≤ max b 1 * 1000 := by positivity
    have hfloor : ((min ⌊max b 1 * 1000⌋₊ U32_MAX : Nat) : ℚ) ≤ (⌊max b 1 * 1000⌋₊ : ℚ) := by
      exact_mod_cast min_le_left _ _
    exact hfloor.trans (Nat.floor_le hpos)
  have hwin : rate * ((t₁ : ℚ) - t₀) = 1000 * (c * ((t₁ - t₀) / 1000000000)) := by
    simp only [rate]
    ring
  rw [hwin] at hfinal
  change (((1000 : Nat) * admitted k t₀ t₁ log : Nat) : ℚ) < _ at hfinal
  push_cast at hfinal
  linarith

/-- A limited passthrough route. -/
def limitedSpec : RouteSpec := { plainSpec (bytes "a.example.com") with max_cps := some (.finite 1) }

/-- The route is installed, a connection comes, the routes are reloaded at `now`, and
another connection comes. -/
def reloadBetween (now : Nat) : List MeterEvent :=
  [.reload (.commit (fun _ => false) {} [limitedSpec]) 0, .connect limitedSpec.sni 0,
    .reload (.commit (fun _ => false) {} [limitedSpec]) now, .connect limitedSpec.sni now]

/-- A reload a second later finds the limiter full. -/
theorem rate_cap_refilled : ∃ s clock log,
    (metering literalCrates).RunWhere
      (fun s e => Unchanged limitedSpec.sni limitedSpec s e ∧ Refilled limitedSpec.sni s e)
      ⟨.fresh {}, fun _ => none⟩ s clock log ∧
    admitted limitedSpec.sni 0 1000000000 log = 2 ∧
    (admitted limitedSpec.sni 0 1000000000 log : ℚ) <
      max 1 1 + 1 * (((1000000000 : Nat) - (0 : Nat)) / 1000000000) + 1 / 1000 := by
  have h₀ : (metering literalCrates).RunWhere
      (fun s e => Unchanged limitedSpec.sni limitedSpec s e ∧ Refilled limitedSpec.sni s e)
      ⟨.fresh {}, fun _ => none⟩ ⟨.fresh {}, fun _ => none⟩ 0 [] := .nil
  have hok : (metering literalCrates).Admissible
      (fun s e => Unchanged limitedSpec.sni limitedSpec s e ∧ Refilled limitedSpec.sni s e)
      ⟨.fresh {}, fun _ => none⟩ 0 (reloadBetween 1000000000) := by decide +kernel
  obtain ⟨clock, h⟩ := h₀.exec hok
  exact ⟨_, clock, _, h, by decide +kernel, rate_cap (by norm_num) rfl rfl h (Nat.zero_le _)⟩

/-- A reload at once fills the limiter that a connection has just emptied. -/
theorem rate_cap_reloaded : ∃ s clock log,
    (metering literalCrates).RunWhere (Unchanged limitedSpec.sni limitedSpec) ⟨.fresh {}, fun _ => none⟩ s clock log ∧
    max 1 1 + 1 * (((0 : Nat) - (0 : Nat)) / 1000000000) + 1 / 1000 < (admitted limitedSpec.sni 0 0 log : ℚ) := by
  have h₀ : (metering literalCrates).RunWhere (Unchanged limitedSpec.sni limitedSpec)
      ⟨.fresh {}, fun _ => none⟩ ⟨.fresh {}, fun _ => none⟩ 0 [] := .nil
  have hok : (metering literalCrates).Admissible (Unchanged limitedSpec.sni limitedSpec)
      ⟨.fresh {}, fun _ => none⟩ 0 (reloadBetween 0) := by decide +kernel
  obtain ⟨clock, h⟩ := h₀.exec hok
  refine ⟨_, clock, _, h, ?_⟩
  have htwo : admitted limitedSpec.sni 0 0
      ([] ++ ((metering literalCrates).exec ⟨.fresh {}, fun _ => none⟩ (reloadBetween 0)).1) = 2 := by decide +kernel
  rw [htwo]
  norm_num

end Symphony.Router
