import Symphony.Router.Balancer
/-!
# Connecting to a UDS set

`connect_uds`: the picked slot first and, while slots refuse, each other slot once.
The loop is run on what its rounds meet: the result of each connect, what other
connections and the probe do to the gauges while it is awaited, and the clocks.
`Tries` says what a call does slot by slot; what it guarantees follows from that
without looking at the loop again.
-/

namespace Symphony.Upstream

open Router (AffinityEntries Gauges SlotHealth UdsBalancer)

/-- The `std::io::ErrorKind`s that are told apart here. -/
inductive ErrorKind where
  | ConnectionRefused
  | NotFound
  | TimedOut
  | WouldBlock
  | HostUnreachable
  | NetworkUnreachable
  | NetworkDown
  | Other
  deriving DecidableEq, Repr

structure IoError where
  kind : ErrorKind
  raw_os_error : Option Nat
  message : Bytes
  deriving DecidableEq, Repr

/-- `libc::EHOSTDOWN`, on Linux. -/
def EHOSTDOWN : Nat := 112

def connect_timed_out : IoError := ⟨.TimedOut, none, bytes "upstream connect timeout"⟩

def is_refusal (e : IoError) : Bool :=
  (match e.kind with
    | .ConnectionRefused | .NotFound | .TimedOut | .WouldBlock
    | .HostUnreachable | .NetworkUnreachable | .NetworkDown => true
    | .Other => false) || e.raw_os_error = some EHOSTDOWN

/-- `SymphonyError`, as far as connecting can return it. -/
inductive ConnectError where
  | Config (msg : Bytes)
  | Io (e : IoError)
  deriving DecidableEq, Repr

/-- What one round of the loop meets. -/
structure Round where
  -- the connect's result, or nothing by the deadline
  connect : Option (Except IoError Unit)
  -- what others do to the gauges until then; a client's own entry is this call's
  meanwhile : Gauges → Gauges
  -- `protection::now_ns` at `mark_refused`
  refused_ns : Nat
  -- the deadline has passed once the next slot is chosen
  late : Bool
  -- `now_ns` at `rebind_affinity`
  now_ns : Nat

/-- `timeout_at(..).unwrap_or_else(..)`. -/
def Round.result (r : Round) : Except IoError Unit := r.connect.getD (.error connect_timed_out)

/-- An attempt on a slot, with the gauges it was chosen by. -/
structure Attempt where
  idx : Nat
  chosen : Gauges
  round : Round

def Attempt.Refused (a : Attempt) : Prop := ∃ e, a.round.result = .error e ∧ is_refusal e = true

/-- A call so far: its attempts, its result once it has returned, and what it left. -/
structure Connecting where
  attempts : List Attempt
  result : Option (Except ConnectError Nat)
  gauges : Gauges
  entries : AffinityEntries

def Connecting.after (c : Connecting) (a : Attempt) : Connecting := { c with attempts := a :: c.attempts }

/-- A refusal marks the slot's cell, if its health is tracked. -/
def mark (b : UdsBalancer) (g : Gauges) (idx now_ns : Nat) : Gauges :=
  match b.health idx with
  | some cell => g.mark_refused cell now_ns
  | none => g

/-- `tried`, with its first allocation and the slot that refused. -/
def note (b : UdsBalancer) (tried : List Bool) (idx : Nat) : List Bool :=
  (if tried.isEmpty then List.replicate b.slot_count false else tried).set idx true

/-- `BalancerGuard::new` for the slot that accepted. -/
def balancer_guard (b : UdsBalancer) (g : Gauges) (idx : Nat) : Gauges :=
  match b.sockets[idx]? with
  | some slot => b.increment g slot.path
  | none => g

/-- The loop of `connect_uds`, on the rounds there have been. -/
def connect_loop (b : UdsBalancer) (peer_ip : Option IpAddr) (idx : Nat) (tried : List Bool) (g : Gauges)
    (entries : AffinityEntries) : List Round → Connecting
  | [] => ⟨[], none, g, entries⟩
  | r :: rounds =>
    match r.result with
    | .ok _ =>
      { attempts := [⟨idx, g, r⟩]
        result := some (.ok idx)
        gauges := balancer_guard b (r.meanwhile g) idx
        entries := if tried.isEmpty then entries else b.rebind_affinity entries peer_ip idx r.now_ns }
    | .error e =>
      if is_refusal e then
        let marked := mark b (r.meanwhile g) idx r.refused_ns
        let failed : Connecting := ⟨[⟨idx, g, r⟩], some (.error (.Io e)), marked, entries⟩
        match b.next_untried marked (note b tried idx) with
        | some next =>
          if r.late then failed
          else (connect_loop b peer_ip next (note b tried idx) marked entries rounds).after ⟨idx, g, r⟩
        | none => failed
      else ⟨[⟨idx, g, r⟩], some (.error (.Io e)), r.meanwhile g, entries⟩

def connect_uds (b : UdsBalancer) (g : Gauges) (entries : AffinityEntries) (peer_ip : Option IpAddr) (now : Nat)
    (rounds : List Round) : Connecting :=
  match b.pick g entries peer_ip now with
  | (none, entries) =>
    ⟨[], some (.error (.Config (bytes "UDS balancer has no sockets configured"))), g, entries⟩
  | (some idx, entries) => connect_loop b peer_ip idx [] g entries rounds

/-! ## What a call does -/

/-- A slot that refuses is chosen only when every slot not tried before refuses. -/
def LastResort (b : UdsBalancer) (g : Gauges) (past : List Nat) (idx : Nat) : Prop :=
  b.refusing g idx = true → ∀ j < b.slot_count, j ∉ past → b.refusing g j = true

/-- A call that has been refused by the slots of `past` and now tries `idx`. -/
inductive Tries (b : UdsBalancer) (peer_ip : Option IpAddr) :
    List Nat → Nat → Gauges → AffinityEntries → List Round → Connecting → Prop where
  | waiting {past : List Nat} {idx : Nat} {g : Gauges} {entries : AffinityEntries} :
      Tries b peer_ip past idx g entries [] ⟨[], none, g, entries⟩
  | accepted {past : List Nat} {idx : Nat} {g : Gauges} {entries : AffinityEntries} {r : Round} {rounds : List Round} :
      r.result = .ok () →
      Tries b peer_ip past idx g entries (r :: rounds)
        ⟨[⟨idx, g, r⟩], some (.ok idx), balancer_guard b (r.meanwhile g) idx,
          if past = [] then entries else b.rebind_affinity entries peer_ip idx r.now_ns⟩
  | failed {past : List Nat} {idx : Nat} {g : Gauges} {entries : AffinityEntries} {r : Round} {rounds : List Round}
      {e : IoError} :
      r.result = .error e → is_refusal e = false →
      Tries b peer_ip past idx g entries (r :: rounds)
        ⟨[⟨idx, g, r⟩], some (.error (.Io e)), r.meanwhile g, entries⟩
  | refused {past : List Nat} {idx : Nat} {g : Gauges} {entries : AffinityEntries} {r : Round} {rounds : List Round}
      {e : IoError} :
      r.result = .error e → is_refusal e = true → (r.late = true ∨ ∀ j < b.slot_count, j ∈ past ++ [idx]) →
      Tries b peer_ip past idx g entries (r :: rounds)
        ⟨[⟨idx, g, r⟩], some (.error (.Io e)), mark b (r.meanwhile g) idx r.refused_ns, entries⟩
  | retried {past : List Nat} {idx : Nat} {g : Gauges} {entries : AffinityEntries} {r : Round} {rounds : List Round}
      {e : IoError} {next : Nat} {c : Connecting} :
      r.result = .error e → is_refusal e = true → next < b.slot_count → next ∉ past ++ [idx] →
      LastResort b (mark b (r.meanwhile g) idx r.refused_ns) (past ++ [idx]) next →
      Tries b peer_ip (past ++ [idx]) next (mark b (r.meanwhile g) idx r.refused_ns) entries rounds c →
      Tries b peer_ip past idx g entries (r :: rounds) (c.after ⟨idx, g, r⟩)

section Tries

variable {b : UdsBalancer} {peer_ip : Option IpAddr} {past : List Nat} {idx : Nat} {tried : List Bool} {g : Gauges}
  {entries : AffinityEntries} {rounds : List Round} {c : Connecting}

/-- `tried` marks the slots of `past`; it is not allocated before the first refusal. -/
def Notes (b : UdsBalancer) (tried : List Bool) (past : List Nat) : Prop :=
  (tried.isEmpty = true ↔ past = []) ∧ (past ≠ [] → tried.length = b.slot_count) ∧
    ∀ j, tried[j]?.getD false = true ↔ j ∈ past

theorem Notes.start : Notes b [] [] := by
  refine ⟨by simp, by simp, by simp⟩

theorem Notes.note (h : Notes b tried past) (hidx : idx < b.slot_count) :
    Notes b (note b tried idx) (past ++ [idx]) := by
  obtain ⟨hempty, hlen, hmem⟩ := h
  -- the vector before the slot is set, allocated or not
  obtain ⟨v, hv, hvlen, hvmem⟩ : ∃ v : List Bool, Upstream.note b tried idx = v.set idx true ∧ v.length = b.slot_count ∧
      ∀ j, v[j]?.getD false = true ↔ j ∈ past := by
    by_cases hpast : past = []
    · refine ⟨List.replicate b.slot_count false, ?_, List.length_replicate, ?_⟩
      · rw [Upstream.note, if_pos (hempty.mpr hpast)]
      · intro j
        simp only [hpast, List.not_mem_nil, iff_false, List.getElem?_replicate]
        split <;> simp
    · refine ⟨tried, ?_, hlen hpast, hmem⟩
      rw [Upstream.note, if_neg (by rwa [hempty])]
  rw [hv]
  refine ⟨?_, ?_, ?_⟩
  · rw [← List.length_eq_zero_iff.trans List.isEmpty_iff.symm, List.length_set, hvlen]
    simp only [List.append_eq_nil_iff, List.cons_ne_nil, and_false, iff_false]
    omega
  · intro _
    rw [List.length_set, hvlen]
  · intro j
    rw [List.mem_append, List.mem_singleton, ← hvmem j]
    by_cases hj : j = idx
    · subst hj
      simp [hvlen, hidx]
    · simp [List.getElem?_set_ne (Ne.symm hj), hj]

theorem connect_loop_tries (hnotes : Notes b tried past) (hidx : idx < b.slot_count) :
    Tries b peer_ip past idx g entries rounds (connect_loop b peer_ip idx tried g entries rounds) := by
  induction rounds generalizing past idx tried g with
  | nil => exact .waiting
  | cons r rounds ih =>
    unfold connect_loop
    have hnoted := hnotes.note hidx
    split
    · next hresult =>
      simp only [hnotes.1]
      exact .accepted hresult
    · next e hresult =>
      split
      · next hrefusal =>
        dsimp only
        split
        · next next hnext =>
          obtain ⟨hslot, huntried, hmin⟩ := UdsBalancer.next_untried_some hnext
          split
          · next hlate => exact .refused hresult hrefusal (.inl hlate)
          · refine .retried hresult hrefusal hslot ?_ ?_ (ih hnoted hslot)
            · rw [← hnoted.2.2, huntried]
              exact Bool.false_ne_true
            · intro hself j hj hnew
              rw [← hnoted.2.2, Bool.not_eq_true] at hnew
              exact UdsBalancer.refusing_of_key_le (hmin j hj hnew) hself
        · next hnone =>
          refine .refused hresult hrefusal (.inr ?_)
          intro j hj
          rw [← hnoted.2.2]
          exact UdsBalancer.next_untried_none hnone hj
      · next hother => exact .failed hresult (Bool.eq_false_iff.mpr hother)

/-! ## What follows slot by slot -/

/-- The slots tried before, with the one tried now: no two the same. -/
def Fresh (b : UdsBalancer) (past : List Nat) (idx : Nat) : Prop :=
  (past ++ [idx]).Nodup ∧ ∀ i ∈ past ++ [idx], i < b.slot_count

theorem Fresh.next {next : Nat} (h : Fresh b past idx) (hslot : next < b.slot_count) (hnew : next ∉ past ++ [idx]) :
    Fresh b (past ++ [idx]) next := by
  refine ⟨List.nodup_append.mpr ⟨h.1, List.nodup_singleton next, ?_⟩, ?_⟩
  · intro i hi j hj
    rw [List.mem_singleton.mp hj]
    exact fun heq => hnew (heq ▸ hi)
  · intro i hi
    rcases List.mem_append.mp hi with hi | hi
    · exact h.2 i hi
    · rwa [List.mem_singleton.mp hi]

theorem length_le_slot_count {slots : List Nat} (hnodup : slots.Nodup) (hlt : ∀ i ∈ slots, i < b.slot_count) :
    slots.length ≤ b.slot_count := by
  have hsub : slots ⊆ List.range b.slot_count := fun i hi => List.mem_range.mpr (hlt i hi)
  simpa using (List.subperm_of_subset hnodup hsub).length_le

section

variable (h : Tries b peer_ip past idx g entries rounds c)

include h

theorem Tries.slots (hfresh : Fresh b past idx) :
    (past ++ c.attempts.map (·.idx)).Nodup ∧ ∀ i ∈ past ++ c.attempts.map (·.idx), i < b.slot_count := by
  induction h with
  | @waiting past idx =>
    rw [List.map_nil, List.append_nil]
    refine ⟨(List.nodup_append.mp hfresh.1).1, ?_⟩
    intro i hi
    exact hfresh.2 i (List.mem_append_left _ hi)
  | accepted | failed | refused => exact hfresh
  | retried _ _ hslot hnew _ _ ih =>
    rw [Connecting.after, List.map_cons, List.append_cons]
    exact ih (hfresh.next hslot hnew)

/-- A call that has not returned has a slot left for the round to come. -/
theorem Tries.unreturned (hfresh : Fresh b past idx)
    (hnone : c.result = none) : past.length + rounds.length < b.slot_count := by
  induction h with
  | @waiting past idx =>
    have hlen := length_le_slot_count hfresh.1 hfresh.2
    rw [List.length_append, List.length_singleton] at hlen
    rw [List.length_nil]
    omega
  | accepted | failed | refused => cases hnone
  | retried _ _ hslot hnew _ _ ih =>
    have hrest := ih (hfresh.next hslot hnew) hnone
    rw [List.length_append, List.length_singleton] at hrest
    rw [List.length_cons]
    omega

theorem Tries.last_resort (hchosen : LastResort b g past idx)
    {before after : List Attempt} {a : Attempt} (hat : c.attempts = before ++ a :: after) :
    LastResort b a.chosen (past ++ before.map (·.idx)) a.idx := by
  induction h generalizing before with
  | waiting => simp at hat
  | accepted | failed | refused =>
    cases before with
    | nil =>
      obtain ⟨rfl, -⟩ := List.cons.inj hat
      simpa using hchosen
    | cons x before => simp at hat
  | retried _ _ _ _ hlast _ ih =>
    cases before with
    | nil =>
      obtain ⟨rfl, -⟩ := List.cons.inj hat
      simpa using hchosen
    | cons x before =>
      obtain ⟨rfl, hrest⟩ := List.cons.inj hat
      simpa using ih hlast hrest

/-- A call that fails ends with the error of its last attempt, which is not a refusal,
or came with the deadline, or was the last of a refusal by every slot. -/
theorem Tries.gives_up {err : ConnectError} (herr : c.result = some (.error err)) :
    ∃ before a e, c.attempts = before ++ [a] ∧ a.round.result = .error e ∧ err = .Io e ∧
      (∀ x ∈ before, x.Refused) ∧
      (is_refusal e = false ∨ a.round.late = true ∨
        a.Refused ∧ ∀ j < b.slot_count, j ∈ past ++ c.attempts.map (·.idx)) := by
  induction h with
  | waiting | accepted => cases herr
  | failed hresult hother =>
    cases herr
    exact ⟨[], _, _, rfl, hresult, rfl, by simp, .inl hother⟩
  | refused hresult hrefusal hend =>
    cases herr
    exact ⟨[], _, _, rfl, hresult, rfl, by simp, .inr (hend.imp_right fun hall => ⟨⟨_, hresult, hrefusal⟩, hall⟩)⟩
  | retried hresult hrefusal _ _ _ _ ih =>
    obtain ⟨before, a, e, hat, hlast, rfl, hbefore, hwhy⟩ := ih herr
    refine ⟨⟨_, _, _⟩ :: before, a, e, congrArg (_ :: ·) hat, hlast, rfl, ?_, ?_⟩
    · exact List.forall_mem_cons.mpr ⟨⟨_, hresult, hrefusal⟩, hbefore⟩
    · simpa [Connecting.after] using hwhy

theorem Tries.accepts {i : Nat} (hi : c.result = some (.ok i)) :
    ∃ before a, c.attempts = before ++ [a] ∧ a.idx = i ∧ a.round.result = .ok () := by
  induction h with
  | waiting | failed | refused => cases hi
  | accepted hresult =>
    cases hi
    exact ⟨[], _, rfl, rfl, hresult⟩
  | retried _ _ _ _ _ _ ih =>
    obtain ⟨before, a, hat, hidx, hresult⟩ := ih hi
    exact ⟨_ :: before, a, congrArg (_ :: ·) hat, hidx, hresult⟩

/-- The client is bound to the slot that accepted: by the first choice, or again after a
refusal. -/
theorem Tries.sticks (hslots : b.slot_count ≤ 2 ^ 32)
    (hidx : idx < b.slot_count) {ip : IpAddr} (haffinity : b.affinity.isSome) (hip : peer_ip = some ip)
    (hbound : past = [] → (entries.lookup ip).map (·.socket_idx) = some idx) {i : Nat}
    (hi : c.result = some (.ok i)) : (c.entries.lookup ip).map (·.socket_idx) = some i := by
  induction h with
  | waiting | failed | refused => cases hi
  | accepted =>
    cases hi
    dsimp only
    split
    · next hpast => exact hbound hpast
    · rw [hip]
      exact UdsBalancer.rebind_affinity_lookup haffinity (hidx.trans_le hslots) ..
  | retried _ _ hslot _ _ _ ih => exact ih hslot (by simp) hi

end

/-! ## Marks -/

/-- Some attempt was refused by a slot with this cell. -/
def Connecting.Refuses (b : UdsBalancer) (c : Connecting) (cell : SlotHealth) : Prop :=
  ∃ a ∈ c.attempts, a.Refused ∧ b.health a.idx = some cell

theorem refuses_after {a : Attempt} {cell : SlotHealth} (ha : a.Refused) :
    (c.after a).Refuses b cell ↔ b.health a.idx = some cell ∨ c.Refuses b cell := by
  simp [Connecting.Refuses, Connecting.after, ha]

theorem refuses_single {a : Attempt} {result : Option (Except ConnectError Nat)} {cell : SlotHealth} :
    Connecting.Refuses b ⟨[a], result, g, entries⟩ cell ↔ a.Refused ∧ b.health a.idx = some cell := by
  simp [Connecting.Refuses]

theorem mark_refused_at (cell : SlotHealth) (now_ns : Nat) :
    (mark b g idx now_ns).refused_at cell =
      if b.health idx = some cell then max now_ns 1 else g.refused_at cell := by
  unfold mark
  cases b.health idx with
  | none => simp
  | some own =>
    show Function.update g.refused_at own (max now_ns 1) cell = _
    rw [Function.update_apply]
    simp [eq_comm]

@[simp] theorem balancer_guard_refused_at : (balancer_guard b g idx).refused_at = g.refused_at := by
  unfold balancer_guard UdsBalancer.increment
  split
  · split <;> rfl
  · rfl

theorem Tries.marks (h : Tries b peer_ip past idx g entries rounds c)
    (hquiet : ∀ r ∈ rounds, ∀ g, (r.meanwhile g).refused_at = g.refused_at) (cell : SlotHealth) :
    (c.Refuses b cell → c.gauges.refused_at cell ≠ 0) ∧
      (¬ c.Refuses b cell → c.gauges.refused_at cell = g.refused_at cell) := by
  induction h with
  | waiting => simp [Connecting.Refuses]
  | @accepted _ idx g _ r _ hresult =>
    have hno : ¬ Attempt.Refused ⟨idx, g, r⟩ := by simp [Attempt.Refused, hresult]
    rw [refuses_single, balancer_guard_refused_at, hquiet r (List.mem_cons_self ..) g]
    exact ⟨fun h => absurd h.1 hno, fun _ => rfl⟩
  | @failed _ idx g _ r _ _ hresult hother =>
    have hno : ¬ Attempt.Refused ⟨idx, g, r⟩ := by simp [Attempt.Refused, hresult, hother]
    rw [refuses_single, hquiet r (List.mem_cons_self ..) g]
    exact ⟨fun h => absurd h.1 hno, fun _ => rfl⟩
  | @refused _ idx g _ r _ _ hresult hrefusal =>
    have hyes : Attempt.Refused ⟨idx, g, r⟩ := ⟨_, hresult, hrefusal⟩
    rw [refuses_single, mark_refused_at, hquiet r (List.mem_cons_self ..) g]
    simp only [hyes, true_and]
    split <;> simp_all
  | @retried _ idx g _ r _ _ _ c hresult hrefusal _ _ _ _ ih =>
    have hyes : Attempt.Refused ⟨idx, g, r⟩ := ⟨_, hresult, hrefusal⟩
    obtain ⟨hlater, hkept⟩ := ih fun r' hr' => hquiet r' (List.mem_cons_of_mem _ hr')
    rw [refuses_after hyes]
    rw [mark_refused_at, hquiet r (List.mem_cons_self ..) g] at hkept
    refine ⟨?_, ?_⟩
    · intro hmarked
      by_cases hagain : c.Refuses b cell
      · exact hlater hagain
      · -- marked now, and left alone from here on
        rw [show (c.after _).gauges = c.gauges from rfl, hkept hagain, if_pos (hmarked.resolve_right hagain)]
        omega
    · intro hunmarked
      obtain ⟨hother, hno⟩ := not_or.mp hunmarked
      rw [show (c.after _).gauges = c.gauges from rfl, hkept hno, if_neg hother]

end Tries

/-! ## Every call -/

/-- A call begins with the picked slot, to which a sticky client is bound. -/
theorem connect_uds_tries {b : UdsBalancer} (hb : b.sockets ≠ []) (hslots : b.slot_count ≤ 2 ^ 32) (g : Gauges)
    (entries : AffinityEntries) (peer_ip : Option IpAddr) (now : Nat) (rounds : List Round) :
    ∃ idx < b.slot_count, (b.refusing g idx = true → ∀ j < b.slot_count, b.refusing g j = true) ∧
      (∀ ip, b.affinity.isSome → peer_ip = some ip →
        ((b.pick g entries peer_ip now).2.lookup ip).map (·.socket_idx) = some idx) ∧
      Tries b peer_ip [] idx g (b.pick g entries peer_ip now).2 rounds
        (connect_uds b g entries peer_ip now rounds) := by
  obtain ⟨idx, hidx, hpick, hrefusing, hbound⟩ := UdsBalancer.pick_spec (g := g) hb hslots entries peer_ip now
  refine ⟨idx, hidx, hrefusing, hbound, ?_⟩
  unfold connect_uds
  split
  · next hnone => simp [hnone] at hpick
  · next hsome =>
    rw [hsome] at hpick ⊢
    cases hpick
    exact connect_loop_tries Notes.start hidx

/-- What a call to a balancer with slots guarantees, whatever its rounds meet. -/
structure TriesOnce (b : UdsBalancer) (peer_ip : Option IpAddr) (g : Gauges) (rounds : List Round)
    (c : Connecting) : Prop where
  -- one round a slot is enough to return
  returns : b.slot_count ≤ rounds.length → c.result.isSome
  at_most : c.attempts.length ≤ b.slot_count
  slots : ∀ a ∈ c.attempts, a.idx < b.slot_count
  once : (c.attempts.map (·.idx)).Nodup
  last_resort : ∀ before a after, c.attempts = before ++ a :: after → b.refusing a.chosen a.idx = true →
    ∀ j < b.slot_count, j ∉ before.map (·.idx) → b.refusing a.chosen j = true
  gives_up : ∀ err, c.result = some (.error err) → ∃ before a e,
    c.attempts = before ++ [a] ∧ a.round.result = .error e ∧ err = .Io e ∧
      (is_refusal e = false ∨ a.round.late = true ∨
        ∀ j < b.slot_count, ∃ x ∈ c.attempts, x.idx = j ∧ x.Refused)
  -- the cells are this call's to write while others leave them alone
  marks : (∀ r ∈ rounds, ∀ g, (r.meanwhile g).refused_at = g.refused_at) → ∀ cell,
    (c.Refuses b cell → c.gauges.refused_at cell ≠ 0) ∧
      (¬ c.Refuses b cell → c.gauges.refused_at cell = g.refused_at cell)
  accepts : ∀ idx, c.result = some (.ok idx) → ∃ before a,
    c.attempts = before ++ [a] ∧ a.idx = idx ∧ a.round.result = .ok () ∧
      ∀ ip, b.affinity.isSome → peer_ip = some ip → (c.entries.lookup ip).map (·.socket_idx) = some idx

/-- `connect_uds` tries what it should, once. A slot index fits the `u32` it is stored
in: slots come from a JavaScript array. -/
theorem connect_uds_tries_once {b : UdsBalancer} (hb : b.sockets ≠ []) (hslots : b.slot_count ≤ 2 ^ 32) (g : Gauges)
    (entries : AffinityEntries) (peer_ip : Option IpAddr) (now : Nat) (rounds : List Round) :
    TriesOnce b peer_ip g rounds (connect_uds b g entries peer_ip now rounds) := by
  obtain ⟨idx, hidx, hrefusing, hbound, htries⟩ := connect_uds_tries hb hslots g entries peer_ip now rounds
  generalize connect_uds b g entries peer_ip now rounds = c at htries
  have hfresh : Fresh b [] idx := ⟨by simp, by simpa using hidx⟩
  have hchosen : LastResort b g [] idx := fun hself j hj _ => hrefusing hself j hj
  obtain ⟨honce, hlt⟩ := htries.slots hfresh
  rw [List.nil_append] at honce hlt
  refine ⟨?_, ?_, ?_, honce, ?_, ?_, htries.marks, ?_⟩
  · intro henough
    rw [Option.isSome_iff_ne_none]
    intro hnone
    have hleft := htries.unreturned hfresh hnone
    rw [List.length_nil] at hleft
    omega
  · simpa using length_le_slot_count honce hlt
  · intro a ha
    exact hlt _ (List.mem_map_of_mem ha)
  · intro before a after hat hself
    exact htries.last_resort hchosen hat hself
  · intro err herr
    obtain ⟨before, a, e, hat, hlast, hio, hbefore, hwhy⟩ := htries.gives_up herr
    refine ⟨before, a, e, hat, hlast, hio, hwhy.imp_right (Or.imp_right ?_)⟩
    rintro ⟨ha, hall⟩ j hj
    obtain ⟨x, hx, rfl⟩ := List.mem_map.mp (hall j hj)
    refine ⟨x, hx, rfl, ?_⟩
    rw [hat, List.mem_append, List.mem_singleton] at hx
    rcases hx with hx | rfl
    · exact hbefore x hx
    · exact ha
  · intro i hi
    obtain ⟨before, a, hat, hai, hresult⟩ := htries.accepts hi
    refine ⟨before, a, hat, hai, hresult, ?_⟩
    intro ip haffinity hip
    exact htries.sticks hslots hidx haffinity hip (fun _ => hbound ip haffinity hip) hi

/-- Two tracked slots with affinity. -/
def tracked : UdsBalancer := ⟨[⟨bytes "/run/a", some 0, none⟩, ⟨bytes "/run/b", some 1, none⟩], some 1000, 0⟩

/-- The first slot refuses and the second accepts. -/
def secondAccepts : List Round :=
  [⟨some (.error ⟨.ConnectionRefused, some 111, bytes "Connection refused"⟩), id, 5, false, 7⟩,
    ⟨some (.ok ()), id, 8, false, 9⟩]

theorem connect_uds_second :
    tracked.sockets ≠ [] ∧ tracked.slot_count ≤ 2 ^ 32 ∧
      (connect_uds tracked ⟨fun _ => 0, fun _ => 0, fun _ => 0⟩ ∅ (some (.V4 0x0a000001)) 3 secondAccepts).result =
        some (.ok 1) ∧
      TriesOnce tracked (some (.V4 0x0a000001)) ⟨fun _ => 0, fun _ => 0, fun _ => 0⟩ secondAccepts
        (connect_uds tracked ⟨fun _ => 0, fun _ => 0, fun _ => 0⟩ ∅ (some (.V4 0x0a000001)) 3 secondAccepts) :=
  ⟨by decide, by decide, rfl, connect_uds_tries_once (by decide) (by decide) _ _ _ _ _⟩

end Symphony.Upstream
