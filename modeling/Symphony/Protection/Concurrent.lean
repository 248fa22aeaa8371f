import Symphony.Protection.Rate
/-!
# The concurrency limit under eviction

A check is two atomic steps: it looks up the peer's entry, or creates it, and later
tests and increments the counter of that entry. Each entry is evicted in one step and
each connection is released in one step, in any order. An entry that was looked up
but has no connection yet can be evicted, and the next check then counts on a new
one; where that never happens, the limit holds.
-/

namespace Symphony.Protection

open Lib (Machine Table)
open Sni (PeekInfo)

/-! ## Checks in two steps -/

/-- A connection's canonical address and the entry it holds. -/
structure Handle where
  ip : IpAddr
  id : Nat
  deriving DecidableEq, Repr

/-- The shared state, the connections between the two steps of their check, and those
allowed and not released yet. -/
structure Racing where
  core : ProtectionState
  checking : List Handle := []
  serving : List Handle := []

inductive RaceEvent where
  /-- `check_at` up to `get_or_create_state`. -/
  | lookup (peer_ip : IpAddr) (peek_info : PeekInfo) (now : Nat)
  /-- The rest of `check_at` on the entry that was looked up. -/
  | decide (h : Handle) (now : Nat)
  /-- `evict_at` on one entry. -/
  | evict (ip : IpAddr) (now : Nat)
  /-- A served connection closes. -/
  | close (h : Handle)

namespace Racing

def lookup (s : Racing) (peer_ip : IpAddr) (peek_info : PeekInfo) (now : Nat) : Option Decision × Racing :=
  let cfg := s.core.config
  match static_check cfg peer_ip.to_canonical peek_info with
  | some d => (some d, s)
  | none =>
    let r := get_or_create_state s.core peer_ip.to_canonical cfg.burst_fp cfg.sustained_burst_fp now
    (none, { s with core := r.2, checking := ⟨peer_ip.to_canonical, r.1⟩ :: s.checking })

def decide (s : Racing) (h : Handle) (now : Nat) : Option Decision × Racing :=
  if h ∈ s.checking then
    let r := ip_check s.core.config now (s.core.states h.id)
    (some (verdict h.id r.1), { s with
      core := s.core.setState h.id r.2
      checking := s.checking.erase h
      serving := if r.1 = none then h :: s.serving else s.serving })
  else (none, s)

/-- The entry of `ip` goes at `now`. -/
def evicts (s : Racing) (ip : IpAddr) (now : Nat) : Bool :=
  (s.core.ip_table.lookup ip).any fun id => !retained s.core.config now (s.core.states id)

def evict (s : Racing) (ip : IpAddr) (now : Nat) : Racing :=
  if s.evicts ip now then { s with core := { s.core with ip_table := s.core.ip_table.erase ip } } else s

def close (s : Racing) (h : Handle) : Racing :=
  if h ∈ s.serving then { s with core := release s.core h.id, serving := s.serving.erase h } else s

/-- The connections of `ip` that were allowed and not released. -/
def open_of (s : Racing) (ip : IpAddr) : Nat := s.serving.countP fun h => h.ip = ip

end Racing

def racing : Machine Racing RaceEvent (Option Decision) where
  step s
    | .lookup peer_ip peek_info now => s.lookup peer_ip peek_info now
    | .decide h now => s.decide h now
    | .evict ip now => (none, s.evict ip now)
    | .close h => (none, s.close h)
  reading _ := none

theorem get_or_create_config {st st₁ : ProtectionState} {ip : IpAddr} {burst_fp sustained_burst_fp now id : Nat}
    (h : get_or_create_state st ip burst_fp sustained_burst_fp now = (id, st₁)) : st₁.config = st.config := by
  unfold get_or_create_state at h
  split at h
  · cases h
    rfl
  · cases h
    rfl

/-- A check whose two steps follow each other is `check_at`. -/
theorem lookup_decide (s : Racing) (peer_ip : IpAddr) (peek_info : PeekInfo) (now : Nat) :
    (∃ d, s.lookup peer_ip peek_info now = (some d, s) ∧ check_at s.core peer_ip peek_info now = (d, s.core)) ∨
    ∃ id s₁, s.lookup peer_ip peek_info now = (none, s₁) ∧
      (s₁.decide ⟨peer_ip.to_canonical, id⟩ now).1 = some (check_at s.core peer_ip peek_info now).1 ∧
      (s₁.decide ⟨peer_ip.to_canonical, id⟩ now).2.core = (check_at s.core peer_ip peek_info now).2 := by
  unfold Racing.lookup
  rcases check_at_cases s.core peer_ip peek_info now with ⟨d, hd, he⟩ | ⟨hn, id, st₁, hg, he⟩
  · left
    refine ⟨d, ?_, he⟩
    dsimp only
    rw [hd]
  · right
    refine ⟨id, { s with core := st₁, checking := ⟨peer_ip.to_canonical, id⟩ :: s.checking }, ?_, ?_, ?_⟩
    · dsimp only
      rw [hn, hg]
    · have hcfg : st₁.config = s.core.config := get_or_create_config hg
      unfold Racing.decide
      rw [if_pos List.mem_cons_self, he, hcfg]
    · have hcfg : st₁.config = s.core.config := get_or_create_config hg
      unfold Racing.decide
      rw [if_pos List.mem_cons_self, he, hcfg]

/-- An eviction takes no entry that a check has looked up and not decided on yet. -/
def SparesChecking (s : Racing) : RaceEvent → Prop
  | .evict ip now => s.evicts ip now = true → ∀ h ∈ s.checking, h.ip ≠ ip
  | _ => True

/-! ## Where the limit holds -/

/-- Every connection of an address, checking or served, holds the entry the table has
for it, and the entry's counter is the number of those served. -/
structure Confined (cfg : ProtectionConfig) (s : Racing) : Prop where
  config : s.core.config = cfg
  allocated : ∀ {ip id}, s.core.ip_table.lookup ip = some id → id < s.core.next
  unshared : ∀ {ip ip' id}, s.core.ip_table.lookup ip = some id → s.core.ip_table.lookup ip' = some id → ip = ip'
  checking : ∀ h ∈ s.checking, s.core.ip_table.lookup h.ip = some h.id
  serving : ∀ h ∈ s.serving, s.core.ip_table.lookup h.ip = some h.id
  active : ∀ {ip id}, s.core.ip_table.lookup ip = some id → (s.core.states id).active = s.open_of ip
  bounded : ∀ ip, s.open_of ip ≤ cfg.max_concurrent_per_ip

section Steps

variable {cfg : ProtectionConfig} {s : Racing}

theorem Confined.fresh (cfg : ProtectionConfig) : Confined cfg ⟨.fresh cfg, [], []⟩ where
  config := rfl
  allocated h := by cases h
  unshared h := by cases h
  checking h hm := by cases hm
  serving h hm := by cases hm
  active h := by cases h
  bounded _ := Nat.zero_le _

/-- An address without an entry has no connection. -/
theorem Confined.none_open (h : Confined cfg s) {ip : IpAddr} (hl : s.core.ip_table.lookup ip = none) :
    s.open_of ip = 0 := by
  unfold Racing.open_of
  rw [List.countP_eq_zero]
  intro c hc hip
  obtain rfl : c.ip = ip := by simpa using hip
  rw [h.serving c hc] at hl
  cases hl

theorem Confined.owned (h : Confined cfg s) : Owned s.core := ⟨h.allocated, h.unshared⟩

theorem Confined.create (h : Confined cfg s) {ip : IpAddr} (hl : s.core.ip_table.lookup ip = none) (now : Nat) :
    Confined cfg { s with core := { s.core with
      ip_table := s.core.ip_table.insert ip s.core.next
      states := Function.update s.core.states s.core.next (IpState.new cfg.burst_fp cfg.sustained_burst_fp now)
      next := s.core.next + 1 } } := by
  have hne {c : Handle} (hc : s.core.ip_table.lookup c.ip = some c.id) : c.ip ≠ ip := by
    intro e
    rw [e, hl] at hc
    cases hc
  have howned := h.owned.create ip (IpState.new cfg.burst_fp cfg.sustained_burst_fp now)
  refine ⟨h.config, howned.allocated, howned.unshared, ?_, ?_, ?_, h.bounded⟩
  · intro c hc
    have hc := h.checking c hc
    exact (AList.lookup_insert_ne (hne hc)).trans hc
  · intro c hc
    have hc := h.serving c hc
    exact (AList.lookup_insert_ne (hne hc)).trans hc
  · intro ip' id hl'
    rcases Table.lookup_insert_cases hl' with ⟨rfl, rfl⟩ | hold
    · have h0 := h.none_open hl
      simp only [Function.update_self]
      exact h0.symm
    · have hid : id ≠ s.core.next := Nat.ne_of_lt (h.allocated hold)
      simp only [Function.update_of_ne hid]
      exact h.active hold

theorem Confined.lookup (h : Confined cfg s) (peer_ip : IpAddr) (info : PeekInfo) (now : Nat) :
    Confined cfg (s.lookup peer_ip info now).2 := by
  have hcfg := h.config
  subst hcfg
  unfold Racing.lookup
  dsimp only
  split
  · exact h
  · unfold get_or_create_state
    cases hl : s.core.ip_table.lookup peer_ip.to_canonical with
    | some id =>
      refine ⟨h.config, h.allocated, h.unshared, ?_, h.serving, h.active, h.bounded⟩
      intro c hc
      rcases List.mem_cons.1 hc with rfl | hc
      · exact hl
      · exact h.checking c hc
    | none =>
      have h' := h.create hl now
      refine ⟨h'.config, h'.allocated, h'.unshared, ?_, h'.serving, h'.active, h'.bounded⟩
      intro c hc
      rcases List.mem_cons.1 hc with rfl | hc
      · exact AList.lookup_insert _
      · exact h'.checking c hc

/-- Writing the entry of an address, with `n` more or fewer served on it. -/
theorem Confined.update (h : Confined cfg s) {c : Handle} (hc : s.core.ip_table.lookup c.ip = some c.id) (x : IpState)
    {checking serving : List Handle} (hcheck : ∀ d ∈ checking, d ∈ s.checking)
    (hserve : ∀ d ∈ serving, d ∈ s.serving ∨ d = c)
    (hother : ∀ ip, ip ≠ c.ip → serving.countP (fun d => d.ip = ip) = s.open_of ip)
    (hown : x.active = serving.countP fun d => d.ip = c.ip) (hle : x.active ≤ cfg.max_concurrent_per_ip) :
    Confined cfg ⟨s.core.setState c.id x, checking, serving⟩ := by
  refine ⟨h.config, h.allocated, h.unshared, fun d hd => h.checking d (hcheck d hd), ?_, ?_, ?_⟩
  · intro d hd
    rcases hserve d hd with hd | rfl
    · exact h.serving d hd
    · exact hc
  · intro ip id hl
    by_cases hip : ip = c.ip
    · subst hip
      have hl : s.core.ip_table.lookup c.ip = some id := hl
      rw [hc] at hl
      cases hl
      simp only [ProtectionState.setState, Function.update_self]
      exact hown
    · -- another address has another entry
      have hid : id ≠ c.id := by
        intro e
        subst e
        exact hip (h.unshared hl hc)
      simp only [ProtectionState.setState, Function.update_of_ne hid]
      exact (h.active hl).trans (hother ip hip).symm
  · intro ip
    by_cases hip : ip = c.ip
    · subst hip
      change serving.countP (fun d => d.ip = c.ip) ≤ _
      rw [← hown]
      exact hle
    · exact (hother ip hip).trans_le (h.bounded ip)

theorem Confined.decide (hm : 0 < cfg.max_concurrent_per_ip) (h : Confined cfg s) (c : Handle) (now : Nat) :
    Confined cfg (s.decide c now).2 := by
  unfold Racing.decide
  split
  · rename_i hc
    have hl := h.checking c hc
    have hact := ip_check_active hm now (s.core.states c.id)
    rw [h.active hl] at hact
    dsimp only
    rw [h.config]
    apply h.update hl
    · exact fun d hd => List.mem_of_mem_erase hd
    · intro d hd
      split at hd
      · exact (List.mem_cons.1 hd).symm
      · exact .inl hd
    · intro ip hip
      have hne : ¬ c.ip = ip := fun e => hip e.symm
      split
      · simp [Racing.open_of, hne]
      · rfl
    · rw [hact]
      split
      · simp [Racing.open_of]
      · rfl
    · rw [hact]
      split
      · rename_i hn
        -- an admission found the counter below the limit
        obtain ⟨-, -, hroom⟩ := ip_check_admits hn
        rw [crowded, h.active hl] at hroom
        simp only [hm, decide_true, Bool.true_and, decide_eq_false_iff_not] at hroom
        omega
      · exact h.bounded c.ip
  · exact h

theorem Confined.evict (h : Confined cfg s) {ip : IpAddr} {now : Nat}
    (hs : s.evicts ip now = true → ∀ c ∈ s.checking, c.ip ≠ ip) : Confined cfg (s.evict ip now) := by
  unfold Racing.evict
  split
  · rename_i he
    cases hl : s.core.ip_table.lookup ip with
    | none => simp [Racing.evicts, hl] at he
    | some id =>
      -- an evicted entry serves nobody, and no check holds it
      have h0 : s.open_of ip = 0 := by
        rw [← h.active hl]
        simp only [Racing.evicts, hl, Option.any_some, retained, Bool.not_eq_true', Bool.or_eq_false_iff,
          decide_eq_false_iff_not, Nat.not_lt, Nat.le_zero] at he
        exact he.1.1.2
      have hserve : ∀ c ∈ s.serving, c.ip ≠ ip := by
        intro c hc
        simpa using List.countP_eq_zero.1 h0 c hc
      have hsub {ip' id'} (hl' : (s.core.ip_table.erase ip).lookup ip' = some id') :
          s.core.ip_table.lookup ip' = some id' := (Table.lookup_erase_cases hl').2
      refine ⟨h.config, fun hl' => h.allocated (hsub hl'), fun h₁ h₂ => h.unshared (hsub h₁) (hsub h₂), ?_, ?_,
        fun hl' => h.active (hsub hl'), h.bounded⟩
      · intro c hc
        exact (AList.lookup_erase_ne (hs he c hc)).trans (h.checking c hc)
      · intro c hc
        exact (AList.lookup_erase_ne (hserve c hc)).trans (h.serving c hc)
  · exact h

theorem Confined.close (h : Confined cfg s) (c : Handle) : Confined cfg (s.close c) := by
  unfold Racing.close
  split
  · rename_i hc
    have hl := h.serving c hc
    have hcount (ip : IpAddr) : (s.serving.erase c).countP (fun d => d.ip = ip) =
        s.open_of ip - if c.ip = ip then 1 else 0 := by
      unfold Racing.open_of
      rw [List.countP_erase]
      simp [hc]
    have hpos : 0 < s.open_of c.ip := List.countP_pos_iff.2 ⟨c, hc, by simp⟩
    have hb := h.bounded c.ip
    apply h.update hl
    · exact fun d hd => hd
    · exact fun d hd => .inl (List.mem_of_mem_erase hd)
    · intro ip hip
      rw [hcount, if_neg fun e => hip e.symm, Nat.sub_zero]
    · rw [hcount, if_pos rfl, IpState.release, h.active hl]
    · rw [IpState.release, h.active hl]
      change s.open_of c.ip - 1 ≤ _
      omega
  · exact h

end Steps

/-- Where no eviction takes an entry between the two steps of a check that looked it up,
no address ever has more connections open than the limit. -/
theorem concurrency_limit {cfg : ProtectionConfig} (hm : 0 < cfg.max_concurrent_per_ip) {s : Racing} {clock : Nat}
    {log : List (RaceEvent × Option Decision)} (h : racing.RunWhere SparesChecking ⟨.fresh cfg, [], []⟩ s clock log)
    (ip : IpAddr) : s.open_of ip ≤ cfg.max_concurrent_per_ip := by
  have hc : Confined cfg s := by
    apply h.inv fun s _ _ => Confined cfg s
    · exact .fresh cfg
    · intro s _ _ e hs hok _
      cases e with
      | lookup peer_ip info now => exact hs.lookup peer_ip info now
      | decide c now => exact hs.decide hm c now
      | evict ip now => exact hs.evict hok
      | close c => exact hs.close c
  exact hc.bounded ip

/-- One connection at a time. -/
def oneAtATime : ProtectionConfig := { max_concurrent_per_ip := 1 }

/-- A first connection is served; an eviction and a second check leave it the only one. -/
theorem concurrency_limit_second_check : ∃ s clock log,
    racing.RunWhere SparesChecking ⟨.fresh oneAtATime, [], []⟩ s clock log ∧ s.open_of (.V4 0x7f000001) = 1 ∧
      s.open_of (.V4 0x7f000001) ≤ oneAtATime.max_concurrent_per_ip := by
  have h₀ : racing.RunWhere SparesChecking ⟨.fresh oneAtATime, [], []⟩ ⟨.fresh oneAtATime, [], []⟩ 0 [] := .nil
  have h₁ := h₀.step (RaceEvent.lookup (.V4 0x7f000001) .default 0) trivial (Nat.le_refl _)
  have h₂ := h₁.step (RaceEvent.decide ⟨.V4 0x7f000001, 0⟩ 0) trivial (Nat.le_refl _)
  have h₃ := h₂.step (RaceEvent.evict (.V4 0x7f000001) 0) (fun he => absurd he (by decide +kernel)) (Nat.le_refl _)
  have h₄ := h₃.step (RaceEvent.lookup (.V4 0x7f000001) .default 0) trivial (Nat.le_refl _)
  have h := h₄.step (RaceEvent.decide ⟨.V4 0x7f000001, 0⟩ 0) trivial (Nat.le_refl _)
  exact ⟨_, _, _, h, by decide +kernel, concurrency_limit (by decide) h _⟩

/-- Two connections at once under a limit of one: the first check's entry is evicted
before it is decided, and the second check counts on a new one. -/
theorem concurrency_limit_raced : ∃ s clock log, racing.Run ⟨.fresh oneAtATime, [], []⟩ s clock log ∧
    oneAtATime.max_concurrent_per_ip < s.open_of (.V4 0x7f000001) := by
  have h₀ : racing.Run ⟨.fresh oneAtATime, [], []⟩ ⟨.fresh oneAtATime, [], []⟩ 0 [] := .nil
  have h₁ := h₀.step (RaceEvent.lookup (.V4 0x7f000001) .default 0) (Nat.le_refl _)
  have h₂ := h₁.step (RaceEvent.evict (.V4 0x7f000001) 0) (Nat.le_refl _)
  have h₃ := h₂.step (RaceEvent.lookup (.V4 0x7f000001) .default 0) (Nat.le_refl _)
  have h₄ := h₃.step (RaceEvent.decide ⟨.V4 0x7f000001, 0⟩ 0) (Nat.le_refl _)
  have h := h₄.step (RaceEvent.decide ⟨.V4 0x7f000001, 1⟩ 0) (Nat.le_refl _)
  exact ⟨_, _, _, h, by decide +kernel⟩

end Symphony.Protection
