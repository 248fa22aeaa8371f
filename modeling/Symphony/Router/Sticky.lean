import Symphony.Router.Balancer
/-!
# Sticky clients

Picks, rebinds and evictions of a balancer with affinity, one call after the other. A
client goes to the slot it was last bound to while that binding is fresh, and an evicted
entry is one that no pick would have gone by.
-/

namespace Symphony.Router.UdsBalancer

open Lib (Machine Table)

def evict_affinity (b : UdsBalancer) (entries : AffinityEntries) (now : Nat) : AffinityEntries :=
  match b.affinity with
  | none => entries
  | some ttl_ns => entries.retain fun entry => now - entry.last_seen_ns < ttl_ns

inductive Sticking where
  /-- The gauges are those of the moment. -/
  | pick (g : Gauges) (ip : IpAddr) (now : Nat)
  | rebind (ip : IpAddr) (idx now : Nat)
  | evict (now : Nat)

def sticking (b : UdsBalancer) : Machine AffinityEntries Sticking (Option Nat) where
  step entries
    | .pick g ip now => b.pick g entries (some ip) now
    | .rebind ip idx now => (none, b.rebind_affinity entries (some ip) idx now)
    | .evict now => (none, b.evict_affinity entries now)
  reading
    | .pick _ _ now | .rebind _ _ now | .evict now => some now

/-- A client is rebound to a slot there is. -/
def Present (b : UdsBalancer) (_ : AffinityEntries) : Sticking → Prop
  | .rebind _ idx _ => idx < b.slot_count
  | _ => True

/-- The slot that an event binds the client to, and when. -/
def binds (ip : IpAddr) : Sticking × Option Nat → Option AffinityEntry
  | (.pick _ ip' now, some idx) | (.rebind ip' idx now, _) => if ip' = ip then some ⟨idx, now⟩ else none
  | _ => none

/-- Its last binding, evicted or not. -/
def bound (log : List (Sticking × Option Nat)) (ip : IpAddr) : Option AffinityEntry :=
  log.foldl (fun last x => (binds ip x).or last) none

/-- The slot of a fresh binding that is not refusing, or else the best one. -/
def choice (b : UdsBalancer) (g : Gauges) (ttl_ns now : Nat) (last : Option AffinityEntry) : Nat :=
  match last with
  | some entry =>
    if now - entry.last_seen_ns < ttl_ns ∧ b.refusing g entry.socket_idx = false then entry.socket_idx
    else b.best_score_idx g
  | none => b.best_score_idx g

section Sticky

variable {b : UdsBalancer} {ttl_ns : Nat} {entries : AffinityEntries} {clock now : Nat}
  {log : List (Sticking × Option Nat)} {ip : IpAddr}

/-- The entry of a client is its last binding, unless that has expired. -/
structure Mirrored (b : UdsBalancer) (ttl_ns : Nat) (found last : Option AffinityEntry) (clock : Nat) : Prop where
  kept : found = last ∨ found = none ∧ ∀ entry, last = some entry → ttl_ns ≤ clock - entry.last_seen_ns
  exist : ∀ entry, last = some entry → entry.socket_idx < b.slot_count

theorem Mirrored.later {found last : Option AffinityEntry} (h : Mirrored b ttl_ns found last clock)
    (hclock : clock ≤ now) : Mirrored b ttl_ns found last now := by
  refine ⟨h.kept.imp_right fun ⟨hnone, hold⟩ => ⟨hnone, fun entry he => ?_⟩, h.exist⟩
  have := hold entry he
  omega

theorem Mirrored.evict {found last : Option AffinityEntry} (h : Mirrored b ttl_ns found last now) :
    Mirrored b ttl_ns (found.filter fun entry => now - entry.last_seen_ns < ttl_ns) last now := by
  refine ⟨?_, h.exist⟩
  rcases h.kept with rfl | ⟨rfl, hold⟩
  · cases found with
    | none => exact .inl rfl
    | some entry =>
      by_cases hfresh : now - entry.last_seen_ns < ttl_ns
      · exact .inl (by simp [hfresh])
      · exact .inr ⟨by simpa using hfresh, fun _ he => by cases he; omega⟩
  · exact .inr ⟨rfl, hold⟩

theorem bind_affinity_eq (haffinity : b.affinity = some ttl_ns) (hslots : b.slot_count ≤ 2 ^ 32) {idx : Nat}
    (hidx : idx < b.slot_count) : b.bind_affinity entries ip idx now = entries.insert ip ⟨idx, now⟩ := by
  rw [bind_affinity, haffinity, Option.isSome_some, if_pos rfl, Nat.mod_eq_of_lt (hidx.trans_le hslots)]

theorem pick_eq (haffinity : b.affinity = some ttl_ns) (hb : b.sockets ≠ []) (hslots : b.slot_count ≤ 2 ^ 32)
    {last : Option AffinityEntry} (h : Mirrored b ttl_ns (entries.lookup ip) last now) (g : Gauges) :
    b.pick g entries (some ip) now =
      (some (b.choice g ttl_ns now last), entries.insert ip ⟨b.choice g ttl_ns now last, now⟩) := by
  have hempty : b.sockets.isEmpty = false := by simpa using hb
  simp only [pick, hempty, haffinity, bind_affinity_eq haffinity hslots (best_score_idx_spec hb).1]
  rcases h.kept with heq | ⟨hnone, hold⟩
  · rw [heq]
    cases last with
    | none => rfl
    | some entry =>
      by_cases hgood : now - entry.last_seen_ns < ttl_ns ∧ b.refusing g entry.socket_idx = false
      · simp [choice, hgood, h.exist entry rfl]
      · simp only [choice, hgood, and_false, if_false]
        rfl
  · rw [hnone]
    cases last with
    | none => rfl
    | some entry => simp [choice, Nat.not_lt.2 (hold entry rfl)]

theorem bound_concat (x : Sticking × Option Nat) : bound (log ++ [x]) ip = (binds ip x).or (bound log ip) := by
  simp [bound]

/-- One client is bound, and nothing changes for the others. -/
theorem mirrored_insert {client : IpAddr} {idx : Nat} (hidx : idx < b.slot_count)
    (h : ∀ ip, Mirrored b ttl_ns (entries.lookup ip) (bound log ip) now) {x : Sticking × Option Nat}
    (hx : ∀ ip, binds ip x = if client = ip then some ⟨idx, now⟩ else none) (ip : IpAddr) :
    Mirrored b ttl_ns ((entries.insert client ⟨idx, now⟩).lookup ip) (bound (log ++ [x]) ip) now := by
  rw [bound_concat, hx]
  by_cases hip : client = ip
  · subst hip
    rw [if_pos rfl, AList.lookup_insert]
    exact ⟨.inl rfl, fun entry he => by cases he; exact hidx⟩
  · rw [if_neg hip, AList.lookup_insert_ne (Ne.symm hip)]
    exact h ip

theorem choice_lt (hb : b.sockets ≠ []) (g : Gauges) {last : Option AffinityEntry}
    (hlast : ∀ entry, last = some entry → entry.socket_idx < b.slot_count) :
    b.choice g ttl_ns now last < b.slot_count := by
  have hbest := (best_score_idx_spec (g := g) hb).1
  cases last with
  | none => exact hbest
  | some entry =>
    rw [choice]
    split
    · exact hlast entry rfl
    · exact hbest

theorem run_mirrored (haffinity : b.affinity = some ttl_ns) (hb : b.sockets ≠ []) (hslots : b.slot_count ≤ 2 ^ 32)
    (h : b.sticking.RunWhere (Present b) ∅ entries clock log) (ip : IpAddr) :
    Mirrored b ttl_ns (entries.lookup ip) (bound log ip) clock := by
  induction h generalizing ip with
  | nil => exact ⟨.inl rfl, nofun⟩
  | @step entries clock log e hrun hexists hclock ih =>
    cases e with
    | pick g client now =>
      have hlater := fun ip => (ih ip).later hclock
      have hpick : b.sticking.step entries (.pick g client now) = _ := pick_eq haffinity hb hslots (hlater client) g
      rw [hpick]
      exact mirrored_insert (choice_lt hb g (ih client).exist) hlater (fun _ => rfl) ip
    | rebind client idx now =>
      have hbind : (b.sticking.step entries (.rebind client idx now)).2 = entries.insert client ⟨idx, now⟩ := by
        simp only [sticking, rebind_affinity, haffinity]
        exact bind_affinity_eq haffinity hslots hexists
      rw [hbind]
      exact mirrored_insert hexists (fun ip => (ih ip).later hclock) (fun _ => rfl) ip
    | evict now =>
      have hlater : Mirrored b ttl_ns (entries.lookup ip) (bound log ip) now := (ih ip).later hclock
      rw [bound_concat]
      simp only [sticking, evict_affinity, haffinity, Table.lookup_retain]
      exact hlater.evict

/-- A pick goes by the client's last binding, whatever was picked, rebound and evicted in
between. -/
theorem pick_sticks (haffinity : b.affinity = some ttl_ns) (hb : b.sockets ≠ []) (hslots : b.slot_count ≤ 2 ^ 32)
    (h : b.sticking.RunWhere (Present b) ∅ entries clock log) (hclock : clock ≤ now) (g : Gauges) (ip : IpAddr) :
    (b.pick g entries (some ip) now).1 = some (b.choice g ttl_ns now (bound log ip)) := by
  rw [pick_eq haffinity hb hslots ((run_mirrored haffinity hb hslots h ip).later hclock)]

end Sticky

/-- A client of the first slot is rebound to the second one, and an eviction leaves it there. -/
theorem pick_sticks_evicted :
    let b := { workers with affinity := some 1000 }
    let g : Gauges := ⟨fun _ => 0, fun _ => 0, fun _ => 0⟩
    let run := b.sticking.exec ∅ [.pick g (.V4 1) 5, .rebind (.V4 1) 1 7, .evict 500]
    b.choice g 1000 900 (bound run.1 (.V4 1)) = 1 ∧ (b.pick g run.2 (some (.V4 1)) 900).1 = some 1 := by
  intro b g run
  have h₁ : b.sticking.RunWhere (Present b) ∅ _ 5 _ := .step (Sticking.pick g (.V4 1) 5) .nil trivial (by decide)
  have h₂ := h₁.step (Sticking.rebind (.V4 1) 1 7) Nat.one_lt_two (by decide)
  have h : b.sticking.RunWhere (Present b) ∅ run.2 500 run.1 := h₂.step (Sticking.evict 500) trivial (by decide)
  exact ⟨rfl, pick_sticks rfl (by decide) (by decide) h (by decide) g _⟩

end Symphony.Router.UdsBalancer
