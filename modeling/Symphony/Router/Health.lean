import Symphony.Router.Heap
/-!
# Health cells of a new route

A slot takes over the cell that its path had in the route before. A path that route did
not have gets a new cell, which refuses if the route was down (`Takes`). Cells are there
for every slot of a route with failover, and a route without it has none
(`Route.Tracked`). Every route that a build installs continues the one before in this way
(`judged_continues`), through a rebuild, a carried route whose slots are made anew, or a
TCP address.
-/

namespace Symphony.Router

open Lib (Act)
open Symphony.Failover (FailoverPolicy)

/-! ## Slots -/

def Destination.slots : Destination → List UdsSlot
  | .Tcp _ => []
  | .UdsSet _ b => b.sockets

/-- The slots of an optional destination. -/
def slotsOf (d : Option Destination) : List UdsSlot := d.elim [] Destination.slots

/-- A set has a socket. -/
def Socketed (d : Option Destination) : Prop := ∀ arc b, d = some (.UdsSet arc b) → b.sockets ≠ []

/-- A UDS upstream lists a path, as each of `parse_upstream_spec` does. -/
def UpstreamSpec.Named : UpstreamSpec → Prop
  | .Tcp _ _ => True
  | .Uds paths .. => paths ≠ []

/-- All slots are tracked or none is, and the cells are allocated. -/
def TrackedSlots (h : Heap) (tracked : Bool) (slots : List UdsSlot) : Prop :=
  ∀ s ∈ slots, s.health.isSome = tracked ∧ ∀ c, s.health = some c → c < h.next

/-- The slot has a cell that its path had before, or, if it had none, a cell that refuses
when `down`. -/
def UdsSlot.Takes (before : List UdsSlot) (down : Bool) (h : Heap) (s : UdsSlot) : Prop :=
  ∃ c, s.health = some c ∧ c < h.next ∧
    ((∃ s₀ ∈ before, s₀.path = s.path ∧ s₀.health = some c) ∨
      ((∀ s₀ ∈ before, s₀.path = s.path → s₀.health = none) ∧ SlotHealth.refusing h c = down))

/-- What the slots built for a route with failover or without it have. -/
def Continued (before : List UdsSlot) (down tracked : Bool) (h : Heap) (slots : List UdsSlot) : Prop :=
  ∀ s ∈ slots, if tracked then s.Takes before down h else s.health = none

variable {slots before : List UdsSlot} {track : Bool} {c : SlotHealth}

theorem refusing_extends {h h' : Heap} (hx : h.Extends h') (hc : c < h.next) :
    SlotHealth.refusing h' c = SlotHealth.refusing h c := by
  unfold SlotHealth.refusing
  rw [hx.cells c hc]

theorem TrackedSlots.mono {h h' : Heap} {tracked : Bool} (hs : TrackedSlots h tracked slots) (hn : h.next ≤ h'.next) :
    TrackedSlots h' tracked slots := by
  intro s hm
  obtain ⟨ht, hc⟩ := hs s hm
  exact ⟨ht, fun c he => Nat.lt_of_lt_of_le (hc c he) hn⟩

theorem UdsSlot.Takes.extends {down : Bool} {h h' : Heap} {s : UdsSlot} (hs : s.Takes before down h)
    (hx : h.Extends h') : s.Takes before down h' := by
  obtain ⟨c, hc, hlt, hcell⟩ := hs
  refine ⟨c, hc, Nat.lt_of_lt_of_le hlt hx.next, ?_⟩
  rwa [refusing_extends hx hlt]

theorem Continued.extends {down tracked : Bool} {h h' : Heap} (hs : Continued before down tracked h slots)
    (hx : h.Extends h') : Continued before down tracked h' slots := by
  intro s hm
  have := hs s hm
  cases tracked with
  | true => exact UdsSlot.Takes.extends this hx
  | false => exact this

theorem Continued.tracked {down tracked : Bool} {h : Heap} (hs : Continued before down tracked h slots) :
    TrackedSlots h tracked slots := by
  intro s hm
  have := hs s hm
  cases tracked with
  | true =>
    obtain ⟨c, hc, hlt, -⟩ := this
    rw [hc]
    refine ⟨rfl, ?_⟩
    rintro c' ⟨⟩
    exact hlt
  | false =>
    change s.health = none at this
    rw [this]
    refine ⟨rfl, ?_⟩
    rintro c ⟨⟩

/-! ## Building slots -/

theorem mapM_map {α β γ : Type} {f : α → Alloc β} {g : β → γ} {g' : α → γ} (hf : ∀ a h, g (f a h).1 = g' a)
    (l : List α) (h : Heap) : (l.mapM f h).1.map g = l.map g' := by
  induction l generalizing h with
  | nil => rfl
  | cons a l ih =>
    rw [List.mapM_cons, List.map_cons, ← ih (f a h).2, ← hf a h]
    rfl

/-- What each call of a loop of allocations gives, in the heap at the end. -/
theorem mapM_each {α β : Type} {f : α → Alloc β} (hgrow : ∀ a, Grows (f a)) {Q : Heap → β → Prop}
    (hext : ∀ {h h' b}, h.Extends h' → Q h b → Q h' b) {h₀ : Heap} (l : List α)
    (hQ : ∀ a ∈ l, ∀ h, h₀.Extends h → Q (f a h).2 (f a h).1) {h : Heap} (hh : h₀.Extends h) :
    ∀ b ∈ (l.mapM f h).1, Q (l.mapM f h).2 b := by
  induction l generalizing h with
  | nil =>
    intro b hb
    cases hb
  | cons a l ih =>
    rw [List.mapM_cons]
    intro b hb
    change b ∈ (f a h).1 :: (l.mapM f (f a h).2).1 at hb
    change Q (l.mapM f (f a h).2).2 b
    rcases List.mem_cons.1 hb with rfl | hb
    · exact hext (grows_mapM hgrow l _) (hQ a List.mem_cons_self h hh)
    · exact ih (fun a ha => hQ a (List.mem_cons_of_mem _ ha)) (hh.trans (hgrow a h)) b hb

section Slots

variable {h₀ h : Heap} {previous : Option UdsBalancer} {tracked refuse_new : Bool}

theorem inherited_health_some (p : UdsBalancer) (path : Bytes) :
    UdsBalancer.inherited_health (some p) path = (p.sockets.find? fun q => q.path = path).bind (·.health) := rfl

theorem inherited_mem {path : Bytes} (hi : UdsBalancer.inherited_health previous path = some c) :
    ∃ p, previous = some p ∧ ∃ s₀ ∈ p.sockets, s₀.path = path ∧ s₀.health = some c := by
  cases previous with
  | none => cases hi
  | some p =>
    rw [inherited_health_some] at hi
    obtain ⟨s₀, hfind, hc⟩ := Option.bind_eq_some_iff.1 hi
    exact ⟨p, rfl, s₀, List.mem_of_find?_eq_some hfind, by simpa using List.find?_some hfind, hc⟩

/-- The cells before are all there or all missing, so the first slot with the path tells for
all of them. -/
theorem not_inherited {path : Bytes} (hp : ∀ p, previous = some p → TrackedSlots h₀ tracked p.sockets)
    (hi : UdsBalancer.inherited_health previous path = none) :
    ∀ s₀ ∈ previous.elim [] UdsBalancer.sockets, s₀.path = path → s₀.health = none := by
  intro s₀ hm hpath
  cases previous with
  | none => cases hm
  | some p =>
    rw [inherited_health_some] at hi
    obtain ⟨s₁, hfind⟩ : ∃ s₁, p.sockets.find? (fun q => q.path = path) = some s₁ :=
      Option.isSome_iff_exists.1 (List.find?_isSome.2 ⟨s₀, hm, by simpa using hpath⟩)
    rw [hfind, Option.bind_some] at hi
    have hs₁ := (hp p rfl s₁ (List.mem_of_find?_eq_some hfind)).1
    have hs₀ := (hp p rfl s₀ hm).1
    rw [hi, Option.isSome_none] at hs₁
    rw [← hs₁] at hs₀
    exact Option.not_isSome_iff_eq_none.1 (Bool.eq_false_iff.1 hs₀)

theorem new_refusing (refusing : Bool) (h : Heap) :
    SlotHealth.refusing (SlotHealth.new refusing h).2 (SlotHealth.new refusing h).1 = refusing := by
  change decide ((if h.next = h.next then (if refusing then max h.now_ns 1 else 0) else _) ≠ 0) = refusing
  cases refusing
  · simp
  · simp

theorem track_slot_takes (hp : ∀ p, previous = some p → TrackedSlots h₀ tracked p.sockets) (hh : h₀.Extends h)
    (s : UdsSlot) :
    (UdsBalancer.track_slot previous refuse_new s h).1.Takes (previous.elim [] UdsBalancer.sockets) refuse_new
      (UdsBalancer.track_slot previous refuse_new s h).2 := by
  unfold UdsBalancer.track_slot
  cases hi : UdsBalancer.inherited_health previous s.path with
  | some c =>
    obtain ⟨p, rfl, s₀, hmem, hpath, hc⟩ := inherited_mem hi
    have hlt := (hp p rfl s₀ hmem).2 c hc
    exact ⟨c, rfl, Nat.lt_of_lt_of_le hlt hh.next, .inl ⟨s₀, hmem, hpath, hc⟩⟩
  | none => exact ⟨h.next, rfl, Nat.lt_succ_self _, .inr ⟨not_inherited hp hi, new_refusing refuse_new h⟩⟩

variable (refuse_new) in
theorem with_health_takes (hp : ∀ p, previous = some p → TrackedSlots h₀ tracked p.sockets) (hh : h₀.Extends h)
    (b : UdsBalancer) :
    (b.with_health previous refuse_new h).1.sockets.map (·.path) = b.sockets.map (·.path) ∧
      ∀ s ∈ (b.with_health previous refuse_new h).1.sockets,
        s.Takes (previous.elim [] UdsBalancer.sockets) refuse_new (b.with_health previous refuse_new h).2 := by
  constructor
  · apply mapM_map
    intro s h
    unfold UdsBalancer.track_slot
    cases UdsBalancer.inherited_health previous s.path <;> rfl
  · apply mapM_each (grows_track_slot previous refuse_new)
      (Q := fun h s => s.Takes (previous.elim [] UdsBalancer.sockets) refuse_new h) _ _ _ hh
    · intro h h' s hx ht
      exact ht.extends hx
    · intro s _ h hx
      exact track_slot_takes hp hx s

/-- A new balancer with the CPU samplers of `sampled` has no health cells. -/
theorem fresh_slots (slots : List UdsSlotSpec) (ip_affinity : Bool) (ttl : Nat) (sampled : Option UdsBalancer)
    (h : Heap) :
    ((UdsBalancer.new slots ip_affinity ttl h).1.with_cpu_from sampled).sockets.map (fun s => (s.path, s.health)) =
      slots.map fun a => (a.path, none) := by
  have hnew : (UdsBalancer.new slots ip_affinity ttl h).1.sockets.map (fun s => (s.path, s.health)) =
      slots.map fun a => (a.path, none) := by
    apply mapM_map
    intro a h
    unfold UdsBalancer.new_slot
    cases a.pid <;> cases a.tid <;> rfl
  rw [← hnew]
  cases sampled with
  | none => rfl
  | some p =>
    unfold UdsBalancer.with_cpu_from
    dsimp only
    split <;> exact List.map_map ..

variable (refuse_new) in
/-- The slots of a balancer that were not tracked, once they are if `track`. -/
theorem tracked_slots (hp : ∀ p, previous = some p → TrackedSlots h₀ tracked p.sockets) (hh : h₀.Extends h)
    (track : Bool) {b : UdsBalancer} {slots : List UdsSlotSpec}
    (hb : b.sockets.map (fun s => (s.path, s.health)) = slots.map fun a => (a.path, none)) :
    let m := if track then b.with_health previous refuse_new else pure b
    (m h).1.sockets.map (·.path) = slots.map (·.path) ∧
      Continued (previous.elim [] UdsBalancer.sockets) refuse_new track (m h).2 (m h).1.sockets := by
  have hpaths : b.sockets.map (·.path) = slots.map (·.path) := by
    have := congrArg (List.map Prod.fst) hb
    rwa [List.map_map, List.map_map] at this
  cases track with
  | true =>
    obtain ⟨hpaths', htakes⟩ := with_health_takes refuse_new hp hh b
    exact ⟨hpaths'.trans hpaths, htakes⟩
  | false =>
    refine ⟨hpaths, fun s hs => ?_⟩
    obtain ⟨a, -, ha⟩ := List.mem_map.1 (hb ▸ List.mem_map_of_mem hs)
    exact (congrArg Prod.snd ha).symm

variable (refuse_new) in
theorem build_uds_set_continued (hp : ∀ p, previous = some p → TrackedSlots h₀ tracked p.sockets) (hh : h₀.Extends h)
    (upstreams : List UpstreamSpec) (track : Bool) :
    (build_uds_set upstreams previous track refuse_new h).1.slots.map (·.path) =
        (upstreams.flatMap upstream_slots).map (·.path) ∧
      Continued (previous.elim [] UdsBalancer.sockets) refuse_new track
        (build_uds_set upstreams previous track refuse_new h).2
          (build_uds_set upstreams previous track refuse_new h).1.slots := by
  have hnew := fresh_slots (upstreams.flatMap upstream_slots) (affinity_settings upstreams).1
    (affinity_settings upstreams).2 previous h
  have hgrow := hh.trans (grows_balancer (upstreams.flatMap upstream_slots) (affinity_settings upstreams).1
    (affinity_settings upstreams).2 h)
  obtain ⟨hpaths, hcont⟩ := tracked_slots refuse_new hp hgrow track hnew
  cases track with
  | true => exact ⟨hpaths, hcont.extends (grows_alloc _)⟩
  | false => exact ⟨hpaths, hcont.extends (grows_alloc _)⟩

theorem build_uds_set_kind (upstreams : List UpstreamSpec) (previous : Option UdsBalancer) (track refuse_new : Bool)
    (h : Heap) : ∃ arc b, (build_uds_set upstreams previous track refuse_new h).1 = .UdsSet arc b := by
  cases track with
  | true => exact ⟨_, _, rfl⟩
  | false => exact ⟨_, _, rfl⟩

/-- Slots of a balancer that are tracked now, or no longer. -/
theorem retracked_continued {b : UdsBalancer} {down : Bool} (hb : TrackedSlots h₀ tracked b.sockets) (hh : h₀.Extends h)
    (hdown : tracked = false → down = false) (track : Bool) :
    (b.retracked track h).1.sockets.map (·.path) = b.sockets.map (·.path) ∧
      Continued b.sockets down track (b.retracked track h).2 (b.retracked track h).1.sockets := by
  let slots := b.sockets.map fun s => (⟨s.path, s.cpu.map (·.pid), s.cpu.map (·.tid)⟩ : UdsSlotSpec)
  have hnew := fresh_slots slots b.affinity.isSome (b.affinity.elim 0 (· / 1000000)) (some b) h
  have hgrow := hh.trans (grows_balancer slots b.affinity.isSome (b.affinity.elim 0 (· / 1000000)) h)
  have hp : ∀ p, some b = some p → TrackedSlots h₀ tracked p.sockets := by
    rintro p ⟨⟩
    exact hb
  obtain ⟨hpaths, hcont⟩ := tracked_slots false hp hgrow track hnew
  replace hpaths := hpaths.trans (List.map_map ..)
  refine ⟨hpaths, ?_⟩
  cases track with
  | false => exact hcont
  | true =>
    intro s hs
    obtain ⟨c, hc, hlt, hcell⟩ := hcont s hs
    refine ⟨c, hc, hlt, ?_⟩
    rcases hcell with hsame | ⟨hnone, hrefusing⟩
    · exact .inl hsame
    · -- the path was there before, so nothing was tracked and the route was not down
      obtain ⟨s₀, hs₀, hpath⟩ := List.mem_map.1 (hpaths ▸ List.mem_map_of_mem hs)
      have ht := (hb s₀ hs₀).1
      rw [hnone s₀ hs₀ hpath, Option.isSome_none] at ht
      exact .inr ⟨hnone, hrefusing.trans (hdown ht.symm).symm⟩

end Slots

/-! ## Destinations -/

/-- What a destination built for a route with failover or without it has. It is a set without
any socket only if the one before was, or the upstreams are not `named`. -/
structure Resumes (named : Prop) (before : Option Destination) (down tracked : Bool) (h : Heap)
    (d : Option Destination) : Prop where
  slots : Continued (slotsOf before) down tracked h (slotsOf d)
  sockets : named → Socketed before → Socketed d

section Destinations

variable {h₀ h h' : Heap} {tracked down : Bool} {named : Prop} {before : Option Destination}

theorem Resumes.extends {d : Option Destination} (hd : Resumes named before down tracked h d) (hx : h.Extends h') :
    Resumes named before down tracked h' d :=
  ⟨hd.slots.extends hx, hd.sockets⟩

theorem resumes_none : Resumes named before down tracked h none := by
  refine ⟨?_, fun _ _ => nofun⟩
  intro s hs
  cases hs

theorem resumes_tcp {addr : SocketAddr} : Resumes named before down tracked h (some (.Tcp addr)) := by
  refine ⟨?_, fun _ _ => nofun⟩
  intro s hs
  cases hs

theorem balancer_slots (d : Option Destination) :
    (d.bind Destination.balancer).elim [] UdsBalancer.sockets = slotsOf d := by
  cases d with
  | none => rfl
  | some d => cases d <;> rfl

theorem balancer_tracked {d : Option Destination} (hd : TrackedSlots h₀ tracked (slotsOf d)) :
    ∀ p, d.bind Destination.balancer = some p → TrackedSlots h₀ tracked p.sockets := by
  intro p hp
  rw [← balancer_slots, hp] at hd
  exact hd

/-- A spec that lists a path has a slot. -/
theorem upstream_slots_ne_nil {u : UpstreamSpec} (hu : u.Named) (hk : ∀ host port, u ≠ .Tcp host port)
    (rest : List UpstreamSpec) : (u :: rest).flatMap upstream_slots ≠ [] := by
  intro he
  have hnil := List.flatMap_eq_nil_iff.1 he _ List.mem_cons_self
  cases u with
  | Tcp host port => exact hk host port rfl
  | Uds paths =>
    rw [upstream_slots, List.map_eq_nil_iff, List.zipIdx_eq_nil_iff] at hnil
    exact hu hnil

theorem build_destination_resumes {d : Destination} (hbefore : TrackedSlots h₀ tracked (slotsOf before))
    (hh : h₀.Extends h) {upstreams : List UpstreamSpec} (hn : named → ∀ u ∈ upstreams, u.Named) {refuse_new : Bool}
    (hd : build_destination_for upstreams (before.bind Destination.balancer) track refuse_new h = (.ok d, h')) :
    Resumes named before refuse_new track h' (some d) ∧
      ((∀ u ∈ upstreams, is_h2 u = true) → ∃ arc b, d = .UdsSet arc b) := by
  rcases build_destination_ok hd with ⟨host, port, rest, addr, rfl, rfl, rfl⟩ |
    ⟨⟨paths, pids, tids, ip_affinity, ttl, protocol, rest, rfl⟩, hset⟩
  · refine ⟨resumes_tcp, ?_⟩
    intro hall
    cases hall _ List.mem_cons_self
  · obtain ⟨hpaths, hcont⟩ := build_uds_set_continued refuse_new (balancer_tracked hbefore) hh
      (.Uds paths pids tids ip_affinity ttl protocol :: rest) track
    obtain ⟨arc, b, hkind⟩ := build_uds_set_kind (.Uds paths pids tids ip_affinity ttl protocol :: rest)
      (before.bind Destination.balancer) track refuse_new h
    rw [hset] at hpaths hcont hkind
    rw [balancer_slots] at hcont
    obtain rfl : d = .UdsSet arc b := hkind
    refine ⟨⟨hcont, ?_⟩, fun _ => ⟨arc, b, rfl⟩⟩
    rintro hnamed - _ _ ⟨⟩ he
    change b.sockets.map _ = _ at hpaths
    rw [he] at hpaths
    exact upstream_slots_ne_nil (hn hnamed _ List.mem_cons_self) nofun rest (List.map_eq_nil_iff.1 hpaths.symm)

/-- The destinations a route is built with continue those of the route before. -/
theorem build_destinations_resume {spec : RouteSpec} (inherit : Inherit) {d : Destination} {d₂ : Option Destination}
    (hd : TrackedSlots h₀ tracked (slotsOf (inherit.previous.map (·.destination))))
    (hd₂ : TrackedSlots h₀ tracked (slotsOf (inherit.previous.bind (·.destination_h2)))) (hh : h₀.Extends h)
    (hn : named → ∀ u ∈ spec.upstreams, u.Named) (hb : build_destinations spec inherit h = (.ok (d, d₂), h')) :
    Resumes named (inherit.previous.map (·.destination)) inherit.refuse_new inherit.track_health h' (some d) ∧
      Resumes named (inherit.previous.bind (·.destination_h2)) inherit.refuse_new inherit.track_health h' d₂ ∧
      ∀ x, d₂ = some x → ∃ arc b, x = .UdsSet arc b := by
  have hfilter {p : UpstreamSpec → Bool} (hnamed : named) : ∀ u ∈ spec.upstreams.filter p, u.Named := fun u hu =>
    hn hnamed u (List.mem_filter.1 hu).1
  rcases build_destinations_ok hb with ⟨rfl, rfl, rfl⟩ | ⟨h₁, hdest, hh2⟩
  · exact ⟨resumes_tcp, resumes_none, fun x hx => by cases hx⟩
  have hgrow₁ : h.Extends h₁ := (grows_build_destination _ _ _ _).of_eq hdest
  have hcont := (build_destination_resumes hd hh hfilter hdest).1
  rcases hh2 with ⟨rfl, rfl⟩ | ⟨x, rfl, hx⟩
  · exact ⟨hcont, resumes_none, fun x hx => by cases hx⟩
  · -- the default destination was built first, so the heap has grown since
    have hgrow₂ : h₁.Extends h' := (grows_build_destination _ _ _ _).of_eq hx
    obtain ⟨hcont₂, hkind⟩ := build_destination_resumes hd₂ (hh.trans hgrow₁) hfilter hx
    refine ⟨hcont.extends hgrow₂, hcont₂, ?_⟩
    rintro y ⟨⟩
    exact hkind fun u hu => (List.mem_filter.1 hu).2

theorem kept_continued (hs : TrackedSlots h tracked slots) (htrack : slots.any (·.health.isSome) = track) :
    Continued slots down track h slots := by
  intro s hm
  obtain ⟨ht, hlt⟩ := hs s hm
  have heq : s.health.isSome = track := by
    rw [← htrack, ht, Bool.eq_iff_iff, List.any_eq_true]
    constructor
    · intro h
      exact ⟨s, hm, ht.trans h⟩
    · rintro ⟨s', hm', h⟩
      exact (hs s' hm').1.symm.trans h
  cases track with
  | true =>
    obtain ⟨c, hc⟩ := Option.isSome_iff_exists.1 heq
    exact ⟨c, hc, hlt c hc, .inl ⟨s, hm, rfl, hc⟩⟩
  | false => exact Option.not_isSome_iff_eq_none.1 (Bool.eq_false_iff.1 heq)

theorem kept_resumes {d : Option Destination} (hd : TrackedSlots h tracked (slotsOf d))
    (htrack : ∀ arc b, d = some (.UdsSet arc b) → b.tracks_health = track) : Resumes named d down track h d := by
  rcases d with _ | addr | ⟨arc, b⟩
  · exact resumes_none
  · exact resumes_tcp
  · exact ⟨kept_continued hd (htrack arc b rfl), fun _ hs => hs⟩

theorem retracked_resumes {d : Destination} (hd : TrackedSlots h₀ tracked d.slots) (hh : h₀.Extends h)
    (hdown : tracked = false → down = false) (track : Bool) :
    Resumes named (some d) down track (retracked track d h).2 (some (retracked track d h).1) ∧
      ((∃ arc b, d = .UdsSet arc b) → ∃ arc b, (retracked track d h).1 = .UdsSet arc b) := by
  cases d with
  | Tcp addr =>
    refine ⟨resumes_tcp, ?_⟩
    rintro ⟨arc, b, he⟩
    cases he
  | UdsSet arc b =>
    obtain ⟨hpaths, hcont⟩ := retracked_continued hd hh hdown track
    refine ⟨⟨hcont.extends (grows_alloc _), ?_⟩, fun _ => ⟨_, _, rfl⟩⟩
    intro _ hs arc' b' hb he
    obtain rfl : (b.retracked track h).1 = b' := (Destination.UdsSet.inj (Option.some.inj hb)).2
    rw [he] at hpaths
    exact hs arc b rfl (List.map_eq_nil_iff.1 hpaths.symm)

end Destinations

/-! ## Routes -/

/-- What the live table's routes keep to. -/
structure Route.Tracked (h : Heap) (r : Route) : Prop where
  slots : TrackedSlots h r.failover.isSome r.destination.slots
  slots_h2 : TrackedSlots h r.failover.isSome (slotsOf r.destination_h2)
  tcp : ∀ f addr, r.failover = some f → r.destination = .Tcp addr → f.tcp_health.isSome = true
  tcp_cell : ∀ f c, r.failover = some f → f.tcp_health = some c → c < h.next
  h2 : ∀ d, r.destination_h2 = some d → ∃ arc b, d = .UdsSet arc b

/-- The cell of a TCP destination is the one its address had before, or, if it had none,
refuses when `down`. -/
def TakesTcp (previous : Option Route) (down : Bool) (h : Heap) (addr : SocketAddr) (cell : Option SlotHealth) : Prop :=
  ∃ c, cell = some c ∧ c < h.next ∧ (inherited_tcp_health previous addr = some c ∨
    (inherited_tcp_health previous addr = none ∧ SlotHealth.refusing h c = down))

/-- The route's cells continue those of the route before it. -/
structure Route.Continues (named : Prop) (previous : Option Route) (down : Bool) (h : Heap) (r : Route) : Prop where
  default : Resumes named (previous.map (·.destination)) down r.failover.isSome h (some r.destination)
  for_h2 : Resumes named (previous.bind (·.destination_h2)) down r.failover.isSome h r.destination_h2
  tcp : ∀ f addr, r.failover = some f → r.destination = .Tcp addr → TakesTcp previous down h addr f.tcp_health
  uds : ∀ f arc b, r.failover = some f → r.destination = .UdsSet arc b → f.tcp_health = none
  h2 : ∀ d, r.destination_h2 = some d → ∃ arc b, d = .UdsSet arc b

section Routes

variable {h₀ h h' : Heap} {previous : Option Route} {down : Bool} {r : Route} {named : Prop}

theorem Route.Tracked.mono (hr : r.Tracked h) (hn : h.next ≤ h'.next) : r.Tracked h' where
  slots := hr.slots.mono hn
  slots_h2 := hr.slots_h2.mono hn
  tcp := hr.tcp
  tcp_cell f c hf hc := Nat.lt_of_lt_of_le (hr.tcp_cell f c hf hc) hn
  h2 := hr.h2

theorem TakesTcp.extends {addr : SocketAddr} {cell : Option SlotHealth} (ht : TakesTcp previous down h addr cell)
    (hx : h.Extends h') : TakesTcp previous down h' addr cell := by
  obtain ⟨c, hc, hlt, hcell⟩ := ht
  refine ⟨c, hc, Nat.lt_of_lt_of_le hlt hx.next, ?_⟩
  rwa [refusing_extends hx hlt]

theorem Route.Continues.extends (hr : r.Continues named previous down h) (hx : h.Extends h') :
    r.Continues named previous down h' where
  default := hr.default.extends hx
  for_h2 := hr.for_h2.extends hx
  tcp f addr hf hd := (hr.tcp f addr hf hd).extends hx
  uds := hr.uds
  h2 := hr.h2

theorem Route.Continues.tracked (hr : r.Continues named previous down h) : r.Tracked h where
  slots := hr.default.slots.tracked
  slots_h2 := hr.for_h2.slots.tracked
  tcp f addr hf hd := by
    obtain ⟨c, hc, -⟩ := hr.tcp f addr hf hd
    rw [hc]
    rfl
  tcp_cell f c hf hc := by
    cases hd : r.destination with
    | Tcp addr =>
      obtain ⟨c', hc', hlt, -⟩ := hr.tcp f addr hf hd
      rw [hc] at hc'
      cases hc'
      exact hlt
    | UdsSet arc b =>
      rw [hr.uds f arc b hf hd] at hc
      cases hc
  h2 := hr.h2

theorem tracks_health_as_sets (h : tracks_health_as r track = true) {arc : Nat} {b : UdsBalancer}
    (hd : .UdsSet arc b ∈ r.destination :: r.destination_h2.toList) : b.tracks_health = track := by
  simpa using List.all_eq_true.1 h _ hd

/-- A route carried forward keeps its slots, or has them made anew. -/
theorem retrack_carried_resumes {p : Route} (hp : p.Tracked h₀) (hh : h₀.Extends h)
    (hdown : p.failover.isSome = false → down = false) (allowed_sources : Option SourceAllowlist) (track : Bool) :
    let m := retrack_carried true track { p with allowed_sources } h
    Resumes named (some p.destination) down track m.2 (some m.1.destination) ∧
      Resumes named p.destination_h2 down track m.2 m.1.destination_h2 ∧
      ∀ d, m.1.destination_h2 = some d → ∃ arc b, d = .UdsSet arc b := by
  unfold retrack_carried
  by_cases hc : tracks_health_as { p with allowed_sources } track
  · -- tracked as it should be: the slots stay
    rw [hc, Bool.not_true, Bool.and_false, if_neg Bool.false_ne_true]
    have hph := hp.mono hh.next
    refine ⟨kept_resumes hph.slots fun arc b he => ?_, kept_resumes hph.slots_h2 fun arc b he => ?_, hp.h2⟩
    · exact tracks_health_as_sets hc (by rw [← Option.some.inj he]; exact List.mem_cons_self)
    · exact tracks_health_as_sets hc (List.mem_cons_of_mem _ (Option.mem_toList.2 he))
  · -- made anew, the default destination's slots first
    rw [Bool.not_eq_true] at hc
    rw [hc, Bool.not_false, Bool.and_true, if_pos rfl]
    unfold retrack_route
    dsimp only
    have hdest : Resumes named (some p.destination) down track _ _ := (retracked_resumes hp.slots hh hdown track).1
    have hgrow := grows_retracked track p.destination h
    cases hd : p.destination_h2 with
    | none => exact ⟨hdest, resumes_none, fun d hd => by cases hd⟩
    | some d =>
      have hslots := hp.slots_h2
      rw [hd] at hslots
      obtain ⟨hdest₂, hkind⟩ := retracked_resumes hslots (hh.trans hgrow) hdown track
      refine ⟨hdest.extends (grows_retracked track d _), hdest₂, ?_⟩
      rintro x ⟨⟩
      exact hkind (hp.h2 d hd)

variable (down) in
theorem build_tcp_health_takes (hcell : ∀ addr c, inherited_tcp_health previous addr = some c → c < h.next)
    (addr : SocketAddr) :
    TakesTcp previous down (build_tcp_health previous down (.Tcp addr) h).2 addr
      (build_tcp_health previous down (.Tcp addr) h).1 := by
  unfold build_tcp_health
  dsimp only
  cases hi : inherited_tcp_health previous addr with
  | some c => exact ⟨c, rfl, hcell addr c hi, .inl hi⟩
  | none => exact ⟨h.next, rfl, Nat.lt_succ_self _, .inr ⟨hi, new_refusing down h⟩⟩

variable (down) in
theorem build_failover_tcp (hcell : ∀ addr c, inherited_tcp_health previous addr = some c → c < h.next) (r : Route)
    (policy : Option FailoverPolicy) :
    (build_failover previous down r policy h).1.isSome = policy.isSome ∧
      ∀ f, (build_failover previous down r policy h).1 = some f →
        (∀ addr, r.destination = .Tcp addr → TakesTcp previous down (build_failover previous down r policy h).2
          addr f.tcp_health) ∧
        ∀ arc b, r.destination = .UdsSet arc b → f.tcp_health = none := by
  cases policy with
  | none =>
    refine ⟨rfl, ?_⟩
    rintro f ⟨⟩
  | some policy =>
    refine ⟨rfl, ?_⟩
    rintro f ⟨⟩
    constructor
    · intro addr hd
      have htcp := build_tcp_health_takes down hcell addr
      rw [← hd] at htcp
      exact htcp.extends (grows_failover policy
        ((previous.filter fun p : Route => p.metric_identity.arc == r.metric_identity.arc).bind (·.failover))
        (build_tcp_health previous down r.destination h).1 (same_load_sources previous r)
        (build_tcp_health previous down r.destination h).2)
    · intro arc b hd
      change (build_tcp_health previous down r.destination h).1 = none
      rw [hd]
      rfl

theorem finish_route_continues (hcell : ∀ addr c, inherited_tcp_health previous addr = some c → c < h.next)
    (carried : Bool) (spec : RouteSpec) (allowed_sources : Option SourceAllowlist)
    (policy : Option FailoverPolicy) (r : Route)
    (hslots : let m := retrack_carried carried policy.isSome { r with allowed_sources } h
      Resumes named (previous.map (·.destination)) down policy.isSome m.2 (some m.1.destination) ∧
        Resumes named (previous.bind (·.destination_h2)) down policy.isSome m.2 m.1.destination_h2 ∧
        ∀ d, m.1.destination_h2 = some d → ∃ arc b, d = .UdsSet arc b) :
    (finish_route previous down carried spec allowed_sources policy r h).1.Continues named previous down
      (finish_route previous down carried spec allowed_sources policy r h).2 := by
  have hdest := finish_route_destinations previous down carried spec allowed_sources policy r h
  rw [finish_route_eq] at hdest ⊢
  let m := retrack_carried carried policy.isSome { r with allowed_sources } h
  let r' := keep_identity previous spec m.1
  change r'.destination = m.1.destination ∧ r'.destination_h2 = m.1.destination_h2 at hdest
  have hgrow : h.Extends m.2 := grows_retrack_carried carried { r with allowed_sources } policy.isSome h
  have hgrow' : m.2.Extends (build_failover previous down r' policy m.2).2 :=
    grows_build_failover previous down policy r' m.2
  have hcell' (addr : SocketAddr) (c : SlotHealth) (hi : inherited_tcp_health previous addr = some c) : c < m.2.next :=
    Nat.lt_of_lt_of_le (hcell addr c hi) hgrow.next
  obtain ⟨hsome, htcp⟩ := build_failover_tcp down hcell' r' policy
  obtain ⟨hd, hd₂, hkind⟩ := hslots
  refine ⟨?_, ?_, ?_, ?_, ?_⟩
  · change Resumes _ _ down (build_failover previous down r' policy m.2).1.isSome _ (some r'.destination)
    rw [hsome, hdest.1]
    exact hd.extends hgrow'
  · change Resumes _ _ down (build_failover previous down r' policy m.2).1.isSome _ r'.destination_h2
    rw [hsome, hdest.2]
    exact hd₂.extends hgrow'
  · intro f addr hf hda
    exact (htcp f hf).1 addr hda
  · intro f arc b hf hda
    exact (htcp f hf).2 arc b hda
  · intro d hda
    apply hkind d
    rw [← hda]
    exact hdest.2.symm

theorem inherited_tcp_some {addr : SocketAddr} :
    inherited_tcp_health previous addr = some c ↔ ∃ p f, previous = some p ∧ p.destination = .Tcp addr ∧
      p.failover = some f ∧ f.tcp_health = some c := by
  cases previous with
  | none =>
    constructor
    · intro hi
      cases hi
    · rintro ⟨p, f, hp, -⟩
      cases hp
  | some p =>
    unfold inherited_tcp_health
    simp only [Option.bind_eq_bind, Option.bind_some, Option.some.injEq, exists_and_left, exists_eq_left']
    cases p.destination with
    | UdsSet arc b => simp
    | Tcp prev =>
      cases p.failover with
      | none => simp
      | some f => simp

end Routes

section Judged

variable {D : Type} [DecidableEq D] {C : Crates D} {held : Nat → Bool} {listener_tls : ListenerTlsSpec}
  {previous : Option (RouteTable D)} {spec : RouteSpec}

omit [DecidableEq D] in
theorem previous_state_down (previous : Option (RouteTable D)) (sni : Bytes) (h : Heap) :
    (previous_state previous sni h).2 = (previous_state previous sni h).1.any fun p =>
      p.failover.any fun f => f.locally_down h p.destination p.destination_h2 := rfl

omit [DecidableEq D] in
theorem not_down {p : Route} {h : Heap} (hp : (previous_state previous spec.sni h).1 = some p)
    (hf : p.failover.isSome = false) : (previous_state previous spec.sni h).2 = false := by
  have hnone : p.failover = none := Option.not_isSome_iff_eq_none.1 (Bool.eq_false_iff.1 hf)
  rw [previous_state_down, hp, Option.any_some, hnone]
  rfl

theorem previous_slots {previous : Option Route} {h : Heap} (hp : ∀ p, previous = some p → p.Tracked h) :
    TrackedSlots h (previous.bind (·.failover)).isSome (slotsOf (previous.map (·.destination))) ∧
      TrackedSlots h (previous.bind (·.failover)).isSome (slotsOf (previous.bind (·.destination_h2))) := by
  cases previous with
  | none =>
    constructor
    · intro s hs
      cases hs
    · intro s hs
      cases hs
  | some p => exact ⟨(hp p rfl).slots, (hp p rfl).slots_h2⟩

theorem judged_continues {w : World D} {r : Route} {named : Prop} (hn : named → ∀ u ∈ spec.upstreams, u.Named)
    (hp : ∀ p, (previous_state previous spec.sni w.heap).1 = some p → p.Tracked w.heap)
    (hr : (judge C held listener_tls previous spec w).1.fate.route = some r) :
    r.Continues named (previous_state previous spec.sni w.heap).1 (previous_state previous spec.sni w.heap).2
      (judge C held listener_tls previous spec w).2.heap := by
  have hcell (addr : SocketAddr) (c : SlotHealth)
      (hi : inherited_tcp_health (previous_state previous spec.sni w.heap).1 addr = some c) : c < w.heap.next := by
    obtain ⟨p, f, hprev, -, hf, hc⟩ := inherited_tcp_some.1 hi
    exact (hp p hprev).tcp_cell f c hf hc
  have hgrows := grows_build_route C held spec listener_tls (inheritance previous spec w.heap) w
  rcases judge_cases C held listener_tls previous spec w with
    ⟨hf, -⟩ | ⟨allowed_sources, r₀, w₁, -, hb, hf, hw⟩ | ⟨allowed_sources, e, r₀, w₁, -, hb, hl, hf, hw⟩
  · rw [hf] at hr
    cases hr
  · rw [hf] at hr
    cases hr
    rw [hb] at hgrows
    rw [hw]
    apply finish_route_continues
    · intro addr c hi
      exact Nat.lt_of_lt_of_le (hcell addr c hi) hgrows.next
    · -- the destinations were built last before the record
      obtain ⟨tls_config, h₁, destination, destination_h2, h₂, hgrow₁, hdest, -, hasm, hgrow₂⟩ := build_route_grown hb
      obtain ⟨hs, hs₂⟩ := previous_slots hp
      obtain ⟨hd, hd₂, hkind⟩ := build_destinations_resume (inheritance previous spec w.heap) hs hs₂ hgrow₁ hn hdest
      have hr₀ : r₀.destination = destination ∧ r₀.destination_h2 = destination_h2 := by
        have hfst : (assemble spec listener_tls tls_config destination destination_h2 h₂).1 = r₀ :=
          congrArg Prod.fst hasm
        rw [← hfst]
        exact ⟨rfl, rfl⟩
      change Resumes _ _ _ _ w₁.heap (some r₀.destination) ∧ Resumes _ _ _ _ w₁.heap r₀.destination_h2 ∧
        ∀ d, r₀.destination_h2 = some d → _
      rw [hr₀.1, hr₀.2]
      exact ⟨hd.extends hgrow₂, hd₂.extends hgrow₂, hkind⟩
  · rw [hf] at hr
    cases hr
    rw [hb] at hgrows
    rw [hw]
    have hprev := last_good_state previous hl w.heap
    apply finish_route_continues
    · intro addr c hi
      exact Nat.lt_of_lt_of_le (hcell addr c hi) hgrows.next
    · rw [hprev]
      exact retrack_carried_resumes (hp r₀ hprev) hgrows (not_down hprev) allowed_sources _

end Judged

end Symphony.Router
