import Symphony.Lib.Writes
import Symphony.Proxy.Config
import Symphony.Router.Heap
/-!
# IP affinity of a UDS set

A route's UDS upstreams form one set for the default protocol and one for h2, each with a
balancer. Every entry is parsed with its own affinity settings; the loop that collects the
slots overwrites the settings with each entry, so those of the last UDS entry of the set
are used. The README says that the first entry's are.
-/

namespace Symphony.Proxy

open Lib (Act bind_ok last? last?_cons)
open Router (Crates Destination Heap Inherit ListenerTlsSpec Route RouteSpec UdsBalancer UpstreamSpec World
  affinity_settings build_destination_for build_destination_ok build_destinations build_destinations_ok build_route
  build_h2_destination build_route_ok build_uds_set is_h2)

/-! ## Entries -/

def JsUpstream.uds (u : JsUpstream) : Bool := u.kind = bytes "uds"

/-- The entry belongs to the h2 set. -/
def JsUpstream.h2 (u : JsUpstream) : Bool := u.uds && u.protocol = some (bytes "h2")

/-- The entries of the default set, or of the h2 set. -/
def setOf (h2 : Bool) (upstreams : List JsUpstream) : List JsUpstream := upstreams.filter fun u => u.h2 == h2

/-- An entry's `ipAffinityTtlMs`, or 300000. -/
def JsUpstream.ttl_ms (u : JsUpstream) : Nat := (u.ip_affinity_ttl_ms.getD (.finite 300000)).as_u64

/-- The affinity that an entry asks for: how long an address stays with its socket, in
nanoseconds. -/
def JsUpstream.affinity (u : JsUpstream) : Option Nat :=
  if u.ip_affinity = some true then some (u.ttl_ms * 1000000) else none

/-- What an entry is parsed as, as far as sets and their affinity go. -/
inductive ParsedAs (u : JsUpstream) : UpstreamSpec → Prop
  | tcp (host : Bytes) (port : Nat) (hkind : u.uds = false) : ParsedAs u (.Tcp host port)
  | uds (paths : List Bytes) (pids tids : List (Option Nat)) (hkind : u.uds = true) :
    ParsedAs u (.Uds paths pids tids (u.ip_affinity.getD false) u.ttl_ms (u.protocol.filter fun p => p = bytes "h2"))

variable {upstreams : List JsUpstream} {specs : List UpstreamSpec}

theorem parse_upstream_spec_parsedAs {sni : Bytes} {u : JsUpstream} {spec : UpstreamSpec}
    (h : parse_upstream_spec sni u = .ok spec) : ParsedAs u spec := by
  unfold parse_upstream_spec at h
  split at h
  · rename_i hkind
    have hno : u.uds = false := by
      unfold JsUpstream.uds
      rw [hkind]
      decide
    unfold parse_tcp_upstream at h
    split at h
    · cases h
    · cases h
    · split at h
      · cases h
      · cases h
        exact .tcp _ _ hno
  · split at h
    · rename_i hkind
      unfold parse_uds_upstream at h
      split at h
      · cases h
      · split at h
        · cases h
        · cases h
          exact .uds _ _ _ (decide_eq_true hkind)
    · cases h

theorem ParsedAs.is_h2_eq {u : JsUpstream} {spec : UpstreamSpec} (h : ParsedAs u spec) : is_h2 spec = u.h2 := by
  cases h with
  | tcp host port hkind => simp [is_h2, JsUpstream.h2, hkind]
  | uds paths pids tids hkind =>
    unfold JsUpstream.h2
    rw [hkind]
    cases hp : u.protocol with
    | none => rfl
    | some p =>
      by_cases hh : p = bytes "h2"
      · subst hh
        rfl
      · simp [Option.filter, is_h2, hh]

/-- The specs of a set are those of its entries. -/
theorem parsed_setOf (h : List.Forall₂ ParsedAs upstreams specs) (h2 : Bool) :
    List.Forall₂ ParsedAs (setOf h2 upstreams) (specs.filter fun s => is_h2 s == h2) := by
  refine List.rel_filter (fun u spec hu => ?_) h
  dsimp only
  rw [hu.is_h2_eq]

/-! ## The loop -/

/-- Each UDS entry overwrites the settings: the last one's are left. -/
theorem affinity_settings_last (h : List.Forall₂ ParsedAs upstreams specs) :
    affinity_settings specs = (last? JsUpstream.uds upstreams).elim (false, 300000) fun u =>
      (u.ip_affinity.getD false, u.ttl_ms) := by
  unfold affinity_settings
  generalize ((false, 300000) : Bool × Nat) = acc
  induction h generalizing acc with
  | nil => rfl
  | @cons u spec upstreams specs hu _ ih =>
    rw [List.foldl_cons, ih, last?_cons]
    cases hu with
    | tcp host port hkind =>
      rw [hkind]
      cases last? JsUpstream.uds upstreams <;> rfl
    | uds paths pids tids hkind =>
      rw [hkind]
      cases last? JsUpstream.uds upstreams <;> rfl

theorem with_cpu_from_affinity (b : UdsBalancer) (previous : Option UdsBalancer) :
    (b.with_cpu_from previous).affinity = b.affinity := by
  cases previous with
  | none => rfl
  | some p =>
    unfold UdsBalancer.with_cpu_from
    dsimp only
    split <;> rfl

/-- The settings that the loop leaves are those of the balancer. -/
theorem build_uds_set_affinity (specs : List UpstreamSpec) (previous : Option UdsBalancer) (track refuse_new : Bool)
    (h : Heap) : ∃ arc b, (build_uds_set specs previous track refuse_new h).1 = .UdsSet arc b ∧
      b.affinity =
        if (affinity_settings specs).1 then some ((affinity_settings specs).2 * 1000000 % 2 ^ 64) else none := by
  cases track with
  | true => exact ⟨_, _, rfl, with_cpu_from_affinity _ previous⟩
  | false => exact ⟨_, _, rfl, with_cpu_from_affinity _ previous⟩

/-! ## A route's sets -/

/-- The balancer of a route's default set, or of its h2 set. -/
def balancerOf (h2 : Bool) (r : Route) : Option UdsBalancer :=
  if h2 then r.destination_h2.bind Destination.balancer else r.destination.balancer

theorem parse_route_spec_upstreams {js : JsRouteConfig} {spec : RouteSpec} (h : parse_route_spec js = .ok spec) :
    List.Forall₂ ParsedAs js.upstreams spec.upstreams ∧ spec.suspended = js.suspended.getD false := by
  unfold parse_route_spec at h
  obtain ⟨-, -, h⟩ := bind_ok h
  obtain ⟨upstreams, hupstreams, h⟩ := bind_ok h
  obtain ⟨mode, -, h⟩ := bind_ok h
  obtain ⟨fingerprint, -, h⟩ := bind_ok h
  obtain ⟨protocol, -, h⟩ := bind_ok h
  obtain ⟨group, -, h⟩ := bind_ok h
  cases h
  exact ⟨(Lib.forall₂_of_mapM hupstreams).imp fun _ _ => parse_upstream_spec_parsedAs, rfl⟩

/-- A set that starts with a UDS upstream is built by the loop. -/
theorem build_destination_uds {first : JsUpstream} {rest : List JsUpstream}
    (hspecs : List.Forall₂ ParsedAs upstreams specs) (hset : upstreams = first :: rest) (hfirst : first.uds = true)
    {previous : Option UdsBalancer} {track refuse_new : Bool} {h h' : Heap} {d : Destination}
    (hd : build_destination_for specs previous track refuse_new h = (.ok d, h')) :
    ∃ b, d.balancer = some b ∧ b.affinity = (last? JsUpstream.uds upstreams).bind fun u =>
      if u.ip_affinity = some true then some (u.ttl_ms * 1000000 % 2 ^ 64) else none := by
  rcases build_destination_ok hd with ⟨host, port, others, addr, hspec, -⟩ | ⟨-, hbuilt⟩
  · -- the first spec is not a TCP one
    subst hset hspec
    cases hspecs with
    | cons hu _ =>
      cases hu with
      | tcp host port hkind =>
        rw [hfirst] at hkind
        cases hkind
  · obtain ⟨arc, b, hset', haffinity⟩ := build_uds_set_affinity specs previous track refuse_new h
    rw [hbuilt] at hset'
    subst hset'
    refine ⟨b, rfl, ?_⟩
    rw [haffinity, affinity_settings_last hspecs]
    cases last? JsUpstream.uds upstreams with
    | none => rfl
    | some u =>
      rcases hip : u.ip_affinity with _ | _ | _ <;> simp [hip]

/-- The destination of a set of a live route is built from the set's specs. -/
theorem build_destinations_set {spec : RouteSpec} {inherit : Inherit} {h h' : Heap} {d : Destination}
    {d₂ : Option Destination} (hlive : spec.suspended = false)
    (hb : build_destinations spec inherit h = (.ok (d, d₂), h')) {h2 : Bool}
    (hset : (spec.upstreams.filter fun s => is_h2 s == h2) ≠ []) :
    ∃ x previous h₁ h₂, (if h2 then d₂ else some d) = some x ∧
      build_destination_for (spec.upstreams.filter fun s => is_h2 s == h2) previous inherit.track_health
        inherit.refuse_new h₁ = (.ok x, h₂) := by
  have hsome : spec.upstreams.isEmpty = false := by
    cases hu : spec.upstreams with
    | nil => simp [hu] at hset
    | cons s rest => rfl
  unfold build_destinations at hb
  rw [hlive, hsome] at hb
  simp only [Bool.or_false, Bool.false_eq_true, if_false] at hb
  split at hb
  · cases hb
  · obtain ⟨x, h₁, hdefault, hb⟩ := Act.bind_ok hb
    obtain ⟨x₂, h₂, hh2, hb⟩ := Act.bind_ok hb
    cases hb
    cases h2 with
    | false =>
      have hfilter : (fun s => is_h2 s == false) = fun s => !is_h2 s := by
        funext s
        cases is_h2 s <;> rfl
      rw [hfilter]
      exact ⟨d, _, h, h₁, rfl, hdefault⟩
    | true =>
      simp only [beq_true] at hset ⊢
      unfold build_h2_destination at hh2
      rw [if_neg hset] at hh2
      obtain ⟨x, h₃, hx, hpure⟩ := Act.bind_ok hh2
      cases hpure
      exact ⟨x, _, h₁, _, rfl, hx⟩

section Built

variable {D : Type} [DecidableEq D] {C : Crates D} {held : Nat → Bool} {js : JsRouteConfig} {spec : RouteSpec}
  {listener_tls : ListenerTlsSpec} {inherit : Inherit} {w w' : World D} {r : Route}

/-- The balancer of a set has the affinity of the set's last UDS entry. -/
theorem affinity_of_last (hparse : parse_route_spec js = .ok spec) (hlive : js.suspended.getD false = false)
    (hbuild : build_route C held spec listener_tls inherit w = (.ok r, w')) {h2 : Bool} {first : JsUpstream}
    {rest : List JsUpstream} (hset : setOf h2 js.upstreams = first :: rest) (hfirst : first.uds = true) :
    ∃ b, balancerOf h2 r = some b ∧ b.affinity = (last? JsUpstream.uds (first :: rest)).bind fun u =>
      if u.ip_affinity = some true then some (u.ttl_ms * 1000000 % 2 ^ 64) else none := by
  obtain ⟨hspecs, hsuspended⟩ := parse_route_spec_upstreams hparse
  have hsets := parsed_setOf hspecs h2
  rw [hset] at hsets
  obtain ⟨tls_config, w₁, d, d₂, h₂, -, hdest, hasm, -⟩ := build_route_ok hbuild
  obtain ⟨x, previous, h₃, h₄, hx, hbuilt⟩ := build_destinations_set (hsuspended.trans hlive) hdest
    (List.ne_nil_of_length_pos (by rw [← hsets.length_eq]; exact Nat.succ_pos _))
  obtain ⟨b, hb, haffinity⟩ := build_destination_uds hsets rfl hfirst hbuilt
  have hr : r.destination = d ∧ r.destination_h2 = d₂ :=
    ⟨(congrArg (·.1.destination) hasm).symm, (congrArg (·.1.destination_h2) hasm).symm⟩
  refine ⟨b, ?_, haffinity⟩
  unfold balancerOf
  rw [hr.1, hr.2]
  cases h2 with
  | false =>
    cases hx
    exact hb
  | true =>
    rw [if_pos rfl] at hx ⊢
    rw [hx]
    exact hb

/-- The last UDS entry of the set asks for the same affinity as the first. The product with
a million is one of 64-bit words. -/
def Agrees (first : JsUpstream) (rest : List JsUpstream) : Prop :=
  ∃ last, last? JsUpstream.uds (first :: rest) = some last ∧
    (last.ip_affinity = some true ↔ first.ip_affinity = some true) ∧
    (first.ip_affinity = some true → last.ttl_ms * 1000000 % 2 ^ 64 = first.ttl_ms * 1000000)

/-- **Affinity of a set.** The balancer of a set that starts with a UDS entry has the affinity
that the entry asks for exactly when the last UDS entry agrees with it. -/
theorem first_entry_affinity_iff (hparse : parse_route_spec js = .ok spec) (hlive : js.suspended.getD false = false)
    (hbuild : build_route C held spec listener_tls inherit w = (.ok r, w')) (h2 : Bool) (first : JsUpstream)
    (rest : List JsUpstream) (hset : setOf h2 js.upstreams = first :: rest) (hfirst : first.uds = true) :
    (∃ b, balancerOf h2 r = some b ∧ b.affinity = first.affinity) ↔ Agrees first rest := by
  obtain ⟨b, hb, haffinity⟩ := affinity_of_last hparse hlive hbuild hset hfirst
  obtain ⟨last, hlast⟩ : ∃ last, last? JsUpstream.uds (first :: rest) = some last := by
    rw [last?_cons, hfirst]
    cases last? JsUpstream.uds rest with
    | none => exact ⟨first, rfl⟩
    | some u => exact ⟨u, rfl⟩
  unfold Agrees
  rw [hlast] at haffinity ⊢
  simp only [hb, Option.some.injEq, exists_eq_left', haffinity, Option.bind_some, JsUpstream.affinity]
  by_cases hl : last.ip_affinity = some true <;> by_cases hf : first.ip_affinity = some true <;> simp [hl, hf]

end Built

/-! ## Two entries -/

/-- A route to two sockets that share a balancer. -/
def twoSockets (first second : JsUpstream → JsUpstream) : JsRouteConfig where
  sni := bytes "a"
  upstreams := [first { kind := bytes "uds", path := some (bytes "0") },
    second { kind := bytes "uds", path := some (bytes "1") }]

/-- The route that is built when nothing is there before. -/
def builtRoute (js : JsRouteConfig) : Option Route := do
  let spec ← (parse_route_spec js).toOption
  (build_route Router.literalCrates (fun _ => false) spec {} ⟨none, false, false⟩ ⟨{}, {}⟩).1.toOption

theorem builtRoute_spec {js : JsRouteConfig} {r : Route} (h : builtRoute js = some r) :
    ∃ spec w', parse_route_spec js = .ok spec ∧
      build_route Router.literalCrates (fun _ => false) spec {} ⟨none, false, false⟩ ⟨{}, {}⟩ = (.ok r, w') := by
  unfold builtRoute at h
  cases hparse : parse_route_spec js with
  | error e => simp [hparse, Except.toOption] at h
  | ok spec =>
    rw [hparse] at h
    rcases hbuild : build_route Router.literalCrates (fun _ => false) spec {} ⟨none, false, false⟩ ⟨{}, {}⟩ with
      ⟨_ | r', w'⟩
    · simp [hbuild, Except.toOption] at h
    · simp only [hbuild, Except.toOption, Option.bind_eq_bind, Option.bind_some, Option.some.injEq] at h
      subst h
      exact ⟨spec, w', rfl, hbuild⟩

/-- The first entry asks for affinity and the second does not say: there is none. The first
gives ten minutes and the second no time: addresses stay for five. -/
theorem last_entry_decides :
    ((builtRoute (twoSockets (fun u => { u with ip_affinity := some true }) id)).bind (balancerOf false)).map
        (·.affinity) = some none ∧
    ((builtRoute (twoSockets (fun u => { u with ip_affinity := some true, ip_affinity_ttl_ms := some (.finite 600000) })
      fun u => { u with ip_affinity := some true })).bind (balancerOf false)).map (·.affinity) =
        some (some 300000000000) := by
  decide +kernel

/-- Both entries ask for affinity and give no time. -/
theorem entries_agree :
    ∃ r b, builtRoute (twoSockets (fun u => { u with ip_affinity := some true }) fun u =>
      { u with ip_affinity := some true }) = some r ∧ balancerOf false r = some b ∧
        b.affinity = some 300000000000 := by
  obtain ⟨r, hr⟩ := Option.isSome_iff_exists.1 (show (builtRoute (twoSockets
    (fun u => { u with ip_affinity := some true }) fun u => { u with ip_affinity := some true })).isSome = true by
      decide +kernel)
  obtain ⟨spec, w', hparse, hbuild⟩ := builtRoute_spec hr
  obtain ⟨b, hb, haffinity⟩ := (first_entry_affinity_iff hparse rfl hbuild false _ _ rfl rfl).2
    ⟨_, rfl, Iff.rfl, fun _ => by decide +kernel⟩
  exact ⟨r, b, hr, hb, haffinity⟩

end Symphony.Proxy
