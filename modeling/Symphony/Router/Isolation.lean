import Symphony.Router.Tenants
/-!
# Isolation of tenants

A name's route is what the spec that decides the name gives. The other specs of the list
share the heap and the config cache with it. Nothing passes through the heap. Through the
cache something does: a config is found by its key, and two requests that split the same
bytes into a chain and a key file have one key. So tenants are isolated for the requests
among which the key determines the config, and for no others.
-/

namespace Symphony.Router

open Lib (Act Machine lastIdx?)

section Isolation

variable {D : Type} [DecidableEq D]

/-- The event makes allowed requests only. -/
def Event.Within (allowed : Request → Prop) : Event → Prop
  | .commit _ listener_tls specs => ∀ spec ∈ specs, ∀ q, requested spec listener_tls = some q → allowed q
  | .abandon _ listener_tls specs => ∀ spec ∈ specs, ∀ q, requested spec listener_tls = some q → allowed q
  | .sweep _ => True
  | .resolve _ cert mtls http2 => allowed ⟨cert, mtls, http2⟩
  | .serve _ _ _ => True

/-- Among the allowed requests, the key of the cache determines what is built. -/
def KeyDetermines (C : Crates D) (allowed : Request → Prop) : Prop :=
  ∀ q q' : Request, allowed q → allowed q' → q.key C = q'.key C → q.tls C = q'.tls C

/-- One tenant's spec never affects another's name. After any run, two tables are built
from lists that differ in one spec, under the same name. A name that this spec does not
decide gets nothing from both, or routes that differ in new identities only. -/
def Isolated (C : Crates D) (allowed : Request → Prop) : Prop :=
  ∀ {heap : Heap} {s : Proxy D} {clock : Nat} {log : List (Event × Unit)},
    (reloads C).RunWhere (fun _ e => e.Within allowed) (.fresh heap) s clock log →
    ∀ (conns : Nat → Bool) (listener_tls : ListenerTlsSpec) (specs : List RouteSpec) (j : Nat) (spec spec' : RouteSpec),
      specs[j]? = some spec → spec'.sni = spec.sni →
      (∀ x ∈ spec' :: specs, ∀ q, requested x listener_tls = some q → allowed q) →
      ∀ (sni : Option Bytes) (allow_default : Bool), deciding specs sni allow_default ≠ some j →
        ((build_route_table C conns listener_tls s.live (specs.set j spec') s.world).1.resolve_with sni
          allow_default).map
            (Route.blur s.world.heap.next) =
          ((build_route_table C conns listener_tls s.live specs s.world).1.resolve_with sni allow_default).map
            (Route.blur s.world.heap.next)

variable {C : Crates D} {allowed : Request → Prop}

/-! ## Where keys determine configs -/

/-- After a run, what the cache has under an allowed request's key is what it is built to. -/
theorem run_tls (hC : C.Functional) (hkey : KeyDetermines C allowed) {heap : Heap} {s : Proxy D} {clock : Nat}
    {log : List (Event × Unit)} (h : (reloads C).RunWhere (fun _ e => e.Within allowed) (.fresh heap) s clock log) :
    TlsFunction C s.world.cache allowed := by
  apply h.inv fun s _ _ => TlsFunction C s.world.cache allowed
  · refine ⟨fun q _ arc => hC q arc, hkey, ?_⟩
    intro q config _ hl
    cases hl
  · -- builds keep it spec by spec, whether they are committed or not
    intro s _ _ e hs hok _
    have hbuilt (conns : Nat → Bool) (listener_tls : ListenerTlsSpec) (specs : List RouteSpec)
        (hq : ∀ spec ∈ specs, ∀ q, requested spec listener_tls = some q → allowed q) :
        TlsFunction C (build_route_table C conns listener_tls s.live specs s.world).2.cache allowed := by
      rw [build_route_table_eq]
      exact (serves_at hs hq (Nat.le_refl _)).tls
    cases e with
    | commit conns listener_tls specs => exact hbuilt conns listener_tls specs hok
    | abandon conns listener_tls specs => exact hbuilt conns listener_tls specs hok
    | sweep held =>
      apply hs.shrink
      intro k config hl
      change (s.world.cache.retain_used held).cache.lookup k = some config at hl
      rw [lookup_retain_used, Option.filter_eq_some_iff] at hl
      exact hl.1
    | resolve held cert mtls http2 =>
      have hl := get_or_build_unmarked_looked C held ⟨cert, mtls, http2⟩ s.world
      exact (hl.serves ⟨.refl _, hs⟩ hok).2.tls
    | serve refused_at now_ns wall_ns => exact hs

theorem isolated_of_keys (hC : C.Functional) (hkey : KeyDetermines C allowed) : Isolated C allowed := by
  intro heap s clock log h conns listener_tls specs j spec spec' hj hsni hq sni allow_default hd
  have hnames : (specs.set j spec').map (·.sni) = specs.map (·.sni) := by
    apply List.ext_getElem?
    intro n
    rw [List.getElem?_map, List.getElem?_map]
    by_cases hn : j = n
    · subst hn
      rw [List.getElem?_set_self (List.getElem?_eq_some_iff.1 hj).1, hj]
      exact congrArg some hsni
    · rw [List.getElem?_set_ne hn]
  apply twin_resolve (run_settled h.run) (run_tls hC hkey h) _ _ hnames
  · intro n hn
    apply List.getElem?_set_ne
    rintro rfl
    exact hd hn
  · intro x hx
    exact hq x (List.mem_cons_of_mem _ hx)
  · intro x hx
    rcases List.mem_or_eq_of_mem_set hx with hx | rfl
    · exact hq x (List.mem_cons_of_mem _ hx)
    · exact hq x List.mem_cons_self

/-! ## Where they do not -/

/-- A route that terminates TLS with what the request asks for. -/
def tenantSpec (sni : Bytes) (q : Request) : RouteSpec where
  sni
  terminate_tls := true
  cert_pem := some q.cert.cert_chain_pem
  key_pem := some q.cert.private_key_pem
  mtls_ca_pem := q.mtls.map (·.client_ca_pem)
  require_client_cert := q.mtls.any (·.require_client_cert)
  http2 := q.http2

theorem tenantSpec_requested (sni : Bytes) (q : Request) : requested (tenantSpec sni q) {} = some q := by
  obtain ⟨cert, mtls, http2⟩ := q
  cases mtls <;> rfl

theorem tenantSpec_h2 (sni : Bytes) (q : Request) : check_h2 (tenantSpec sni q) none = .ok () := by
  obtain ⟨cert, mtls, http2⟩ := q
  cases http2 <;> rfl

variable (C) (held : Nat → Bool)

/-- Such a spec is built if its request is answered, and has what it was answered with. -/
theorem tenant_built (sni : Bytes) (q : Request) (inherit : Inherit) (w : World D) :
    build_route C held (tenantSpec sni q) {} inherit w =
      match get_or_build C held q.cert q.mtls q.http2 w with
      | (.error e, w₁) => (.error e, w₁)
      | (.ok config, w₁) =>
        (.ok (assemble (tenantSpec sni q) {} (some config) placeholder none w₁.heap).1,
          ⟨(assemble (tenantSpec sni q) {} (some config) placeholder none w₁.heap).2, w₁.cache⟩) := by
  change Act.bind (build_tls C held (tenantSpec sni q) {}) _ w = _
  rw [build_tls_requested C held (tenantSpec_requested sni q)]
  change Act.bind (Act.bind (get_or_build C held q.cert q.mtls q.http2) _) _ w = _
  unfold Act.bind
  cases get_or_build C held q.cert q.mtls q.http2 w with
  | mk answer w₁ =>
    cases answer with
    | error e => rfl
    | ok config =>
      change Act.bind (Act.ofExcept (check_h2 (tenantSpec sni q) none))
        (fun _ => onHeap (allocate (assemble (tenantSpec sni q) {} (some config) placeholder none))) w₁ = _
      rw [tenantSpec_h2]
      rfl

theorem tenant_judged (sni : Bytes) (q : Request) (w : World D) :
    (judge C held {} none (tenantSpec sni q) w).2.cache = (get_or_build C held q.cert q.mtls q.http2 w).2.cache ∧
    (judge C held {} none (tenantSpec sni q) w).1.fate.route.map (·.tls_config) =
      (get_or_build C held q.cert q.mtls q.http2 w).1.toOption.map some := by
  change (judge_valid C held {} none (tenantSpec sni q) none w).2.cache = _ ∧
    (judge_valid C held {} none (tenantSpec sni q) none w).1.fate.route.map (·.tls_config) = _
  unfold judge_valid
  dsimp only
  rw [tenant_built]
  cases get_or_build C held q.cert q.mtls q.http2 w with
  | mk answer w₁ =>
    cases answer with
    | error e => exact ⟨rfl, rfl⟩
    | ok config => exact ⟨rfl, rfl⟩

theorem start_lookup (conns : Nat → Bool) (previous : Option (RouteTable D)) (heap : Heap) (k : CacheKey D) :
    (Builder.start conns previous ⟨heap, {}⟩).world.cache.cache.lookup k = none := by
  change ((({} : TlsConfigCache D)).clear_used (held_by conns previous {})).cache.lookup k = none
  rw [lookup_clear_used]
  rfl

theorem deciding_second (spec : RouteSpec) (q : Request) :
    deciding [spec, tenantSpec [98] q] (some [98]) false = some 1 := by
  simp [deciding, lastIdx?, tenantSpec, wildcard_suffix]

/-- In a first build of two specs, the second makes its request after the first was judged. -/
theorem resolve_second (conns : Nat → Bool) (heap : Heap) (spec : RouteSpec) (hs : spec.sni = [97]) (q : Request) :
    ∃ (held held' : Nat → Bool) (w : World D),
      w.cache = (judge C held' {} none spec (Builder.start conns none ⟨heap, {}⟩).world).2.cache ∧
      ((build_route_table C conns {} none [spec, tenantSpec [98] q] ⟨heap, {}⟩).1.resolve_with (some [98]) false).map
          (·.tls_config.map ServerConfig.content) =
        ((get_or_build C held q.cert q.mtls q.http2 w).1.toOption.map ServerConfig.content).map some := by
  let specs := [spec, tenantSpec [98] q]
  let b (n : Nat) := builderAt C conns {} none specs ⟨heap, {}⟩ n
  have hfirst : decider specs spec.sni = some 0 := by
    simp [decider, lastIdx?, hs, specs, tenantSpec, wildcard_suffix]
  have hstep : b 1 = build_step C conns {} none (last_exact specs) (b 0) 0 spec := Lib.before_succ rfl
  -- nothing is skipped: the first spec decides its own name
  have hworld : (b 1).world = (judge C (held_by conns none (b 0).toRouteTable) {} none spec (b 0).world).2 := by
    have hn : specs[0]? = some spec := rfl
    rcases build_step_cases C conns {} none hn (configured_at ⟨heap, {}⟩ 0 (Nat.zero_le _)) with
      ⟨-, ws, -, he⟩ | ⟨hd, -⟩
    · rw [hstep]
      exact (congrArg Builder.world he).trans (consider_world C conns {} none _ spec)
    · exact absurd hfirst hd
  refine ⟨held_by conns none (b 1).toRouteTable, _, (b 1).world, congrArg World.cache hworld, ?_⟩
  have hconfig := (tenant_judged C (held_by conns none (b 1).toRouteTable) [98] q (b 1).world).2
  have hcontent := congrArg (Option.map (Option.map ServerConfig.content)) hconfig
  rw [Option.map_map, Option.map_map] at hcontent
  have hjudged : judged C conns {} none specs ⟨heap, {}⟩ 1 =
      some (judgedBy C conns {} none (b 1) (tenantSpec [98] q)) := rfl
  rw [resolve_built C conns {} none _ ⟨heap, {}⟩ (by simp), deciding_second, Option.bind_some, hjudged,
    Option.map_some, Option.join_some, Option.map_map]
  generalize b 1 = b₁ at hcontent ⊢
  exact hcontent

variable {C held}

theorem Looked.unfound (hC : C.Functional) {q : Request} {w w' : World D} {answer : Except SymphonyError ServerConfig}
    (h : Looked C held q w answer w') (hnone : w.cache.cache.lookup (q.key C) = none) :
    answer.toOption.map ServerConfig.content = q.tls C := by
  rw [← hC q w.heap.next]
  cases h with
  | hit hlook _ _ =>
    rw [hnone] at hlook
    cases hlook
  | built _ hbuild _ _ => rw [hbuild]
  | failed _ hbuild _ _ => rw [hbuild]

/-- After a spec that asks for nothing, the second spec gets what its request is built to. -/
theorem second_own (hC : C.Functional) (q : Request) :
    ((build_route_table C (fun _ => false) {} none [plainSpec [97], tenantSpec [98] q] ⟨{}, {}⟩).1.resolve_with
      (some [98]) false).map (·.tls_config.map ServerConfig.content) = (q.tls C).map some := by
  obtain ⟨held, held', w, hcache, hr⟩ := resolve_second C (fun _ => false) {} (plainSpec [97]) rfl q
  have hnone : w.cache.cache.lookup (q.key C) = none := by
    obtain ⟨fetched, hfetched, hjudged, -⟩ := judge_fetched C held' {} none (plainSpec [97])
      (Builder.start (fun _ => false) none ⟨{}, {}⟩).world
    have hnothing : fetched = none := hfetched.elim id id
    rw [hcache, hjudged, hnothing]
    exact start_lookup _ none {} _
  rw [hr, (get_or_build_looked C held q w).unfound hC hnone]

/-- After a spec whose request has the same key and is built, the second gets that config. -/
theorem second_shared (hC : C.Functional) {q q' : Request} (hk : q.key C = q'.key C) {c : ServerConfig}
    (hc : q.tls C = some c) :
    ((build_route_table C (fun _ => false) {} none [tenantSpec [97] q, tenantSpec [98] q'] ⟨{}, {}⟩).1.resolve_with
      (some [98]) false).map (·.tls_config.map ServerConfig.content) = some (some c) := by
  obtain ⟨held, held', w, hcache, hr⟩ := resolve_second C (fun _ => false) {} (tenantSpec [97] q) rfl q'
  have hlooked := get_or_build_looked C held' q (Builder.start (fun _ => false) none ⟨{}, {}⟩).world
  have hanswer := hlooked.unfound hC (start_lookup _ none {} _)
  rw [hc] at hanswer
  cases hg : (get_or_build C held' q.cert q.mtls q.http2 (Builder.start (fun _ => false) none ⟨{}, {}⟩).world).1 with
  | error e =>
    rw [hg] at hanswer
    cases hanswer
  | ok config =>
    rw [hg] at hanswer
    have hentry : w.cache.cache.lookup (q'.key C) = some config := by
      rw [hcache, (tenant_judged C held' [97] q _).1, ← hk]
      exact hlooked.caches.2 config hg
    rw [hr, (get_or_build_looked C held q' w).cached hentry]
    exact congrArg (Option.map some) hanswer

/-- Two tenants whose requests have one key are served what the first of them is built to. -/
theorem keys_of_isolated (hC : C.Functional) (h : Isolated C allowed) : KeyDetermines C allowed := by
  have hbuilt (q q' : Request) (hq : allowed q) (hq' : allowed q') (hk : q.key C = q'.key C) (c : ServerConfig)
      (hc : q.tls C = some c) : q'.tls C = some c := by
    have hall : ∀ x ∈ [plainSpec [97], tenantSpec [97] q, tenantSpec [98] q'], ∀ r, requested x {} = some r →
      allowed r := by
      intro x hx r hr
      simp only [List.mem_cons, List.not_mem_nil, or_false] at hx
      rcases hx with rfl | rfl | rfl
      · cases hr
      · rw [tenantSpec_requested] at hr
        cases hr
        exact hq
      · rw [tenantSpec_requested] at hr
        cases hr
        exact hq'
    have hother : deciding [tenantSpec [97] q, tenantSpec [98] q'] (some [98]) false ≠ some 0 := by
      rw [deciding_second]
      simp
    -- from a fresh proxy, change the first tenant's spec to one that asks for nothing
    have h₀ : (reloads C).RunWhere (fun _ e => e.Within allowed) (.fresh {}) (.fresh {}) 0 [] := .nil
    have hsame := h h₀ (fun _ => false) {} [tenantSpec [97] q, tenantSpec [98] q'] 0 _ (plainSpec [97]) rfl rfl hall
      (some [98]) false hother
    have hconfig := congrArg (Option.map Route.tls_config) hsame
    rw [Option.map_map, Option.map_map] at hconfig
    have hboth : (q'.tls C).map some = some (some c) :=
      (second_own hC q').symm.trans (hconfig.trans (second_shared hC hk hc))
    obtain ⟨c', hc', he⟩ := Option.map_eq_some_iff.1 hboth
    rw [hc', Option.some.inj he]
  intro q q' hq hq' hk
  cases hc : q.tls C with
  | some c => exact (hbuilt q q' hq hq' hk c hc).symm
  | none =>
    cases hc' : q'.tls C with
    | none => rfl
    | some c =>
      have hq := hbuilt q' q hq' hq hk.symm c hc'
      rw [hc] at hq
      cases hq

omit [DecidableEq D] in
/-- Keys determine configs where requests that hash the same bytes split them alike and no
client CA hashes to the digest that stands for none. -/
theorem keyDetermines_of_splits (hsha : Function.Injective C.sha256)
    (hdig : ∀ q, allowed q → ∀ m, q.mtls = some m → mtls_key C q.mtls ≠ C.zeros)
    (hsplit : ∀ q q', allowed q → allowed q' → q.hashed = q'.hashed → q.cert = q'.cert) : KeyDetermines C allowed := by
  intro q q' hq hq' hk
  obtain ⟨hmtls, hhttp2, hhashed⟩ := key_inj hsha hk (hdig q hq) (hdig q' hq')
  have hcert := hsplit q q' hq hq' hhashed
  obtain ⟨cert, mtls, http2⟩ := q
  obtain ⟨cert', mtls', http2'⟩ := q'
  cases hmtls
  cases hhttp2
  cases hcert
  rfl

end Isolation

/-- Tenants are isolated exactly for requests among which the key of the cache determines
what is built. -/
theorem tenants_isolated_iff {D : Type} [DecidableEq D] {C : Crates D} (hC : C.Functional) (allowed : Request → Prop) :
    Isolated C allowed ↔ KeyDetermines C allowed :=
  ⟨keys_of_isolated hC, isolated_of_keys hC⟩

theorem itemCrates_functional : itemCrates.Functional := by
  intro q arc
  unfold Request.tls Request.build build_server_config
  cases parse_chain itemCrates q.cert.cert_chain_pem with
  | error e => rfl
  | ok certs =>
    cases parse_key itemCrates q.cert.private_key_pem with
    | error e => rfl
    | ok key => cases client_verifier itemCrates q.mtls <;> rfl

/-- Key files of one length. -/
theorem tenants_isolated_iff_one_item :
    Isolated itemCrates fun q => q.cert.private_key_pem.length = keyPem.length := by
  apply (tenants_isolated_iff itemCrates_functional _).2
  apply keyDetermines_of_splits
  · intro a b hab
    exact Option.some.inj hab
  · intro q _ m hm
    rw [hm]
    rintro ⟨⟩
  · rintro ⟨⟨chain, key⟩, mtls, http2⟩ ⟨⟨chain', key'⟩, mtls', http2'⟩ hq hq' hh
    obtain ⟨rfl, rfl⟩ := List.append_inj' hh (hq.trans hq'.symm)
    rfl

/-- The first tenant moves the intermediate certificate of the second into its own key file.
The second is then served without it. -/
theorem tenants_share_a_split : itemCrates.Functional ∧ Function.Injective itemCrates.sha256 ∧
    let a := bytes "a.example.com"
    let b := bytes "b.example.com"
    let served (specs : List RouteSpec) :=
      ((build_route_table itemCrates (fun _ => false) {} none specs ⟨{}, {}⟩).1.resolve_with (some b) true).map
        fun r => r.tls_config.map (·.certs)
    deciding [tenantSpec a inKey, tenantSpec b inChain] (some b) true = some 1 ∧
      served [tenantSpec a inKey, tenantSpec b inChain] = some (some [bytes "leaf"]) ∧
      served [plainSpec a, tenantSpec b inChain] = some (some [bytes "leaf", bytes "ca"]) := by
  refine ⟨itemCrates_functional, fun a b hab => Option.some.inj hab, ?_⟩
  decide +kernel

end Symphony.Router
