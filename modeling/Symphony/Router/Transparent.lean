import Symphony.Lib.Runs
import Symphony.Router.Tls
/-!
# What the config cache returns

A cached config is found by a digest of the chain and the private key written one after
the other. Two pairs that differ only in where the chain ends have the same digest, and
the cache returns for the second pair the config built for the first. Where no two such
pairs are asked for, every config returned was built from exactly what was asked for.
-/

namespace Symphony.Router

open Lib (Act Machine)

/-! ## Calls on the cache -/

/-- What a config is asked for with. -/
structure Request where
  cert : CertSpec
  mtls : Option MtlsSpec
  http2 : Bool
  deriving DecidableEq, Repr

section Requests

variable {D : Type} (C : Crates D)

def Request.key (q : Request) : CacheKey D := cache_key C q.cert q.mtls q.http2

/-- `build_server_config` on the request. -/
def Request.build (q : Request) (arc : Nat) : Except SymphonyError ServerConfig :=
  build_server_config C q.cert q.mtls q.http2 arc

/-- What is hashed for the certificate part of the key. -/
def Request.hashed (q : Request) : Bytes := q.cert.cert_chain_pem ++ q.cert.private_key_pem

variable {C}

theorem build_server_config_arc {cert : CertSpec} {mtls : Option MtlsSpec} {http2 : Bool} {arc : Nat}
    {config : ServerConfig} (h : build_server_config C cert mtls http2 arc = .ok config) : config.arc = arc := by
  unfold build_server_config at h
  simp only [bind, Except.bind, pure, Except.pure] at h
  split at h
  · cases h
  split at h
  · cases h
  split at h
  · cases h
  split at h
  · cases h
  split at h
  · cases h
  cases h
  rfl

end Requests

section Lookup

variable {D : Type} [DecidableEq D] (C : Crates D) (held : Nat → Bool)

/-- What a call for `q` can do: hit, build and insert, or fail to build. Marks aside. -/
inductive Looked (q : Request) (w : World D) : Except SymphonyError ServerConfig → World D → Prop where
  | hit {config : ServerConfig} {w' : World D} : w.cache.cache.lookup (q.key C) = some config →
      w'.heap = w.heap → w'.cache.cache = w.cache.cache → Looked q w (.ok config) w'
  | built {config : ServerConfig} {w' : World D} : w.cache.cache.lookup (q.key C) = none →
      q.build C w.heap.next = .ok config → w'.heap = (alloc w.heap).2 →
      w'.cache.cache = (w.cache.insert held (q.key C) config).cache → Looked q w (.ok config) w'
  | failed {e : SymphonyError} {w' : World D} : w.cache.cache.lookup (q.key C) = none →
      q.build C w.heap.next = .error e → w'.heap = (alloc w.heap).2 → w'.cache.cache = w.cache.cache →
        Looked q w (.error e) w'

variable (q : Request) (w : World D)

/-- `lookup_or_build` followed by something that only changes marks. -/
theorem lookup_or_build_looked {f : CacheKey D × ServerConfig → Act (World D) SymphonyError ServerConfig}
    (hf : ∀ k config w, (f (k, config) w).1 = .ok config ∧ (f (k, config) w).2.heap = w.heap ∧
      (f (k, config) w).2.cache.cache = w.cache.cache) :
    Looked C held q w ((lookup_or_build C held q.cert q.mtls q.http2 >>= f) w).1
      ((lookup_or_build C held q.cert q.mtls q.http2 >>= f) w).2 := by
  change Looked C held q w (Act.bind (lookup_or_build C held q.cert q.mtls q.http2) f w).1
    (Act.bind (lookup_or_build C held q.cert q.mtls q.http2) f w).2
  unfold Act.bind lookup_or_build
  dsimp only
  cases hl : w.cache.cache.lookup (cache_key C q.cert q.mtls q.http2) with
  | some config =>
    obtain ⟨hr, hh, hc⟩ := hf (cache_key C q.cert q.mtls q.http2) config w
    dsimp only
    rw [hr]
    exact .hit hl hh hc
  | none =>
    cases hb : build_server_config C q.cert q.mtls q.http2 (alloc w.heap).1 with
    | error e => exact .failed hl hb rfl rfl
    | ok config =>
      obtain ⟨hr, hh, hc⟩ := hf (cache_key C q.cert q.mtls q.http2) config
        ⟨(alloc w.heap).2, w.cache.insert held (cache_key C q.cert q.mtls q.http2) config⟩
      dsimp only
      rw [hr]
      exact .built hl hb hh hc

theorem get_or_build_looked :
    Looked C held q w (get_or_build C held q.cert q.mtls q.http2 w).1
      (get_or_build C held q.cert q.mtls q.http2 w).2 := by
  apply lookup_or_build_looked
  intro k config w
  exact ⟨rfl, rfl, rfl⟩

theorem get_or_build_unmarked_looked :
    Looked C held q w (get_or_build_unmarked C held q.cert q.mtls q.http2 w).1
      (get_or_build_unmarked C held q.cert q.mtls q.http2 w).2 := by
  apply lookup_or_build_looked
  intro k config w
  exact ⟨rfl, rfl, rfl⟩

end Lookup

/-- A cache and the requests made to it so far. -/
structure Asked (D : Type) where
  world : World D
  requests : List Request := []

/-- Calls on the cache. `held` says which configs are held outside the cache at the time. -/
inductive CacheEvent where
  | get_or_build (held : Nat → Bool) (q : Request)
  | get_or_build_unmarked (held : Nat → Bool) (q : Request)
  | clear_used (held : Nat → Bool)
  | retain_used (held : Nat → Bool)

section Machine

variable {D : Type} [DecidableEq D] (C : Crates D)

def caching : Machine (Asked D) CacheEvent (Option (Except SymphonyError ServerConfig)) where
  step s
    | .get_or_build held q =>
      let r := get_or_build C held q.cert q.mtls q.http2 s.world
      (some r.1, ⟨r.2, q :: s.requests⟩)
    | .get_or_build_unmarked held q =>
      let r := get_or_build_unmarked C held q.cert q.mtls q.http2 s.world
      (some r.1, ⟨r.2, q :: s.requests⟩)
    | .clear_used held => (none, { s with world := { s.world with cache := s.world.cache.clear_used held } })
    | .retain_used held => (none, { s with world := { s.world with cache := s.world.cache.retain_used held } })
  reading _ := none

/-- The request of a call, if it makes one. -/
def CacheEvent.request : CacheEvent → Option Request
  | .get_or_build _ q => some q
  | .get_or_build_unmarked _ q => some q
  | .clear_used _ => none
  | .retain_used _ => none

/-- The call asked for `q` and was given `config`. -/
def Returned (q : Request) (config : ServerConfig)
    (x : CacheEvent × Option (Except SymphonyError ServerConfig)) : Prop :=
  x.1.request = some q ∧ x.2 = some (.ok config)

/-- A request that splits the same bytes into chain and key as every earlier request with
the same client-CA policy and protocol did, and whose client CA does not hash to the
digest that stands for none. -/
def SplitAlike (s : Asked D) (e : CacheEvent) : Prop :=
  ∀ q, e.request = some q →
    (∀ q' ∈ s.requests, q'.mtls = q.mtls → q'.http2 = q.http2 → q'.hashed = q.hashed → q'.cert = q.cert) ∧
    ∀ m, q.mtls = some m → mtls_key C q.mtls ≠ C.zeros

end Machine

/-! ## Where a returned config comes from -/

section Faithful

variable {D : Type} [DecidableEq D] {C : Crates D}

omit [DecidableEq D] in
/-- Requests with the same key hash the same bytes, if their client CAs hash to
something else than the placeholder. -/
theorem key_inj (hC : Function.Injective C.sha256) {q q' : Request} (h : q.key C = q'.key C)
    (hq : ∀ m, q.mtls = some m → mtls_key C q.mtls ≠ C.zeros)
    (hq' : ∀ m, q'.mtls = some m → mtls_key C q'.mtls ≠ C.zeros) :
    q.mtls = q'.mtls ∧ q.http2 = q'.http2 ∧ q.hashed = q'.hashed := by
  obtain ⟨hcert, hrest⟩ := Prod.mk.inj h
  obtain ⟨hmtls, hhttp2⟩ := Prod.mk.inj hrest
  exact ⟨mtls_key_inj_of hC hmtls hq hq', hhttp2, hC hcert⟩

/-- The history of a cache: every cached config was returned for a request with its key,
and every returned config was built from its request. -/
structure Faithful (C : Crates D) (s : Asked D) (log : List (CacheEvent × Option (Except SymphonyError ServerConfig))) :
    Prop where
  asked : ∀ x ∈ log, ∀ q config, Returned q config x → q ∈ s.requests
  digests : ∀ q ∈ s.requests, ∀ m, q.mtls = some m → mtls_key C q.mtls ≠ C.zeros
  cached : ∀ k config, s.world.cache.cache.lookup k = some config → ∃ x ∈ log, ∃ q, Returned q config x ∧ q.key C = k
  built : ∀ x ∈ log, ∀ q config, Returned q config x → q.build C config.arc = .ok config ∧
    config.arc < s.world.heap.next
  own : ∀ x ∈ log, ∀ y ∈ log, ∀ q q' config config', Returned q config x → Returned q' config' y →
    config.arc = config'.arc → q = q'

variable {s : Asked D} {log : List (CacheEvent × Option (Except SymphonyError ServerConfig))}

theorem Faithful.quiet (h : Faithful C s log) {s' : Asked D}
    {x : CacheEvent × Option (Except SymphonyError ServerConfig)}
    (hx : ∀ q config, ¬ Returned q config x) (hreq : ∀ q ∈ s.requests, q ∈ s'.requests)
    (hdig : ∀ q ∈ s'.requests, ∀ m, q.mtls = some m → mtls_key C q.mtls ≠ C.zeros)
    (hheap : s.world.heap.next ≤ s'.world.heap.next)
    (hcache : ∀ k config, s'.world.cache.cache.lookup k = some config → s.world.cache.cache.lookup k = some config) :
    Faithful C s' (log ++ [x]) := by
  have hold {y : CacheEvent × Option (Except SymphonyError ServerConfig)} {q : Request} {config : ServerConfig}
      (hy : y ∈ log ++ [x]) (hr : Returned q config y) : y ∈ log := by
    rcases List.mem_append.1 hy with hy | hy
    · exact hy
    · rw [List.mem_singleton.1 hy] at hr
      exact absurd hr (hx q config)
  refine ⟨?_, hdig, ?_, ?_, ?_⟩
  · intro y hy q config hr
    exact hreq q (h.asked y (hold hy hr) q config hr)
  · intro k config hl
    obtain ⟨y, hy, q, hr, hk⟩ := h.cached k config (hcache k config hl)
    exact ⟨y, List.mem_append_left _ hy, q, hr, hk⟩
  · intro y hy q config hr
    obtain ⟨hb, hlt⟩ := h.built y (hold hy hr) q config hr
    exact ⟨hb, Nat.lt_of_lt_of_le hlt hheap⟩
  · intro y hy z hz q q' config config' hr hr'
    exact h.own y (hold hy hr) z (hold hz hr') q q' config config' hr hr'

/-- A call that returns a config for `q`: one that was built from `q` alone. -/
theorem Faithful.returned (h : Faithful C s log) {w' : World D} {q : Request} {config : ServerConfig} {e : CacheEvent}
    (he : e.request = some q) (hdig : ∀ m, q.mtls = some m → mtls_key C q.mtls ≠ C.zeros)
    (hheap : s.world.heap.next ≤ w'.heap.next) (hbuild : q.build C config.arc = .ok config)
    (hlt : config.arc < w'.heap.next)
    (hown : ∀ y ∈ log, ∀ q' config', Returned q' config' y → config.arc = config'.arc → q = q')
    (hcache : ∀ k config', w'.cache.cache.lookup k = some config' →
      (k = q.key C ∧ config' = config) ∨ s.world.cache.cache.lookup k = some config') :
    Faithful C ⟨w', q :: s.requests⟩ (log ++ [(e, some (.ok config))]) := by
  have hnew : Returned q config (e, some (.ok config)) := ⟨he, rfl⟩
  have hcases {y : CacheEvent × Option (Except SymphonyError ServerConfig)} {q' : Request} {config' : ServerConfig}
      (hy : y ∈ log ++ [(e, some (.ok config))]) (hr : Returned q' config' y) :
        y ∈ log ∨ (q' = q ∧ config' = config) := by
    rcases List.mem_append.1 hy with hy | hy
    · exact .inl hy
    · rw [List.mem_singleton.1 hy] at hr
      obtain ⟨hq, hc⟩ := hr
      rw [he] at hq
      cases hq
      cases hc
      exact .inr ⟨rfl, rfl⟩
  refine ⟨?_, ?_, ?_, ?_, ?_⟩
  · intro y hy q' config' hr
    rcases hcases hy hr with hold | ⟨rfl, -⟩
    · exact List.mem_cons_of_mem _ (h.asked y hold q' config' hr)
    · exact List.mem_cons_self
  · intro q' hq'
    rcases List.mem_cons.1 hq' with rfl | hq'
    · exact hdig
    · exact h.digests q' hq'
  · intro k config' hl
    rcases hcache k config' hl with ⟨rfl, rfl⟩ | hold
    · exact ⟨_, List.mem_append_right _ (List.mem_singleton_self _), q, hnew, rfl⟩
    · obtain ⟨y, hy, q', hr, hk⟩ := h.cached k config' hold
      exact ⟨y, List.mem_append_left _ hy, q', hr, hk⟩
  · intro y hy q' config' hr
    rcases hcases hy hr with hold | ⟨rfl, rfl⟩
    · obtain ⟨hb, hl⟩ := h.built y hold q' config' hr
      exact ⟨hb, Nat.lt_of_lt_of_le hl hheap⟩
    · exact ⟨hbuild, hlt⟩
  · intro y hy z hz q₁ q₂ config₁ config₂ hr₁ hr₂ harc
    rcases hcases hy hr₁ with hold₁ | ⟨rfl, rfl⟩
    · rcases hcases hz hr₂ with hold₂ | ⟨rfl, rfl⟩
      · exact h.own y hold₁ z hold₂ q₁ q₂ config₁ config₂ hr₁ hr₂ harc
      · exact (hown y hold₁ q₁ config₁ hr₁ harc.symm).symm
    · rcases hcases hz hr₂ with hold₂ | ⟨rfl, rfl⟩
      · exact hown z hold₂ q₂ config₂ hr₂ harc
      · rfl

theorem Faithful.request (hC : Function.Injective C.sha256) (h : Faithful C s log) {e : CacheEvent} {q : Request}
    (he : e.request = some q) (hok : SplitAlike C s e) {held : Nat → Bool} {answer : Except SymphonyError ServerConfig}
    {w' : World D} (hl : Looked C held q s.world answer w') :
    Faithful C ⟨w', q :: s.requests⟩ (log ++ [(e, some answer)]) := by
  obtain ⟨hsplit, hdig⟩ := hok q he
  have hnext : s.world.heap.next ≤ (alloc s.world.heap).2.next := Nat.le_succ _
  cases hl with
  | hit hlook hheap hcache =>
    -- the entry was returned before, for a request with this key, so for this request
    obtain ⟨y, hy, q', hr, hk⟩ := h.cached _ _ hlook
    obtain ⟨hm, hh, hb⟩ := key_inj hC hk (h.digests q' (h.asked y hy q' _ hr)) hdig
    obtain rfl : q' = q := by
      have hcert := hsplit q' (h.asked y hy q' _ hr) hm hh hb
      obtain ⟨cert, mtls, http2⟩ := q
      obtain ⟨cert', mtls', http2'⟩ := q'
      simp_all
    obtain ⟨hbuild, hlt⟩ := h.built y hy q' _ hr
    apply h.returned he hdig (Nat.le_of_eq (by rw [hheap])) hbuild (by rwa [hheap])
    · intro z hz q'' config'' hr'' harc
      exact h.own y hy z hz _ _ _ _ hr hr'' harc
    · intro k config' hl'
      right
      rwa [hcache] at hl'
  | built hlook hbuild hheap hcache =>
    have harc := build_server_config_arc hbuild
    apply h.returned he hdig (by rw [hheap]; exact hnext) (by rw [harc]; exact hbuild)
    · rw [harc, hheap]
      exact Nat.lt_succ_self _
    · -- a new config has an identity no earlier one has
      intro z hz q' config' hr' he'
      have hlt := (h.built z hz q' config' hr').2
      omega
    · intro k config' hl'
      rw [hcache] at hl'
      exact lookup_insert_cases held hl'
  | failed _ _ hheap hcache =>
    apply h.quiet
    · rintro q' config ⟨-, hc⟩
      cases hc
    · intro q' hq'
      exact List.mem_cons_of_mem _ hq'
    · intro q' hq'
      rcases List.mem_cons.1 hq' with rfl | hq'
      · exact hdig
      · exact h.digests q' hq'
    · rw [hheap]
      exact hnext
    · intro k config hl'
      rwa [hcache] at hl'

theorem Faithful.step (hC : Function.Injective C.sha256) (h : Faithful C s log) {e : CacheEvent}
    (hok : SplitAlike C s e) :
    Faithful C ((caching C).step s e).2 (log ++ [(e, ((caching C).step s e).1)]) := by
  cases e with
  | get_or_build held q => exact h.request hC rfl hok (get_or_build_looked C held q s.world)
  | get_or_build_unmarked held q => exact h.request hC rfl hok (get_or_build_unmarked_looked C held q s.world)
  | clear_used held =>
    refine h.quiet ?_ (fun _ hq => hq) h.digests (Nat.le_refl _) ?_
    · rintro q config ⟨hq, -⟩
      cases hq
    · intro k config hl
      change (s.world.cache.clear_used held).cache.lookup k = some config at hl
      rw [lookup_clear_used, Option.filter_eq_some_iff] at hl
      exact hl.1
  | retain_used held =>
    refine h.quiet ?_ (fun _ hq => hq) h.digests (Nat.le_refl _) ?_
    · rintro q config ⟨hq, -⟩
      cases hq
    · intro k config hl
      change (s.world.cache.retain_used held).cache.lookup k = some config at hl
      rw [lookup_retain_used, Option.filter_eq_some_iff] at hl
      exact hl.1

end Faithful

/-- Where requests that hash the same bytes split them alike, every config the cache
returns was built from exactly what was asked for, and no two different requests are ever
given the same config. -/
theorem cache_transparent {D : Type} [DecidableEq D] {C : Crates D} (hC : Function.Injective C.sha256) {heap : Heap}
    {s : Asked D} {clock : Nat} {log : List (CacheEvent × Option (Except SymphonyError ServerConfig))}
    (h : (caching C).RunWhere (SplitAlike C) ⟨⟨heap, {}⟩, []⟩ s clock log) :
    (∀ x ∈ log, ∀ q config, Returned q config x →
      build_server_config C q.cert q.mtls q.http2 config.arc = .ok config) ∧
    ∀ x ∈ log, ∀ y ∈ log, ∀ q q' config config', Returned q config x → Returned q' config' y →
      config.arc = config'.arc → q = q' := by
  have hf : Faithful C s log := by
    apply h.inv fun s _ log => Faithful C s log
    · refine ⟨?_, ?_, ?_, ?_, ?_⟩
      · intro x hx
        cases hx
      · intro q hq
        cases hq
      · intro k config hl
        cases hl
      · intro x hx
        cases hx
      · intro x hx
        cases hx
    · intro s _ log e hs hok _
      exact hs.step hC hok
  exact ⟨fun x hx q config hr => (hf.built x hx q config hr).1, hf.own⟩

/-- Any certificate matches any key. -/
def itemCrates : Crates (Option Bytes) := { literalCrates with with_single_cert := fun _ _ => .ok () }

def leafPem : Bytes := pem CERTIFICATE "leaf"
def caPem : Bytes := pem CERTIFICATE "ca"
def keyPem : Bytes := pem PRIVATE_KEY "key"

/-- A leaf, an intermediate and a key: the intermediate in the chain's file, or in the key's. -/
def inChain : Request := ⟨⟨leafPem ++ caPem, keyPem⟩, none, false⟩
def inKey : Request := ⟨⟨leafPem, caPem ++ keyPem⟩, none, false⟩

instance {D : Type} (C : Crates D) [DecidableEq D] (s : Asked D) (e : CacheEvent) : Decidable (SplitAlike C s e) :=
  decidable_of_iff ((e.request).all fun q => decide
    ((∀ q' ∈ s.requests, q'.mtls = q.mtls → q'.http2 = q.http2 → q'.hashed = q.hashed → q'.cert = q.cert) ∧
      (q.mtls.isSome → mtls_key C q.mtls ≠ C.zeros)) = true) (by
    simp only [Option.all_eq_true, decide_eq_true_eq, Option.isSome_iff_exists, forall_exists_index]
    rfl)

/-- The same request twice: the second call hits. -/
theorem cache_transparent_repeated : ∃ s clock log,
    (caching itemCrates).RunWhere (SplitAlike itemCrates) ⟨⟨{}, {}⟩, []⟩ s clock log ∧
    ∃ config, log.map Prod.snd = [some (.ok config), some (.ok config)] ∧ config.certs = [bytes "leaf", bytes "ca"] ∧
      build_server_config itemCrates inChain.cert inChain.mtls inChain.http2 config.arc = .ok config := by
  have h₀ : (caching itemCrates).RunWhere (SplitAlike itemCrates) ⟨⟨{}, {}⟩, []⟩ ⟨⟨{}, {}⟩, []⟩ 0 [] := .nil
  have hok : (caching itemCrates).Admissible (SplitAlike itemCrates) ⟨⟨{}, {}⟩, []⟩ 0
      [.get_or_build (fun _ => true) inChain, .get_or_build_unmarked (fun _ => true) inChain] := by decide +kernel
  obtain ⟨clock, h⟩ := h₀.exec hok
  refine ⟨_, clock, _, h, ⟨0, [bytes "leaf", bytes "ca"], bytes "key", none, []⟩, by decide +kernel, rfl, ?_⟩
  exact (cache_transparent (fun a b hab => Option.some.inj hab) h).1 _ (List.mem_cons_self) inChain _
    ⟨rfl, by decide +kernel⟩

/-- A request for a chain with the intermediate is given the config without it, which was
built for the key file that holds the intermediate. -/
theorem cache_confuses_splits : Function.Injective itemCrates.sha256 ∧ ∃ s clock log,
    (caching itemCrates).Run ⟨⟨{}, {}⟩, []⟩ s clock log ∧
    ∃ x ∈ log, ∃ config, Returned inChain config x ∧ config.certs = [bytes "leaf"] ∧
      ∀ arc, build_server_config itemCrates inChain.cert inChain.mtls inChain.http2 arc ≠ .ok config := by
  have h₀ : (caching itemCrates).Run ⟨⟨{}, {}⟩, []⟩ ⟨⟨{}, {}⟩, []⟩ 0 [] := .nil
  have h₁ := h₀.step (CacheEvent.get_or_build (fun _ => true) inKey) (Nat.le_refl _)
  have h := h₁.step (CacheEvent.get_or_build (fun _ => true) inChain) (Nat.le_refl _)
  refine ⟨fun a b hab => Option.some.inj hab, _, _, _, h, _, List.mem_append_right _ (List.mem_singleton_self _),
    ⟨0, [bytes "leaf"], bytes "key", none, []⟩, ⟨rfl, by decide +kernel⟩, rfl, ?_⟩
  intro arc hb
  have hcerts : (build_server_config itemCrates inChain.cert inChain.mtls inChain.http2 arc).toOption.map (·.certs) =
      some [bytes "leaf", bytes "ca"] := rfl
  rw [hb] at hcerts
  cases hcerts

end Symphony.Router
