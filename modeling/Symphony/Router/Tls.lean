import Mathlib.Data.Finset.Insert
import Symphony.Lib.Act
import Symphony.Lib.Table
import Symphony.Router.Spec
/-!
# TLS configs and their cache

`build_server_config` and `TlsConfigCache`. A shared object (`Arc`) is the record it
holds together with an identity, handed out by the `Heap`. What only a connection
changes is left out of the records, except the refusal time of a `SlotHealth` cell,
which building a route reads. A strong count above one is a `held` test: something
other than the cache has the config.

The cache invariant `Built` says where every cached config came from, as far as its
key tells: the client CA and the required flag are in the key, so a hit has the
verifier that was asked for.
-/

namespace Symphony.Router

open Lib (Act Table)

/-! ## Shared objects -/

/-- What building routes reads and changes outside its own values: the next identity,
the `refused_at_ns` of each `SlotHealth` (0 = accepting), and the two clocks. -/
structure Heap where
  next : Nat := 0
  refused_at : Nat → Nat := fun _ => 0
  now_ns : Nat := 0
  wall_ns : Nat := 0

abbrev Alloc := StateM Heap

/-- The identity of a new shared object. -/
def alloc : Alloc Nat := fun h => (h.next, { h with next := h.next + 1 })

/-! ## Building a config -/

structure CertSpec where
  cert_chain_pem : Bytes
  private_key_pem : Bytes
  deriving DecidableEq, Repr

structure MtlsSpec where
  client_ca_pem : Bytes
  require_client_cert : Bool
  deriving DecidableEq, Repr

/-- Verifies client certificates against `roots`; a client may send none unless
`require_cert`. -/
structure SymphonyClientVerifier where
  roots : List Bytes
  require_cert : Bool
  deriving DecidableEq, Repr

/-- A `ServerConfig`: the session store and the ticket keys go by its identity. -/
structure ServerConfig where
  arc : Nat
  certs : List Bytes
  key : Bytes
  verifier : Option SymphonyClientVerifier
  alpn_protocols : List Bytes
  deriving DecidableEq, Repr

variable {config : ServerConfig}

section Build

variable {D : Type} (C : Crates D)

/-- One item of the client CA: it must parse, and the root store must take it. -/
def add_root (cert : Except Bytes Bytes) : Except SymphonyError Bytes := do
  let cert ← cert.mapError fun e => .Config (bytes "invalid CA cert: " ++ e)
  (C.root_store_add cert).mapError fun e => .Config (bytes "failed to add CA cert: " ++ e)
  return cert

def SymphonyClientVerifier.build (ca_pem : Bytes) (require_cert : Bool) :
    Except SymphonyError SymphonyClientVerifier := do
  let roots ← (C.certs ca_pem).mapM (add_root C)
  (C.verifier_build roots).mapError fun e => .Config (bytes "client verifier build failed: " ++ e)
  return ⟨roots, require_cert⟩

/-- The verifier a config is built with. -/
def client_verifier : Option MtlsSpec → Except SymphonyError (Option SymphonyClientVerifier)
  | none => .ok none
  | some m => (SymphonyClientVerifier.build C m.client_ca_pem m.require_client_cert).map some

def parse_chain (cert_chain_pem : Bytes) : Except SymphonyError (List Bytes) :=
  match (C.certs cert_chain_pem).mapM id with
  | .error e => .error (.Config (bytes "invalid cert chain PEM: " ++ e))
  | .ok [] => .error (.Config (bytes "cert chain PEM contains no certificates"))
  | .ok certs => .ok certs

def parse_key (private_key_pem : Bytes) : Except SymphonyError Bytes :=
  match C.private_key private_key_pem with
  | .error e => .error (.Config (bytes "invalid private key PEM: " ++ e))
  | .ok none => .error (.Config (bytes "private key PEM contains no key"))
  | .ok (some key) => .ok key

/-- `build_server_config`, for the config that would get identity `arc`. -/
def build_server_config (cert : CertSpec) (mtls : Option MtlsSpec) (http2 : Bool) (arc : Nat) :
    Except SymphonyError ServerConfig := do
  let certs ← parse_chain C cert.cert_chain_pem
  let key ← parse_key C cert.private_key_pem
  let verifier ← client_verifier C mtls
  (C.with_single_cert certs key).mapError .Tls
  (C.ticketer arc).mapError .Tls
  return ⟨arc, certs, key, verifier, if http2 then [bytes "h2", bytes "http/1.1"] else []⟩

/-! ## The cache -/

/-- `(cert_sha256, mtls_sha256_or_zeros, http2)`. -/
abbrev CacheKey (D : Type) := D × D × Bool

def mtls_key : Option MtlsSpec → D
  | none => C.zeros
  | some m => C.sha256 (m.client_ca_pem ++ [if m.require_client_cert then 1 else 0])

/-- The key `lookup_or_build` computes: chain and private key are hashed together. -/
def cache_key (cert : CertSpec) (mtls : Option MtlsSpec) (http2 : Bool) : CacheKey D :=
  (C.sha256 (cert.cert_chain_pem ++ cert.private_key_pem), mtls_key C mtls, http2)

/-- `config` was built from something that has the key `k`. -/
def BuiltFor (k : CacheKey D) (config : ServerConfig) : Prop :=
  ∃ cert mtls http2 arc, cache_key C cert mtls http2 = k ∧ build_server_config C cert mtls http2 arc = .ok config

variable {C}

/-- The key of a client-CA policy hashes the CA followed by one byte for the flag, or is
the placeholder. -/
theorem mtls_key_inj_of (hC : Function.Injective C.sha256) {m m' : Option MtlsSpec} (h : mtls_key C m = mtls_key C m')
    (hm : ∀ a, m = some a → mtls_key C m ≠ C.zeros) (hm' : ∀ a, m' = some a → mtls_key C m' ≠ C.zeros) : m = m' := by
  match m, m' with
  | none, none => rfl
  | none, some a => exact absurd h.symm (hm' a rfl)
  | some a, none => exact absurd h (hm a rfl)
  | some ⟨ca, r⟩, some ⟨ca', r'⟩ =>
    obtain ⟨hca, hr⟩ := List.append_inj' (hC h) rfl
    dsimp only at hca hr
    subst hca
    congr 2
    cases r <;> cases r' <;> simp at hr ⊢

theorem mtls_key_inj (hC : C.NoCollision) {m m' : Option MtlsSpec} (h : mtls_key C m = mtls_key C m') : m = m' := by
  have hzeros (data : Bytes) : C.sha256 data ≠ C.zeros := by
    intro e
    have := @hC (some data) none e
    cases this
  have hkey (m : Option MtlsSpec) (a : MtlsSpec) (hm : m = some a) : mtls_key C m ≠ C.zeros := by
    subst hm
    exact hzeros _
  apply mtls_key_inj_of _ h (hkey m) (hkey m')
  intro a b hab
  exact Option.some.inj (@hC (some a) (some b) hab)

theorem build_server_config_verifier {cert : CertSpec} {mtls : Option MtlsSpec} {http2 : Bool} {arc : Nat}
    (h : build_server_config C cert mtls http2 arc = .ok config) :
    client_verifier C mtls = .ok config.verifier := by
  unfold build_server_config at h
  simp only [bind, Except.bind, pure, Except.pure] at h
  split at h
  · cases h
  split at h
  · cases h
  split at h
  · cases h
  rename_i verifier hv
  split at h
  · cases h
  split at h
  · cases h
  cases h
  exact hv

/-- A config built for a key has the verifier the key's client-CA policy asks for. -/
theorem BuiltFor.verifier (hC : C.NoCollision) {cert : CertSpec} {mtls : Option MtlsSpec} {http2 : Bool}
    (h : BuiltFor C (cache_key C cert mtls http2) config) :
    client_verifier C mtls = .ok config.verifier := by
  obtain ⟨cert', mtls', http2', arc, hk, hb⟩ := h
  have hm : mtls' = mtls := mtls_key_inj hC (congrArg (·.2.1) hk)
  subst hm
  exact build_server_config_verifier hb

end Build

def MIN_EVICT_AT : Nat := 256

structure TlsConfigCache (D : Type) where
  cache : Table (CacheKey D) ServerConfig := ∅
  used : Finset (CacheKey D) := ∅
  evict_at : Nat := MIN_EVICT_AT

/-- What a route-table build changes besides the table. -/
structure World (D : Type) where
  heap : Heap
  cache : TlsConfigCache D

section Cache

variable {D : Type} [DecidableEq D] (C : Crates D) (held : Nat → Bool)

def TlsConfigCache.len (c : TlsConfigCache D) : Nat := c.cache.entries.length

def TlsConfigCache.evict_unreferenced (c : TlsConfigCache D) : TlsConfigCache D :=
  let cache := Table.retain (fun config => held config.arc) c.cache
  { c with cache := cache, evict_at := max MIN_EVICT_AT (cache.entries.length * 2) }

def TlsConfigCache.clear_used (c : TlsConfigCache D) : TlsConfigCache D :=
  TlsConfigCache.evict_unreferenced held { c with used := ∅ }

def TlsConfigCache.retain_used (c : TlsConfigCache D) : TlsConfigCache D :=
  { c with cache := Table.keep (fun k config => k ∈ c.used || held config.arc) c.cache, used := ∅ }

/-- The insert of `lookup_or_build`. The caller still has the config when the size is
looked at, so an eviction never takes that one. -/
def TlsConfigCache.insert (c : TlsConfigCache D) (k : CacheKey D) (config : ServerConfig) : TlsConfigCache D :=
  let c := { c with cache := c.cache.insert k config }
  if c.len > c.evict_at then c.evict_unreferenced fun arc => arc == config.arc || held arc else c

def lookup_or_build (cert : CertSpec) (mtls : Option MtlsSpec) (http2 : Bool) :
    Act (World D) SymphonyError (CacheKey D × ServerConfig) := fun w =>
  let k := cache_key C cert mtls http2
  match w.cache.cache.lookup k with
  | some config => (.ok (k, config), w)
  | none =>
    let heap := (alloc w.heap).2
    match build_server_config C cert mtls http2 (alloc w.heap).1 with
    | .error e => (.error e, ⟨heap, w.cache⟩)
    | .ok config => (.ok (k, config), ⟨heap, w.cache.insert held k config⟩)

def get_or_build (cert : CertSpec) (mtls : Option MtlsSpec) (http2 : Bool) :
    Act (World D) SymphonyError ServerConfig := do
  let (k, config) ← lookup_or_build C held cert mtls http2
  fun w => (.ok config, { w with cache := { w.cache with used := insert k w.cache.used } })

def get_or_build_unmarked (cert : CertSpec) (mtls : Option MtlsSpec) (http2 : Bool) :
    Act (World D) SymphonyError ServerConfig := do
  let (_, config) ← lookup_or_build C held cert mtls http2
  return config

/-! ## What is cached after each operation -/

variable {c : TlsConfigCache D}

variable (cert : CertSpec) (mtls : Option MtlsSpec) (http2 : Bool)

theorem lookup_evict (c : TlsConfigCache D) (k : CacheKey D) :
    (c.evict_unreferenced held).cache.lookup k = (c.cache.lookup k).filter fun config => held config.arc :=
  Table.lookup_retain _ _ k

theorem lookup_clear_used (c : TlsConfigCache D) (k : CacheKey D) :
    (c.clear_used held).cache.lookup k = (c.cache.lookup k).filter fun config => held config.arc :=
  Table.lookup_retain _ _ k

theorem lookup_retain_used (c : TlsConfigCache D) (k : CacheKey D) :
    (c.retain_used held).cache.lookup k = (c.cache.lookup k).filter fun config => k ∈ c.used || held config.arc :=
  Table.lookup_keep _ _ k

/-- The inserted config is there, and every other entry something holds. -/
theorem lookup_insert (c : TlsConfigCache D) (k : CacheKey D) (config : ServerConfig) (k' : CacheKey D) :
    (c.insert held k config).cache.lookup k' = (c.cache.insert k config).lookup k' ∨
      (c.insert held k config).cache.lookup k' =
        ((c.cache.insert k config).lookup k').filter fun e => e.arc == config.arc || held e.arc := by
  unfold TlsConfigCache.insert
  dsimp only
  split
  · exact .inr (lookup_evict _ _ k')
  · exact .inl rfl

theorem lookup_insert_cases {k k' : CacheKey D} {e : ServerConfig}
    (h : (c.insert held k config).cache.lookup k' = some e) : (k' = k ∧ e = config) ∨ c.cache.lookup k' = some e := by
  apply Table.lookup_insert_cases
  rcases lookup_insert held c k config k' with he | he
  · exact he ▸ h
  · rw [he, Option.filter_eq_some_iff] at h
    exact h.1

/-! ## Where cached configs come from -/

/-- Every cached config was built for its key. -/
def TlsConfigCache.Built (c : TlsConfigCache D) : Prop :=
  ∀ k config, c.cache.lookup k = some config → BuiltFor C k config

theorem built_new : TlsConfigCache.Built C {} := by
  intro k config h
  cases h

theorem built_evict (h : c.Built C) : (c.evict_unreferenced held).Built C := by
  intro k config hk
  rw [lookup_evict] at hk
  exact h k config (Option.filter_eq_some_iff.1 hk).1

theorem built_clear_used (h : c.Built C) : (c.clear_used held).Built C := built_evict C held h

theorem built_retain_used (h : c.Built C) : (c.retain_used held).Built C := by
  intro k config hk
  rw [lookup_retain_used] at hk
  exact h k config (Option.filter_eq_some_iff.1 hk).1

theorem built_insert {k : CacheKey D} (h : c.Built C) (hk : BuiltFor C k config) :
    (c.insert held k config).Built C := by
  intro k' config' hl
  rcases lookup_insert_cases held hl with ⟨rfl, rfl⟩ | hl
  · exact hk
  · exact h k' config' hl

theorem keeps_lookup_or_build :
    Act.Keeps (fun w : World D => w.cache.Built C) (lookup_or_build C held cert mtls http2)
      fun r => BuiltFor C (cache_key C cert mtls http2) r.2 := by
  intro w hw
  unfold lookup_or_build
  dsimp only
  split
  · rename_i config hl
    refine ⟨hw, ?_⟩
    rintro r ⟨⟩
    exact hw _ _ hl
  · split
    · refine ⟨hw, ?_⟩
      rintro r ⟨⟩
    · rename_i config hb
      have hf : BuiltFor C (cache_key C cert mtls http2) config := ⟨cert, mtls, http2, _, rfl, hb⟩
      refine ⟨built_insert C held hw hf, ?_⟩
      rintro r ⟨⟩
      exact hf

theorem keeps_get_or_build :
    Act.Keeps (fun w : World D => w.cache.Built C) (get_or_build C held cert mtls http2)
      fun config => BuiltFor C (cache_key C cert mtls http2) config := by
  apply (keeps_lookup_or_build C held cert mtls http2).bind
  rintro ⟨k, config⟩ hr w hw
  refine ⟨hw, ?_⟩
  rintro r ⟨⟩
  exact hr

theorem keeps_get_or_build_unmarked :
    Act.Keeps (fun w : World D => w.cache.Built C) (get_or_build_unmarked C held cert mtls http2)
      fun config => BuiltFor C (cache_key C cert mtls http2) config := by
  apply (keeps_lookup_or_build C held cert mtls http2).bind
  rintro ⟨k, config⟩ hr
  exact Act.keeps_pure hr

end Cache

end Symphony.Router
