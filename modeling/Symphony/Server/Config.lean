import Mathlib.Data.List.Sort
import Mathlib.Data.List.Dedup
import Symphony.Lib.Writes
import Symphony.Sni.Hello
/-!
# The config file of the server

The entries of `config.json`, and the proxy config that an entry is resolved to: the
certificates and client CAs it names by path are read. A route whose files can't be read
gets material that no route builds from; a listener's files fail the entry. An entry is
known across reloads by its sorted listener ports.

The file is untrusted. What is not an array, not an object or not a number where the
server expects one is `none`. The numbers are natural numbers: a file that gives a fraction
or a negative number for one of them is not modelled.
-/

namespace Symphony.Server

open Sni (decimal)

/-! ## Entries -/

structure FileCertConfig where
  certChain : Option Bytes := none
  certChainFile : Option Bytes := none
  privateKey : Option Bytes := none
  privateKeyFile : Option Bytes := none
  deriving DecidableEq, Repr

structure FileMtlsConfig where
  clientCaCert : Option Bytes := none
  clientCaCertFile : Option Bytes := none
  requireClientCert : Option Bool := none
  deriving DecidableEq, Repr

/-- `rest` is the text of the fields that the server only hands on. -/
structure FileRouteConfig where
  sni : Bytes
  cert : Option FileCertConfig := none
  mtls : Option FileMtlsConfig := none
  rest : Bytes := []
  deriving DecidableEq, Repr

structure FileListenerConfig where
  port : Option Nat
  host : Option Bytes := none
  defaultCert : Option FileCertConfig := none
  mtls : Option FileMtlsConfig := none
  protection : Option Bytes := none
  failoverIngress : Option Bytes := none
  rest : Bytes := []
  deriving DecidableEq, Repr

/-- What a proxy keeps from its construction on, besides its listeners. -/
structure Frozen where
  workerThreads : Option Nat := none
  readBufferSize : Option Nat := none
  clientReadBufferSize : Option Nat := none
  upstreamReadBufferSize : Option Nat := none
  tcpKeepalive : Option Bytes := none
  halfCloseTimeoutMs : Option Nat := none
  deriving DecidableEq, Repr

structure FileProxyConfig where
  listeners : Option (List FileListenerConfig)
  routes : Option (List FileRouteConfig)
  frozen : Frozen := {}
  deriving DecidableEq, Repr

structure ConfigFile where
  generation : Option Bytes := none
  proxies : List FileProxyConfig
  deriving DecidableEq, Repr

/-! ## Resolved configs -/

structure CertConfig where
  certChain : Bytes
  privateKey : Bytes
  deriving DecidableEq, Repr

structure MtlsConfig where
  clientCaCert : Bytes
  requireClientCert : Option Bool
  deriving DecidableEq, Repr

structure RouteConfig where
  sni : Bytes
  cert : Option CertConfig
  mtls : Option MtlsConfig
  rest : Bytes
  deriving DecidableEq, Repr

structure ListenerConfig where
  port : Nat
  host : Option Bytes
  defaultCert : Option CertConfig
  mtls : Option MtlsConfig
  protection : Option Bytes
  failoverIngress : Option Bytes
  rest : Bytes
  deriving DecidableEq, Repr

structure ProxyConfig where
  listeners : List ListenerConfig
  routes : List RouteConfig
  frozen : Frozen
  deriving DecidableEq, Repr

/-- What reading a file gives, by the path in the config; an error is its text. -/
abbrev Files := Bytes → Except Bytes Bytes

section Resolve

variable (files : Files)

/-- `value ?? (file ? readFileSync(file) : undefined)`. -/
def inlineOrFile (value file : Option Bytes) : Except Bytes (Option Bytes) :=
  match value, file with
  | some text, _ => .ok (some text)
  | none, none => .ok none
  | none, some path => if path = [] then .ok none else (files path).map some

def resolveCert (c : FileCertConfig) : Except Bytes CertConfig := do
  let certChain ← inlineOrFile files c.certChain c.certChainFile
  let privateKey ← inlineOrFile files c.privateKey c.privateKeyFile
  match certChain, privateKey with
  | some certChain, some privateKey => return ⟨certChain, privateKey⟩
  | _, _ =>
    throw (bytes "route cert requires both a chain (certChain/certChainFile) and a key (privateKey/privateKeyFile)")

def resolveMtls (m : FileMtlsConfig) : Except Bytes MtlsConfig := do
  match ← inlineOrFile files m.clientCaCert m.clientCaCertFile with
  | some clientCaCert => return ⟨clientCaCert, m.requireClientCert⟩
  | none => throw (bytes "route mtls requires a client CA (clientCaCert/clientCaCertFile)")

/-- What is given is resolved. -/
def resolveGiven {α β : Type} (f : α → Except Bytes β) : Option α → Except Bytes (Option β)
  | none => .ok none
  | some a => (f a).map some

/-- No route builds from an empty chain. -/
def UNRESOLVABLE_CERT : CertConfig := ⟨[], []⟩

/-- No verifier builds from an empty bundle. -/
def UNRESOLVABLE_MTLS : MtlsConfig := ⟨[], some true⟩

def resolveRoute (r : FileRouteConfig) : RouteConfig :=
  match resolveGiven (resolveMtls files) r.mtls with
  | .error _ => ⟨r.sni, some UNRESOLVABLE_CERT, some UNRESOLVABLE_MTLS, r.rest⟩
  | .ok mtls =>
    match resolveGiven (resolveCert files) r.cert with
    | .ok cert => ⟨r.sni, cert, mtls, r.rest⟩
    | .error _ => ⟨r.sni, some UNRESOLVABLE_CERT, mtls, r.rest⟩

/-- The port of a listener of an entry that `namesPortSet`. -/
def FileListenerConfig.number (l : FileListenerConfig) : Nat := l.port.getD 0

def resolveListener (l : FileListenerConfig) : Except Bytes ListenerConfig := do
  let defaultCert ← resolveGiven (resolveCert files) l.defaultCert
  let mtls ← resolveGiven (resolveMtls files) l.mtls
  return ⟨l.number, l.host, defaultCert, mtls, l.protection, l.failoverIngress, l.rest⟩

def toProxyConfig (spec : FileProxyConfig) : Except Bytes ProxyConfig := do
  let listeners ← (spec.listeners.getD []).mapM (resolveListener files)
  match spec.routes with
  | none => throw (bytes "spec.routes.map is not a function")
  | some routes => return ⟨listeners, routes.map (resolveRoute files), spec.frozen⟩

end Resolve

/-! ## What identifies a proxy -/

/-- The sorted ports, joined by commas. -/
def portKey (ports : List Nat) : Bytes := [44].intercalate ((ports.insertionSort (· ≤ ·)).map decimal)

def namesPortSet (spec : FileProxyConfig) : Bool :=
  spec.listeners.any fun listeners => !listeners.isEmpty && listeners.all (·.port.isSome)

def listenerPorts (specs : List FileProxyConfig) : List Nat :=
  ((specs.flatMap fun spec => (spec.listeners.getD []).filterMap (·.port)).dedup).insertionSort (· ≤ ·)

/-- `Number` of a text of digits. -/
def number (text : Bytes) : Nat := text.foldl (fun n b => 10 * n + (b.toNat - 48)) 0

/-- `key.split(',').map(Number)`. -/
def keyPorts (key : Bytes) : List Nat := (split_on 44 key).map number

def endpoint (host : Option Bytes) (port : Nat) : Bytes := host.getD (bytes "0.0.0.0") ++ [58] ++ decimal port

def ListenerConfig.endpoint (l : ListenerConfig) : Bytes := Server.endpoint l.host l.port

/-- The port as the addon reads it: its field is a `u16`, which takes a number modulo 65536. -/
def u16 (port : Nat) : Nat := port % 65536

/-- The endpoint that the addon binds. -/
def ListenerConfig.bound (l : ListenerConfig) : Bytes := Server.endpoint l.host (u16 l.port)

/-- A listener as the signature of a proxy has it: whether it has protection and is a
failover ingress, not with which settings. -/
structure SigListener where
  port : Nat
  host : Option Bytes
  defaultCert : Option CertConfig
  mtls : Option MtlsConfig
  rest : Bytes
  hasProtection : Bool
  isFailoverIngress : Bool
  deriving DecidableEq, Repr

/-- The object whose JSON text is the signature. -/
structure ConstructionSig where
  listeners : List SigListener
  frozen : Frozen
  deriving DecidableEq, Repr

def constructionSig (config : ProxyConfig) : ConstructionSig where
  listeners := config.listeners.map fun l =>
    ⟨l.port, l.host, l.defaultCert, l.mtls, l.rest, l.protection.isSome, l.failoverIngress.isSome⟩
  frozen := config.frozen

/-! ## Keys and their ports -/

theorem digit_of_decimal {n : Nat} {c : Char} (hc : c ∈ Nat.toDigits 10 n) : 48 ≤ c.toNat ∧ c.toNat ≤ 57 := by
  have hdigit := Nat.isDigit_of_mem_toDigits (by omega) (by omega) hc
  simp only [Char.isDigit, Bool.and_eq_true, decide_eq_true_eq] at hdigit
  exact ⟨hdigit.1, hdigit.2⟩

theorem toNat_digit {n : Nat} {c : Char} (hc : c ∈ Nat.toDigits 10 n) : (UInt8.ofNat c.toNat).toNat = c.toNat := by
  obtain ⟨-, hle⟩ := digit_of_decimal hc
  rw [UInt8.toNat_ofNat']
  exact Nat.mod_eq_of_lt (by omega)

theorem number_decimal (n : Nat) : number (decimal n) = n := by
  have hfold : ∀ (l : List Char) (m : Nat), (∀ c ∈ l, (UInt8.ofNat c.toNat).toNat = c.toNat) →
      (l.map fun c => UInt8.ofNat c.toNat).foldl (fun n b => 10 * n + (b.toNat - 48)) m =
        l.foldl (fun n c => 10 * n + (c.toNat - '0'.toNat)) m := by
    intro l
    induction l with
    | nil => intro m _; rfl
    | cons c l ih =>
      intro m hl
      rw [List.map_cons, List.foldl_cons, List.foldl_cons, hl c (by simp), ih _ fun c' hc' => hl c' (by simp [hc'])]
      rfl
  unfold number decimal
  rw [hfold _ 0 fun c hc => toNat_digit hc, ← Nat.ofDigitChars_eq_foldl, Nat.ofDigitChars_ten_toDigits]

theorem comma_not_mem_decimal (n : Nat) : (44 : UInt8) ∉ decimal n := by
  intro h
  obtain ⟨c, hc, heq⟩ := List.mem_map.1 h
  have hge := (digit_of_decimal hc).1
  have hnat := congrArg UInt8.toNat heq
  rw [toNat_digit hc] at hnat
  rw [hnat] at hge
  exact absurd hge (by decide)

theorem keyPorts_portKey {ports : List Nat} (h : ports ≠ []) :
    keyPorts (portKey ports) = ports.insertionSort (· ≤ ·) := by
  have hne : (ports.insertionSort (· ≤ ·)).map decimal ≠ [] := by
    intro hnil
    have hlen := congrArg List.length hnil
    rw [List.length_map, List.length_insertionSort] at hlen
    exact h (List.eq_nil_of_length_eq_zero hlen)
  have hfree : ∀ p ∈ (ports.insertionSort (· ≤ ·)).map decimal, (44 : UInt8) ∉ p := by
    intro p hp
    obtain ⟨n, -, rfl⟩ := List.mem_map.1 hp
    exact comma_not_mem_decimal n
  unfold keyPorts portKey
  rw [split_on_intercalate hne hfree, List.map_map]
  conv_rhs => rw [← List.map_id (ports.insertionSort (· ≤ ·))]
  exact List.map_congr_left fun n _ => number_decimal n

theorem mem_keyPorts {ports : List Nat} (h : ports ≠ []) (p : Nat) : p ∈ keyPorts (portKey ports) ↔ p ∈ ports := by
  rw [keyPorts_portKey h, List.mem_insertionSort]

/-! ## What resolving keeps -/

section Resolved

variable {files : Files}

variable {spec : FileProxyConfig} {config : ProxyConfig}

theorem resolveListener_names {l : FileListenerConfig} {l' : ListenerConfig} (h : resolveListener files l = .ok l') :
    l'.port = l.number ∧ l'.host = l.host := by
  unfold resolveListener at h
  cases hcert : resolveGiven (resolveCert files) l.defaultCert with
  | error e =>
    rw [hcert] at h
    cases h
  | ok cert =>
    rw [hcert] at h
    cases hmtls : resolveGiven (resolveMtls files) l.mtls with
    | error e =>
      rw [hmtls] at h
      cases h
    | ok mtls =>
      rw [hmtls] at h
      cases h
      exact ⟨rfl, rfl⟩

section

variable (h : toProxyConfig files spec = .ok config)

include h

/-- A resolved entry has the listeners of the entry, and its routes, each resolved. -/
theorem toProxyConfig_ok :
    List.Forall₂ (fun l l' => resolveListener files l = .ok l') (spec.listeners.getD []) config.listeners ∧
      ∃ routes, spec.routes = some routes ∧ config.routes = routes.map (resolveRoute files) := by
  unfold toProxyConfig at h
  cases hls : (spec.listeners.getD []).mapM (resolveListener files) with
  | error e =>
    rw [hls] at h
    cases h
  | ok listeners =>
    rw [hls] at h
    cases hroutes : spec.routes with
    | none =>
      rw [hroutes] at h
      cases h
    | some routes =>
      rw [hroutes] at h
      cases h
      exact ⟨Lib.forall₂_of_mapM hls, routes, rfl, rfl⟩

/-- The hosts and ports of a resolved entry are those of the entry. -/
theorem toProxyConfig_names :
    config.listeners.map (fun l => (l.host, l.port)) = (spec.listeners.getD []).map fun l => (l.host, l.number) := by
  have hnames := (toProxyConfig_ok h).1
  revert hnames
  generalize spec.listeners.getD [] = listeners
  generalize config.listeners = resolved
  intro hnames
  induction hnames with
  | nil => rfl
  | cons hl _ ih =>
    obtain ⟨hport, hhost⟩ := resolveListener_names hl
    rw [List.map_cons, List.map_cons, ih, hport, hhost]

theorem toProxyConfig_ports :
    config.listeners.map (·.port) = (spec.listeners.getD []).map (·.number) := by
  have hports := congrArg (List.map Prod.snd) (toProxyConfig_names h)
  rw [List.map_map, List.map_map] at hports
  exact hports

end

theorem bound_of_names {l l' : List ListenerConfig}
    (h : l.map (fun l => (l.host, l.port)) = l'.map fun l => (l.host, l.port)) :
    l.map (·.bound) = l'.map (·.bound) := by
  have hbound := congrArg (List.map fun n : Option Bytes × Nat => endpoint n.1 (u16 n.2)) h
  rw [List.map_map, List.map_map] at hbound
  exact hbound

end Resolved

end Symphony.Server
