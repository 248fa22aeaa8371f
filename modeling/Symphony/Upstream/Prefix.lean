import Symphony.Router.Spec
import Symphony.Upstream.ProxyV2
/-!
# The connection prefix

`write_connection_prefix` sends what a route forwards about its client ahead of the
connection: nothing, a PROXY v1 line, or a PROXY v2 header with the fingerprints, the SNI
and what TLS termination found out. A client certificate chain that does not fit in the
16-bit length of the header is left out as a whole.
-/

namespace Symphony.Upstream

open Router (ForwardFingerprint SourceAddressMode)

def PP2_TYPE_JA3 : UInt8 := 0xE0
def PP2_TYPE_JA4 : UInt8 := 0xE1
def PP2_TYPE_CLIENT_CERT : UInt8 := 0xE2
def PP2_TYPE_ALPN : UInt8 := 0x01
def PP2_TYPE_AUTHORITY : UInt8 := 0x02
def PP2_TYPE_SSL : UInt8 := 0x20
def PP2_SUBTYPE_SSL_VERSION : UInt8 := 0x21
def PP2_SUBTYPE_SSL_CIPHER : UInt8 := 0x23
def PP2_CLIENT_SSL : UInt8 := 0x01
def PP2_CLIENT_CERT_CONN : UInt8 := 0x02

/-- What TLS termination found out. The chain is the leaf first. -/
structure TlsForward where
  version : Option Bytes
  cipher : Option Bytes
  alpn : Option Bytes
  client_cert_chain : List Bytes
  deriving DecidableEq, Repr

/-- What is forwarded of one connection. -/
structure SourceForwarding where
  mode : SourceAddressMode
  fingerprint : ForwardFingerprint
  ja3 : Bytes
  ja4 : Bytes
  sni : Option Bytes
  tls : Option TlsForward
  peer_addr : SocketAddr
  local_addr : Option SocketAddr

/-! ## What is sent -/

/-- The length is cast to 16 bits. -/
def push_sub_tlv (buf : Bytes) (ty : UInt8) (value : Bytes) : Bytes := buf ++ tlv ty value

def build_ssl_tlv (tls : TlsForward) : Bytes :=
  let has_cert := tls.client_cert_chain ≠ []
  let ssl := [PP2_CLIENT_SSL ||| if has_cert then PP2_CLIENT_CERT_CONN else 0]
  -- `verify`, a 32-bit number
  let ssl := ssl ++ if has_cert then [0, 0, 0, 0] else [0, 0, 0, 1]
  let ssl := match tls.version with
    | some version => push_sub_tlv ssl PP2_SUBTYPE_SSL_VERSION version
    | none => ssl
  match tls.cipher with
  | some cipher => push_sub_tlv ssl PP2_SUBTYPE_SSL_CIPHER cipher
  | none => ssl

/-- The type and the value of each selected fingerprint, JA3 first. -/
def SourceForwarding.forwarded_fingerprints (sf : SourceForwarding) : List (UInt8 × Bytes) :=
  (if sf.fingerprint.ja3 then [(PP2_TYPE_JA3, sf.ja3)] else []) ++
    if sf.fingerprint.ja4 then [(PP2_TYPE_JA4, sf.ja4)] else []

/-- Each certificate of the chain in an entry of its own, if all of them fit after `tlvs`. -/
def push_chain (tlvs : List (UInt8 × Bytes)) (chain : List Bytes) : List (UInt8 × Bytes) :=
  let chain_len := (chain.map fun c => 3 + c.length).sum
  let tlv_len := (tlvs.map fun e => 3 + e.2.length).sum
  if tlv_len + chain_len + 36 ≤ U16_MAX && chain.all fun c => c.length ≤ U16_MAX then
    tlvs ++ chain.map fun cert => (PP2_TYPE_CLIENT_CERT, cert)
  else tlvs

/-- The `tlvs` of a v2 header. -/
def SourceForwarding.tlvs (sf : SourceForwarding) : List (UInt8 × Bytes) :=
  let tlvs := sf.forwarded_fingerprints
  let tlvs := match sf.sni with
    | some sni => tlvs ++ [(PP2_TYPE_AUTHORITY, sni)]
    | none => tlvs
  match sf.tls with
  | none => tlvs
  | some tls =>
    let tlvs := match tls.alpn with
      | some alpn => tlvs ++ [(PP2_TYPE_ALPN, alpn)]
      | none => tlvs
    push_chain (tlvs ++ [(PP2_TYPE_SSL, build_ssl_tlv tls)]) tls.client_cert_chain

/-- The line that `write_proxy_v1_header` sends. -/
def write_proxy_v1_header (peer_addr : SocketAddr) : Bytes :=
  let (proto, src_ip, dst_ip) := match peer_addr.ip with
    | .V4 ip => (bytes "TCP4", IpAddr.ipv4_to_string ip, bytes "127.0.0.1")
    | .V6 ip => match IpAddr.to_ipv4_mapped ip with
      | some v4 => (bytes "TCP4", IpAddr.ipv4_to_string v4, bytes "127.0.0.1")
      | none => (bytes "TCP6", IpAddr.ipv6_to_string ip, bytes "::1")
  bytes "PROXY " ++ proto ++ [32] ++ src_ip ++ [32] ++ dst_ip ++ [32] ++ IpAddr.digits 10 peer_addr.port ++
    bytes " 0\r\n"

/-- What `write_connection_prefix` hands to the stream. -/
def write_connection_prefix (sf : SourceForwarding) : Except HeaderError Bytes :=
  match sf.mode with
  | .None | .XForwardedFor => .ok []
  | .ProxyProtocol => .ok (write_proxy_v1_header sf.peer_addr)
  | .ProxyProtocolV2 => write_proxy_v2_header sf.peer_addr sf.local_addr sf.tlvs

example : write_proxy_v1_header (.new (.V4 0x01020304) 99) = bytes "PROXY TCP4 1.2.3.4 127.0.0.1 99 0\r\n" := by decide

/-! ## What is in it -/

/-- The facts about a connection other than its certificates, in the order they are sent. -/
def SourceForwarding.facts (sf : SourceForwarding) : List (UInt8 × Bytes) :=
  sf.forwarded_fingerprints ++ sf.sni.toList.map (PP2_TYPE_AUTHORITY, ·) ++
    sf.tls.toList.flatMap fun tls => tls.alpn.toList.map (PP2_TYPE_ALPN, ·) ++ [(PP2_TYPE_SSL, build_ssl_tlv tls)]

/-- The certificates of the client, each as an entry. -/
def SourceForwarding.chain (sf : SourceForwarding) : List (UInt8 × Bytes) :=
  (sf.tls.toList.flatMap (·.client_cert_chain)).map (PP2_TYPE_CLIENT_CERT, ·)

/-- The bounds on what is forwarded. -/
structure Bounded (sf : SourceForwarding) : Prop where
  ja3 : sf.ja3.length ≤ 36
  ja4 : sf.ja4.length ≤ 36
  sni : ∀ sni ∈ sf.sni, sni.length ≤ 253
  alpn : ∀ tls ∈ sf.tls, ∀ alpn ∈ tls.alpn, alpn.length ≤ 255
  version : ∀ tls ∈ sf.tls, ∀ version ∈ tls.version, version.length ≤ 255
  cipher : ∀ tls ∈ sf.tls, ∀ cipher ∈ tls.cipher, cipher.length ≤ 255
  certs : ∀ tls ∈ sf.tls, ∀ cert ∈ tls.client_cert_chain, cert ≠ []

theorem tlvs_length_append (a b : List (UInt8 × Bytes)) : tlvs_length (a ++ b) = tlvs_length a + tlvs_length b := by
  simp [tlvs_length]

theorem length_le_tlvs_length {tlvs : List (UInt8 × Bytes)} {e : UInt8 × Bytes} (h : e ∈ tlvs) :
    e.2.length ≤ tlvs_length tlvs := by
  obtain ⟨before, after, rfl⟩ := List.append_of_mem h
  rw [tlvs_length_append]
  simp only [tlvs_length, List.map_cons, List.sum_cons]
  omega

/-- After the facts comes what there is room for of the chain. -/
theorem tlvs_eq (sf : SourceForwarding) :
    sf.tlvs = sf.tls.elim sf.facts fun tls => push_chain sf.facts tls.client_cert_chain := by
  unfold SourceForwarding.tlvs SourceForwarding.facts
  cases sf.sni <;> cases sf.tls with
  | none => simp
  | some tls => cases halpn : tls.alpn <;> simp [halpn]

/-- A chain is sent whole or not at all, and whole only if all of it fits. -/
theorem push_chain_cases (tlvs : List (UInt8 × Bytes)) (chain : List Bytes) :
    push_chain tlvs chain = tlvs ∨
      (push_chain tlvs chain = tlvs ++ chain.map (PP2_TYPE_CLIENT_CERT, ·) ∧
        tlvs_length (push_chain tlvs chain) + 36 ≤ U16_MAX ∧ ∀ cert ∈ chain, cert.length ≤ U16_MAX) := by
  unfold push_chain
  dsimp only
  split
  · rename_i hfits
    simp only [Bool.and_eq_true, decide_eq_true_eq, List.all_eq_true] at hfits
    refine .inr ⟨rfl, ?_, hfits.2⟩
    rw [tlvs_length_append]
    simpa [tlvs_length, Function.comp_def] using hfits.1
  · exact .inl rfl

/-! ## It fits -/

/-- The room of an optional value. -/
def option_length (v : Option Bytes) : Nat := (v.map (3 + ·.length)).getD 0

theorem option_length_le {v : Option Bytes} {n : Nat} (h : ∀ b ∈ v, b.length ≤ n) : option_length v ≤ 3 + n := by
  cases v with
  | none => exact Nat.zero_le _
  | some b => exact Nat.add_le_add_left (h b rfl) 3

theorem option_tlvs_length (ty : UInt8) (v : Option Bytes) : tlvs_length (v.toList.map (ty, ·)) = option_length v := by
  cases v <;> simp [tlvs_length, option_length]

theorem build_ssl_tlv_length (tls : TlsForward) :
    (build_ssl_tlv tls).length = 5 + option_length tls.version + option_length tls.cipher := by
  unfold build_ssl_tlv push_sub_tlv tlv option_length
  dsimp only
  cases tls.version <;> cases tls.cipher <;> simp [to_be16] <;> split <;> simp <;> omega

/-- Without the certificates there is room to spare. -/
theorem facts_length {sf : SourceForwarding} (h : Bounded sf) : tlvs_length sf.facts ≤ 1116 := by
  have hprints : tlvs_length sf.forwarded_fingerprints ≤ 78 := by
    have hja3 := h.ja3
    have hja4 := h.ja4
    unfold SourceForwarding.forwarded_fingerprints tlvs_length
    split <;> split <;> simp <;> omega
  have hsni := option_length_le h.sni
  have htls : tlvs_length (sf.tls.toList.flatMap fun tls =>
      tls.alpn.toList.map (PP2_TYPE_ALPN, ·) ++ [(PP2_TYPE_SSL, build_ssl_tlv tls)]) ≤ 782 := by
    cases htls : sf.tls with
    | none => simp [tlvs_length]
    | some tls =>
      have halpn := option_length_le (h.alpn tls htls)
      have hversion := option_length_le (h.version tls htls)
      have hcipher := option_length_le (h.cipher tls htls)
      simp only [Option.toList_some, List.flatMap_cons, List.flatMap_nil, List.append_nil, tlvs_length_append,
        option_tlvs_length]
      simp only [tlvs_length, List.map_cons, List.map_nil, List.sum_cons, List.sum_nil, build_ssl_tlv_length]
      omega
  unfold SourceForwarding.facts
  rw [tlvs_length_append, tlvs_length_append, option_tlvs_length]
  omega

/-- What is sent fits: the facts, and the chain or nothing of it. -/
theorem tlvs_fit {sf : SourceForwarding} (h : Bounded sf) :
    ∃ certs, sf.tlvs = sf.facts ++ certs ∧ (certs = sf.chain ∨ certs = []) ∧ tlvs_length sf.tlvs + 36 ≤ U16_MAX ∧
      ∀ e ∈ sf.tlvs, e.2.length ≤ U16_MAX := by
  have hlen := facts_length h
  have htop : 1116 + 36 ≤ U16_MAX := by decide
  have hfacts : ∀ e ∈ sf.facts, e.2.length ≤ U16_MAX := by
    intro e he
    have := length_le_tlvs_length he
    omega
  have hbare : sf.tlvs = sf.facts → ∃ certs, sf.tlvs = sf.facts ++ certs ∧ (certs = sf.chain ∨ certs = []) ∧
      tlvs_length sf.tlvs + 36 ≤ U16_MAX ∧ ∀ e ∈ sf.tlvs, e.2.length ≤ U16_MAX := by
    intro heq
    rw [heq]
    exact ⟨[], by simp, .inr rfl, by omega, hfacts⟩
  have heq := tlvs_eq sf
  cases htls : sf.tls with
  | none =>
    rw [htls] at heq
    exact hbare heq
  | some tls =>
    rw [htls] at heq
    rcases push_chain_cases sf.facts tls.client_cert_chain with hnone | ⟨hall, hfits, hcerts⟩
    · exact hbare (heq.trans hnone)
    · have hchain : sf.chain = tls.client_cert_chain.map (PP2_TYPE_CLIENT_CERT, ·) := by
        simp [SourceForwarding.chain, htls]
      refine ⟨sf.chain, ?_, .inl rfl, ?_, ?_⟩
      · rw [hchain]
        exact heq.trans hall
      · rw [heq]
        exact hfits
      · rw [heq]
        change ∀ e ∈ push_chain sf.facts tls.client_cert_chain, _
        rw [hall]
        intro e he
        rcases List.mem_append.1 he with he | he
        · exact hfacts e he
        · obtain ⟨cert, hcert, rfl⟩ := List.mem_map.1 he
          exact hcerts cert hcert

theorem chain_ne_nil {sf : SourceForwarding} (h : Bounded sf) {e : UInt8 × Bytes} (he : e ∈ sf.chain) : e.2 ≠ [] := by
  obtain ⟨cert, hcert, rfl⟩ := List.mem_map.1 he
  obtain ⟨tls, htls, hcert⟩ := List.mem_flatMap.1 hcert
  exact h.certs tls (Option.mem_toList.1 htls) cert hcert

/-- **The prefix is well formed.** With the bounds of TLS on what is forwarded and any chain
of certificates, in the mode for PROXY v2: a header is written, its declared length is that
of what follows it, and a reader gets back the client's address block, the facts that are
not empty in their order, and after them the whole chain in order or none of it. -/
theorem connection_prefix_reads_back {sf : SourceForwarding} (hmode : sf.mode = .ProxyProtocolV2) (h : Bounded sf) :
    ∃ header certs, write_connection_prefix sf = .ok header ∧
      declared_length header = (header.drop 16).length ∧
      read_v2 header = some ⟨(address_block sf.peer_addr sf.local_addr).1, (address_block sf.peer_addr sf.local_addr).2,
        (sf.facts.filter fun e => e.2 ≠ []) ++ certs⟩ ∧
      (certs = sf.chain ∨ certs = []) := by
  obtain ⟨certs, htlvs, hcerts, hfits, hvalues⟩ := tlvs_fit h
  obtain ⟨header, hwritten, hlength, hread⟩ :=
    write_proxy_v2_header_fits sf.peer_addr sf.local_addr hvalues hfits
  refine ⟨header, certs, ?_, hlength, ?_, hcerts⟩
  · unfold write_connection_prefix
    rw [hmode]
    exact hwritten
  · have hwhole : (certs.filter fun e => e.2 ≠ []) = certs := by
      rcases hcerts with rfl | rfl
      · exact List.filter_eq_self.2 fun e he => by simpa using chain_ne_nil h he
      · rfl
    rw [hread, htlvs, List.filter_append, hwhole]

/-- A client with a certificate, whose ALPN is empty. -/
def exampleForwarding : SourceForwarding where
  mode := .ProxyProtocolV2
  fingerprint := ⟨true, false⟩
  ja3 := [1, 2]
  ja4 := []
  sni := some [97]
  tls := some ⟨none, none, some [], [[48], [49, 50]]⟩
  peer_addr := .new (.V4 7) 80
  local_addr := none

theorem connection_prefix_reads_back_chain : ∃ header certs, write_connection_prefix exampleForwarding = .ok header ∧
    declared_length header = (header.drop 16).length ∧
    (read_v2 header).map V2Header.tlvs =
      some ([(PP2_TYPE_JA3, [1, 2]), (PP2_TYPE_AUTHORITY, [97]), (PP2_TYPE_SSL, [3, 0, 0, 0, 0])] ++ certs) ∧
    (certs = [(PP2_TYPE_CLIENT_CERT, [48]), (PP2_TYPE_CLIENT_CERT, [49, 50])] ∨ certs = []) := by
  have hbounded : Bounded exampleForwarding :=
    ⟨by decide, by decide, by simp [exampleForwarding], by simp [exampleForwarding], by simp [exampleForwarding],
      by simp [exampleForwarding], by simp [exampleForwarding]⟩
  obtain ⟨header, certs, hwritten, hlength, hread, hcerts⟩ := connection_prefix_reads_back rfl hbounded
  exact ⟨header, certs, hwritten, hlength, congrArg (Option.map V2Header.tlvs) hread, hcerts⟩

end Symphony.Upstream
