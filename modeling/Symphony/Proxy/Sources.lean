import Symphony.Proxy.DefaultBurst
/-!
# Source matching

A dual-stack listener reports an IPv4 client as `::ffff:a.b.c.d`, and an operator may write
a network in either form. Entries are turned into IPv4 when they are parsed
(`parse_source_network`), peers when they are matched (`permits`, `check_at`). `Covers` says
what an entry stands for as it is written, bit by bit.
-/

namespace Symphony

open Lib (bind_ok)

/-! ## Prefixes -/

/-- The first `n` bits agree. -/
def SamePrefix {w : Nat} (n : Nat) (x y : BitVec w) : Prop := ∀ i < n, x.getMsbD i = y.getMsbD i

theorem ushiftRight_eq_iff {w n : Nat} (hn : n ≤ w) (x y : BitVec w) :
    x >>> (w - n) = y >>> (w - n) ↔ SamePrefix n x y := by
  constructor
  · intro h i hi
    have hbit := congrArg (fun z => z.getLsbD (n - 1 - i)) h
    have hidx : w - n + (n - 1 - i) = w - 1 - i := by omega
    have hlt : i < w := by omega
    simpa [BitVec.getMsbD_eq_getLsbD, hidx, hlt] using hbit
  · intro h
    apply BitVec.eq_of_getLsbD_eq
    intro j _
    simp only [BitVec.getLsbD_ushiftRight]
    by_cases hj : j < n
    · have hbit := h (n - 1 - j) (by omega)
      have hidx : w - 1 - (n - 1 - j) = w - n + j := by omega
      have hlt : n - 1 - j < w := by omega
      simpa [BitVec.getMsbD_eq_getLsbD, hidx, hlt] using hbit
    · rw [BitVec.getLsbD_of_ge x _ (by omega), BitVec.getLsbD_of_ge y _ (by omega)]

namespace IpAddr

/-- `Ipv4Addr::to_ipv6_mapped`: `::ffff:a.b.c.d`. -/
def to_ipv6_mapped (a : BitVec 32) : BitVec 128 := 0xffff#96 ++ a

theorem to_ipv4_mapped_eq_some {a : BitVec 128} {v4 : BitVec 32} :
    to_ipv4_mapped a = some v4 ↔ a = to_ipv6_mapped v4 := by
  unfold to_ipv4_mapped to_ipv6_mapped
  constructor
  · intro h
    split at h
    · rename_i hhigh
      cases h
      rw [← hhigh, BitVec.extractLsb'_append_extractLsb'_eq_extractLsb' (by omega)]
      exact BitVec.extractLsb'_eq_self.symm
    · cases h
  · rintro rfl
    rw [if_pos BitVec.extractLsb'_append_eq_left, BitVec.extractLsb'_append_eq_right]

theorem to_canonical_mapped (a : BitVec 32) : (V6 (to_ipv6_mapped a)).to_canonical = V4 a := by
  have hmapped : to_ipv4_mapped (to_ipv6_mapped a) = some a := to_ipv4_mapped_eq_some.2 rfl
  simp only [to_canonical, hmapped]

end IpAddr

open IpAddr (to_ipv4_mapped to_ipv6_mapped to_ipv4_mapped_eq_some to_canonical_mapped)

/-- The addresses that a network stands for in a list of sources, as it is written: an
IPv4-mapped one stands for its IPv4 address with 96 bits less. -/
def IpNetwork.Covers : IpNetwork → IpAddr → Prop
  | .V4 ip len, .V4 a => SamePrefix len ip a
  | .V4 _ _, .V6 _ => False
  | .V6 ip len, .V4 a => ∃ v4, ip = to_ipv6_mapped v4 ∧ SamePrefix (len - 96) v4 a
  | .V6 ip len, .V6 a => (∀ v4, ip ≠ to_ipv6_mapped v4) ∧ SamePrefix len ip a

theorem IpNetwork.contains_V4 (ip : BitVec 32) (len : Fin 33) (a : BitVec 32) :
    (IpNetwork.V4 ip len).contains (.V4 a) = true ↔ SamePrefix len ip a := by
  rw [contains, beq_iff_eq, eq_comm, ushiftRight_eq_iff (by omega)]

theorem IpNetwork.contains_V6 (ip : BitVec 128) (len : Fin 129) (a : BitVec 128) :
    (IpNetwork.V6 ip len).contains (.V6 a) = true ↔ SamePrefix len ip a := by
  rw [contains, beq_iff_eq, eq_comm, ushiftRight_eq_iff (by omega)]

namespace Proxy

open Router (Crates SourceAllowlist parse_source_network)
open Protection (Decision ProtectionConfig ProtectionState check_at static_check)
open Sni (PeekInfo)

variable {D : Type} {C : Crates D}

/-! ## One entry -/

/-- What `parse_source_network` accepts: IPv4 networks, IPv6 networks that are not
IPv4-mapped, and IPv4-mapped ones of at least 96 bits as IPv4. -/
theorem parse_source_network_cases {entry label : Bytes} {network : IpNetwork}
    (h : parse_source_network C entry label = .ok network) :
    (∃ ip len, C.parse_network entry = .ok (.V4 ip len) ∧ network = .V4 ip len) ∨
    (∃ ip len, C.parse_network entry = .ok (.V6 ip len) ∧ to_ipv4_mapped ip = none ∧ network = .V6 ip len) ∨
    ∃ (v4 : BitVec 32) (len : Fin 129) (len4 : Fin 33), C.parse_network entry = .ok (.V6 (to_ipv6_mapped v4) len) ∧
      96 ≤ len.val ∧ len4.val = len.val - 96 ∧ network = .V4 v4 len4 := by
  unfold parse_source_network at h
  cases hwritten : C.parse_network entry with
  | error e => simp [hwritten] at h
  | ok written =>
    cases written with
    | V4 ip len =>
      simp only [hwritten, Except.ok.injEq] at h
      exact .inl ⟨ip, len, rfl, h.symm⟩
    | V6 ip len =>
      cases hmapped : to_ipv4_mapped ip with
      | none =>
        simp only [hwritten, hmapped, Except.ok.injEq] at h
        exact .inr (.inl ⟨ip, len, rfl, hmapped, h.symm⟩)
      | some v4 =>
        simp only [hwritten, hmapped] at h
        split at h
        · rename_i hlen
          cases h
          rw [to_ipv4_mapped_eq_some] at hmapped
          subst hmapped
          exact .inr (.inr ⟨v4, len, _, rfl, hlen, rfl, rfl⟩)
        · cases h

/-- An accepted entry contains the canonical addresses it stands for, and no others. -/
theorem parse_source_network_covers {entry label : Bytes} {network : IpNetwork}
    (h : parse_source_network C entry label = .ok network) (peer : IpAddr) :
    ∃ written, C.parse_network entry = .ok written ∧
      (network.contains peer.to_canonical = true ↔ written.Covers peer.to_canonical) := by
  rcases parse_source_network_cases h with ⟨ip, len, hwritten, rfl⟩ | ⟨ip, len, hwritten, hmapped, rfl⟩ |
    ⟨v4, len, len4, hwritten, hlen, hlen4, rfl⟩
  · refine ⟨_, hwritten, ?_⟩
    cases peer.to_canonical with
    | V4 a => exact IpNetwork.contains_V4 ip len a
    | V6 a => exact iff_of_false Bool.false_ne_true id
  · refine ⟨_, hwritten, ?_⟩
    have hnot : ∀ v4, ip ≠ to_ipv6_mapped v4 := by
      intro v4 hip
      rw [to_ipv4_mapped_eq_some.2 hip] at hmapped
      cases hmapped
    cases peer.to_canonical with
    | V4 a => exact iff_of_false Bool.false_ne_true fun ⟨v4, hip, _⟩ => hnot v4 hip
    | V6 a =>
      rw [IpNetwork.contains_V6]
      exact (and_iff_right hnot).symm
  · refine ⟨_, hwritten, ?_⟩
    have hinj : ∀ v, to_ipv6_mapped v4 = to_ipv6_mapped v → v4 = v := by
      intro v hv
      have := to_ipv4_mapped_eq_some.2 hv
      rw [to_ipv4_mapped_eq_some.2 rfl, Option.some.injEq] at this
      exact this
    cases peer.to_canonical with
    | V4 a =>
      rw [IpNetwork.contains_V4, hlen4]
      constructor
      · exact fun hprefix => ⟨v4, rfl, hprefix⟩
      · rintro ⟨v, hv, hprefix⟩
        rwa [hinj v hv]
    | V6 a => exact iff_of_false Bool.false_ne_true fun hcovers => hcovers.1 v4 rfl

/-! ## Lists of entries -/

variable (C) in
/-- Some entry stands for a network with this address. -/
def Listed (entries : List Bytes) (ip : IpAddr) : Prop :=
  ∃ entry ∈ entries, ∃ written, C.parse_network entry = .ok written ∧ written.Covers ip

theorem any_contains_iff {entries : List Bytes} {networks : List IpNetwork}
    (h : List.Forall₂ (fun entry network => ∃ label, parse_source_network C entry label = .ok network) entries networks)
    (peer : IpAddr) : networks.any (·.contains peer.to_canonical) = true ↔ Listed C entries peer.to_canonical := by
  induction h with
  | nil => simp [Listed]
  | @cons entry network entries networks hentry _ ih =>
    obtain ⟨label, hentry⟩ := hentry
    obtain ⟨written, hwritten, hcovers⟩ := parse_source_network_covers hentry peer
    rw [List.any_cons, Bool.or_eq_true, ih, hcovers]
    constructor
    · rintro (hcov | ⟨e, he, hlisted⟩)
      · exact ⟨entry, List.mem_cons_self, written, hwritten, hcov⟩
      · exact ⟨e, List.mem_cons_of_mem _ he, hlisted⟩
    · rintro ⟨e, he, w, hw, hcov⟩
      rcases List.mem_cons.1 he with rfl | he
      · rw [hwritten] at hw
        cases hw
        exact .inl hcov
      · exact .inr ⟨e, he, w, hw, hcov⟩

theorem permits_iff {entries : List Bytes} {label : Bytes} {allowed : SourceAllowlist}
    (h : SourceAllowlist.parse_required C entries label = .ok allowed) (peer : IpAddr) :
    allowed.permits peer = true ↔ Listed C entries peer.to_canonical := by
  unfold SourceAllowlist.parse_required at h
  obtain ⟨networks, hnetworks, h⟩ := bind_ok h
  cases h
  exact any_contains_iff ((Lib.forall₂_of_mapM hnetworks).imp fun _ _ hentry => ⟨label, hentry⟩) peer

theorem parse_networks_iff {entries : List Bytes} {label : Bytes} {networks : List IpNetwork}
    (h : parse_networks C label entries = .ok networks) (peer : IpAddr) :
    networks.any (·.contains peer.to_canonical) = true ↔ Listed C entries peer.to_canonical := by
  refine any_contains_iff ((Lib.forall₂_of_mapM h).imp fun entry network hentry => ⟨label, ?_⟩) peer
  cases hparse : parse_source_network C entry label with
  | error e => simp [hparse, Except.mapError] at hentry
  | ok n => simpa [hparse, Except.mapError] using hentry

/-- The lists of an accepted protection config are those that were given. -/
theorem parse_protection_lists {prot : JsProtectionConfig} {cfg : ProtectionConfig}
    (h : parse_protection_config C prot = .ok cfg) :
    parse_networks C (bytes "allowlist") (prot.allowlist.getD []) = .ok cfg.allowlist ∧
      parse_networks C (bytes "blocklist") (prot.blocklist.getD []) = .ok cfg.blocklist := by
  unfold parse_protection_config at h
  obtain ⟨rate, -, h⟩ := bind_ok h
  obtain ⟨sustained, -, h⟩ := bind_ok h
  obtain ⟨ja3s, -, h⟩ := bind_ok h
  obtain ⟨ja4s, -, h⟩ := bind_ok h
  obtain ⟨allowlist, hallow, h⟩ := bind_ok h
  obtain ⟨blocklist, hblock, h⟩ := bind_ok h
  cases h
  exact ⟨hallow, hblock⟩

/-! ## `check_at` -/

/-- The peer's entry never bypasses the checks or blocks by network. -/
theorem check_at_lists {d : Decision} (hd : d = .AllowBypassed ∨ d = .Block .CidrBlocked) (st : ProtectionState)
    (peer : IpAddr) (info : PeekInfo) (now : Nat) :
    (check_at st peer info now).1 = d ↔ static_check st.config peer.to_canonical info = some d := by
  rcases Protection.check_at_cases st peer info now with ⟨d', hstatic, hcheck⟩ | ⟨hstatic, id, st₁, -, hcheck⟩
  · rw [hstatic, hcheck, Option.some.injEq]
  · rw [hstatic, hcheck, Protection.ip_check_answer]
    refine iff_of_false ?_ (by simp)
    rcases hd with rfl | rfl <;> split_ifs <;> simp [Protection.verdict]

theorem static_check_bypassed (cfg : ProtectionConfig) (ip : IpAddr) (info : PeekInfo) :
    static_check cfg ip info = some .AllowBypassed ↔ cfg.allowlist.any (·.contains ip) = true := by
  unfold static_check
  split_ifs <;> simp_all

theorem static_check_cidr (cfg : ProtectionConfig) (ip : IpAddr) (info : PeekInfo) :
    static_check cfg ip info = some (.Block .CidrBlocked) ↔
      ¬ cfg.allowlist.any (·.contains ip) = true ∧ cfg.blocklist.any (·.contains ip) = true := by
  unfold static_check
  split_ifs <;> simp_all

/-! ## One client, one address -/

variable (C) in
/-- How sources are matched, by the lists of routes and of failover ingress and by those of
the listener's protection. -/
structure OneAddress : Prop where
  /-- The only peers permitted are those an entry stands for. -/
  permits : ∀ (entries : List Bytes) (label : Bytes) (allowed : SourceAllowlist) (peer : IpAddr),
    SourceAllowlist.parse_required C entries label = .ok allowed →
      (allowed.permits peer = true ↔ Listed C entries peer.to_canonical)
  allowlist : ∀ (prot : JsProtectionConfig) (st : ProtectionState) (peer : IpAddr) (info : PeekInfo) (now : Nat),
    parse_protection_config C prot = .ok st.config →
      ((check_at st peer info now).1 = .AllowBypassed ↔ Listed C (prot.allowlist.getD []) peer.to_canonical)
  blocklist : ∀ (prot : JsProtectionConfig) (st : ProtectionState) (peer : IpAddr) (info : PeekInfo) (now : Nat),
    parse_protection_config C prot = .ok st.config →
      ((check_at st peer info now).1 = .Block .CidrBlocked ↔
        ¬ Listed C (prot.allowlist.getD []) peer.to_canonical ∧ Listed C (prot.blocklist.getD []) peer.to_canonical)
  /-- The two forms of a peer get one answer. -/
  permits_mapped : ∀ (allowed : SourceAllowlist) (a : BitVec 32),
    allowed.permits (.V6 (to_ipv6_mapped a)) = allowed.permits (.V4 a)
  check_mapped : ∀ (st : ProtectionState) (a : BitVec 32) (info : PeekInfo) (now : Nat),
    check_at st (.V6 (to_ipv6_mapped a)) info now = check_at st (.V4 a) info now
  /-- An IPv6 entry never matches an IPv4 client, in either form. -/
  other_family : ∀ (entry label : Bytes) (network : IpNetwork) (ip : BitVec 128) (len : Fin 129) (a : BitVec 32),
    parse_source_network C entry label = .ok network → C.parse_network entry = .ok (.V6 ip len) →
      (∀ v4, ip ≠ to_ipv6_mapped v4) → SourceAllowlist.permits ⟨[network]⟩ (.V4 a) = false ∧
        SourceAllowlist.permits ⟨[network]⟩ (.V6 (to_ipv6_mapped a)) = false
  /-- An IPv4-mapped entry of less than 96 bits is refused. -/
  short : ∀ (entry label : Bytes) (v4 : BitVec 32) (len : Fin 129),
    C.parse_network entry = .ok (.V6 (to_ipv6_mapped v4) len) → len.val < 96 →
      ∃ e, parse_source_network C entry label = .error e

/-- **One client is one address.** -/
theorem sources_one_address (C : Crates D) : OneAddress C where
  permits entries label allowed peer h := permits_iff h peer
  allowlist prot st peer info now h := by
    rw [check_at_lists (.inl rfl), static_check_bypassed, parse_networks_iff (parse_protection_lists h).1]
  blocklist prot st peer info now h := by
    rw [check_at_lists (.inr rfl), static_check_cidr, parse_networks_iff (parse_protection_lists h).1,
      parse_networks_iff (parse_protection_lists h).2]
  permits_mapped allowed a := by
    unfold SourceAllowlist.permits
    rw [to_canonical_mapped]
    rfl
  check_mapped st a info now := by
    unfold check_at
    rw [to_canonical_mapped]
    rfl
  other_family entry label network ip len a h hwritten hnot := by
    have hcanonical (peer : IpAddr) (hpeer : peer.to_canonical = .V4 a) :
        SourceAllowlist.permits ⟨[network]⟩ peer = false := by
      obtain ⟨written, hw, hcovers⟩ := parse_source_network_covers h peer
      rw [hwritten] at hw
      cases hw
      rw [hpeer] at hcovers
      have hout : ¬ network.contains (.V4 a) = true := by
        rw [hcovers]
        rintro ⟨v4, hip, -⟩
        exact hnot v4 hip
      simpa [SourceAllowlist.permits, hpeer] using hout
    exact ⟨hcanonical _ rfl, hcanonical _ (to_canonical_mapped a)⟩
  short entry label v4 len hwritten hlen := by
    cases hparse : parse_source_network C entry label with
    | error e => exact ⟨e, rfl⟩
    | ok network =>
      have hmapped : to_ipv4_mapped (to_ipv6_mapped v4) = some v4 := to_ipv4_mapped_eq_some.2 rfl
      rcases parse_source_network_cases hparse with ⟨ip, l, hw, -⟩ | ⟨ip, l, hw, hnone, -⟩ | ⟨v, l, l4, hw, hge, -, -⟩
      · rw [hwritten] at hw
        cases hw
      · rw [hwritten] at hw
        cases hw
        rw [hmapped] at hnone
        cases hnone
      · simp only [hwritten, Except.ok.injEq, IpNetwork.V6.injEq] at hw
        omega

end Proxy

end Symphony
