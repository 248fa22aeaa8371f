import Symphony.Protection.Rate
import Symphony.Sni.Peek
/-!
# Fingerprint enforcement

With a fingerprint blocklist, a hello is let through only with both fingerprints
computed from all its bytes, unless it is complete but does not parse: then no
fingerprint exists, `complete` is set all the same, and the blocklists are
skipped. `fails_closed_iff` says for which clients that matters.
-/

namespace Symphony.Protection

open Lib (Table)
open Sni

/-! ## Hex digests -/

theorem from_hex_char : ∀ n : Fin 16, from_hex_digit (hex_char n) = some (UInt8.ofNat n) := by decide

theorem nibbles : ∀ n : Fin 256, (UInt8.ofNat (n / 16) <<< 4 ||| UInt8.ofNat (n % 16)) = UInt8.ofNat n := by
  decide +kernel

theorem hex_pairs_bytes_to_hex (d : Bytes) : hex_pairs (bytes_to_hex d) = some d := by
  induction d with
  | nil => rfl
  | cons b d ih =>
    have hb := b.toNat_lt
    have hhi := from_hex_char ⟨b.toNat / 16, by omega⟩
    have hlo := from_hex_char ⟨b.toNat % 16, by omega⟩
    have hn := nibbles ⟨b.toNat, hb⟩
    simp only [UInt8.ofNat_toNat] at hhi hlo hn
    rw [bytes_to_hex] at ih
    simp [bytes_to_hex, hex_pairs, hhi, hlo, ih, hn]

/-! ## A check that admits -/

/-- What `static_check` has excluded when it leaves the decision to the entry. -/
theorem static_check_none {cfg : ProtectionConfig} {ip : IpAddr} {info : PeekInfo}
    (h : static_check cfg ip info = none) :
    cfg.blocklist.any (·.contains ip) = false ∧ (fingerprint_enforced cfg = true → info.complete = true) ∧
      ja3_blocked cfg info = false ∧ ja4_blocked cfg info = false ∧
      (cfg.require_sni = true → info.sni ≠ none) := by
  unfold static_check at h
  split_ifs at h with h1 h2 h3 h4 h5 h6
  simp_all

theorem check_at_allow {st : ProtectionState} {peer_ip : IpAddr} {info : PeekInfo} {now id : Nat}
    (h : (check_at st peer_ip info now).1 = .Allow id) :
    static_check st.config peer_ip.to_canonical info = none := by
  rcases check_at_cases st peer_ip info now with ⟨d, hd, he⟩ | ⟨hs, -⟩
  · rw [he] at h
    exact absurd h (static_check_ne_allow hd id)
  · exact hs

/-- Passing the JA3 test: no blocked digest is the fingerprint. -/
theorem not_ja3_blocked {cfg : ProtectionConfig} {info : PeekInfo} (hlen : info.ja3.length = 32)
    (h : ja3_blocked cfg info = false) : ∀ d ∈ cfg.ja3_blocklist, bytes_to_hex d ≠ info.ja3 := by
  intro d hd heq
  have hhex : hex_to_bytes16 info.ja3 = some d := by
    rw [hex_to_bytes16, if_neg (by omega), ← heq, hex_pairs_bytes_to_hex]
  have hne : cfg.ja3_blocklist.isEmpty = false := by
    cases hl : cfg.ja3_blocklist with
    | nil => simp [hl] at hd
    | cons => rfl
  simp [ja3_blocked, hlen, hhex, hne, hd] at h

theorem not_ja4_blocked {cfg : ProtectionConfig} {info : PeekInfo} (hne : info.ja4 ≠ [])
    (h : ja4_blocked cfg info = false) : info.ja4 ∉ cfg.ja4_blocklist := by
  intro hd
  have hl : cfg.ja4_blocklist.isEmpty = false := by
    cases hl : cfg.ja4_blocklist with
    | nil => simp [hl] at hd
    | cons => rfl
  simp [ja4_blocked, hne, hl, hd] at h

/-! ## Failing closed -/

/-- The whole hello at the start of the client's bytes was read, it parsed, and
both its fingerprints exist and are not blocked. -/
def Enforced (C : Crypto) (cfg : ProtectionConfig) (client : Bytes) (info : PeekInfo) : Prop :=
  info.complete = true ∧ ∃ (m : HelloMessage) (rs : List Record) (trailing : Bytes) (hello : ClientHello),
    client = wire rs ++ trailing ∧ m.encode <+: payloads rs ∧
    Parser.parse_client_hello (wrap_as_record m.encode) = some hello ∧
    info.ja3 = compute_ja3 C hello.legacy_version hello.cipher_suites hello.extensions ∧
    info.ja4 = compute_ja4 C hello.legacy_version hello.cipher_suites hello.extensions ∧
    info.ja3 ≠ [] ∧ info.ja4 ≠ [] ∧
    (∀ d ∈ cfg.ja3_blocklist, bytes_to_hex d ≠ info.ja3) ∧ info.ja4 ∉ cfg.ja4_blocklist

/-- Whatever the peeks found and whatever the state, this client is admitted only
with enforced fingerprints. -/
def FailsClosed (C : Crypto) (cfg : ProtectionConfig) (peer_ip : IpAddr) (client : Bytes) : Prop :=
  ∀ (peeks : List PeekResult) (st : ProtectionState) (now id : Nat), st.config = cfg →
    (check_at st peer_ip (peek_with_timeout C client peeks) now).1 = .Allow id →
    Enforced C cfg client (peek_with_timeout C client peeks)

/-- The client sends a whole hello message, within the cap, whose body is cut short. -/
def MalformedHello (client : Bytes) : Prop :=
  ∃ (m : HelloMessage) (rs : List Record) (trailing : Bytes), client = wire rs ++ trailing ∧
    m.encode <+: payloads rs ∧ (wire (completing m.encode.length rs)).length ≤ MAX_CLIENT_HELLO ∧
    ¬ WellFormed m.body

/-- A state in which the peer has a token of each limit and no connection. -/
def roomFor (cfg : ProtectionConfig) (ip : IpAddr) : ProtectionState :=
  { config := cfg
    ip_table := AList.insert ip 0 ∅
    states := fun _ => ⟨ONE_TOKEN, 0, ONE_TOKEN, 0, 0, 0⟩
    next := 1 }

theorem consume_room (cfg : ProtectionConfig) (k : Limit) (s : IpState) (h : (s.bucket k) = ⟨ONE_TOKEN, 0⟩) :
    (consume cfg k 0 s).1 = true := by
  unfold consume
  split
  · simp [refill_and_consume, h, refillFor_exact]
  · rfl

theorem ip_check_room (cfg : ProtectionConfig) : (ip_check cfg 0 ⟨ONE_TOKEN, 0, ONE_TOKEN, 0, 0, 0⟩).1 = none := by
  have h₁ := consume_room cfg .perSecond ⟨ONE_TOKEN, 0, ONE_TOKEN, 0, 0, 0⟩ rfl
  have ha₁ := consume_active cfg .perSecond 0 ⟨ONE_TOKEN, 0, ONE_TOKEN, 0, 0, 0⟩
  have hb := consume_other cfg (show Limit.sustained ≠ .perSecond by decide) 0 ⟨ONE_TOKEN, 0, ONE_TOKEN, 0, 0, 0⟩
  have h₂ := consume_room cfg .sustained (consume cfg .perSecond 0 ⟨ONE_TOKEN, 0, ONE_TOKEN, 0, 0, 0⟩).2 hb
  have ha₂ := consume_active cfg .sustained 0 (consume cfg .perSecond 0 ⟨ONE_TOKEN, 0, ONE_TOKEN, 0, 0, 0⟩).2
  simp only [ip_check, boxed, h₁, h₂, ha₂, ha₁]
  split <;> simp_all

theorem check_at_room {cfg : ProtectionConfig} {peer_ip : IpAddr} {info : PeekInfo}
    (h : static_check cfg peer_ip.to_canonical info = none) :
    (check_at (roomFor cfg peer_ip.to_canonical) peer_ip info 0).1 = .Allow 0 := by
  rcases check_at_cases (roomFor cfg peer_ip.to_canonical) peer_ip info 0 with ⟨d, hd, -⟩ | ⟨-, id, st₁, hg, he⟩
  · rw [show (roomFor cfg peer_ip.to_canonical).config = cfg from rfl, h] at hd
    cases hd
  · have hl : (roomFor cfg peer_ip.to_canonical).ip_table.lookup peer_ip.to_canonical = some 0 :=
      AList.lookup_insert _
    rw [get_or_create_state, hl] at hg
    simp only [Prod.mk.injEq] at hg
    obtain ⟨rfl, rfl⟩ := hg
    rw [he]
    exact congrArg (verdict 0) (ip_check_room cfg)

theorem peek_malformed (C : Crypto) {m : HelloMessage} (hbad : ¬ WellFormed m.body) :
    parse_client_hello C (wrap_as_record m.encode) = PeekInfo.default := by
  have hnone : Parser.parse_client_hello (wrap_as_record m.encode) = none := by
    rw [parse_wrap, ← Option.not_isSome_iff_eq_none, parse_hello_body_isSome]
    exact hbad
  simp [parse_client_hello, hnone]

/-- Enough peeks at the whole of the client's bytes complete any hello within the cap. -/
theorem peek_all (C : Crypto) {m : HelloMessage} {rs : List Record} (hm : m.encode <+: payloads rs) (trailing : Bytes)
    (hcap : (wire (completing m.encode.length rs)).length ≤ MAX_CLIENT_HELLO) :
    ∃ peeks w, peek_with_timeout C (wire rs ++ trailing) peeks =
      { parse_client_hello C (wrap_as_record m.encode) with complete := true, hello_len := w } := by
  generalize hw : (wire (completing m.encode.length rs)).length = w at hcap
  have hpos := completing_pos hm
  refine ⟨List.replicate (w + 1) (.ok w), w, peek_with_timeout_complete C ?_⟩
  refine (peek_reassemble_wire m rs hm trailing w hw.symm hcap _ ?_ INITIAL_PEEK (by decide)).2 ?_
  · intro p hp
    exact ⟨w, by omega, List.eq_of_mem_replicate hp⟩
  · have harr : arrived w (List.replicate (w + 1) (.ok w)) = w + 1 := by simp [arrived, List.countP_replicate]
    rw [harr]
    omega

/-- A well-formed hello that passes the static checks is enforced. -/
theorem enforced_of_wellFormed (C : Crypto) {cfg : ProtectionConfig} {client : Bytes} {peeks : List PeekResult}
    {ip : IpAddr} (hs : static_check cfg ip (peek_with_timeout C client peeks) = none)
    {m : HelloMessage} {rs : List Record} {trailing : Bytes} {w : Nat} (hcl : client = wire rs ++ trailing)
    (hm : m.encode <+: payloads rs) (hpeek : peek_with_timeout C client peeks =
      { parse_client_hello C (wrap_as_record m.encode) with complete := true, hello_len := w })
    (hwf : WellFormed m.body) : Enforced C cfg client (peek_with_timeout C client peeks) := by
  obtain ⟨-, -, h3, h4, -⟩ := static_check_none hs
  obtain ⟨hello, hhello⟩ := Option.isSome_iff_exists.1 ((parse_hello_body_isSome m.body).2 hwf)
  rw [← parse_wrap] at hhello
  have hja3 : (peek_with_timeout C client peeks).ja3 =
      compute_ja3 C hello.legacy_version hello.cipher_suites hello.extensions := by
    simp [hpeek, parse_client_hello, hhello]
  have hja4 : (peek_with_timeout C client peeks).ja4 =
      compute_ja4 C hello.legacy_version hello.cipher_suites hello.extensions := by
    simp [hpeek, parse_client_hello, hhello]
  have hlen : (peek_with_timeout C client peeks).ja3.length = 32 := by rw [hja3, compute_ja3_length]
  have hne : (peek_with_timeout C client peeks).ja4 ≠ [] := by
    rw [hja4]
    exact compute_ja4_ne_nil C _ _ _
  refine ⟨by rw [hpeek], m, rs, trailing, hello, hcl, hm, hhello, hja3, hja4, ?_, hne, not_ja3_blocked hlen h3,
    not_ja4_blocked hne h4⟩
  intro hnil
  rw [hnil] at hlen
  cases hlen

/-- Enforcement fails closed for exactly the clients that do not send a whole
hello that cannot be parsed, or are stopped by another static check. -/
theorem fails_closed_iff (C : Crypto) (cfg : ProtectionConfig) (peer_ip : IpAddr) (client : Bytes)
    (hfp : cfg.ja3_blocklist ≠ [] ∨ cfg.ja4_blocklist ≠ [])
    (hout : cfg.allowlist.any (·.contains peer_ip.to_canonical) = false) :
    FailsClosed C cfg peer_ip client ↔
      ¬ MalformedHello client ∨ cfg.require_sni = true ∨
        cfg.blocklist.any (·.contains peer_ip.to_canonical) = true := by
  have henf : fingerprint_enforced cfg = true := by simpa [fingerprint_enforced] using hfp
  constructor
  · intro h
    by_contra hno
    simp only [not_or, not_not, Bool.not_eq_true] at hno
    obtain ⟨⟨m, rs, trailing, rfl, hm, hcap, hbad⟩, hsni, hbl⟩ := hno
    obtain ⟨peeks, w, hpeek⟩ := peek_all C hm trailing hcap
    rw [peek_malformed C hbad] at hpeek
    have hs : static_check cfg peer_ip.to_canonical (peek_with_timeout C (wire rs ++ trailing) peeks) = none := by
      rw [hpeek]
      simp [static_check, hout, hbl, hsni, ja3_blocked, ja4_blocked, PeekInfo.default]
    obtain ⟨-, -, -, -, -, -, -, -, -, -, hne, -⟩ := h peeks _ 0 0 rfl (check_at_room hs)
    rw [hpeek] at hne
    exact hne rfl
  · intro hor peeks st now id hcfg hallow
    subst hcfg
    have hs := check_at_allow hallow
    obtain ⟨hbl, hcomp, -, -, hsni⟩ := static_check_none hs
    obtain ⟨m, rs, trailing, w, hcl, hm, hw, hcap, hpeek⟩ := peek_with_timeout_sound C (hcomp henf)
    by_cases hwf : WellFormed m.body
    · exact enforced_of_wellFormed C hs hcl hm hpeek hwf
    · rcases hor with hno | hreq | hblk
      · exact absurd ⟨m, rs, trailing, hcl, hm, hw ▸ hcap, hwf⟩ hno
      · rw [hpeek, peek_malformed C hwf] at hsni
        exact absurd rfl (hsni hreq)
      · rw [hblk] at hbl
        cases hbl

/-- One blocked JA3 digest. -/
def blocksOneJa3 : ProtectionConfig := { ja3_blocklist := [List.replicate 16 0] }

theorem fails_closed_requiring_sni :
    FailsClosed Crypto.sums { blocksOneJa3 with require_sni := true } (.V4 0x7f000001)
      [0x16, 3, 1, 0, 4, 1, 0, 0, 0] :=
  (fails_closed_iff _ _ _ _ (by decide) (by decide)).2 (.inr (.inl rfl))

/-- One record with a ClientHello whose body is empty. -/
def emptyHello : List Record := [⟨3, 1, [1, 0, 0, 0], by decide⟩]

theorem peek_empty_hello : peek_with_timeout Crypto.sums (wire emptyHello) [.ok 9] =
    { PeekInfo.default with complete := true, hello_len := 9 } := by
  have h := (peek_reassemble_wire ⟨[], by decide⟩ emptyHello (by decide) [] 9 (by decide) (by decide) [.ok 9]
    (by simp [Open]) INITIAL_PEEK (by decide)).2 (by decide)
  rw [List.append_nil] at h
  rw [peek_with_timeout_complete _ h]
  rfl

/-- The empty hello is complete, has no fingerprint, and is admitted past the blocklist. -/
theorem empty_hello_admitted :
    Parser.parse_client_hello (wire emptyHello) = none ∧
    (peek_with_timeout Crypto.sums (wire emptyHello) [.ok 9]).complete = true ∧
    (peek_with_timeout Crypto.sums (wire emptyHello) [.ok 9]).ja3 = [] ∧
    (check_at (.new blocksOneJa3) (.V4 0x7f000001)
      (peek_with_timeout Crypto.sums (wire emptyHello) [.ok 9]) 0).1 = .Allow 0 ∧
    ¬ FailsClosed Crypto.sums blocksOneJa3.precompute (.V4 0x7f000001) (wire emptyHello) := by
  have hallow : (check_at (.new blocksOneJa3) (.V4 0x7f000001)
      (peek_with_timeout Crypto.sums (wire emptyHello) [.ok 9]) 0).1 = .Allow 0 := by
    rw [peek_empty_hello]
    decide +kernel
  refine ⟨by decide, by rw [peek_empty_hello], by rw [peek_empty_hello]; rfl, hallow, fun h => ?_⟩
  obtain ⟨-, -, -, -, -, -, -, -, -, -, hne, -⟩ := h _ _ _ _ rfl hallow
  rw [peek_empty_hello] at hne
  exact hne rfl

end Symphony.Protection
