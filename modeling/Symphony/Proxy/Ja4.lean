import Symphony.Lib.Writes
import Symphony.Sni.Hello
import Symphony.Protection.Fingerprint
import Symphony.Proxy.Config
/-!
# Blocking a JA4

`compute_ja4` writes a fingerprint field by field (`Ja4`); `is_valid_ja4` reads one
position by position. Every fingerprint written is accepted, in any letter case, as a
`ja4Blocklist` entry, and a listed one is blocked.
-/

namespace Symphony.Proxy

open Lib (bind_ok)
open Protection (ProtectionConfig ProtectionState check_at ja4_blocked static_check)
open Router (Crates)
open Sni

/-! ## Letters -/

def is_lower_hex (b : UInt8) : Bool := is_ascii_digit b || (97 ≤ b && b ≤ 102)

def is_lower_alphanumeric (b : UInt8) : Bool := is_ascii_digit b || (97 ≤ b && b ≤ 122)

/-- An ASCII byte that is its own lower case. -/
def IsLower (b : UInt8) : Prop := b ≤ 0x7f ∧ to_ascii_lowercase b = b

instance (b : UInt8) : Decidable (IsLower b) := inferInstanceAs (Decidable (_ ∧ _))

theorem hexdigit_of_lower_hex : ∀ b, is_lower_hex b = true → is_ascii_hexdigit b = true :=
  forall_byte (by decide +kernel)

theorem alphanumeric_of_lower : ∀ b, is_lower_alphanumeric b = true → is_ascii_alphanumeric b = true :=
  forall_byte (by decide +kernel)

theorem lower_alphanumeric_of_hex : ∀ b, is_lower_hex b = true → is_lower_alphanumeric b = true :=
  forall_byte (by decide +kernel)

theorem lower_alphanumeric_of_digit : ∀ b, is_ascii_digit b = true → is_lower_alphanumeric b = true :=
  forall_byte (by decide +kernel)

theorem IsLower.of_alphanumeric : ∀ b, is_lower_alphanumeric b = true → IsLower b :=
  forall_byte (by decide +kernel)

theorem lowercase_alphanumeric :
    ∀ b, is_ascii_alphanumeric b = true → is_lower_alphanumeric (to_ascii_lowercase b) = true :=
  forall_byte (by decide +kernel)

/-- Only an ASCII byte has an ASCII lower case. -/
theorem ascii_of_lowercase : ∀ b, to_ascii_lowercase b ≤ 0x7f → b ≤ 0x7f := forall_byte (by decide +kernel)

/-! ## Fields -/

/-- `n` bytes, each in a class. -/
def Field (n : Nat) (p : UInt8 → Bool) (s : Bytes) : Prop := s.length = n ∧ ∀ b ∈ s, p b = true

theorem Field.pair {p : UInt8 → Bool} {a b : UInt8} (ha : p a = true) (hb : p b = true) : Field 2 p [a, b] := by
  refine ⟨rfl, ?_⟩
  simp [ha, hb]

theorem hex_char_lower : ∀ n : Fin 16, is_lower_hex (hex_char n) = true := by decide

theorem bytes_to_hex_field (bs : Bytes) : Field (2 * bs.length) is_lower_hex (bytes_to_hex bs) := by
  refine ⟨bytes_to_hex_length bs, fun c hc => ?_⟩
  obtain ⟨b, -, hc⟩ := List.mem_flatMap.1 hc
  have hb := b.toNat_lt
  obtain rfl | rfl : c = hex_char (b.toNat / 16) ∨ c = hex_char (b.toNat % 16) := by simpa using hc
  · exact hex_char_lower ⟨b.toNat / 16, by omega⟩
  · exact hex_char_lower ⟨b.toNat % 16, by omega⟩

theorem sha256_hex12_field (C : Crypto) (d : Bytes) : Field 12 is_lower_hex (sha256_hex12 C d) := by
  have h := bytes_to_hex_field ((C.sha256 d).take 6)
  rwa [List.length_take, C.sha256_length] at h

theorem decimal2_field (n : Nat) : Field 2 is_ascii_digit (decimal2 (min n 99)) := by
  have h : ∀ k : Fin 100, (decimal2 k).length = 2 ∧ (decimal2 k).all is_ascii_digit = true := by decide +kernel
  obtain ⟨hlen, hall⟩ := h ⟨min n 99, by omega⟩
  exact ⟨hlen, List.all_eq_true.1 hall⟩

theorem alpn_chars_field (alpn : Option Bytes) : Field 2 is_lower_alphanumeric (alpn_chars alpn) := by
  match alpn with
  | none | some [] => exact ⟨by decide +kernel, by decide +kernel⟩
  | some (first :: rest) =>
    have hf := first.toNat_lt
    have hl := (rest.getLastD first).toNat_lt
    simp only [alpn_chars]
    split
    · rename_i h
      rw [Bool.and_eq_true] at h
      exact .pair (lowercase_alphanumeric _ h.1) (lowercase_alphanumeric _ h.2)
    · have h₁ := hex_char_lower ⟨first.toNat / 16, by omega⟩
      have h₂ := hex_char_lower ⟨(rest.getLastD first).toNat % 16, by omega⟩
      exact .pair (lower_alphanumeric_of_hex _ h₁) (lower_alphanumeric_of_hex _ h₂)

theorem ver_str_field (v : Nat) : ∃ a b, (a, b) ∈ ja4_versions ∧ ver_str v = [a, b] := by
  unfold ver_str
  split <;> exact ⟨_, _, by decide, rfl⟩

/-! ## Fingerprints -/

/-- The fields of a JA4 fingerprint. -/
structure Ja4 where
  version : UInt8 × UInt8
  sni : UInt8
  cipher_count : Bytes
  ext_count : Bytes
  alpn : Bytes
  part_b : Bytes
  part_c : Bytes
  version_known : version ∈ ja4_versions
  sni_known : sni = 100 ∨ sni = 105
  cipher_count_digits : Field 2 is_ascii_digit cipher_count
  ext_count_digits : Field 2 is_ascii_digit ext_count
  alpn_alphanumeric : Field 2 is_lower_alphanumeric alpn
  part_b_hex : Field 12 is_lower_hex part_b
  part_c_hex : Field 12 is_lower_hex part_c

def Ja4.encode (j : Ja4) : Bytes :=
  [116, j.version.1, j.version.2, j.sni] ++ j.cipher_count ++ j.ext_count ++ j.alpn ++ [95] ++ j.part_b ++
    [95] ++ j.part_c

theorem Ja4.length_encode (j : Ja4) : j.encode.length = 36 := by
  simp [encode, j.cipher_count_digits.1, j.ext_count_digits.1, j.alpn_alphanumeric.1, j.part_b_hex.1, j.part_c_hex.1]

theorem Ja4.lower (j : Ja4) : ∀ b ∈ j.encode, IsLower b := by
  have hversion : ∀ v ∈ ja4_versions, IsLower v.1 ∧ IsLower v.2 := by
    intro v hv
    simp only [ja4_versions, List.mem_cons, List.not_mem_nil, or_false] at hv
    obtain rfl | rfl | rfl | rfl | rfl := hv <;> exact ⟨by decide, by decide⟩
  have hdigit : ∀ b, is_ascii_digit b = true → IsLower b := fun b hb => .of_alphanumeric b
    (lower_alphanumeric_of_digit b hb)
  have hhex : ∀ b, is_lower_hex b = true → IsLower b := fun b hb => .of_alphanumeric b (lower_alphanumeric_of_hex b hb)
  have hsni : IsLower j.sni := by obtain h | h := j.sni_known <;> rw [h] <;> decide
  have hsep : IsLower 95 := by decide
  have ht : IsLower 116 := by decide
  intro b hb
  simp only [encode, List.mem_append, List.mem_cons, List.not_mem_nil, or_false] at hb
  obtain ((((((h | h) | h) | h) | h) | h) | h) | h := hb
  · obtain rfl | rfl | rfl | rfl := h
    · exact ht
    · exact (hversion _ j.version_known).1
    · exact (hversion _ j.version_known).2
    · exact hsni
  · exact hdigit b (j.cipher_count_digits.2 b h)
  · exact hdigit b (j.ext_count_digits.2 b h)
  · exact .of_alphanumeric b (j.alpn_alphanumeric.2 b h)
  · exact h ▸ hsep
  · exact hhex b (j.part_b_hex.2 b h)
  · exact h ▸ hsep
  · exact hhex b (j.part_c_hex.2 b h)

theorem Ja4.valid (j : Ja4) : is_valid_ja4 j.encode = true := by
  obtain ⟨⟨v₁, v₂⟩, sni, cc, ec, alpn, b, c, hv, hs, ⟨hcc, hcc'⟩, ⟨hec, hec'⟩, ⟨ha, ha'⟩, ⟨hb, hb'⟩, ⟨hc, hc'⟩⟩ := j
  obtain ⟨c₁, c₂, rfl⟩ := List.length_eq_two.1 hcc
  obtain ⟨e₁, e₂, rfl⟩ := List.length_eq_two.1 hec
  obtain ⟨a₁, a₂, rfl⟩ := List.length_eq_two.1 ha
  -- the first twelve bytes are literal positions, the two hashes follow as blocks of twelve
  have hsep : (b ++ 95 :: c).getD 12 0 = 95 := by simp [← hb]
  have htakeb : (b ++ 95 :: c).take 12 = b := by rw [← hb, List.take_left]
  have hdropb : (b ++ 95 :: c).drop 13 = c := by rw [show 13 = b.length + 1 by omega]; simp
  have htakec : c.take 12 = c := by rw [← hc, List.take_length]
  have hxb : ∀ x ∈ b, is_ascii_hexdigit x = true := fun x hx => hexdigit_of_lower_hex x (hb' x hx)
  have hxc : ∀ x ∈ c, is_ascii_hexdigit x = true := fun x hx => hexdigit_of_lower_hex x (hc' x hx)
  have hlen : (116 :: v₁ :: v₂ :: sni :: c₁ :: c₂ :: e₁ :: e₂ :: a₁ :: a₂ :: 95 :: (b ++ 95 :: c)).length = 36 := by
    simp [hb, hc]
  simp only [List.mem_cons, List.not_mem_nil, or_false, forall_eq_or_imp, forall_eq] at hcc' hec' ha'
  simp only [Ja4.encode, is_valid_ja4, List.cons_append, List.nil_append, List.append_assoc, hlen,
    List.getD_cons_succ, List.getD_cons_zero, List.drop_succ_cons, List.drop_zero, hsep, htakeb, hdropb, htakec]
  simpa [hv, hs, hcc', hec', alphanumeric_of_lower _ ha'.1, alphanumeric_of_lower _ ha'.2] using ⟨hxb, hxc⟩

/-- A hash, or the twelve zeros that stand for no input. -/
theorem hash_field (C : Crypto) (empty : Bool) (d : Bytes) :
    Field 12 is_lower_hex (if empty = true then bytes "000000000000" else sha256_hex12 C d) := by
  split
  · exact ⟨by decide +kernel, by decide +kernel⟩
  · exact sha256_hex12_field C d

/-- The fields as `compute_ja4` writes them, from any values. -/
theorem ja4_encode (C : Crypto) (tls_version cipher_count ext_count : Nat) (sni no_ciphers no_input : Bool)
    (alpn : Option Bytes) (ciphers hash_input : Bytes) :
    ∃ j : Ja4, bytes "t" ++ ver_str tls_version ++ (if sni = true then bytes "d" else bytes "i") ++
      decimal2 (min cipher_count 99) ++ decimal2 (min ext_count 99) ++ alpn_chars alpn ++ [95] ++
      (if no_ciphers = true then bytes "000000000000" else sha256_hex12 C ciphers) ++ [95] ++
      (if no_input = true then bytes "000000000000" else sha256_hex12 C hash_input) = j.encode := by
  obtain ⟨v₁, v₂, hv, hver⟩ := ver_str_field tls_version
  obtain ⟨c, hc, hsni⟩ : ∃ c : UInt8, (c = 100 ∨ c = 105) ∧ (if sni = true then bytes "d" else bytes "i") = [c] := by
    cases sni with
    | true => exact ⟨100, .inl rfl, rfl⟩
    | false => exact ⟨105, .inr rfl, rfl⟩
  refine ⟨⟨(v₁, v₂), c, _, _, _, _, _, hv, hc, decimal2_field cipher_count, decimal2_field ext_count,
    alpn_chars_field alpn, hash_field C no_ciphers ciphers, hash_field C no_input hash_input⟩, ?_⟩
  rw [hver, hsni]
  rfl

theorem compute_ja4_encode (C : Crypto) (v : Nat) (cs exts : Bytes) : ∃ j : Ja4, compute_ja4 C v cs exts = j.encode :=
  ja4_encode C _ _ _ _ _ _ _ _ _

/-! ## Entries of the blocklist -/

theorem to_lowercase_ascii {s : Bytes} (h : ∀ b ∈ s, b ≤ 0x7f) : to_lowercase s = s.map to_ascii_lowercase := by
  fun_induction to_lowercase s with
  | case1 rest _ => exact absurd (h 0xe2 (by simp)) (by decide)
  | case2 b rest _ ih => rw [ih fun c hc => h c (by simp [hc]), List.map_cons]
  | case3 => rfl

/-- A spelling of a lower-case text in other letter cases is normalised to it. -/
theorem to_lowercase_of_case_eq {s t : Bytes} (ht : ∀ b ∈ t, IsLower b) (h : eq_ignore_ascii_case s t = true) :
    to_lowercase s = t := by
  rw [eq_ignore_ascii_case_iff] at h
  have hfix : t.map to_ascii_lowercase = t := by
    calc t.map to_ascii_lowercase = t.map id := List.map_congr_left fun b hb => (ht b hb).2
      _ = t := List.map_id t
  rw [hfix] at h
  have hascii : ∀ b ∈ s, b ≤ 0x7f := fun b hb =>
    ascii_of_lowercase b (ht _ (h ▸ List.mem_map_of_mem hb)).1
  rw [to_lowercase_ascii hascii, h]

theorem ja4_entries_ok {l : List Bytes} (h : ∀ s ∈ l, is_valid_ja4 (to_lowercase s) = true) (acc : List Bytes) :
    ∃ out, l.foldlM insert_ja4 acc = .ok out := by
  induction l generalizing acc with
  | nil => exact ⟨acc, rfl⟩
  | cons s l ih =>
    rw [List.foldlM_cons, insert_ja4, if_pos (h s (by simp))]
    exact ih (fun s hs => h s (by simp [hs])) _

/-- Every entry of a list that was read is valid, and is in the blocklist in lower case. -/
theorem ja4_entries_listed {l acc out : List Bytes} (h : l.foldlM insert_ja4 acc = .ok out) :
    (∀ t ∈ acc, t ∈ out) ∧ ∀ s ∈ l, is_valid_ja4 (to_lowercase s) = true ∧ to_lowercase s ∈ out := by
  induction l generalizing acc with
  | nil =>
    cases h
    simp
  | cons s l ih =>
    rw [List.foldlM_cons, insert_ja4] at h
    split at h
    · rename_i hv
      obtain ⟨hacc, hl⟩ := ih h
      refine ⟨fun t ht => hacc t (List.mem_insert_of_mem ht), fun t ht => ?_⟩
      obtain rfl | ht := List.mem_cons.1 ht
      · exact ⟨hv, hacc _ List.mem_insert_self⟩
      · exact hl t ht
    · cases h

section Blocklist

variable {D : Type} {N : Crates D} {prot : JsProtectionConfig} {cfg : ProtectionConfig}

theorem parse_protection_config_ja4 (h : parse_protection_config N prot = .ok cfg) :
    (prot.ja4_blocklist.getD []).foldlM insert_ja4 [] = .ok cfg.ja4_blocklist := by
  unfold parse_protection_config at h
  obtain ⟨rate, -, h⟩ := bind_ok h
  obtain ⟨sustained, -, h⟩ := bind_ok h
  obtain ⟨ja3s, -, h⟩ := bind_ok h
  obtain ⟨ja4s, hja4, h⟩ := bind_ok h
  obtain ⟨allowlist, -, h⟩ := bind_ok h
  obtain ⟨blocklist, -, h⟩ := bind_ok h
  cases h
  exact hja4

/-- Another list of JA4s changes nothing else of an accepted configuration. -/
theorem parse_protection_config_with (h : parse_protection_config N prot = .ok cfg) {l out : List Bytes}
    (hl : l.foldlM insert_ja4 [] = .ok out) :
    parse_protection_config N { prot with ja4_blocklist := some l } = .ok { cfg with ja4_blocklist := out } := by
  unfold parse_protection_config at h ⊢
  obtain ⟨rate, hrate, h⟩ := bind_ok h
  obtain ⟨sustained, hsustained, h⟩ := bind_ok h
  obtain ⟨ja3s, hja3, h⟩ := bind_ok h
  obtain ⟨ja4s, -, h⟩ := bind_ok h
  obtain ⟨allowlist, hallow, h⟩ := bind_ok h
  obtain ⟨blocklist, hblock, h⟩ := bind_ok h
  cases h
  simp only [hrate, hsustained, hja3, Option.getD_some, hl, hallow, hblock]
  rfl

end Blocklist

/-- A listed fingerprint blocks every complete hello that has it. -/
theorem check_at_listed {st : ProtectionState} {peer : IpAddr} {info : PeekInfo} (now : Nat)
    (hallow : st.config.allowlist.any (·.contains peer.to_canonical) = false) (hcomplete : info.complete = true)
    (hne : info.ja4 ≠ []) (hmem : info.ja4 ∈ st.config.ja4_blocklist) :
    ∃ reason, (check_at st peer info now).1 = .Block reason := by
  have hja4 : ja4_blocked st.config info = true := by
    have hlist : st.config.ja4_blocklist ≠ [] := List.ne_nil_of_mem hmem
    simp [ja4_blocked, hlist, hne, hmem]
  obtain ⟨reason, hstatic⟩ : ∃ reason, static_check st.config peer.to_canonical info = some (.Block reason) := by
    simp only [static_check, hallow, hcomplete, hja4, Bool.not_true, Bool.and_false, if_true, if_false,
      Bool.false_eq_true]
    split
    · exact ⟨_, rfl⟩
    · split <;> exact ⟨_, rfl⟩
  refine ⟨reason, ?_⟩
  simp only [check_at, hstatic]

/-- `s` is accepted anywhere in a `ja4Blocklist`, and with it listed the fingerprint is blocked. -/
structure Blockable {D : Type} (N : Crates D) (s ja4 : Bytes) : Prop where
  accepted : ∀ (prot : JsProtectionConfig) (cfg : ProtectionConfig) (before after : List Bytes),
    parse_protection_config N prot = .ok cfg → prot.ja4_blocklist.getD [] = before ++ after →
    ∃ cfg', parse_protection_config N { prot with ja4_blocklist := some (before ++ s :: after) } = .ok cfg'
  blocks : ∀ (prot : JsProtectionConfig) (cfg : ProtectionConfig), parse_protection_config N prot = .ok cfg →
    s ∈ prot.ja4_blocklist.getD [] → ∀ (st : ProtectionState) (peer : IpAddr) (info : PeekInfo) (now : Nat),
    st.config = cfg → cfg.allowlist.any (·.contains peer.to_canonical) = false → info.complete = true →
    info.ja4 = ja4 → ∃ reason, (check_at st peer info now).1 = .Block reason

theorem emitted_ja4_blockable {D : Type} (N : Crates D) (C : Crypto) (legacy_version : Nat)
    (cipher_suites extensions : Bytes) :
    (compute_ja4 C legacy_version cipher_suites extensions).length = 36 ∧
    (∀ b ∈ compute_ja4 C legacy_version cipher_suites extensions, IsLower b) ∧
    is_valid_ja4 (compute_ja4 C legacy_version cipher_suites extensions) = true ∧
    ∀ s, eq_ignore_ascii_case s (compute_ja4 C legacy_version cipher_suites extensions) = true →
      Blockable N s (compute_ja4 C legacy_version cipher_suites extensions) := by
  have hne := compute_ja4_ne_nil C legacy_version cipher_suites extensions
  obtain ⟨j, hj⟩ := compute_ja4_encode C legacy_version cipher_suites extensions
  rw [hj] at hne ⊢
  refine ⟨j.length_encode, j.lower, j.valid, fun s hs => ⟨?_, ?_⟩⟩
  · intro prot cfg before after h hsplit
    have hold := (ja4_entries_listed (parse_protection_config_ja4 h)).2
    rw [hsplit] at hold
    have hvalid : ∀ t ∈ before ++ s :: after, is_valid_ja4 (to_lowercase t) = true := by
      intro t ht
      obtain ht | rfl | ht : t ∈ before ∨ t = s ∨ t ∈ after := by simpa using ht
      · exact (hold t (List.mem_append_left _ ht)).1
      · rw [to_lowercase_of_case_eq j.lower hs, j.valid]
      · exact (hold t (List.mem_append_right _ ht)).1
    obtain ⟨out, hout⟩ := ja4_entries_ok hvalid []
    exact ⟨_, parse_protection_config_with h hout⟩
  · rintro prot _ h hmem st peer info now rfl hallow hcomplete hja4
    have hlisted := ((ja4_entries_listed (parse_protection_config_ja4 h)).2 s hmem).2
    rw [to_lowercase_of_case_eq j.lower hs, ← hja4] at hlisted
    exact check_at_listed now hallow hcomplete (hja4 ▸ hne) hlisted

/-- Two ciphers, and the extensions that state TLS 1.3 and a signature algorithm. -/
def tls13Ja4 : Bytes := compute_ja4 .sums 0x0303 [0x13, 0x01, 0xc0, 0x2f] [0, 43, 0, 3, 2, 3, 4, 0, 13, 0, 4, 0, 2, 4, 3]

/-- An upper-case entry in an otherwise empty configuration. -/
theorem emitted_ja4_blockable_upper :
    ∃ cfg reason, parse_protection_config Router.literalCrates
        { ja4_blocklist := some [bytes "T13I020200_BCDDFE1F4061_FABB7C3DFEBF"] } = .ok cfg ∧
      (check_at (.fresh cfg) (.V4 0x7f000001) { PeekInfo.default with complete := true, ja4 := tls13Ja4 } 0).1 =
        .Block reason := by
  have h := (emitted_ja4_blockable Router.literalCrates .sums 0x0303 [0x13, 0x01, 0xc0, 0x2f]
    [0, 43, 0, 3, 2, 3, 4, 0, 13, 0, 4, 0, 2, 4, 3]).2.2.2 (bytes "T13I020200_BCDDFE1F4061_FABB7C3DFEBF")
    (by decide +kernel)
  obtain ⟨cfg, hcfg⟩ := h.accepted {} _ [] [] rfl rfl
  have hallow : (parse_protection_config Router.literalCrates
      { ja4_blocklist := some [bytes "T13I020200_BCDDFE1F4061_FABB7C3DFEBF"] }).toOption.map (·.allowlist) = some [] := by
    decide +kernel
  obtain ⟨reason, hblock⟩ := h.blocks _ cfg hcfg (List.mem_singleton_self _) (.fresh cfg) (.V4 0x7f000001)
    { PeekInfo.default with complete := true, ja4 := tls13Ja4 } 0 rfl (by
      rw [List.nil_append] at hcfg
      rw [hcfg] at hallow
      have hnone : cfg.allowlist = [] := Option.some.inj hallow
      rw [hnone]
      rfl) rfl rfl
  exact ⟨cfg, reason, hcfg, hblock⟩

end Symphony.Proxy
