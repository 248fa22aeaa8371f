import Mathlib.Data.List.Sort
import Mathlib.Data.List.Forall2
import Symphony.Rust.Basic
import Symphony.Sni.Records
import Symphony.Sni.Hello
import Symphony.Sni.Peek
import Symphony.Sni.Encode
/-!
# What the fingerprints ignore

JA4 sorts the cipher suites and the extension types, and both fingerprints drop
GREASE values. So JA4 does not see a permutation of either list, and neither
fingerprint sees GREASE inserted into a hello. Each is first shown to depend only on
what it reads of the extensions (`SameJa4`), then the hellos are compared there.
-/

namespace Symphony.Sni

/-! ## Inserted elements -/

/-- The second list is the first with `new` elements put in anywhere, and each old
element replaced by one it is `kept` as. -/
inductive Inserted {α : Type} (new : α → Prop) (kept : α → α → Prop) : List α → List α → Prop
  | nil : Inserted new kept [] []
  | keep {a b : α} {l l' : List α} : kept a b → Inserted new kept l l' → Inserted new kept (a :: l) (b :: l')
  | insert {b : α} {l l' : List α} : new b → Inserted new kept l l' → Inserted new kept l (b :: l')

/-- A filter that drops the new elements leaves the kept ones, pairwise. -/
theorem Inserted.filter {α : Type} {new : α → Prop} {kept : α → α → Prop} {p : α → Bool} {l l' : List α}
    (h : Inserted new kept l l') (hnew : ∀ b, new b → p b = false) (hkept : ∀ a b, kept a b → p a = p b) :
    List.Forall₂ kept (l.filter p) (l'.filter p) := by
  induction h with
  | nil => exact .nil
  | @keep a b l l' hab _ ih =>
    rw [List.filter_cons, List.filter_cons, hkept a b hab]
    split
    · exact .cons hab ih
    · exact ih
  | @insert b l l' hb _ ih =>
    rw [List.filter_cons_of_neg (by simp [hnew b hb])]
    exact ih

/-- GREASE values put in anywhere. -/
def Greased (vs vs' : List Nat) : Prop := Inserted (fun v => is_grease v = true) Eq vs vs'

theorem Greased.no_grease {vs vs' : List Nat} (h : Greased vs vs') : no_grease vs = no_grease vs' := by
  have hkept := Inserted.filter (p := fun v => !is_grease v) h (by simp) (by rintro _ _ rfl; rfl)
  rwa [List.forall₂_eq_eq_eq] at hkept

/-! ## What JA4 depends on -/

/-- The extensions JA4 looks at. -/
def drop_grease (exts : List (Nat × Bytes)) : List (Nat × Bytes) := exts.filter fun e => !is_grease e.1

/-- Two extension lists JA4 cannot tell apart. -/
structure SameJa4 (exts exts' : List (Nat × Bytes)) : Prop where
  ids : (exts.map (·.1)).Perm (exts'.map (·.1))
  supported_versions : (ext_data_of 0x002B exts).flatMap (fun d => no_grease (u16s (list8 d))) =
    (ext_data_of 0x002B exts').flatMap fun d => no_grease (u16s (list8 d))
  sig_algs : (ext_data_of 0x000D exts).flatMap (fun d => no_grease (u16s (list16 d))) =
    (ext_data_of 0x000D exts').flatMap fun d => no_grease (u16s (list16 d))
  alpn : ext_data_of 0x0010 exts = ext_data_of 0x0010 exts'

theorem insertionSort_perm {l l' : List Nat} (h : l.Perm l') :
    l.insertionSort (· ≤ ·) = l'.insertionSort (· ≤ ·) :=
  ((List.perm_insertionSort _ l).trans (h.trans (List.perm_insertionSort _ l').symm)).eq_of_pairwise'
    (List.pairwise_insertionSort _ l) (List.pairwise_insertionSort _ l')

theorem compute_ja4_congr (C : Crypto) (v : Nat) {cs cs' extensions extensions' : Bytes}
    (hc : (no_grease (u16s cs)).Perm (no_grease (u16s cs')))
    (he : SameJa4 (drop_grease (extension_list extensions)) (drop_grease (extension_list extensions'))) :
    compute_ja4 C v cs extensions = compute_ja4 C v cs' extensions' := by
  have hciphers := insertionSort_perm hc
  have hhash := insertionSort_perm (he.ids.filter fun t => t != 0x0000 && t != 0x0010)
  have hcount := he.ids.length_eq
  have hsni : (((drop_grease (extension_list extensions)).map (·.1)).contains 0x0000) =
      (((drop_grease (extension_list extensions')).map (·.1)).contains 0x0000) := by
    rw [Bool.eq_iff_iff, List.contains_iff_mem, List.contains_iff_mem]
    exact he.ids.mem_iff
  have hversions := he.supported_versions
  have hsigs := he.sig_algs
  have halpn := he.alpn
  unfold drop_grease at hhash hcount hsni hversions hsigs halpn
  simp only [compute_ja4, alpn_first, hciphers, hhash, hcount, hsni, hversions, hsigs, halpn]

/-! ## Permutations -/

theorem ext_data_of_perm {exts exts' : List (Nat × Bytes)} (h : exts.Perm exts') (hd : (exts.map (·.1)).Nodup)
    (t : Nat) : ext_data_of t exts = ext_data_of t exts' := by
  have hp := h.filter fun e => e.1 == t
  have hd : ((exts.filter fun e => e.1 == t).map (·.1)).Nodup := hd.sublist (List.filter_sublist.map _)
  have ht : ∀ e ∈ exts.filter fun e => e.1 == t, e.1 = t := fun e he => by simpa using (List.mem_filter.1 he).2
  unfold ext_data_of
  -- one extension has the type at most, and a list that short has no other permutation
  match hf : exts.filter fun e => e.1 == t with
  | [] =>
    rw [hf] at hp
    rw [hf, ← hp.nil_eq]
  | [e] =>
    rw [hf] at hp
    rw [hf, ← List.singleton_perm.1 hp]
  | e :: e' :: rest =>
    rw [hf] at hd ht
    have hne : e.1 ≠ e'.1 := by
      intro heq
      simp [heq] at hd
    exact absurd ((ht e (by simp)).trans (ht e' (by simp)).symm) hne

theorem SameJa4.of_perm {exts exts' : List (Nat × Bytes)} (h : exts.Perm exts') (hd : (exts.map (·.1)).Nodup) :
    SameJa4 (drop_grease exts) (drop_grease exts') := by
  have hp : (drop_grease exts).Perm (drop_grease exts') := h.filter _
  have hd : ((drop_grease exts).map (·.1)).Nodup := hd.sublist (List.filter_sublist.map _)
  exact ⟨hp.map _, by rw [ext_data_of_perm hp hd], by rw [ext_data_of_perm hp hd], ext_data_of_perm hp hd _⟩

/-! ## GREASE -/

/-- The data of a list with a 1-byte length, and of one with a 2-byte length. -/
def ListOf8 (vs : List Nat) (d : Bytes) : Prop :=
  d = UInt8.ofNat (2 * vs.length) :: encodeU16s vs ∧ 2 * vs.length < 256 ∧ ∀ v ∈ vs, v < 65536

def ListOf16 (vs : List Nat) (d : Bytes) : Prop :=
  d = to_be16 (2 * vs.length) ++ encodeU16s vs ∧ 2 * vs.length < 65536 ∧ ∀ v ∈ vs, v < 65536

theorem ListOf8.read {vs : List Nat} {d : Bytes} (h : ListOf8 vs d) : u16s (list8 d) = vs := by
  obtain ⟨rfl, hlen, hvs⟩ := h
  have hl : (UInt8.ofNat (2 * vs.length)).toNat = (encodeU16s vs).length := by
    rw [encodeU16s_length]
    simpa using Nat.mod_eq_of_lt hlen
  rw [list8, hl, List.take_length, u16s_encodeU16s hvs]

theorem ListOf16.read {vs : List Nat} {d : Bytes} (h : ListOf16 vs d) : u16s (list16 d) = vs := by
  obtain ⟨rfl, hlen, hvs⟩ := h
  rw [list16, read_u16_to_be16 hlen]
  simp only
  rw [← encodeU16s_length, List.take_length, u16s_encodeU16s hvs]

/-- Both are the extension of type `t`, with GREASE values put into its list. -/
def GreasedIn (t : Nat) (ListOf : List Nat → Bytes → Prop) (e e' : Extension) : Prop :=
  e.type = t ∧ e'.type = t ∧ ∃ vs vs', ListOf vs e.data ∧ ListOf vs' e'.data ∧ Greased vs vs'

theorem GreasedIn.read {t : Nat} {ListOf : List Nat → Bytes → Prop} {list : Bytes → Bytes} {e e' : Extension}
    (hread : ∀ vs d, ListOf vs d → u16s (list d) = vs) (h : GreasedIn t ListOf e e') :
    no_grease (u16s (list e.data)) = no_grease (u16s (list e'.data)) := by
  obtain ⟨-, -, vs, vs', hvs, hvs', hg⟩ := h
  rw [hread vs _ hvs, hread vs' _ hvs', hg.no_grease]

/-- An old extension, where GREASE goes into supported_versions and signature_algorithms. -/
def KeptJa4 (e e' : Extension) : Prop := e = e' ∨ GreasedIn 0x002B ListOf8 e e' ∨ GreasedIn 0x000D ListOf16 e e'

/-- An old extension, where GREASE goes into supported_groups. -/
def KeptJa3 (e e' : Extension) : Prop := e = e' ∨ GreasedIn 0x000A ListOf16 e e'

/-- GREASE-typed extensions with any data put in anywhere. -/
def GreasedExtensions (kept : Extension → Extension → Prop) (es es' : List Extension) : Prop :=
  Inserted (fun e => is_grease e.type = true) kept es es'

section Kept

variable {kept : Extension → Extension → Prop} {es es' : List Extension}

theorem drop_grease_entries (es : List Extension) :
    drop_grease (es.map Extension.entry) = (es.filter fun e => !is_grease e.type).map Extension.entry := by
  rw [drop_grease, List.filter_map]
  rfl

theorem GreasedExtensions.old (h : GreasedExtensions kept es es') (htype : ∀ e e', kept e e' → e.type = e'.type) :
    List.Forall₂ kept (es.filter fun e => !is_grease e.type) (es'.filter fun e => !is_grease e.type) :=
  h.filter (by simp +contextual) fun e e' hk => by rw [htype e e' hk]

theorem types_of_kept (h : List.Forall₂ kept es es') (htype : ∀ e e', kept e e' → e.type = e'.type) :
    (es.map Extension.entry).map (·.1) = (es'.map Extension.entry).map (·.1) := by
  induction h with
  | nil => rfl
  | cons hk _ ih => simpa [Extension.entry, htype _ _ hk] using ih

/-- A reading of the extensions of type `t` that does not see what `kept` changes. -/
theorem ext_data_of_kept {β : Type} (h : List.Forall₂ kept es es') (htype : ∀ e e', kept e e' → e.type = e'.type)
    {t : Nat} {f : Bytes → β} (hread : ∀ e e', kept e e' → e.type = t → f e.data = f e'.data) :
    (ext_data_of t (es.map Extension.entry)).map f = (ext_data_of t (es'.map Extension.entry)).map f := by
  induction h with
  | nil => rfl
  | @cons e e' es es' hk _ ih =>
    unfold ext_data_of at ih ⊢
    by_cases ht : e.type = t
    · have ht' : e'.type = t := (htype e e' hk).symm.trans ht
      simpa [Extension.entry, ht, ht', hread e e' hk ht] using ih
    · have ht' : e'.type ≠ t := fun h => ht ((htype e e' hk).trans h)
      simpa [Extension.entry, ht, ht'] using ih

theorem flatMap_of_map_eq {α β : Type} {f : α → List β} {l l' : List α} (h : l.map f = l'.map f) :
    l.flatMap f = l'.flatMap f := by
  rw [List.flatMap_def, List.flatMap_def, h]

end Kept

theorem KeptJa4.type {e e' : Extension} (h : KeptJa4 e e') : e.type = e'.type := by
  obtain rfl | h | h := h
  · rfl
  · exact h.1.trans h.2.1.symm
  · exact h.1.trans h.2.1.symm

theorem KeptJa3.type {e e' : Extension} (h : KeptJa3 e e') : e.type = e'.type := by
  obtain rfl | h := h
  · rfl
  · exact h.1.trans h.2.1.symm

theorem SameJa4.of_greased {es es' : List Extension} (h : GreasedExtensions KeptJa4 es es') :
    SameJa4 (drop_grease (es.map Extension.entry)) (drop_grease (es'.map Extension.entry)) := by
  have hk := h.old fun e e' => KeptJa4.type
  rw [drop_grease_entries, drop_grease_entries]
  refine ⟨.of_eq (types_of_kept hk fun e e' => KeptJa4.type),
    flatMap_of_map_eq (ext_data_of_kept hk (fun e e' => KeptJa4.type) fun e e' hk ht => ?_),
    flatMap_of_map_eq (ext_data_of_kept hk (fun e e' => KeptJa4.type) fun e e' hk ht => ?_), ?_⟩
  · obtain rfl | h | h := hk
    · rfl
    · exact h.read fun _ _ => ListOf8.read
    · exact absurd (h.1.symm.trans ht) (by decide)
  · obtain rfl | h | h := hk
    · rfl
    · exact absurd (h.1.symm.trans ht) (by decide)
    · exact h.read fun _ _ => ListOf16.read
  · have halpn := ext_data_of_kept (t := 0x0010) (f := id) hk (fun e e' => KeptJa4.type) fun e e' hk ht => by
      obtain rfl | h | h := hk
      · rfl
      · exact absurd (h.1.symm.trans ht) (by decide)
      · exact absurd (h.1.symm.trans ht) (by decide)
    rwa [List.map_id, List.map_id] at halpn

/-- JA3 reads no GREASE-typed extension either. -/
theorem ext_data_of_old {t : Nat} (ht : is_grease t = false) (es : List Extension) :
    ext_data_of t (es.map Extension.entry) =
      ext_data_of t ((es.filter fun e => !is_grease e.type).map Extension.entry) := by
  rw [← drop_grease_entries, drop_grease, ext_data_of, ext_data_of, List.filter_filter]
  congr 1
  refine List.filter_congr fun e _ => ?_
  by_cases he : e.1 = t <;> simp [he, ht]

theorem no_grease_types (es : List Extension) : no_grease ((es.map Extension.entry).map (·.1)) =
    ((es.filter fun e => !is_grease e.type).map Extension.entry).map (·.1) := by
  rw [← drop_grease_entries, no_grease, List.filter_map]
  rfl

theorem compute_ja3_greased (C : Crypto) (v : Nat) {cs cs' : Bytes} {es es' : List Extension}
    (hc : no_grease (u16s cs) = no_grease (u16s cs')) (h : GreasedExtensions KeptJa3 es es') :
    compute_ja3 C v cs (encodeExtensions es) = compute_ja3 C v cs' (encodeExtensions es') := by
  have hk := h.old fun e e' => KeptJa3.type
  have htypes : no_grease ((es.map Extension.entry).map (·.1)) = no_grease ((es'.map Extension.entry).map (·.1)) := by
    rw [no_grease_types, no_grease_types, types_of_kept hk fun e e' => KeptJa3.type]
  have hgroups : (ext_data_of 0x000A (es.map Extension.entry)).flatMap (fun d => no_grease (u16s (list16 d))) =
      (ext_data_of 0x000A (es'.map Extension.entry)).flatMap fun d => no_grease (u16s (list16 d)) := by
    rw [ext_data_of_old (by decide) es, ext_data_of_old (by decide) es']
    refine flatMap_of_map_eq (ext_data_of_kept hk (fun e e' => KeptJa3.type) fun e e' hk ht => ?_)
    obtain rfl | h := hk
    · rfl
    · exact h.read fun _ _ => ListOf16.read
  have hformats : (ext_data_of 0x000B (es.map Extension.entry)).flatMap (fun d => (list8 d).map (·.toNat)) =
      (ext_data_of 0x000B (es'.map Extension.entry)).flatMap fun d => (list8 d).map (·.toNat) := by
    rw [ext_data_of_old (by decide) es, ext_data_of_old (by decide) es']
    refine flatMap_of_map_eq (ext_data_of_kept hk (fun e e' => KeptJa3.type) fun e e' hk ht => ?_)
    obtain rfl | h := hk
    · rfl
    · exact absurd (h.1.symm.trans ht) (by decide)
  simp only [compute_ja3, extension_list_encodeExtensions, hc, htypes, hgroups, hformats]

/-! ## Hellos -/

/-- What a peek reports of a hello, once its records are put together. -/
def Hello.peeked (C : Crypto) (h : Hello) : PeekInfo := parse_client_hello C (wrap_as_record h.message.encode)

theorem Hello.peeked_eq (C : Crypto) (h : Hello) :
    (h.peeked C).ja3 = compute_ja3 C h.version h.cipher_bytes h.extension_bytes ∧
    (h.peeked C).ja4 = compute_ja4 C h.version h.cipher_bytes h.extension_bytes := by
  unfold Hello.peeked parse_client_hello
  rw [parse_wrap, h.parse_body]
  exact ⟨rfl, rfl⟩

theorem Hello.u16s_cipher_bytes (h : Hello) : u16s h.cipher_bytes = h.ciphers := u16s_encodeU16s h.ciphers_fit

/-- GREASE put into the ciphers and the extensions; everything the fingerprints do not
read may differ. -/
structure Hello.Greased (kept : Extension → Extension → Prop) (h h' : Hello) : Prop where
  version : h'.version = h.version
  ciphers : Sni.Greased h.ciphers h'.ciphers
  extensions : GreasedExtensions kept h.extensions h'.extensions

theorem fingerprints_stable (C : Crypto) (h : Hello) (hd : DistinctTypes h.extensions) :
    (∀ h' : Hello, h'.version = h.version → h.ciphers.Perm h'.ciphers → h.extensions.Perm h'.extensions →
      (h'.peeked C).ja4 = (h.peeked C).ja4) ∧
    (∀ h' : Hello, h.Greased KeptJa4 h' → (h'.peeked C).ja4 = (h.peeked C).ja4) ∧
    (∀ h' : Hello, h.Greased KeptJa3 h' → (h'.peeked C).ja3 = (h.peeked C).ja3) := by
  refine ⟨fun h' hv hc he => ?_, fun h' hg => ?_, fun h' hg => ?_⟩
  · rw [(h.peeked_eq C).2, (h'.peeked_eq C).2, hv]
    symm
    apply compute_ja4_congr
    · rw [h.u16s_cipher_bytes, h'.u16s_cipher_bytes]
      exact hc.filter _
    · rw [Hello.extension_bytes, Hello.extension_bytes, extension_list_encodeExtensions,
        extension_list_encodeExtensions]
      refine .of_perm (he.map _) ?_
      rw [List.map_map]
      exact hd
  · rw [(h.peeked_eq C).2, (h'.peeked_eq C).2, hg.version]
    symm
    apply compute_ja4_congr
    · rw [h.u16s_cipher_bytes, h'.u16s_cipher_bytes]
      exact .of_eq hg.ciphers.no_grease
    · rw [Hello.extension_bytes, Hello.extension_bytes, extension_list_encodeExtensions,
        extension_list_encodeExtensions]
      exact .of_greased hg.extensions
  · rw [(h.peeked_eq C).1, (h'.peeked_eq C).1, hg.version]
    refine (compute_ja3_greased C _ ?_ hg.extensions).symm
    rw [h.u16s_cipher_bytes, h'.u16s_cipher_bytes]
    exact hg.ciphers.no_grease

/-- The hello with its lists the other way round. -/
def Hello.aTestReversed : Hello :=
  { Hello.aTest with
    ciphers := Hello.aTest.ciphers.reverse
    block := some Hello.aTest.extensions.reverse
    ciphers_fit := by decide
    ciphers_length := by decide
    extensions_fit := by decide +kernel }

/-- The hello with a GREASE cipher and a GREASE extension at the front. -/
def Hello.aTestGreased : Hello :=
  { Hello.aTest with
    ciphers := 0x0a0a :: Hello.aTest.ciphers
    block := some (⟨0x1a1a, [0], by decide, by decide⟩ :: Hello.aTest.extensions)
    ciphers_fit := by decide
    ciphers_length := by decide
    extensions_fit := by decide +kernel }

theorem Inserted.refl {α : Type} {new : α → Prop} {kept : α → α → Prop} (hrefl : ∀ a, kept a a) (l : List α) :
    Inserted new kept l l := by
  induction l with
  | nil => exact .nil
  | cons a l ih => exact .keep (hrefl a) ih

theorem Hello.aTest_greased {kept : Extension → Extension → Prop} (hrefl : ∀ e, kept e e) :
    Hello.aTest.Greased kept Hello.aTestGreased :=
  ⟨rfl, .insert rfl (.refl (fun _ => rfl) _), .insert rfl (.refl hrefl _)⟩

theorem fingerprints_stable_aTest :
    (Hello.aTestReversed.peeked .sums).ja4 = (Hello.aTest.peeked .sums).ja4 ∧
    (Hello.aTestGreased.peeked .sums).ja4 = (Hello.aTest.peeked .sums).ja4 ∧
    (Hello.aTestGreased.peeked .sums).ja3 = (Hello.aTest.peeked .sums).ja3 := by
  obtain ⟨hperm, hja4, hja3⟩ := fingerprints_stable .sums Hello.aTest (by unfold DistinctTypes; decide +kernel)
  exact ⟨hperm _ rfl (List.reverse_perm _).symm (List.reverse_perm _).symm,
    hja4 _ (Hello.aTest_greased fun _ => .inl rfl), hja3 _ (Hello.aTest_greased fun _ => .inl rfl)⟩

end Symphony.Sni
