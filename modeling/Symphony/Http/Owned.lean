import Symphony.Http.Head
/-!
# Owned headers

Symphony owns the headers it rewrites: the upstream must see its values and no
client copy. An upstream that ends lines at a bare LF reads more lines than the
rewriter does, which splits at CRLF. It still sees symphony's lines only exactly
when no text after a bare LF, in the request line or in a line the rewriter keeps,
reads as an owned header.
-/

namespace Symphony.Http

open Lib (unlines)

/-! ## Lines ending at LF -/

def drop_cr (l : Bytes) : Bytes := if l.getLast? = some 13 then l.dropLast else l

/-- The lines of a text that each end at an LF, without an optional CR. -/
def lf_lines (s : Bytes) : List Bytes := (split_on 10 s).dropLast.map drop_cr

/-- The lines an LF reader finds in one CRLF line. -/
def pieces (l : Bytes) : List Bytes := lf_lines (l ++ CRLF)

/-- The line reads as a header symphony owns. -/
def reads_owned (rewrites : List HeaderRewrite) (line : Bytes) : Bool :=
  match field line with
  | some (name, _) => is_owned rewrites name
  | none => false

variable {rewrites : List HeaderRewrite}

theorem drop_cr_sub (l : Bytes) : ∀ b ∈ drop_cr l, b ∈ l := by
  intro b hb
  unfold drop_cr at hb
  split at hb
  · exact (List.dropLast_sublist _).subset hb
  · exact hb

theorem lf_lines_free (s : Bytes) : ∀ p ∈ lf_lines s, 10 ∉ p := by
  intro p hp hmem
  obtain ⟨q, hq, rfl⟩ := List.mem_map.1 hp
  exact not_mem_split_on 10 s q ((List.dropLast_sublist _).subset hq) (drop_cr_sub q 10 hmem)

theorem lf_lines_append (l r : Bytes) : lf_lines (l ++ CRLF ++ r) = pieces l ++ lf_lines r := by
  have h : ∀ t, l ++ CRLF ++ t = (l ++ [13]) ++ 10 :: t := fun t => by simp [CRLF]
  have h0 : l ++ CRLF = (l ++ [13]) ++ 10 :: [] := by simp [CRLF]
  rw [pieces, lf_lines, lf_lines, lf_lines, h, h0, split_on_append, split_on_append,
    List.dropLast_append_of_ne_nil (split_on_ne_nil 10 r), List.map_append]
  simp [split_on]

theorem lf_lines_unlines (ls : List Bytes) : lf_lines (unlines 13 10 ls) = ls.flatMap pieces := by
  induction ls with
  | nil => rfl
  | cons l ls ih =>
    have h : unlines 13 10 (l :: ls) = l ++ CRLF ++ unlines 13 10 ls := by simp [CRLF]
    rw [h, lf_lines_append, ih, List.flatMap_cons]

theorem drop_cr_snoc (l : Bytes) : drop_cr (l ++ [13]) = l := by simp [drop_cr]

theorem pieces_eq (l : Bytes) : pieces l = (split_on 10 (l ++ [13])).map drop_cr := by
  have h0 : l ++ CRLF = (l ++ [13]) ++ 10 :: [] := by simp [CRLF]
  rw [pieces, lf_lines, h0, split_on_append]
  simp [split_on]

theorem pieces_free {l : Bytes} (h : 10 ∉ l) : pieces l = [l] := by
  rw [pieces_eq, split_on_free (by simpa using h)]
  simp [drop_cr_snoc]

theorem pieces_ne_nil (l : Bytes) : pieces l ≠ [] := by
  rw [pieces_eq]
  simpa using split_on_ne_nil 10 (l ++ [13])

/-! ## The first piece of a named line -/

theorem drop_cr_append_colon (a q : Bytes) : ∃ q', drop_cr (a ++ 58 :: q) = a ++ 58 :: q' := by
  unfold drop_cr
  split
  · rename_i hlast
    cases q with
    | nil => simp at hlast
    | cons x q => exact ⟨(x :: q).dropLast, by simp [List.dropLast_append_of_ne_nil]⟩
  · exact ⟨q, rfl⟩

/-- The first piece of a line reads as the line's own header. -/
theorem pieces_named {l name : Bytes} (h : line_name l = .ok name) :
    ∃ p ps, pieces l = p :: ps ∧ reads_owned rewrites p = is_owned rewrites name := by
  obtain ⟨hc, hw, v, rfl⟩ := line_name_ok h
  have hlf : 10 ∉ name ++ [58] := by
    simp only [List.mem_append, List.mem_singleton, not_or]
    exact ⟨fun hm => by simpa [is_ascii_whitespace] using hw 10 hm, by decide⟩
  obtain ⟨q, qs, -, hq⟩ := split_on_head hlf (v ++ [13])
  obtain ⟨q', hq'⟩ := drop_cr_append_colon name q
  refine ⟨drop_cr (name ++ 58 :: q), qs.map drop_cr, ?_, ?_⟩
  · rw [pieces_eq]
    have hs : name ++ 58 :: v ++ [13] = name ++ [58] ++ (v ++ [13]) := by simp
    rw [hs, hq]
    simp
  · rw [hq', reads_owned, field_named hc hw]

/-! ## Owned headers only -/

/-- The lines after the first that an LF reader takes for owned headers are
symphony's own, once each and in order. -/
def OwnedOnly (rewrites : List HeaderRewrite) (head : Bytes) : Prop :=
  (lf_lines head).tail.filter (reads_owned rewrites) = inserted_lines rewrites

/-- Symphony's own lines are single lines and read as owned headers. -/
def LinesOwned (rewrites : List HeaderRewrite) : Prop :=
  ∀ l ∈ inserted_lines rewrites, 10 ∉ l ∧ reads_owned rewrites l = true

instance (rewrites : List HeaderRewrite) (head : Bytes) : Decidable (OwnedOnly rewrites head) :=
  inferInstanceAs (Decidable (_ = _))

instance (rewrites : List HeaderRewrite) : Decidable (LinesOwned rewrites) :=
  inferInstanceAs (Decidable (∀ l ∈ inserted_lines rewrites, _))

/-- No text after a bare LF, in the request line or a line that is kept, reads
as an owned header. -/
def NothingHidden (rewrites : List HeaderRewrite) (block : Bytes) : Prop :=
  ∀ l ∈ request_line block :: kept rewrites (field_lines (after_request_line block)),
    ∀ p ∈ (pieces l).tail, reads_owned rewrites p = false

/-- The owned lines of kept lines are among their later pieces. -/
theorem filter_kept {ls : List Bytes} (h : ∀ l ∈ ls, ∃ name, line_name l = .ok name) :
    (kept rewrites ls).flatMap (fun l => (pieces l).filter (reads_owned rewrites)) =
      (kept rewrites ls).flatMap (fun l => (pieces l).tail.filter (reads_owned rewrites)) := by
  refine List.flatMap_congr fun l hl => ?_
  rw [kept, List.mem_filter] at hl
  obtain ⟨name, hname⟩ := h l hl.1
  obtain ⟨p, ps, hp, ho⟩ := @pieces_named rewrites l name hname
  have hnot : is_owned rewrites name = false := by simpa [is_dropped, hname] using hl.2
  rw [hp, List.tail_cons, List.filter_cons_of_neg (by simp [ho, hnot])]

theorem filter_inserted (h : LinesOwned rewrites) :
    (inserted_lines rewrites).flatMap (fun l => (pieces l).filter (reads_owned rewrites)) =
      inserted_lines rewrites := by
  have heq : ∀ l ∈ inserted_lines rewrites, (pieces l).filter (reads_owned rewrites) = [l] := by
    intro l hl
    rw [pieces_free (h l hl).1]
    simp [(h l hl).2]
  rw [List.flatMap_congr heq]
  exact List.flatMap_singleton' _

/-- The owned lines an LF reader finds after the first line of a rewritten head. -/
theorem owned_lines_of_rewrite {block out : Bytes} (h : rewrite_request_head block rewrites = .ok out) :
    (lf_lines out).tail.filter (reads_owned rewrites) =
      (pieces (request_line block)).tail.filter (reads_owned rewrites) ++
      (inserted_lines rewrites).flatMap (fun l => (pieces l).filter (reads_owned rewrites)) ++
      (kept rewrites (field_lines (after_request_line block))).flatMap
        (fun l => (pieces l).tail.filter (reads_owned rewrites)) := by
  obtain ⟨hnames, blank, hblank, rfl⟩ := rewrite_request_head_ok h
  have hend : (blank.flatMap pieces).filter (reads_owned rewrites) = [] := by
    rcases hblank with rfl | rfl
    · rfl
    · have hp : pieces [] = [[]] := by decide
      simp [hp, reads_owned, field, colon]
  rw [lf_lines_unlines, List.flatMap_append, List.flatMap_append, List.flatMap_cons, List.append_assoc,
    List.append_assoc, List.tail_append_of_ne_nil (pieces_ne_nil _), List.filter_append, List.filter_append,
    List.filter_append, hend, List.append_nil, List.filter_flatMap, List.filter_flatMap, filter_kept hnames,
    List.append_assoc]

/-- When an LF reader sees symphony's owned headers and no others. -/
theorem owned_only_iff {rewrites : List HeaderRewrite} {block out : Bytes}
    (h : rewrite_request_head block rewrites = .ok out) :
    OwnedOnly rewrites out ↔ LinesOwned rewrites ∧ NothingHidden rewrites block := by
  have hlines := owned_lines_of_rewrite h
  constructor
  · intro hown
    have hmem : ∀ l ∈ inserted_lines rewrites, l ∈ lf_lines out ∧ reads_owned rewrites l = true := by
      intro l hl
      rw [← hown, List.mem_filter] at hl
      exact ⟨List.mem_of_mem_tail hl.1, hl.2⟩
    have hlo : LinesOwned rewrites := fun l hl => ⟨lf_lines_free out l (hmem l hl).1, (hmem l hl).2⟩
    refine ⟨hlo, ?_⟩
    -- Symphony's own lines account for the whole list, so the two client parts are empty.
    rw [OwnedOnly, hlines, filter_inserted hlo] at hown
    have hlen := congrArg List.length hown
    simp only [List.length_append] at hlen
    have h1 : (pieces (request_line block)).tail.filter (reads_owned rewrites) = [] :=
      List.eq_nil_of_length_eq_zero (by omega)
    have h2 := List.eq_nil_of_length_eq_zero (by omega :
      ((kept rewrites (field_lines (after_request_line block))).flatMap
        (fun l => (pieces l).tail.filter (reads_owned rewrites))).length = 0)
    intro l hl p hp
    rcases List.mem_cons.1 hl with rfl | hl
    · simpa using List.filter_eq_nil_iff.1 h1 p hp
    · simpa using List.filter_eq_nil_iff.1 (List.flatMap_eq_nil_iff.1 h2 l hl) p hp
  · rintro ⟨hlo, hhid⟩
    have hnone : ∀ l ∈ request_line block :: kept rewrites (field_lines (after_request_line block)),
        (pieces l).tail.filter (reads_owned rewrites) = [] := fun l hl =>
      List.filter_eq_nil_iff.2 fun p hp => by simp [hhid l hl p hp]
    rw [OwnedOnly, hlines, filter_inserted hlo, hnone _ (by simp),
      List.flatMap_eq_nil_iff.2 fun l hl => hnone l (by simp [hl]), List.nil_append, List.append_nil]

/-- Symphony states the fingerprint `1`. -/
def ownsJa3 : List HeaderRewrite := [⟨bytes "X-JA3", some (bytes "1")⟩]

theorem owned_only_plain_request :
    OwnedOnly ownsJa3 (bytes "GET / HTTP/1.1\r\nX-JA3: 1\r\nA: b\r\n\r\n") := by
  have hls : ∀ l ∈ [bytes "A: b", bytes "x-ja3: 2"], FieldLine l ∧ ∃ name, line_name l = .ok name := by
    simp only [List.forall_mem_cons]
    exact ⟨⟨⟨by decide, by decide⟩, _, rfl⟩, ⟨⟨by decide, by decide⟩, _, rfl⟩, by simp⟩
  have h := rewrite_request_head_lines ownsJa3 (show Plain (bytes "GET / HTTP/1.1") by decide) hls
  have hf : field_lines (after_request_line (bytes "GET / HTTP/1.1\r\nA: b\r\nx-ja3: 2\r\n\r\n")) = _ :=
    field_lines_unlines (fun l hl => (hls l hl).1) []
  refine (owned_only_iff h).2 ⟨by decide, ?_⟩
  change ∀ l ∈ _ :: kept ownsJa3 (field_lines (after_request_line
    (bytes "GET / HTTP/1.1\r\nA: b\r\nx-ja3: 2\r\n\r\n"))), _
  rw [hf]
  decide

/-- A second fingerprint after a bare LF in the value of another header. -/
theorem hidden_header_passes :
    rewrite_request_head (bytes "GET / HTTP/1.1\r\nA: b\nX-JA3: 2\r\n\r\n") ownsJa3 =
      .ok (bytes "GET / HTTP/1.1\r\nX-JA3: 1\r\nA: b\nX-JA3: 2\r\n\r\n") ∧
    lf_lines (bytes "GET / HTTP/1.1\r\nX-JA3: 1\r\nA: b\nX-JA3: 2\r\n\r\n") =
      [bytes "GET / HTTP/1.1", bytes "X-JA3: 1", bytes "A: b", bytes "X-JA3: 2", []] ∧
    ¬ OwnedOnly ownsJa3 (bytes "GET / HTTP/1.1\r\nX-JA3: 1\r\nA: b\nX-JA3: 2\r\n\r\n") := by
  refine ⟨?_, by decide, by decide⟩
  exact @rewrite_request_head_lines (bytes "GET / HTTP/1.1") [bytes "A: b\nX-JA3: 2"] ownsJa3 (by decide)
    (by simp only [List.forall_mem_cons]; exact ⟨⟨⟨by decide, by decide⟩, _, rfl⟩, by simp⟩)

end Symphony.Http
