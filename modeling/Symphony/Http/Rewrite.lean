import Symphony.Http.Owned
import Symphony.Http.Rfc
/-!
# Rewriting a head twice

The rewriter reads a header block line by line, strictly; the framing, method and upgrade
tests read the same block through `header_fields`, which tolerates more. On a block the
rewriter accepts they agree, so the head it returns is for them the block it was given,
and rewriting it again changes nothing.
-/

namespace Symphony.Http

open Lib (position unlines)

/-! ## Header blocks and rewrite lists -/

/-- The block ends at its first blank line. -/
def EndsAtBlank (block : Bytes) : Prop := ∃ n, position CRLFCRLF block = some n ∧ n + 4 = block.length

/-- The headers that decide where a request ends and whether it asks for a tunnel. -/
def is_reserved (name : Bytes) : Bool :=
  is_framing name || eq_ignore_ascii_case name (bytes "connection") || eq_ignore_ascii_case name (bytes "upgrade")

/-- Rewrites of header names that are none of the reserved ones, with values that stay on
their line. -/
structure WellNamed (rewrites : List HeaderRewrite) : Prop where
  distinct : (rewrites.map (·.name)).Nodup
  nonempty : ∀ r ∈ rewrites, r.name ≠ []
  no_space : ∀ r ∈ rewrites, ∀ b ∈ r.name, is_ascii_whitespace b = false
  no_colon : ∀ r ∈ rewrites, 58 ∉ r.name
  free : ∀ r ∈ rewrites, is_reserved r.name = false
  one_line : ∀ r ∈ rewrites, ∀ value, r.value = some value → 13 ∉ value ∧ 10 ∉ value

variable {rl : Bytes} {rewrites : List HeaderRewrite} {ls : List Bytes}

theorem plain_of_no_cr {l : Bytes} (h : 13 ∉ l) : Plain l := by
  rw [Plain, Lib.position_eq_none (by simp [CRLF])]
  intro i hi
  exact h (List.mem_of_mem_drop (hi.subset (by simp [CRLF])))

theorem line_name_inserted {name : Bytes} (hne : name ≠ []) (hsp : ∀ b ∈ name, is_ascii_whitespace b = false)
    (hc : 58 ∉ name) (value : Bytes) : line_name (inserted_line name value) = .ok name := by
  have hline : inserted_line name value = name ++ 58 :: (32 :: value) := by simp [inserted_line]
  have hfold : ((name ++ 58 :: (32 :: value)).head? == some 32 || (name ++ 58 :: (32 :: value)).head? == some 9) =
    false := by
    cases name with
    | nil => exact absurd rfl hne
    | cons b t =>
      have hb := hsp b (by simp)
      rw [is_ascii_whitespace] at hb
      simp only [Bool.or_eq_false_iff] at hb
      simp [hb.1.1.1.1, hb.1.1.1.2]
  have hany : name.any is_ascii_whitespace = false := by simpa using hsp
  rw [hline, line_name, hfold, if_neg Bool.false_ne_true, colon_append hc]
  simp [hne, hany]

theorem WellNamed.inserted (h : WellNamed rewrites) :
    ∀ l ∈ inserted_lines rewrites, FieldLine l ∧ ∃ name, line_name l = .ok name ∧ is_owned rewrites name = true := by
  intro l hl
  obtain ⟨r, hr, hline⟩ := List.mem_filterMap.1 hl
  obtain ⟨value, hvalue, rfl⟩ := Option.map_eq_some_iff.1 hline
  have hcr : 13 ∉ inserted_line r.name value := by
    have hname : (13 : UInt8) ∉ r.name := fun hm => absurd (h.no_space r hr 13 hm) (by decide)
    have hval := (h.one_line r hr value hvalue).1
    simp [inserted_line, hname, hval]
  refine ⟨⟨by simp [inserted_line], plain_of_no_cr hcr⟩, r.name, ?_, ?_⟩
  · exact line_name_inserted (h.nonempty r hr) (h.no_space r hr) (h.no_colon r hr) value
  · exact List.any_eq_true.2 ⟨r, hr, eq_ignore_ascii_case_iff.2 rfl⟩

theorem is_reserved_of_owned (h : WellNamed rewrites) {name : Bytes} (hname : is_owned rewrites name = true) :
    is_reserved name = false := by
  obtain ⟨r, hr, he⟩ := List.any_eq_true.1 hname
  have hm := eq_ignore_ascii_case_iff.1 he
  have hfree := h.free r hr
  unfold is_reserved is_framing eq_ignore_ascii_case at hfree ⊢
  rwa [hm] at hfree

/-! ## What the tests read -/

/-- The reserved fields of a block. -/
def reserved_fields (block : Bytes) : List (Bytes × Bytes) := (header_fields block).filter fun f => is_reserved f.1

theorem scan_reserved (fs : List (Bytes × Bytes)) (s : BodyScan) :
    (fs.filter fun f => is_reserved f.1).foldlM scan_field s = fs.foldlM scan_field s := by
  induction fs generalizing s with
  | nil => rfl
  | cons f fs ih =>
    cases hf : is_reserved f.1 with
    | true =>
      rw [List.filter_cons_of_pos (by exact hf), List.foldlM_cons, List.foldlM_cons]
      exact congrArg _ (funext ih)
    | false =>
      simp only [is_reserved, is_framing, Bool.or_eq_false_iff] at hf
      have hskip : scan_field s f = .ok s := by simp [scan_field, hf.1.1.1, hf.1.1.2]
      rw [List.filter_cons_of_neg (by simp [is_reserved, is_framing, hf]), List.foldlM_cons, hskip]
      exact ih s

theorem request_body_congr {a b : Bytes} (h : reserved_fields a = reserved_fields b) :
    request_body a = request_body b := by
  have hscan := scan_reserved (header_fields a) {}
  rw [reserved_fields, reserved_fields] at h
  rw [h, scan_reserved] at hscan
  rw [request_body, request_body, hscan]

theorem any_reserved (fs : List (Bytes × Bytes)) {q : Bytes × Bytes → Bool}
    (hq : ∀ f, q f = true → is_reserved f.1 = true) :
    (fs.filter fun f => is_reserved f.1).any q = fs.any q := by
  rw [List.any_filter]
  congr 1
  funext f
  cases hf : q f with
  | false => simp
  | true => simp [hq f hf]

theorem is_upgrade_congr {a b : Bytes} (h : reserved_fields a = reserved_fields b) : is_upgrade a = is_upgrade b := by
  have hupgrade : ∀ f : Bytes × Bytes, eq_ignore_ascii_case f.1 (bytes "upgrade") = true → is_reserved f.1 = true := by
    intro f hf
    simp [is_reserved, hf]
  have hconnection : ∀ f : Bytes × Bytes, (eq_ignore_ascii_case f.1 (bytes "connection") &&
      (split_on 44 f.2).any fun t => eq_ignore_ascii_case (trim_ascii t) (bytes "upgrade")) = true →
      is_reserved f.1 = true := by
    intro f hf
    simp [is_reserved, (Bool.and_eq_true_iff.1 hf).1]
  unfold is_upgrade connection_has_token
  rw [← any_reserved (header_fields a) hupgrade, ← any_reserved (header_fields a) hconnection,
    ← any_reserved (header_fields b) hupgrade, ← any_reserved (header_fields b) hconnection]
  rw [reserved_fields, reserved_fields] at h
  rw [h]

/-! ## The rewritten head -/

theorem field_lines_block (hrl : Plain rl) (hls : ∀ l ∈ ls, FieldLine l) :
    field_lines (after_request_line (unlines 13 10 (rl :: ls) ++ CRLF)) = ls := by
  rw [after_request_line_lines hrl, ← List.append_nil (unlines 13 10 ls ++ CRLF), field_lines_unlines hls]

theorem request_line_block (hrl : Plain rl) (ls : List Bytes) :
    request_line (unlines 13 10 (rl :: ls) ++ CRLF) = rl := by
  have hs : unlines 13 10 (rl :: ls) ++ CRLF = rl ++ 13 :: 10 :: (unlines 13 10 ls ++ CRLF) := by simp
  have hp : position CRLF (rl ++ 13 :: 10 :: (unlines 13 10 ls ++ CRLF)) = some rl.length :=
    Lib.position_line (by decide) hrl _
  rw [request_line, hs, hp, Option.getD_some, List.take_left]

theorem endsAtBlank_block (hrl : Plain rl) (hls : ∀ l ∈ ls, FieldLine l) :
    EndsAtBlank (unlines 13 10 (rl :: ls) ++ CRLF) := by
  refine ⟨(unlines 13 10 (rl :: ls)).length - 2, Lib.position_block (by decide) hrl hls [], ?_⟩
  rw [List.length_append, Lib.unlines_cons, List.length_append]
  simp only [CRLF, List.length_cons, List.length_nil]
  omega

theorem EndsAtBlank.lines {block : Bytes} (h : EndsAtBlank block) :
    ∃ rl ls, Plain rl ∧ (∀ l ∈ ls, FieldLine l) ∧ block = unlines 13 10 (rl :: ls) ++ CRLF := by
  obtain ⟨n, hn, hlen⟩ := h
  obtain ⟨rl, ls, hrl, hls, hblock⟩ := block_lines hn
  rw [hlen, List.take_length] at hblock
  exact ⟨rl, ls, hrl, hls, hblock⟩

/-- The tests the proxy makes on a head. -/
structure SameRequest (block out : Bytes) : Prop where
  body : request_body out = request_body block
  connect : is_connect out = is_connect block
  head_only : eq_ignore_ascii_case (request_method out) (bytes "HEAD") =
    eq_ignore_ascii_case (request_method block) (bytes "HEAD")
  upgrade : is_upgrade out = is_upgrade block

/-- Blocks with one request line and the same reserved fields. -/
theorem SameRequest.of_lines {ms : List Bytes}
    (h : reserved_fields (unlines 13 10 (rl :: ms) ++ CRLF) = reserved_fields (unlines 13 10 (rl :: ls) ++ CRLF)) :
    SameRequest (unlines 13 10 (rl :: ls) ++ CRLF) (unlines 13 10 (rl :: ms) ++ CRLF) := by
  have hs : ∀ ks : List Bytes, unlines 13 10 (rl :: ks) ++ CRLF = rl ++ 13 :: 10 :: (unlines 13 10 ks ++ CRLF) := by
    simp
  have hmethod : ∀ m : Bytes, m ≠ [] → (∀ b ∈ m, to_ascii_lowercase b ≠ 13) →
      eq_ignore_ascii_case (request_method (unlines 13 10 (rl :: ms) ++ CRLF)) m =
        eq_ignore_ascii_case (request_method (unlines 13 10 (rl :: ls) ++ CRLF)) m := by
    intro m hm hcr
    rw [hs, hs, request_method_line _ _ hm hcr, request_method_line _ _ hm hcr]
  exact ⟨request_body_congr h, hmethod _ (by decide) (by decide +kernel), hmethod _ (by decide) (by decide +kernel),
    is_upgrade_congr h⟩

theorem kept_kept (rewrites : List HeaderRewrite) (ls : List Bytes) :
    kept rewrites (kept rewrites ls) = kept rewrites ls := by
  simp [kept]

theorem WellNamed.kept_inserted (h : WellNamed rewrites) :
    kept rewrites (inserted_lines rewrites) = [] := by
  refine List.filter_eq_nil_iff.2 fun l hl => ?_
  obtain ⟨-, name, hname, hown⟩ := h.inserted l hl
  simp [is_dropped, hname, hown]

/-- **Rewriting keeps the request.** The head made of a block ends where the block does, is
the same request for every test the proxy makes, has the block's other lines in order, and
is its own rewriting. -/
theorem rewrite_keeps_request {rewrites : List HeaderRewrite} (hrw : WellNamed rewrites) {block out : Bytes}
    (hblock : EndsAtBlank block) (h : rewrite_request_head block rewrites = .ok out) :
    EndsAtBlank out ∧ SameRequest block out ∧ request_line out = request_line block ∧
      field_lines (after_request_line out) =
        inserted_lines rewrites ++ kept rewrites (field_lines (after_request_line block)) ∧
      rewrite_request_head out rewrites = .ok out := by
  obtain ⟨rl, ls, hrl, hls, rfl⟩ := hblock.lines
  obtain ⟨hnames, hout⟩ := rewrite_block hrl hls h
  have hhead : out = unlines 13 10 (rl :: (inserted_lines rewrites ++ kept rewrites ls)) ++ CRLF := by
    rw [hout]
    simp [Lib.unlines_append, CRLF]
  have hlines : ∀ l ∈ inserted_lines rewrites ++ kept rewrites ls, FieldLine l ∧ ∃ name, line_name l = .ok name := by
    intro l hl
    rcases List.mem_append.1 hl with hl | hl
    · obtain ⟨hf, name, hname, -⟩ := hrw.inserted l hl
      exact ⟨hf, name, hname⟩
    · exact ⟨hls l (List.mem_of_mem_filter hl), hnames l (List.mem_of_mem_filter hl)⟩
  have hfields : ∀ l ∈ inserted_lines rewrites ++ kept rewrites ls, FieldLine l := fun l hl => (hlines l hl).1
  have hreserved : reserved_fields (unlines 13 10 (rl :: (inserted_lines rewrites ++ kept rewrites ls)) ++ CRLF) =
      reserved_fields (unlines 13 10 (rl :: ls) ++ CRLF) := by
    rw [reserved_fields, reserved_fields, header_fields, header_fields, field_lines_block hrl hfields,
      field_lines_block hrl hls, fields_of_named hnames, fields_of_named fun l hl => (hlines l hl).2, List.filter_map,
      List.filter_map]
    refine congrArg _ (raw_fields_rewritten (P := is_reserved) (fun l hl => ?_)
      (fun name => is_reserved_of_owned hrw) hnames)
    obtain ⟨-, name, hname, hown⟩ := hrw.inserted l hl
    exact ⟨name, hname, is_reserved_of_owned hrw hown⟩
  rw [hhead]
  refine ⟨endsAtBlank_block hrl hfields, .of_lines hreserved, ?_, ?_, ?_⟩
  · rw [request_line_block hrl, request_line_block hrl]
  · rw [field_lines_block hrl hfields, field_lines_block hrl hls]
  · -- symphony's lines are dropped and inserted again, and the others are kept again
    have hagain : kept rewrites (inserted_lines rewrites ++ kept rewrites ls) = kept rewrites ls := by
      have happ : kept rewrites (inserted_lines rewrites ++ kept rewrites ls) =
          kept rewrites (inserted_lines rewrites) ++ kept rewrites (kept rewrites ls) := List.filter_append ..
      rw [happ, hrw.kept_inserted, kept_kept, List.nil_append]
    rw [rewrite_request_head_lines rewrites hrl hlines, hagain]
    simp [Lib.unlines_append, CRLF]

/-- A request with a header of its own in place of symphony's. -/
def spoofedHead : Bytes := unlines 13 10 [bytes "HEAD / HTTP/1.1", bytes "x-ja3: 2", bytes "Content-Length: 5"] ++ CRLF

/-- The same request as it is sent upstream. -/
def ownedHead : Bytes := unlines 13 10 [bytes "HEAD / HTTP/1.1", bytes "X-JA3: 1", bytes "Content-Length: 5"] ++ CRLF

theorem wellNamed_ownsJa3 : WellNamed ownsJa3 := by
  refine ⟨by decide +kernel, ?_, ?_, ?_, ?_, ?_⟩ <;> rintro r hr <;> obtain rfl := List.mem_singleton.1 hr
  · decide +kernel
  · decide +kernel
  · decide +kernel
  · decide +kernel
  · rintro value ⟨⟩
    decide +kernel

theorem rewrite_keeps_spoofed :
    rewrite_request_head spoofedHead ownsJa3 = .ok ownedHead ∧ SameRequest spoofedHead ownedHead ∧
      rewrite_request_head ownedHead ownsJa3 = .ok ownedHead := by
  have h : rewrite_request_head spoofedHead ownsJa3 = .ok ownedHead := by decide +kernel
  have hkept := rewrite_keeps_request wellNamed_ownsJa3 ⟨44, by decide +kernel, by decide +kernel⟩ h
  exact ⟨h, hkept.2.1, hkept.2.2.2.2⟩

/-- With an empty name the rewriter writes a line that it refuses itself. -/
theorem empty_name_refused_again :
    rewrite_request_head (bytes "GET / HTTP/1.1\r\n\r\n") [⟨[], some (bytes "v")⟩] =
      .ok (bytes "GET / HTTP/1.1\r\n: v\r\n\r\n") ∧
    rewrite_request_head (bytes "GET / HTTP/1.1\r\n: v\r\n\r\n") [⟨[], some (bytes "v")⟩] =
      .error (bad "malformed header name") := by
  decide +kernel

end Symphony.Http
