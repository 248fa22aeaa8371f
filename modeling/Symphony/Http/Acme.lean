import Symphony.Http.Rewrite
/-!
# The head an ACME challenge is forwarded with

The HTTP listener sends the head of an ACME request upstream after two passes over its
text: one drops the lines that announce a body, one leaves `Connection: close` as the only
connection line. Both give up on a block that is not UTF-8 and return it as it came.
-/

namespace Symphony.Http

open Lib (unlines)

/-! ## The two passes -/

/-- `text.split("\r\n")`. -/
def split_crlf : Bytes → List Bytes
  | [] => [[]]
  | 13 :: 10 :: t => [] :: split_crlf t
  | b :: t =>
    match split_crlf t with
    | [] => [[b]]
    | p :: ps => (b :: p) :: ps

/-- `line[..colon].trim()`. -/
def trimmed_name (line : Bytes) : Option Bytes := (colon line).map fun c => trim (line.take c)

/-- The lines `strip_body_framing` drops. -/
def announces_body (line : Bytes) : Bool :=
  match trimmed_name line with
  | some name =>
    let name := name.map to_ascii_lowercase
    name == bytes "content-length" || name == bytes "transfer-encoding"
  | none => false

def strip_line (out : Bytes) : Bytes × Nat → Bytes
  | (line, i) =>
    if line = [] then out
    else if i = 0 then out ++ line ++ CRLF
    else if announces_body line then out
    else out ++ line ++ CRLF

def strip_body_framing (headers : Bytes) : Bytes :=
  match from_utf8 headers with
  | none => headers
  | some text => (split_crlf text).zipIdx.foldl strip_line [] ++ CRLF

/-- The lines `rewrite_connection_header` replaces. -/
def is_connection (line : Bytes) : Bool :=
  match trimmed_name line with
  | some name => eq_ignore_ascii_case name (bytes "connection")
  | none => false

/-- One line of the loop, on `(out, replaced)`. -/
def rewrite_connection_line (replacement : Bytes) : Bytes × Bool → Bytes × Nat → Bytes × Bool
  | (out, replaced), (line, i) =>
    if line = [] then (out, replaced)
    else if i = 0 then (out ++ line ++ CRLF, replaced)
    else if is_connection line then (out ++ replacement, true)
    else (out ++ line ++ CRLF, replaced)

def rewrite_connection_header (headers replacement : Bytes) : Bytes :=
  match from_utf8 headers with
  | none => headers
  | some text =>
    let (out, replaced) := (split_crlf text).zipIdx.foldl (rewrite_connection_line replacement) ([], false)
    (if replaced then out else out ++ replacement) ++ CRLF

def with_connection_close (headers : Bytes) : Bytes :=
  rewrite_connection_header headers (bytes "Connection: close\r\n")

/-- `forwarded` of `proxy_acme`: what is sent upstream for this block. -/
def acme_forwarded (headers : Bytes) : Bytes := with_connection_close (strip_body_framing headers)

/-! ## Sanitised heads -/

/-- The fields on the lines after the first. -/
def sent_fields (head : Bytes) : List (Bytes × Bytes) := (split_crlf head).tail.filterMap field

/-- No body is announced, and the connection is closed after the response. -/
structure Sanitised (head : Bytes) : Prop where
  no_length : ∀ f ∈ sent_fields head, eq_ignore_ascii_case f.1 (bytes "content-length") = false
  no_encoding : ∀ f ∈ sent_fields head, eq_ignore_ascii_case f.1 (bytes "transfer-encoding") = false
  closes : ∃ f ∈ sent_fields head, eq_ignore_ascii_case f.1 (bytes "connection") = true
  only_close : ∀ f ∈ sent_fields head, eq_ignore_ascii_case f.1 (bytes "connection") = true → f.2 = bytes "close"

/-- Blocks the passes can make sense of: UTF-8, with a line left to put first. Any other
block must be sanitised as it comes. -/
def Sanitisable (block : Bytes) : Prop :=
  if utf8_ok block then
    request_line block ≠ [] ∨ ∃ l ∈ field_lines (after_request_line block), announces_body l = false
  else Sanitised block

/-! ## The passes on lines -/

variable {ls : List Bytes} {f : Bytes × Bytes} {k line : Bytes}

theorem split_crlf_line {l : Bytes} (hl : Plain l) (r : Bytes) :
    split_crlf (l ++ 13 :: 10 :: r) = l :: split_crlf r := by
  induction l with
  | nil => rfl
  | cons b t ih =>
    have hno : ¬ CRLF <+: b :: t := fun hp => (Lib.position_eq_none (by simp [CRLF])).1 hl 0 (by simpa using hp)
    have ht : Plain t := by
      rw [Plain, Lib.position_cons hno, Option.map_eq_none_iff] at hl
      exact hl
    have hnot : ∀ t', b = 13 → t ++ 13 :: 10 :: r = 10 :: t' → False := by
      intro t' hb hcr
      cases t with
      | nil => cases hcr
      | cons c t =>
        rw [List.cons_append, List.cons.injEq] at hcr
        exact hno (by simp [CRLF, List.cons_prefix_cons, hb, hcr.1])
    rw [List.cons_append, split_crlf.eq_3 _ _ hnot, ih ht]

theorem split_crlf_unlines (h : ∀ l ∈ ls, Plain l) (r : Bytes) :
    split_crlf (unlines 13 10 ls ++ r) = ls ++ split_crlf r := by
  induction ls with
  | nil => rfl
  | cons l ls ih =>
    have hs : unlines 13 10 (l :: ls) ++ r = l ++ 13 :: 10 :: (unlines 13 10 ls ++ r) := by simp
    rw [hs, split_crlf_line (h l (by simp)), ih fun x hx => h x (by simp [hx])]
    rfl

/-- A text is valid UTF-8 when each of its lines is. -/
theorem utf8_ok_unlines (ls : List Bytes) : utf8_ok (unlines 13 10 ls ++ CRLF) = ls.all utf8_ok := by
  induction ls with
  | nil => decide
  | cons l ls ih =>
    have hs : unlines 13 10 (l :: ls) ++ CRLF = l ++ 13 :: ([] ++ 10 :: (unlines 13 10 ls ++ CRLF)) := by simp
    rw [hs, utf8_ok_around (by decide), utf8_ok_around (by decide), ih, List.all_cons]
    simp [utf8_ok]

theorem strip_lines (h : ∀ l ∈ ls, l ≠ []) (out : Bytes) (n : Nat) :
    (ls.zipIdx (n + 1)).foldl strip_line out = out ++ unlines 13 10 (ls.filter fun l => !announces_body l) := by
  induction ls generalizing out n with
  | nil => simp
  | cons l ls ih =>
    rw [List.zipIdx_cons, List.foldl_cons, strip_line, if_neg (h l (by simp)), if_neg (Nat.succ_ne_zero n),
      ih fun x hx => h x (by simp [hx])]
    cases hl : announces_body l <;> simp [hl, CRLF]

/-- The lines the first pass leaves: an empty request line is not among them. -/
def stripped (rl : Bytes) (ls : List Bytes) : List Bytes :=
  (if rl = [] then [] else [rl]) ++ ls.filter fun l => !announces_body l

theorem strip_body_framing_lines {rl : Bytes} (hrl : Plain rl) (hls : ∀ l ∈ ls, FieldLine l)
    (hu : utf8_ok (unlines 13 10 (rl :: ls) ++ CRLF) = true) :
    strip_body_framing (unlines 13 10 (rl :: ls) ++ CRLF) = unlines 13 10 (stripped rl ls) ++ CRLF := by
  have hsplit : split_crlf (unlines 13 10 (rl :: ls) ++ CRLF) = rl :: (ls ++ [[], []]) := by
    rw [split_crlf_unlines (List.forall_mem_cons.2 ⟨hrl, fun l hl => (hls l hl).2⟩)]
    rfl
  rw [strip_body_framing, from_utf8, if_pos hu]
  simp only
  rw [hsplit, List.zipIdx_cons, List.foldl_cons, List.zipIdx_append, List.foldl_append,
    strip_lines (fun l hl => (hls l hl).1)]
  simp only [List.zipIdx_cons, List.zipIdx_nil, List.foldl_cons, List.foldl_nil, strip_line, stripped]
  by_cases hr : rl = [] <;> simp [hr, CRLF]

/-- The line the second pass writes. -/
def close_line : Bytes := bytes "Connection: close"

/-- The lines the second pass makes of the header lines. -/
def closed (ls : List Bytes) : List Bytes :=
  ls.map (fun l => if is_connection l then close_line else l) ++ if ls.any is_connection then [] else [close_line]

theorem rewrite_connection_lines (h : ∀ l ∈ ls, l ≠ []) (out : Bytes) (replaced : Bool) (n : Nat) :
    (ls.zipIdx (n + 1)).foldl (rewrite_connection_line (close_line ++ CRLF)) (out, replaced) =
      (out ++ unlines 13 10 (ls.map fun l => if is_connection l then close_line else l),
        replaced || ls.any is_connection) := by
  induction ls generalizing out replaced n with
  | nil => simp
  | cons l ls ih =>
    have htail : ∀ x ∈ ls, x ≠ [] := fun x hx => h x (by simp [hx])
    rw [List.zipIdx_cons, List.foldl_cons, rewrite_connection_line, if_neg (h l (by simp)),
      if_neg (Nat.succ_ne_zero n)]
    cases hl : is_connection l with
    | true =>
      rw [if_pos rfl, ih htail]
      simp [hl, CRLF]
    | false =>
      rw [if_neg Bool.false_ne_true, ih htail]
      simp [hl, CRLF]

theorem with_connection_close_lines (hk : FieldLine k) (hls : ∀ l ∈ ls, FieldLine l)
    (hu : utf8_ok (unlines 13 10 (k :: ls) ++ CRLF) = true) :
    with_connection_close (unlines 13 10 (k :: ls) ++ CRLF) = unlines 13 10 (k :: closed ls) ++ CRLF := by
  have hclose : bytes "Connection: close\r\n" = close_line ++ CRLF := by decide
  have hsplit : split_crlf (unlines 13 10 (k :: ls) ++ CRLF) = k :: (ls ++ [[], []]) := by
    rw [split_crlf_unlines (List.forall_mem_cons.2 ⟨hk.2, fun l hl => (hls l hl).2⟩)]
    rfl
  rw [with_connection_close, rewrite_connection_header, from_utf8, if_pos hu, hclose]
  simp only
  rw [hsplit, List.zipIdx_cons, List.foldl_cons, List.zipIdx_append, List.foldl_append, rewrite_connection_line,
    if_neg hk.1, if_pos rfl, rewrite_connection_lines (fun l hl => (hls l hl).1)]
  simp only [List.zipIdx_cons, List.zipIdx_nil, List.foldl_cons, List.foldl_nil, rewrite_connection_line, if_true]
  cases hc : ls.any is_connection <;> simp [hc, closed, CRLF, Lib.unlines_append]

theorem strip_body_framing_invalid {headers : Bytes} (h : utf8_ok headers = false) :
    strip_body_framing headers = headers := by
  rw [strip_body_framing, from_utf8, h]
  rfl

theorem with_connection_close_invalid {headers : Bytes} (h : utf8_ok headers = false) :
    with_connection_close headers = headers := by
  rw [with_connection_close, rewrite_connection_header, from_utf8, h]
  rfl

/-! ## What is left -/

/-- Where a field bears a name of visible characters, the passes read that name too. -/
theorem trimmed_name_of_field {name : Bytes} (hf : field line = some f)
    (hname : (name.map to_ascii_lowercase).all is_visible = true) (h : eq_ignore_ascii_case f.1 name = true) :
    trimmed_name line = some f.1 := by
  have hlower : ∀ b, is_visible (to_ascii_lowercase b) = true → is_visible b = true := forall_byte (by decide +kernel)
  obtain ⟨c, hc, rfl⟩ := Option.map_eq_some_iff.1 hf
  rw [trimmed_name, hc, Option.map_some, Option.some.injEq]
  refine trim_of_visible (fun _ hb => hb) fun b hb => hlower b (List.all_eq_true.1 hname _ ?_)
  rw [← eq_ignore_ascii_case_iff.1 h]
  exact List.mem_map_of_mem hb

theorem announces_body_of_field (hf : field line = some f)
    (h : eq_ignore_ascii_case f.1 (bytes "content-length") = true ∨
      eq_ignore_ascii_case f.1 (bytes "transfer-encoding") = true) : announces_body line = true := by
  have hlength : (bytes "content-length").map to_ascii_lowercase = bytes "content-length" := by decide
  have hencoding : (bytes "transfer-encoding").map to_ascii_lowercase = bytes "transfer-encoding" := by decide
  unfold announces_body
  rcases h with h | h
  · rw [trimmed_name_of_field hf (by decide) h]
    simp [eq_ignore_ascii_case_iff.1 h, hlength]
  · rw [trimmed_name_of_field hf (by decide) h]
    simp [eq_ignore_ascii_case_iff.1 h, hencoding]

theorem is_connection_of_field (hf : field line = some f) (h : eq_ignore_ascii_case f.1 (bytes "connection") = true) :
    is_connection line = true := by
  unfold is_connection
  rw [trimmed_name_of_field hf (by decide) h]
  exact h

theorem sent_fields_lines (hk : Plain k) (hls : ∀ l ∈ ls, Plain l) :
    sent_fields (unlines 13 10 (k :: ls) ++ CRLF) = ls.filterMap field := by
  rw [sent_fields, split_crlf_unlines (List.forall_mem_cons.2 ⟨hk, hls⟩)]
  have hblank : [[], []].filterMap field = [] := rfl
  rw [List.cons_append, List.tail_cons, List.filterMap_append]
  exact (congrArg _ hblank).trans (List.append_nil _)

theorem field_close_line : field close_line = some (bytes "Connection", bytes "close") := by decide

theorem plain_closed (hls : ∀ l ∈ ls, FieldLine l) : ∀ l ∈ closed ls, Plain l := by
  have hclose : Plain close_line := by decide
  intro l hl
  rcases List.mem_append.1 hl with hl | hl
  · obtain ⟨m, hm, rfl⟩ := List.mem_map.1 hl
    split
    · exact hclose
    · exact (hls m hm).2
  · split at hl
    · cases hl
    · rwa [List.mem_singleton.1 hl]

/-- The fields after the second pass: the new connection fields, and fields that were not
connection fields. -/
theorem field_closed (hf : f ∈ (closed ls).filterMap field) :
    f = (bytes "Connection", bytes "close") ∨ ∃ l ∈ ls, is_connection l = false ∧ field l = some f := by
  obtain ⟨l, hl, hlf⟩ := List.mem_filterMap.1 hf
  have hclose : l = close_line → f = (bytes "Connection", bytes "close") := by
    rintro rfl
    exact Option.some.inj (hlf.symm.trans field_close_line)
  rcases List.mem_append.1 hl with hl | hl
  · obtain ⟨m, hm, rfl⟩ := List.mem_map.1 hl
    cases hc : is_connection m with
    | true => exact .inl (hclose (by simp [hc]))
    | false =>
      rw [hc, if_neg Bool.false_ne_true] at hlf
      exact .inr ⟨m, hm, hc, hlf⟩
  · split at hl
    · cases hl
    · exact .inl (hclose (List.mem_singleton.1 hl))

theorem close_line_mem_closed (ls : List Bytes) : close_line ∈ closed ls := by
  cases hc : ls.any is_connection with
  | false => simp [closed, hc]
  | true =>
    obtain ⟨l, hl, hlc⟩ := List.any_eq_true.1 hc
    exact List.mem_append_left _ (List.mem_map.2 ⟨l, hl, by simp [hlc]⟩)

/-- Both passes done: no line announces a body, and every connection line is the new one. -/
theorem sanitised_closed (hk : Plain k) (hls : ∀ l ∈ ls, FieldLine l) (hno : ∀ l ∈ ls, announces_body l = false) :
    Sanitised (unlines 13 10 (k :: closed ls) ++ CRLF) := by
  have hfields := sent_fields_lines hk (plain_closed hls)
  have hbody : ∀ name, (name = bytes "content-length" ∨ name = bytes "transfer-encoding") →
      ∀ f ∈ (closed ls).filterMap field, eq_ignore_ascii_case f.1 name = false := by
    intro name hname f hf
    rcases field_closed hf with rfl | ⟨l, hl, -, hlf⟩
    · rcases hname with rfl | rfl <;> decide
    · refine Bool.eq_false_iff.2 fun he => Bool.false_ne_true ((hno l hl).symm.trans (announces_body_of_field hlf ?_))
      rcases hname with rfl | rfl
      · exact .inl he
      · exact .inr he
  constructor
  · rw [hfields]
    exact hbody _ (.inl rfl)
  · rw [hfields]
    exact hbody _ (.inr rfl)
  · rw [hfields]
    exact ⟨_, List.mem_filterMap.2 ⟨close_line, close_line_mem_closed ls, field_close_line⟩, by decide⟩
  · rw [hfields]
    intro f hf hc
    rcases field_closed hf with rfl | ⟨l, -, hlc, hlf⟩
    · rfl
    · exact absurd ((is_connection_of_field hlf hc).symm.trans hlc) (by decide)

/-- With no line left, the new line is taken for the request line. -/
theorem not_sanitised_blank : ¬ Sanitised (with_connection_close CRLF) := by
  have hfields : sent_fields (with_connection_close CRLF) = [] := by decide
  intro h
  obtain ⟨f, hf, -⟩ := h.closes
  rw [hfields] at hf
  cases hf

theorem sanitised_stripped {rl : Bytes} (hrl : Plain rl) (hls : ∀ l ∈ ls, FieldLine l)
    (hu : utf8_ok (unlines 13 10 (rl :: ls) ++ CRLF) = true) :
    Sanitised (with_connection_close (unlines 13 10 (stripped rl ls) ++ CRLF)) ↔ stripped rl ls ≠ [] := by
  have hline : ∀ l ∈ stripped rl ls, FieldLine l ∧ utf8_ok l = true := by
    rw [utf8_ok_unlines, List.all_cons, Bool.and_eq_true, List.all_eq_true] at hu
    intro l hl
    rcases List.mem_append.1 hl with hl | hl
    · split_ifs at hl with hr
      · cases hl
      · rw [List.mem_singleton.1 hl]
        exact ⟨⟨hr, hrl⟩, hu.1⟩
    · have hl := List.mem_of_mem_filter hl
      exact ⟨hls l hl, hu.2 l hl⟩
  have hno : ∀ l ∈ (stripped rl ls).tail, announces_body l = false := by
    intro l hl
    have hmem : l ∈ ls.filter fun l => !announces_body l := by
      unfold stripped at hl
      split_ifs at hl
      · exact List.mem_of_mem_tail hl
      · exact hl
    simpa using (List.mem_filter.1 hmem).2
  cases hs : stripped rl ls with
  | nil => exact iff_of_false not_sanitised_blank (not_not_intro rfl)
  | cons k ms =>
    rw [hs] at hline hno
    have hms : ∀ l ∈ ms, FieldLine l := fun l hl => (hline l (by simp [hl])).1
    have hk := (hline k (by simp)).1
    refine iff_of_true ?_ (by simp)
    rw [with_connection_close_lines hk hms]
    · exact sanitised_closed hk.2 hms hno
    · rw [utf8_ok_unlines, List.all_eq_true]
      exact fun l hl => (hline l hl).2

/-- **Which ACME requests are sanitised.** What the listener sends upstream for a header
block announces no body and closes the connection if and only if the block is valid UTF-8
and has a line left besides the announcements of a body, or is not and was sanitised when
it came. -/
theorem acme_sanitised_iff {block : Bytes} (h : EndsAtBlank block) :
    Sanitised (acme_forwarded block) ↔ Sanitisable block := by
  obtain ⟨rl, ls, hrl, hls, rfl⟩ := h.lines
  unfold acme_forwarded Sanitisable
  cases hu : utf8_ok (unlines 13 10 (rl :: ls) ++ CRLF) with
  | true =>
    rw [if_pos rfl, strip_body_framing_lines hrl hls hu, sanitised_stripped hrl hls hu, request_line_block hrl,
      field_lines_block hrl hls]
    unfold stripped
    by_cases hr : rl = []
    · simp [hr]
    · simp [hr]
  | false =>
    rw [if_neg Bool.false_ne_true, strip_body_framing_invalid hu, with_connection_close_invalid hu]

/-- A challenge request that announces a body and asks to be kept alive. -/
def challengeHead (note : Bytes) : Bytes :=
  unlines 13 10 [bytes "GET " ++ bytes "/.well-known/acme-challenge/t" ++ bytes " HTTP/1.1", bytes "Host: a.test",
    bytes "X-Note: " ++ note, bytes "Content-Length: 9", bytes "Connection: keep-alive"] ++ CRLF

theorem acme_sanitised_plain : utf8_ok (challengeHead (bytes "n")) = true ∧
    Sanitised (acme_forwarded (challengeHead (bytes "n"))) := by
  have hu : utf8_ok (challengeHead (bytes "n")) = true := by decide +kernel
  have hline : request_line (challengeHead (bytes "n")) ≠ [] := by decide +kernel
  refine ⟨hu, (acme_sanitised_iff ⟨110, by decide +kernel, by decide +kernel⟩).2 ?_⟩
  rw [Sanitisable, if_pos hu]
  exact .inl hline

/-- One byte that is not UTF-8, and the request is forwarded as the client has sent it. -/
theorem acme_unsanitised : EndsAtBlank (challengeHead [0xff]) ∧
    acme_forwarded (challengeHead [0xff]) = challengeHead [0xff] ∧
      ¬ Sanitised (acme_forwarded (challengeHead [0xff])) := by
  have hsame : acme_forwarded (challengeHead [0xff]) = challengeHead [0xff] := by decide +kernel
  have hlength : (bytes "Content-Length", bytes "9") ∈ sent_fields (challengeHead [0xff]) := by decide +kernel
  refine ⟨⟨110, by decide +kernel, by decide +kernel⟩, hsame, fun h => ?_⟩
  rw [hsame] at h
  exact absurd (h.no_length _ hlength) (by decide +kernel)

end Symphony.Http
