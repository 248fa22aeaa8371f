import Symphony.Http.Pump
/-!
# Reading requests as RFC 9112 does

A recipient of the upstream stream, in its own terms: the body length of a request
from its Transfer-Encoding and Content-Length fields, the chunked coding, and the
requests one after the other. Framing that is not valid stops it. Where the
framing is valid, it is what the proxy reads: `rfc_body_agrees` for a head and
`rfc_chunk_size_agrees` for a chunk.
-/

namespace Symphony.Http

open Lib (position unlines)

/-! ## The recipient -/

/-- Optional white space: a space or a tab. -/
def is_ows (b : UInt8) : Bool := b == 32 || b == 9

def trim_ows (v : Bytes) : Bytes := Lib.strip is_ows v

/-- The number a string of digits states; at least one digit. -/
def digits (radix : Nat) (v : Bytes) : Option Nat :=
  if v = [] then none else v.foldlM (fun acc b => (to_digit radix b).map (acc * radix + ·)) 0

/-- Name and value of a field line, as they stand. -/
def raw_field (line : Bytes) : Option (Bytes × Bytes) :=
  (colon line).map fun c => (line.take c, line.drop (c + 1))

/-- The values of the fields of that name, in order. -/
def values (name : Bytes) (fields : List (Bytes × Bytes)) : List Bytes :=
  (fields.filter fun f => eq_ignore_ascii_case f.1 name).map (·.2)

/-- The last transfer coding is `chunked`. -/
def ends_chunked (value : Bytes) : Bool :=
  eq_ignore_ascii_case (trim_ows ((split_on 44 value).getLastD [])) (bytes "chunked")

/-- The body the fields announce; none when they are not valid. A final `chunked`
comes before any Content-Length, and several Content-Lengths have to agree. -/
def rfc_fields_body (fields : List (Bytes × Bytes)) : Option RequestBody :=
  match (values (bytes "transfer-encoding") fields).getLast? with
  | some v => if ends_chunked v then some .Chunked else none
  | none =>
    match values (bytes "content-length") fields with
    | [] => some .None
    | v :: vs =>
      match digits 10 (trim_ows v) with
      | none => none
      | some n => if vs.all fun v => digits 10 (trim_ows v) == some n then some (.Length n) else none

def rfc_body (head : Bytes) : Option RequestBody :=
  rfc_fields_body ((field_lines (after_request_line head)).filterMap raw_field)

/-- What a recipient makes of the bytes after a head: the body and what follows it,
a body that is not all there, or framing that is not valid. -/
inductive Taken where
  | whole (body rest : Bytes)
  | short
  | invalid
  deriving DecidableEq, Repr

def Taken.after (data : Bytes) : Taken → Taken
  | .whole body rest => .whole (data ++ body) rest
  | .short => .short
  | .invalid => .invalid

/-- The size of a chunk: hexadecimal digits, up to an extension. -/
def rfc_chunk_size (line : Bytes) : Option Nat := digits 16 (((split_on 59 line).headD []).rdropWhile is_ows)

def rfc_trailers (s : Bytes) : Taken :=
  match _h : next_line s with
  | none => .short
  | some (line, r) => if line = [] then .whole CRLF r else (rfc_trailers r).after (line ++ CRLF)
termination_by s.length
decreasing_by
  have := next_line_length _h
  omega

def rfc_chunked (s : Bytes) : Taken :=
  match _h : next_line s with
  | none => .short
  | some (line, r) =>
    match rfc_chunk_size line with
    | none => .invalid
    | some size =>
      if size = 0 then (rfc_trailers r).after (line ++ CRLF)
      else if r.length < size + 2 then .short
      else if (r.drop size).take 2 ≠ CRLF then .invalid
      else (rfc_chunked (r.drop (size + 2))).after (line ++ CRLF ++ r.take size ++ CRLF)
termination_by s.length
decreasing_by
  have := next_line_length _h
  rw [List.length_drop]
  omega

def take_body : RequestBody → Bytes → Taken
  | .None, s => .whole [] s
  | .Length n, s => if s.length < n then .short else .whole (s.take n) (s.drop n)
  | .Chunked, s => rfc_chunked s

variable {v : Bytes} {radix : Nat} {ls : List Bytes} {rewrites : List HeaderRewrite} {b : UInt8}
  {fs : List (Bytes × Bytes)}

theorem rfc_trailers_whole {s b r : Bytes} (h : rfc_trailers s = .whole b r) : s = b ++ r := by
  fun_induction rfc_trailers s generalizing b with
  | case1 => cases h
  | case2 s r' hn =>
    cases h
    exact (next_line_eq_some.1 hn).2
  | case3 s line r' hn hne ih =>
    cases ht : rfc_trailers r' with
    | whole b' r'' =>
      rw [ht] at h
      cases h
      rw [(next_line_eq_some.1 hn).2, List.append_assoc _ b', ← ih ht]
    | short => rw [ht] at h; cases h
    | invalid => rw [ht] at h; cases h

theorem rfc_chunked_whole {s b r : Bytes} (h : rfc_chunked s = .whole b r) : s = b ++ r := by
  fun_induction rfc_chunked s generalizing b with
  | case1 => cases h
  | case2 => cases h
  | case3 s line r' hn hs =>
    cases ht : rfc_trailers r' with
    | whole b' r'' =>
      rw [ht] at h
      cases h
      rw [(next_line_eq_some.1 hn).2, List.append_assoc _ b', ← rfc_trailers_whole ht]
    | short => rw [ht] at h; cases h
    | invalid => rw [ht] at h; cases h
  | case4 => cases h
  | case5 => cases h
  | case6 s line r' hn size hs h0 hlen hcr ih =>
    cases ht : rfc_chunked (r'.drop (size + 2)) with
    | whole b' r'' =>
      rw [ht] at h
      cases h
      have hdrop : r'.drop size = CRLF ++ r'.drop (size + 2) := by
        rw [← List.drop_drop, ← not_not.1 hcr, List.take_append_drop]
      conv_lhs => rw [(next_line_eq_some.1 hn).2, ← List.take_append_drop size r', hdrop, ih ht]
      simp
    | short => rw [ht] at h; cases h
    | invalid => rw [ht] at h; cases h

theorem take_body_whole {b : RequestBody} {s data r : Bytes} (h : take_body b s = .whole data r) : s = data ++ r := by
  cases b with
  | None =>
    cases h
    rfl
  | Length n =>
    simp only [take_body] at h
    split_ifs at h
    cases h
    exact (List.take_append_drop n s).symm
  | Chunked => exact rfc_chunked_whole h

/-- How the stream ends: after a request, inside one, or where it is not valid. -/
inductive End where
  | whole
  | cut_off
  | invalid
  deriving DecidableEq, Repr

/-- The requests of a stream, each a head and a body, and how the stream ends.
Heads marked `bodiless` have no body by definition. -/
def rfc_split (bodiless : Bytes → Bool) (s : Bytes) : List (Bytes × Bytes) × End :=
  match _h : position CRLFCRLF s with
  | none => ([], if s = [] then .whole else .cut_off)
  | some n =>
    match if bodiless (s.take (n + 4)) then some .None else rfc_body (s.take (n + 4)) with
    | none => ([], .invalid)
    | some body =>
      match _h' : take_body body (s.drop (n + 4)) with
      | .short => ([(s.take (n + 4), s.drop (n + 4))], .cut_off)
      | .invalid => ([], .invalid)
      | .whole data r => ((s.take (n + 4), data) :: (rfc_split bodiless r).1, (rfc_split bodiless r).2)
termination_by s.length
decreasing_by
  all_goals
    have h1 := Lib.position_le (by simp [CRLFCRLF]) _h
    simp only [CRLFCRLF, List.length_cons, List.length_nil] at h1
    have h2 := congrArg List.length (take_body_whole _h')
    rw [List.length_append, List.length_drop] at h2
    omega

/-! ## Numbers -/

theorem foldlM_of_parse_digits {top acc n : Nat} (h : parse_digits radix top acc v = some n) :
    v.foldlM (fun acc b => (to_digit radix b).map (acc * radix + ·)) acc = some n := by
  induction v generalizing acc with
  | nil => exact h
  | cons b t ih =>
    rw [parse_digits] at h
    rw [List.foldlM_cons]
    cases hd : to_digit radix b with
    | none => simp [hd] at h
    | some d =>
      simp only [hd] at h
      split_ifs at h
      exact ih h

theorem mem_of_digits {acc n : Nat}
    (h : v.foldlM (fun acc b => (to_digit radix b).map (acc * radix + ·)) acc = some n) :
    ∀ b ∈ v, (to_digit radix b).isSome := by
  induction v generalizing acc with
  | nil => simp
  | cons b t ih =>
    rw [List.foldlM_cons] at h
    cases hd : to_digit radix b with
    | none => simp [hd] at h
    | some d =>
      rw [hd] at h
      intro x hx
      rcases List.mem_cons.1 hx with rfl | hx
      · simp [hd]
      · exact ih h x hx

theorem digits_mem {n : Nat} (h : digits radix v = some n) :
    v ≠ [] ∧ ∀ b ∈ v, (to_digit radix b).isSome := by
  unfold digits at h
  split_ifs at h with hv
  exact ⟨hv, mem_of_digits h⟩

/-- A number the recipient reads is read alike by the standard library. -/
theorem digits_agree {top n m : Nat} (hd : digits radix v = some m) (h : from_str_radix radix top v = some n) :
    m = n := by
  obtain ⟨hne, hmem⟩ := digits_mem hd
  have hplus : ∀ t, v ≠ 43 :: t := by
    rintro t rfl
    have := hmem 43 (by simp)
    simp [to_digit, hex_digit, is_ascii_digit] at this
  have hparse : parse_digits radix top 0 v = some n := by
    unfold from_str_radix at h
    split at h
    · cases h
    · cases h
    · exact absurd rfl (hplus _)
    · exact h
  rw [digits, if_neg hne, foldlM_of_parse_digits hparse, Option.some.injEq] at hd
  exact hd.symm

theorem hex_digit_range (h : (hex_digit b).isSome) :
    (48 ≤ b ∧ b ≤ 57) ∨ (97 ≤ b ∧ b ≤ 102) ∨ (65 ≤ b ∧ b ≤ 70) := by
  unfold hex_digit is_ascii_digit at h
  simp only [Bool.and_eq_true, decide_eq_true_eq] at h
  split_ifs at h with h1 h2 h3
  · exact .inl h1
  · exact .inr (.inl h2)
  · exact .inr (.inr h3)
  · cases h

theorem to_digit_range (h : (to_digit radix b).isSome) :
    (48 ≤ b ∧ b ≤ 57) ∨ (97 ≤ b ∧ b ≤ 102) ∨ (65 ≤ b ∧ b ≤ 70) := by
  refine hex_digit_range ?_
  unfold to_digit at h
  cases hd : hex_digit b with
  | none => simp [hd] at h
  | some d => rfl

theorem digit_not_whitespace (h : (to_digit radix b).isSome) :
    is_ascii_whitespace b = false := by
  have := to_digit_range h
  unfold is_ascii_whitespace
  grind

/-! ## Values -/

theorem ows_whitespace (b : UInt8) (h : is_ows b = true) : is_ascii_whitespace b = true := by
  unfold is_ows at h
  unfold is_ascii_whitespace
  grind

/-- A value with no white space inside is trimmed alike. -/
theorem trim_ascii_of_ows (h : ∀ b ∈ trim_ows v, is_ascii_whitespace b = false) :
    trim_ascii v = trim_ows v :=
  calc trim_ascii v = Lib.strip is_ascii_whitespace (Lib.strip is_ows v) := (Lib.strip_strip ows_whitespace v).symm
    _ = trim_ows v := Lib.strip_of_free h

theorem content_length_agrees {n m : Nat} (hd : digits 10 (trim_ows v) = some m)
    (h : (from_utf8 (trim_ascii v)).bind parse_u64 = some n) : m = n := by
  rw [trim_ascii_of_ows fun b hb => digit_not_whitespace ((digits_mem hd).2 b hb)] at h
  unfold from_utf8 at h
  split_ifs at h
  · exact digits_agree hd h
  · cases h

/-! ## The body a head announces -/

@[simp] theorem values_nil (name : Bytes) : values name [] = [] := rfl

theorem values_cons (name : Bytes) (f : Bytes × Bytes) (fs : List (Bytes × Bytes)) :
    values name (f :: fs) = if eq_ignore_ascii_case f.1 name then f.2 :: values name fs else values name fs := by
  unfold values
  rw [List.filter_cons]
  split <;> simp

/-- What the field loop of `request_body` has found when it is through. -/
theorem scan_fields_ok {s₀ s : BodyScan} (h : fs.foldlM scan_field s₀ = .ok s) :
    s.transfer_encoding = (s₀.transfer_encoding || !(values (bytes "transfer-encoding") fs).isEmpty) ∧
    s.chunked = ((values (bytes "transfer-encoding") fs).getLast?.map final_chunked).getD s₀.chunked ∧
    (∀ v ∈ values (bytes "content-length") fs, (from_utf8 v).bind parse_u64 = s.length ∧ s.length.isSome) ∧
    (s₀.length.isSome ∨ values (bytes "content-length") fs = [] → s.length = s₀.length) := by
  induction fs generalizing s₀ with
  | nil =>
    cases h
    simp
  | cons f fs ih =>
    rw [List.foldlM_cons] at h
    have hboth : eq_ignore_ascii_case f.1 (bytes "transfer-encoding") = true →
        eq_ignore_ascii_case f.1 (bytes "content-length") = false := by
      intro ht
      have hne : (bytes "transfer-encoding").map to_ascii_lowercase ≠
          (bytes "content-length").map to_ascii_lowercase := by decide
      rw [← eq_ignore_ascii_case_iff.1 ht] at hne
      simpa [eq_ignore_ascii_case] using hne
    rw [values_cons, values_cons]
    cases hte : eq_ignore_ascii_case f.1 (bytes "transfer-encoding") with
    | true =>
      simp only [scan_field, hte, if_true] at h
      obtain ⟨h1, h2, h3, h4⟩ := ih h
      rw [hboth hte]
      refine ⟨by simp [h1], ?_, by simpa using h3, by simpa using h4⟩
      rw [h2, if_pos rfl, List.getLast?_cons]
      cases (values (bytes "transfer-encoding") fs).getLast? <;> rfl
    | false =>
      cases hcl : eq_ignore_ascii_case f.1 (bytes "content-length") with
      | false =>
        simp only [scan_field, hte, hcl, Bool.false_eq_true, if_false] at h ⊢
        exact ih h
      | true =>
        simp only [scan_field, hte, hcl, Bool.false_eq_true, if_false, if_true] at h ⊢
        cases hp : (from_utf8 f.2).bind parse_u64 with
        | none => simp only [hp] at h; cases h
        | some n =>
          simp only [hp] at h
          split at h
          · cases h
          · rename_i hany
            obtain ⟨h1, h2, h3, h4⟩ := ih h
            have hlen : s.length = some n := h4 (.inl rfl)
            refine ⟨h1, h2, ?_, ?_⟩
            · intro v hv
              rcases List.mem_cons.1 hv with rfl | hv
              · exact ⟨by rw [hp, hlen], by simp [hlen]⟩
              · exact h3 v hv
            · rintro (hs | hs)
              · obtain ⟨m, hm⟩ := Option.isSome_iff_exists.1 hs
                rw [hm] at hany ⊢
                have : m = n := by simpa using hany
                rw [hlen, this]
              · cases hs

theorem values_trimmed (name : Bytes) (fs : List (Bytes × Bytes)) :
    values name (fs.map fun f => (f.1, trim_ascii f.2)) = (values name fs).map trim_ascii := by
  unfold values
  rw [List.filter_map, List.map_map, List.map_map]
  rfl

/-- The body the proxy frames is the one the recipient reads, when it reads one. -/
theorem fields_body_agrees {s : BodyScan} {body : RequestBody}
    (hs : (fs.map fun f => (f.1, trim_ascii f.2)).foldlM scan_field {} = .ok s)
    (hbody : (if s.transfer_encoding then
        if s.length.isSome then .error (bad "both Transfer-Encoding and Content-Length present")
        else if !s.chunked then .error (bad "unsupported Transfer-Encoding")
        else .ok .Chunked
      else match s.length with
        | some 0 => .ok .None
        | none => .ok .None
        | some n => .ok (.Length n) : Except IoError RequestBody) = .ok body) :
    rfc_fields_body fs = none ∨ ∃ b, rfc_fields_body fs = some b ∧ take_body b = take_body body := by
  obtain ⟨h1, h2, h3, h4⟩ := scan_fields_ok hs
  simp only [values_trimmed] at h1 h2 h3 h4
  unfold rfc_fields_body
  cases hte : (values (bytes "transfer-encoding") fs).getLast? with
  | some v =>
    have hne : values (bytes "transfer-encoding") fs ≠ [] := by rintro h; simp [h] at hte
    have htrue : s.transfer_encoding = true := by simp [h1, hne]
    rw [htrue, if_pos rfl] at hbody
    dsimp only
    split_ifs at hbody ⊢ with hlen hch hend
    · cases hbody
      exact .inr ⟨_, rfl, rfl⟩
    · exact .inl rfl
  | none =>
    have hnil : values (bytes "transfer-encoding") fs = [] := List.getLast?_eq_none_iff.1 hte
    have hfalse : s.transfer_encoding = false := by simp [h1, hnil]
    rw [hfalse, if_neg Bool.false_ne_true] at hbody
    dsimp only
    cases hcl : values (bytes "content-length") fs with
    | nil =>
      have hlen : s.length = none := h4 (.inr (by simp [hcl]))
      rw [hlen] at hbody
      cases hbody
      exact .inr ⟨_, rfl, rfl⟩
    | cons v vs =>
      rw [hcl] at h3
      obtain ⟨hv, hsome⟩ := h3 (trim_ascii v) (by simp)
      obtain ⟨n, hn⟩ := Option.isSome_iff_exists.1 hsome
      dsimp only
      cases hd : digits 10 (trim_ows v) with
      | none => exact .inl rfl
      | some m =>
        rw [hn] at hv hbody
        obtain rfl := content_length_agrees hd hv
        dsimp only
        split_ifs with hall
        · refine .inr ⟨_, rfl, ?_⟩
          cases m with
          | zero =>
            cases hbody
            funext t
            simp [take_body]
          | succ m =>
            cases hbody
            rfl
        · exact .inl rfl

/-! ## Heads and blocks -/

/-- The names that say where a body ends. -/
def is_framing (name : Bytes) : Bool :=
  eq_ignore_ascii_case name (bytes "transfer-encoding") || eq_ignore_ascii_case name (bytes "content-length")

/-- Rewrites that leave the framing of requests alone: none is of a framing header,
and symphony's lines are well-formed field lines. -/
structure KeepsFraming (rewrites : List HeaderRewrite) : Prop where
  names : ∀ r ∈ rewrites, is_framing r.name = false
  lines : ∀ l ∈ inserted_lines rewrites, FieldLine l ∧ ∃ name, line_name l = .ok name ∧ is_framing name = false

theorem raw_field_named {l name : Bytes} (h : line_name l = .ok name) :
    ∃ v, raw_field l = some (name, v) ∧ field l = some (name, trim_ascii v) := by
  obtain ⟨hc, hw, v, rfl⟩ := line_name_ok h
  refine ⟨v, ?_, field_named hc hw v⟩
  have hd : (name ++ 58 :: v).drop (name.length + 1) = v := by
    rw [← List.drop_drop, List.drop_left]
    rfl
  rw [raw_field, colon_append hc, Option.map_some, List.take_left, hd]

theorem fields_of_named (h : ∀ l ∈ ls, ∃ name, line_name l = .ok name) :
    ls.filterMap field = (ls.filterMap raw_field).map fun f => (f.1, trim_ascii f.2) := by
  induction ls with
  | nil => rfl
  | cons l ls ih =>
    obtain ⟨name, hname⟩ := h l (by simp)
    obtain ⟨v, hraw, hfield⟩ := raw_field_named hname
    rw [List.filterMap_cons_some hraw, List.filterMap_cons_some hfield, List.map_cons,
      ih fun x hx => h x (by simp [hx])]

theorem is_framing_of_owned (hrw : ∀ r ∈ rewrites, is_framing r.name = false) {name : Bytes}
    (h : is_owned rewrites name = true) : is_framing name = false := by
  obtain ⟨r, hr, he⟩ := List.any_eq_true.1 h
  have hm := eq_ignore_ascii_case_iff.1 he
  have hn := hrw r hr
  unfold is_framing eq_ignore_ascii_case at hn ⊢
  rwa [hm] at hn

/-- Fields by a name that is neither one of symphony's lines nor owned are those of the client. -/
theorem raw_fields_rewritten {P : Bytes → Bool}
    (hins : ∀ l ∈ inserted_lines rewrites, ∃ name, line_name l = .ok name ∧ P name = false)
    (hown : ∀ name, is_owned rewrites name = true → P name = false) (hls : ∀ l ∈ ls, ∃ name, line_name l = .ok name) :
    ((inserted_lines rewrites ++ kept rewrites ls).filterMap raw_field).filter (fun f => P f.1) =
      (ls.filterMap raw_field).filter fun f => P f.1 := by
  have hnone : ∀ ms : List Bytes, (∀ l ∈ ms, ∃ name, line_name l = .ok name ∧ P name = false) →
      (ms.filterMap raw_field).filter (fun f => P f.1) = [] := by
    intro ms hms
    induction ms with
    | nil => rfl
    | cons l ms ih =>
      obtain ⟨name, hname, hP⟩ := hms l (by simp)
      obtain ⟨v, hraw, -⟩ := raw_field_named hname
      rw [List.filterMap_cons_some hraw, List.filter_cons_of_neg (by simp [hP])]
      exact ih fun x hx => hms x (by simp [hx])
  have hkept : ((kept rewrites ls).filterMap raw_field).filter (fun f => P f.1) =
      (ls.filterMap raw_field).filter fun f => P f.1 := by
    induction ls with
    | nil => rfl
    | cons l ls ih =>
      obtain ⟨name, hname⟩ := hls l (by simp)
      obtain ⟨v, hraw, -⟩ := raw_field_named hname
      have ih := ih fun x hx => hls x (by simp [hx])
      by_cases hdrop : is_owned rewrites name = true
      · have hk : kept rewrites (l :: ls) = kept rewrites ls := by simp [kept, is_dropped, hname, hdrop]
        rw [hk, ih, List.filterMap_cons_some hraw, List.filter_cons_of_neg (by simp [hown name hdrop])]
      · have hk : kept rewrites (l :: ls) = l :: kept rewrites ls := by simp [kept, is_dropped, hname, hdrop]
        rw [hk, List.filterMap_cons_some hraw, List.filterMap_cons_some hraw, List.filter_cons, List.filter_cons, ih]
  rw [List.filterMap_append, List.filter_append, hnone _ hins, hkept, List.nil_append]

/-- Symphony's lines and the lines it drops announce no body. -/
theorem values_rewritten (hrw : KeepsFraming rewrites) (hls : ∀ l ∈ ls, ∃ name, line_name l = .ok name) {c : Bytes}
    (hc : ∀ name, is_framing name = false → eq_ignore_ascii_case name c = false) :
    values c ((inserted_lines rewrites ++ kept rewrites ls).filterMap raw_field) =
      values c (ls.filterMap raw_field) := by
  unfold values
  rw [raw_fields_rewritten (P := fun name => eq_ignore_ascii_case name c) ?_ ?_ hls]
  · intro l hl
    obtain ⟨name, hname, hf⟩ := (hrw.lines l hl).2
    exact ⟨name, hname, hc name hf⟩
  · intro name hname
    exact hc name (is_framing_of_owned hrw.names hname)

theorem rfc_fields_body_congr {gs : List (Bytes × Bytes)}
    (h1 : values (bytes "transfer-encoding") fs = values (bytes "transfer-encoding") gs)
    (h2 : values (bytes "content-length") fs = values (bytes "content-length") gs) :
    rfc_fields_body fs = rfc_fields_body gs := by
  rw [rfc_fields_body, h1, h2, rfc_fields_body]

/-- The recipient of a rewritten head frames its body as the proxy does, or not at all. -/
theorem rfc_body_agrees (hrw : KeepsFraming rewrites) {rl : Bytes} (hrl : Plain rl) (hls : ∀ l ∈ ls, FieldLine l)
    (hnames : ∀ l ∈ ls, ∃ name, line_name l = .ok name) {body : RequestBody}
    (hbody : request_body (unlines 13 10 (rl :: ls) ++ CRLF) = .ok body) :
    rfc_body (unlines 13 10 (rl :: inserted_lines rewrites ++ kept rewrites ls ++ [[]])) = none ∨
      ∃ b, rfc_body (unlines 13 10 (rl :: inserted_lines rewrites ++ kept rewrites ls ++ [[]])) = some b ∧
        take_body b = take_body body := by
  have hhead : unlines 13 10 (rl :: inserted_lines rewrites ++ kept rewrites ls ++ [[]]) =
      unlines 13 10 (rl :: (inserted_lines rewrites ++ kept rewrites ls)) ++ CRLF := by
    simp [Lib.unlines_append, CRLF]
  have hlines : ∀ l ∈ inserted_lines rewrites ++ kept rewrites ls, FieldLine l := by
    intro l hl
    rcases List.mem_append.1 hl with hl | hl
    · exact (hrw.lines l hl).1
    · exact hls l (List.mem_of_mem_filter hl)
  have hrfc : rfc_body (unlines 13 10 (rl :: inserted_lines rewrites ++ kept rewrites ls ++ [[]])) =
      rfc_fields_body (ls.filterMap raw_field) := by
    rw [rfc_body, hhead, after_request_line_lines hrl, ← List.append_nil (unlines 13 10 _ ++ CRLF),
      field_lines_unlines hlines]
    refine rfc_fields_body_congr (values_rewritten hrw hnames fun name h => ?_)
      (values_rewritten hrw hnames fun name h => ?_)
    · exact (Bool.or_eq_false_iff.1 h).1
    · exact (Bool.or_eq_false_iff.1 h).2
  rw [hrfc]
  unfold request_body at hbody
  rw [header_fields, after_request_line_lines hrl, ← List.append_nil (unlines 13 10 _ ++ CRLF),
    field_lines_unlines hls, fields_of_named hnames] at hbody
  cases hs : ((ls.filterMap raw_field).map fun f => (f.1, trim_ascii f.2)).foldlM scan_field {} with
  | error e => rw [hs] at hbody; cases hbody
  | ok s =>
    rw [hs] at hbody
    exact fields_body_agrees hs hbody

/-- The method of a request is decided on its first line: a text that goes past it is no method. -/
theorem request_method_line (rl t : Bytes) {m : Bytes} (hm : m ≠ []) (hcr : ∀ b ∈ m, to_ascii_lowercase b ≠ 13) :
    eq_ignore_ascii_case (request_method (rl ++ 13 :: 10 :: t)) m =
      ((rl.findIdx? (· == 32)).map fun i => eq_ignore_ascii_case (rl.take i) m).getD false := by
  unfold request_method
  rw [List.findIdx?_append]
  cases hi : rl.findIdx? (· == 32) with
  | some i =>
    have hlt : i < rl.length := (List.findIdx?_eq_some_iff_getElem.1 hi).1
    rw [Option.some_or, Option.getD_some, List.take_append_of_le_length (by omega)]
    rfl
  | none =>
    rw [Option.none_or, List.findIdx?_cons, List.findIdx?_cons]
    cases hk : t.findIdx? (· == 32) with
    | none =>
      refine Bool.eq_false_iff.2 fun he => hm ?_
      exact List.map_eq_nil_iff.1 (eq_ignore_ascii_case_iff.1 he).symm
    | some k =>
      have h13 : 13 ∈ (rl ++ 13 :: 10 :: t).take (k + 1 + 1 + rl.length) := by
        rw [List.take_append, List.take_of_length_le (by omega), Nat.add_sub_cancel]
        simp
      refine Bool.eq_false_iff.2 fun he => ?_
      have hmem : (13 : UInt8) ∈ m.map to_ascii_lowercase := by
        rw [← eq_ignore_ascii_case_iff.1 he]
        exact List.mem_map.2 ⟨13, by simpa using h13, by decide⟩
      obtain ⟨b, hb, hb'⟩ := List.mem_map.1 hmem
      exact hcr b hb hb'

/-! ## Chunk sizes -/

/-- Not white space, and ASCII. -/
def is_visible (b : UInt8) : Bool := 33 ≤ b && b ≤ 126

theorem trimmed_of_whitespace : ∀ b, is_ascii_whitespace b = true → (b == 32 || (9 ≤ b && b ≤ 13)) = true :=
  forall_byte (by decide +kernel)

theorem kept_of_visible : ∀ b, is_visible b = true → (b == 32 || (9 ≤ b && b ≤ 13)) = false ∧
    ((0x80 ≤ b && b ≤ 0x8a) || b == 0xa8 || b == 0xa9 || b == 0xaf) = false :=
  forall_byte (by decide +kernel)

theorem is_visible_of_hex : ∀ b, (hex_digit b).isSome → is_visible b = true := forall_byte (by decide +kernel)

section Trimmed

variable {p : UInt8 → Bool} (hp : ∀ b, p b = true → is_ascii_whitespace b = true)

include hp in
/-- A function that drops white space from the front and stops at visible ASCII drops what
`p` does, up to there. -/
theorem trims_dropWhile {trims : Bytes → Bytes} (hnil : trims [] = [])
    (hspace : ∀ b t, is_ascii_whitespace b = true → trims (b :: t) = trims t)
    (hvisible : ∀ b t, is_visible b = true → trims (b :: t) = b :: t)
    (h : ∀ b ∈ (v.dropWhile p).head?, is_visible b = true) : trims v = v.dropWhile p := by
  induction v with
  | nil => exact hnil
  | cons b t ih =>
    by_cases hb : p b = true
    · rw [List.dropWhile_cons_of_pos hb] at h ⊢
      rw [hspace b t (hp b hb)]
      exact ih h
    · rw [List.dropWhile_cons_of_neg hb] at h ⊢
      exact hvisible b t (h b rfl)

include hp in
theorem trim_start_dropWhile (h : ∀ b ∈ (v.dropWhile p).head?, is_visible b = true) :
    trim_start v = v.dropWhile p := by
  refine trims_dropWhile hp rfl ?_ ?_ h
  · intro b t hb
    conv_lhs => unfold trim_start
    rw [trimmed_of_whitespace b hb, if_pos rfl]
  · intro b t hb
    unfold trim_start
    rw [(kept_of_visible b hb).1, if_neg Bool.false_ne_true]
    split <;> first | rfl | (exfalso; revert hb; decide)

include hp in
theorem trim_start_rev_dropWhile (h : ∀ b ∈ (v.dropWhile p).head?, is_visible b = true) :
    trim_start_rev v = v.dropWhile p := by
  refine trims_dropWhile hp rfl ?_ ?_ h
  · intro b t hb
    conv_lhs => unfold trim_start_rev
    rw [trimmed_of_whitespace b hb, if_pos rfl]
  · intro b t hb
    obtain ⟨hws, hgen⟩ := kept_of_visible b hb
    unfold trim_start_rev
    rw [hws, if_neg Bool.false_ne_true]
    split <;> first | rfl | (exfalso; revert hb; decide) | rw [hgen, if_neg Bool.false_ne_true]

include hp in
/-- Where visible ASCII is left, `str::trim` takes no more away than white space of ASCII. -/
theorem trim_of_visible (h : ∀ b ∈ Lib.strip p v, is_visible b = true) : trim v = Lib.strip p v := by
  have hstart : trim_start v = v.dropWhile p := by
    refine trim_start_dropWhile hp fun b hb => h b ?_
    obtain ⟨t, ht⟩ := List.head?_eq_some_iff.1 hb
    have hb' : p b = false := by
      have := List.head?_dropWhile_not p v
      rw [ht] at this
      simpa using this
    have hstop := Lib.rdropWhile_stop [] hb' t
    rw [Lib.strip, ht]
    rw [List.nil_append] at hstop
    simp [hstop]
  have hend : trim_start_rev (v.dropWhile p).reverse = (v.dropWhile p).reverse.dropWhile p := by
    refine trim_start_rev_dropWhile hp fun b hb => h b ?_
    rw [Lib.strip, List.rdropWhile, List.mem_reverse]
    exact List.mem_of_mem_head? hb
  rw [trim, hstart, hend, Lib.strip, List.rdropWhile]

include hp in
theorem trim_of_visible_end (h : ∀ b ∈ v.rdropWhile p, is_visible b = true) : trim v = v.rdropWhile p := by
  have hfree : ∀ b ∈ v.rdropWhile p, p b = false := by
    intro b hb
    refine Bool.eq_false_iff.2 fun hw => ?_
    have hclash := trimmed_of_whitespace b (hp b hw)
    rw [(kept_of_visible b (h b hb)).1] at hclash
    cases hclash
  have hstrip : Lib.strip p v = v.rdropWhile p :=
    calc Lib.strip p v = (v.rdropWhile p).dropWhile p := Lib.strip_comm v
      _ = Lib.strip p (v.rdropWhile p) := by rw [Lib.strip_rdropWhile (fun _ hb => hb), Lib.strip_comm]
      _ = v.rdropWhile p := Lib.strip_of_free hfree
  rw [trim_of_visible hp (by rwa [hstrip]), hstrip]

end Trimmed

/-- A chunk size the recipient reads is the one the proxy reads. -/
theorem rfc_chunk_size_agrees {line : Bytes} {size n : Nat} (h : chunk_size (line ++ CRLF) = .ok size)
    (hr : rfc_chunk_size line = some n) : n = size := by
  have hline : (line ++ CRLF).take ((line ++ CRLF).length - 2) = line := by simp [CRLF]
  obtain ⟨-, hmem⟩ := digits_mem hr
  have htrim : trim ((split_on 59 line).headD []) = ((split_on 59 line).headD []).rdropWhile is_ows := by
    refine trim_of_visible_end ows_whitespace fun b hb => is_visible_of_hex b ?_
    have := hmem b hb
    unfold to_digit at this
    cases hd : hex_digit b with
    | none => simp [hd] at this
    | some d => rfl
  unfold chunk_size from_utf8 at h
  rw [hline] at h
  dsimp only at h
  split_ifs at h
  dsimp only at h
  rw [htrim] at h
  split at h
  · cases h
  · rename_i hparse
    cases h
    exact digits_agree hr hparse

end Symphony.Http
