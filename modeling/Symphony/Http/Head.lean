import Symphony.Lib.Search
import Symphony.Lib.Strip
import Symphony.Rust.Basic
/-!
# HTTP/1 header blocks

The header functions of the HTTP proxy: fields, body framing, the request-head
rewriter and the tests made on a request line. A header block ends at its first
blank line, so it is a request line and field lines (`Block`), and each function
has a reading on those lines.
-/

namespace Symphony.Http

open Lib (position unlines)

/-! ## Errors -/

inductive ErrorKind where
  | InvalidData
  | UnexpectedEof
  | Other
  deriving DecidableEq, Repr

/-- `std::io::Error`: kind and message. -/
structure IoError where
  kind : ErrorKind
  msg : String
  deriving DecidableEq, Repr

def bad (msg : String) : IoError := ⟨.InvalidData, msg⟩

/-! ## Lines and fields -/

def CRLF : Bytes := [13, 10]
def CRLFCRLF : Bytes := [13, 10, 13, 10]

/-- The text before the first CRLF and what follows it. -/
def next_line (rest : Bytes) : Option (Bytes × Bytes) :=
  (position CRLF rest).map fun n => (rest.take n, rest.drop (n + 2))

theorem next_line_length {s l r : Bytes} (h : next_line s = some (l, r)) : l.length + 2 + r.length = s.length := by
  obtain ⟨n, hn, he⟩ := Option.map_eq_some_iff.1 h
  have := Lib.position_le (by simp [CRLF]) hn
  simp only [Prod.mk.injEq] at he
  simp only [CRLF, List.length_cons, List.length_nil] at this
  rw [← he.1, ← he.2, List.length_take, List.length_drop]
  omega

/-- The lines up to a blank one, or to the last CRLF. -/
def field_lines (rest : Bytes) : List Bytes :=
  match _h : next_line rest with
  | none => []
  | some (line, rest') => if line = [] then [] else line :: field_lines rest'
termination_by rest.length
decreasing_by
  have := next_line_length _h
  omega

/-- What follows the request line. -/
def after_request_line (block : Bytes) : Bytes :=
  match position CRLF block with
  | some p => block.drop (p + 2)
  | none => []

/-- Index of the first `:`. -/
def colon (line : Bytes) : Option Nat := line.findIdx? (· == 58)

def trim_ascii (bytes : Bytes) : Bytes := Lib.strip is_ascii_whitespace bytes

/-- Name and value of one line; a line without a colon has none. -/
def field (line : Bytes) : Option (Bytes × Bytes) :=
  (colon line).map fun c => (trim_ascii (line.take c), trim_ascii (line.drop (c + 1)))

def header_fields (block : Bytes) : List (Bytes × Bytes) :=
  (field_lines (after_request_line block)).filterMap field

def header_field (block : Bytes) (name : Bytes) : Option Bytes :=
  ((header_fields block).find? fun f => eq_ignore_ascii_case f.1 name).map (·.2)

def connection_has_token (block : Bytes) (token : Bytes) : Bool :=
  (header_fields block).any fun f => eq_ignore_ascii_case f.1 (bytes "connection") &&
    (split_on 44 f.2).any fun t => eq_ignore_ascii_case (trim_ascii t) token

def content_length (headers : Bytes) : Option Nat :=
  ((header_field headers (bytes "content-length")).bind from_utf8).bind parse_u64

def is_transfer_encoding_chunked (headers : Bytes) : Bool :=
  match header_field headers (bytes "transfer-encoding") with
  | some v => (split_on 44 v).any fun t => eq_ignore_ascii_case (trim_ascii t) (bytes "chunked")
  | none => false

def is_upgrade (headers : Bytes) : Bool :=
  ((header_fields headers).any fun f => eq_ignore_ascii_case f.1 (bytes "upgrade")) &&
    connection_has_token headers (bytes "upgrade")

def parse_status (headers : Bytes) : Option Nat := do
  let line_end ← position CRLF headers
  let code ← ((split_on 32 (headers.take line_end)).filter (!·.isEmpty))[1]?
  parse_u16 (← from_utf8 code)

def request_method (headers : Bytes) : Bytes := headers.take ((headers.findIdx? (· == 32)).getD 0)

/-- `host_header`: the host without its port. -/
def host_header (headers : Bytes) : Option Bytes := do
  let value ← from_utf8 (← header_field headers (bytes "host"))
  if value.any fun b => b == 13 || b == 10 || b == 0 then none
  let host_only ← if value.head? == some 91 then (value.findIdx? (· == 93)).map fun i => value.take (i + 1)
    else some (match colon value with
      | some c => value.take c
      | none => value)
  if host_only.isEmpty then none
  some host_only

def response_has_body (status : Nat) (req_method : Bytes) : Bool :=
  if status < 200 || status == 204 || status == 304 then false
  else !eq_ignore_ascii_case req_method (bytes "HEAD")

/-! ## Rewriting a request head -/

/-- A header symphony owns: its name, and its value when there is one to state. -/
structure HeaderRewrite where
  name : Bytes
  value : Option Bytes
  deriving DecidableEq, Repr

/-- `name: value`. -/
def inserted_line (name value : Bytes) : Bytes := name ++ [58, 32] ++ value

/-- The lines symphony inserts after the request line. -/
def inserted_lines (rewrites : List HeaderRewrite) : List Bytes :=
  rewrites.filterMap fun r => r.value.map (inserted_line r.name)

/-- The header name belongs to symphony. -/
def is_owned (rewrites : List HeaderRewrite) (name : Bytes) : Bool :=
  rewrites.any fun r => eq_ignore_ascii_case r.name name

/-- The checks on one field line; its name when it passes. -/
def line_name (line : Bytes) : Except IoError Bytes :=
  if line.head? == some 32 || line.head? == some 9 then
    .error (bad "obs-fold header continuation is not allowed")
  else match colon line with
    | none => .error (bad "header line has no colon")
    | some c =>
      let name := line.take c
      if name.isEmpty || name.any is_ascii_whitespace then .error (bad "malformed header name")
      else .ok name

/-- The loop of `rewrite_request_head`, over the lines still to copy. -/
def rewrite_fields (rewrites : List HeaderRewrite) (out rest : Bytes) : Except IoError Bytes :=
  if rest = [] then .ok out
  else match _h : next_line rest with
    | none => .error (bad "unterminated header line")
    | some (line, rest') =>
      if line = [] then .ok (out ++ CRLF)
      else match line_name line with
        | .error e => .error e
        | .ok name =>
          if is_owned rewrites name then rewrite_fields rewrites out rest'
          else rewrite_fields rewrites (out ++ line ++ CRLF) rest'
termination_by rest.length
decreasing_by all_goals have := next_line_length _h; omega

def rewrite_request_head (block : Bytes) (rewrites : List HeaderRewrite) : Except IoError Bytes :=
  match position CRLF block with
  | none => .error (bad "malformed HTTP request line")
  | some p =>
    rewrite_fields rewrites (block.take (p + 2) ++ (inserted_lines rewrites).flatMap (· ++ CRLF)) (block.drop (p + 2))

/-! ## Body framing of a request -/

inductive RequestBody where
  | None
  | Length (n : Nat)
  | Chunked
  deriving DecidableEq, Repr

/-- What the loop of `request_body` has seen. -/
structure BodyScan where
  transfer_encoding : Bool := false
  chunked : Bool := false
  length : Option Nat := none
  deriving DecidableEq, Repr

/-- The last transfer coding is `chunked`. -/
def final_chunked (value : Bytes) : Bool :=
  eq_ignore_ascii_case (trim_ascii ((split_on 44 value).getLastD [])) (bytes "chunked")

def scan_field (s : BodyScan) (f : Bytes × Bytes) : Except IoError BodyScan :=
  if eq_ignore_ascii_case f.1 (bytes "transfer-encoding") then
    .ok { s with transfer_encoding := true, chunked := final_chunked f.2 }
  else if eq_ignore_ascii_case f.1 (bytes "content-length") then
    match (from_utf8 f.2).bind parse_u64 with
    | none => .error (bad "malformed Content-Length")
    | some n =>
      if s.length.any (· != n) then .error (bad "conflicting Content-Length headers")
      else .ok { s with length := some n }
  else .ok s

def request_body (block : Bytes) : Except IoError RequestBody := do
  let s ← (header_fields block).foldlM scan_field {}
  if s.transfer_encoding then
    if s.length.isSome then .error (bad "both Transfer-Encoding and Content-Length present")
    else if !s.chunked then .error (bad "unsupported Transfer-Encoding")
    else .ok .Chunked
  else match s.length with
    | some 0 => .ok .None
    | none => .ok .None
    | some n => .ok (.Length n)

/-! ## Body framing of a response -/

inductive ResponseBody where
  | None
  | Length (n : Nat)
  | Chunked
  | ReadToEnd
  deriving DecidableEq, Repr

def response_body (head : Bytes) (status : Nat) (head_only : Bool) : ResponseBody :=
  if head_only || !response_has_body status (if head_only then bytes "HEAD" else bytes "GET") then .None
  else if is_transfer_encoding_chunked head then .Chunked
  else match content_length head with
    | some 0 => .None
    | some n => .Length n
    | none => .ReadToEnd

/-! ## Readings on lines -/

/-- No CRLF inside: what stands between two line ends. -/
def Plain (l : Bytes) : Prop := position CRLF l = none

instance (l : Bytes) : Decidable (Plain l) := inferInstanceAs (Decidable (position CRLF l = none))

/-- A field line: not blank, and one line. -/
def FieldLine (l : Bytes) : Prop := l ≠ [] ∧ Plain l

variable {l rl : Bytes} {ls : List Bytes} {rewrites : List HeaderRewrite}

theorem next_line_eq_some {s r : Bytes} : next_line s = some (l, r) ↔ Plain l ∧ s = l ++ CRLF ++ r := by
  constructor
  · intro h
    obtain ⟨n, hn, he⟩ := Option.map_eq_some_iff.1 h
    simp only [Prod.mk.injEq] at he
    obtain ⟨rfl, rfl⟩ := he
    obtain ⟨h1, h2⟩ := Lib.line_of_position hn
    exact ⟨h1, by rw [List.append_assoc]; exact h2⟩
  · rintro ⟨h, rfl⟩
    have hp : position CRLF (l ++ CRLF ++ r) = some l.length := by
      rw [List.append_assoc]
      exact Lib.position_line (by decide) h r
    rw [next_line, hp, Option.map_some]
    simp [CRLF]

theorem field_lines_blank (r : Bytes) : field_lines (CRLF ++ r) = [] := by
  have h : next_line (CRLF ++ r) = some ([], r) := next_line_eq_some.2 ⟨by decide, rfl⟩
  rw [field_lines]
  split
  · rfl
  · rename_i line rest' h'
    rw [h] at h'
    simp only [Option.some.injEq, Prod.mk.injEq] at h'
    rw [if_pos h'.1.symm]

theorem field_lines_line (hl : FieldLine l) (r : Bytes) :
    field_lines (l ++ CRLF ++ r) = l :: field_lines r := by
  have h : next_line (l ++ CRLF ++ r) = some (l, r) := next_line_eq_some.2 ⟨hl.2, rfl⟩
  rw [field_lines]
  split
  · rename_i h'
    rw [h] at h'
    cases h'
  · rename_i line rest' h'
    rw [h] at h'
    simp only [Option.some.injEq, Prod.mk.injEq] at h'
    obtain ⟨rfl, rfl⟩ := h'
    rw [if_neg hl.1]

theorem field_lines_unlines (h : ∀ l ∈ ls, FieldLine l) (r : Bytes) :
    field_lines (unlines 13 10 ls ++ CRLF ++ r) = ls := by
  induction ls with
  | nil => exact field_lines_blank r
  | cons l ls ih =>
    have hs : unlines 13 10 (l :: ls) ++ CRLF ++ r = l ++ CRLF ++ (unlines 13 10 ls ++ CRLF ++ r) := by simp [CRLF]
    rw [hs, field_lines_line (h l (by simp)), ih fun x hx => h x (by simp [hx])]

/-! ## Named lines -/

theorem colon_append {a : Bytes} (h : 58 ∉ a) (b : Bytes) : colon (a ++ 58 :: b) = some a.length := by
  unfold colon
  rw [List.findIdx?_append]
  have : a.findIdx? (· == 58) = none := by
    rw [List.findIdx?_eq_none_iff]
    intro x hx
    have hne : x ≠ 58 := fun e => h (e ▸ hx)
    simpa using hne
  simp [this, List.findIdx?_cons]

theorem colon_eq_some {c : Nat} (h : colon l = some c) :
    58 ∉ l.take c ∧ l = l.take c ++ 58 :: l.drop (c + 1) := by
  obtain ⟨hc, hp, hno⟩ := List.findIdx?_eq_some_iff_getElem.1 h
  have hget : l[c] = 58 := by simpa using hp
  constructor
  · intro hmem
    obtain ⟨i, hi, he⟩ := List.mem_iff_getElem.1 hmem
    rw [List.getElem_take] at he
    have hic : i < c := by rw [List.length_take] at hi; omega
    exact hno i hic (by simp [he])
  · rw [← hget, ← List.drop_eq_getElem_cons hc, List.take_append_drop]

/-- A line that passes the checks is its name, a colon, and the rest. -/
theorem line_name_ok {name : Bytes} (h : line_name l = .ok name) :
    58 ∉ name ∧ (∀ b ∈ name, is_ascii_whitespace b = false) ∧ ∃ v, l = name ++ 58 :: v := by
  unfold line_name at h
  split at h
  · cases h
  · split at h
    · cases h
    · rename_i c hc
      simp only at h
      split at h
      · cases h
      · rename_i hws
        simp only [Except.ok.injEq] at h
        subst h
        obtain ⟨h1, h2⟩ := colon_eq_some hc
        simp only [Bool.or_eq_true, List.any_eq_true, not_or, not_exists, not_and, Bool.not_eq_true] at hws
        exact ⟨h1, fun b hb => hws.2 b hb, _, h2⟩

theorem trim_ascii_of_free {a : Bytes} (h : ∀ b ∈ a, is_ascii_whitespace b = false) : trim_ascii a = a :=
  Lib.strip_of_free h

theorem field_named {name : Bytes} (hc : 58 ∉ name) (hw : ∀ b ∈ name, is_ascii_whitespace b = false) (v : Bytes) :
    field (name ++ 58 :: v) = some (name, trim_ascii v) := by
  rw [field, colon_append hc, Option.map_some]
  have hd : (name ++ 58 :: v).drop (name.length + 1) = v := by
    rw [← List.drop_drop, List.drop_left]
    rfl
  simp [trim_ascii_of_free hw, hd]

/-! ## What the rewriter writes -/

/-- The line carries a header symphony owns, so it is dropped. -/
def is_dropped (rewrites : List HeaderRewrite) (line : Bytes) : Bool :=
  match line_name line with
  | .ok name => is_owned rewrites name
  | .error _ => false

/-- The field lines the rewriter copies. -/
def kept (rewrites : List HeaderRewrite) (ls : List Bytes) : List Bytes := ls.filter fun l => !is_dropped rewrites l

theorem rewrite_fields_step (rewrites : List HeaderRewrite) (out : Bytes) {line rest' : Bytes} (hl : Plain line) :
    rewrite_fields rewrites out (line ++ CRLF ++ rest') =
      if line = [] then .ok (out ++ CRLF)
      else match line_name line with
        | .error e => .error e
        | .ok name => rewrite_fields rewrites (if is_owned rewrites name then out else out ++ line ++ CRLF) rest' := by
  have h : next_line (line ++ CRLF ++ rest') = some (line, rest') := next_line_eq_some.2 ⟨hl, rfl⟩
  rw [rewrite_fields, if_neg (by simp [CRLF])]
  split
  · rename_i h'
    rw [h] at h'
    cases h'
  · rename_i line' rest'' h'
    rw [h] at h'
    simp only [Option.some.injEq, Prod.mk.injEq] at h'
    obtain ⟨rfl, rfl⟩ := h'
    split
    · rfl
    · cases line_name line with
      | error e => rfl
      | ok name => by_cases hown : is_owned rewrites name = true <;> simp [hown]

/-- A rewrite that succeeds has named every line and copied the ones not owned. -/
theorem rewrite_fields_ok {out rest r : Bytes} (h : rewrite_fields rewrites out rest = .ok r) :
    (∀ l ∈ field_lines rest, ∃ name, line_name l = .ok name) ∧
    (r = out ++ unlines 13 10 (kept rewrites (field_lines rest)) ∨
      r = out ++ unlines 13 10 (kept rewrites (field_lines rest)) ++ CRLF) := by
  induction hn : rest.length using Nat.strongRecOn generalizing rest out with
  | ind n ih =>
    cases hnl : next_line rest with
    | none =>
      have hf : field_lines rest = [] := by
        rw [field_lines]
        split
        · rfl
        · rename_i h'
          rw [hnl] at h'
          cases h'
      rw [rewrite_fields] at h
      split at h
      · simp only [Except.ok.injEq] at h
        simp [hf, kept, h]
      · split at h
        · cases h
        · rename_i h'
          rw [hnl] at h'
          cases h'
    | some p =>
      obtain ⟨line, rest'⟩ := p
      obtain ⟨hplain, rfl⟩ := next_line_eq_some.1 hnl
      rw [rewrite_fields_step rewrites out hplain] at h
      by_cases hne : line = []
      · subst hne
        rw [if_pos rfl, Except.ok.injEq] at h
        rw [List.nil_append, field_lines_blank]
        simp [kept, ← h]
      · rw [if_neg hne] at h
        rw [field_lines_line ⟨hne, hplain⟩]
        cases hname : line_name line with
        | error e => simp [hname] at h
        | ok name =>
          simp only [hname] at h
          obtain ⟨h1, h2⟩ := ih rest'.length (by have := next_line_length hnl; omega) h rfl
          refine ⟨?_, ?_⟩
          · intro l hl
            rcases List.mem_cons.1 hl with rfl | hl
            · exact ⟨name, hname⟩
            · exact h1 l hl
          · by_cases hown : is_owned rewrites name = true
            · simpa [kept, is_dropped, hname, hown] using h2
            · simpa [kept, is_dropped, hname, hown, CRLF] using h2

/-- The request line of a block. -/
def request_line (block : Bytes) : Bytes := block.take ((position CRLF block).getD 0)

/-- What the rewriter returns: the request line, symphony's lines, the client's
other lines, and the blank line if the block had one. -/
theorem rewrite_request_head_ok {block out : Bytes} (h : rewrite_request_head block rewrites = .ok out) :
    (∀ l ∈ field_lines (after_request_line block), ∃ name, line_name l = .ok name) ∧
    ∃ blank, (blank = [] ∨ blank = [[]]) ∧
      out = unlines 13 10 (request_line block :: inserted_lines rewrites ++
        kept rewrites (field_lines (after_request_line block)) ++ blank) := by
  unfold rewrite_request_head at h
  cases hp : position CRLF block with
  | none => simp [hp] at h
  | some p =>
    simp only [hp] at h
    have ha : after_request_line block = block.drop (p + 2) := by simp [after_request_line, hp]
    have hr : request_line block = block.take p := by simp [request_line, hp]
    have hline : block.take (p + 2) = block.take p ++ CRLF := by
      obtain ⟨-, hs⟩ := Lib.line_of_position hp
      have hlen : (block.take p).length = p := by
        have := Lib.position_le (by simp [CRLF]) hp
        rw [List.length_take]
        omega
      conv_lhs => rw [hs]
      rw [List.take_append, List.take_of_length_le (by omega), hlen]
      simp [CRLF]
    obtain ⟨h1, h2⟩ := rewrite_fields_ok h
    rw [ha, hr]
    refine ⟨h1, ?_⟩
    have hins : (inserted_lines rewrites).flatMap (· ++ CRLF) = unlines 13 10 (inserted_lines rewrites) := rfl
    rw [hline, hins] at h2
    rcases h2 with rfl | rfl
    · exact ⟨[], .inl rfl, by simp [Lib.unlines_append, CRLF]⟩
    · exact ⟨[[]], .inr rfl, by simp [Lib.unlines_append, CRLF]⟩

theorem rewrite_fields_lines (rewrites : List HeaderRewrite) (out : Bytes)
    (h : ∀ l ∈ ls, FieldLine l ∧ ∃ name, line_name l = .ok name) (rest : Bytes) :
    rewrite_fields rewrites out (unlines 13 10 ls ++ CRLF ++ rest) =
      .ok (out ++ unlines 13 10 (kept rewrites ls) ++ CRLF) := by
  induction ls generalizing out with
  | nil =>
    have hs := @rewrite_fields_step rewrites out [] rest (by decide)
    simpa [kept] using hs
  | cons l ls ih =>
    obtain ⟨hl, name, hname⟩ := h l (by simp)
    have hs : unlines 13 10 (l :: ls) ++ CRLF ++ rest = l ++ CRLF ++ (unlines 13 10 ls ++ CRLF ++ rest) := by
      simp [CRLF]
    rw [hs, rewrite_fields_step rewrites out hl.2, if_neg hl.1, hname]
    simp only
    rw [ih _ fun x hx => h x (by simp [hx])]
    by_cases hown : is_owned rewrites name = true
    · simp [kept, is_dropped, hname, hown]
    · simp [kept, is_dropped, hname, hown, CRLF]

theorem rewrite_request_head_lines (rewrites : List HeaderRewrite) (hrl : Plain rl)
    (h : ∀ l ∈ ls, FieldLine l ∧ ∃ name, line_name l = .ok name) :
    rewrite_request_head (unlines 13 10 (rl :: ls) ++ CRLF) rewrites =
      .ok (unlines 13 10 (rl :: inserted_lines rewrites ++ kept rewrites ls ++ [[]])) := by
  have hs : unlines 13 10 (rl :: ls) ++ CRLF = rl ++ 13 :: 10 :: (unlines 13 10 ls ++ CRLF ++ []) := by simp
  have hp : position CRLF (rl ++ 13 :: 10 :: (unlines 13 10 ls ++ CRLF ++ [])) = some rl.length :=
    Lib.position_line (by decide) hrl _
  have htake : (rl ++ 13 :: 10 :: (unlines 13 10 ls ++ CRLF ++ [])).take (rl.length + 2) = rl ++ CRLF := by
    rw [List.take_append, List.take_of_length_le (by omega)]
    simp [CRLF]
  have hdrop : (rl ++ 13 :: 10 :: (unlines 13 10 ls ++ CRLF ++ [])).drop (rl.length + 2) =
      unlines 13 10 ls ++ CRLF ++ [] := by
    rw [List.drop_append]
    simp
  have hins : (inserted_lines rewrites).flatMap (· ++ CRLF) = unlines 13 10 (inserted_lines rewrites) := rfl
  rw [hs, rewrite_request_head, hp]
  simp only
  rw [htake, hdrop, rewrite_fields_lines rewrites _ h, hins]
  simp [Lib.unlines_append, CRLF]

/-! ## Blocks read off a stream -/

theorem after_request_line_lines (hrl : Plain rl) (ls : List Bytes) (r : Bytes) :
    after_request_line (unlines 13 10 (rl :: ls) ++ r) = unlines 13 10 ls ++ r := by
  have hs : unlines 13 10 (rl :: ls) ++ r = rl ++ 13 :: 10 :: (unlines 13 10 ls ++ r) := by simp
  have hp : position CRLF (rl ++ 13 :: 10 :: (unlines 13 10 ls ++ r)) = some rl.length :=
    Lib.position_line (by decide) hrl _
  rw [hs, after_request_line, hp]
  simp only
  rw [List.drop_append]
  simp

/-- What stands before the first blank line of a stream is a block of lines. -/
theorem block_lines {s : Bytes} {n : Nat} (h : position CRLFCRLF s = some n) :
    ∃ rl ls, Plain rl ∧ (∀ l ∈ ls, FieldLine l) ∧ s.take (n + 4) = unlines 13 10 (rl :: ls) ++ CRLF := by
  obtain ⟨rl, ls, rest, hrl, hls, hs, hlen⟩ := Lib.block_of_position (by decide) h
  refine ⟨rl, ls, hrl, hls, ?_⟩
  have hlen' : (unlines 13 10 (rl :: ls) ++ CRLF).length = n + 4 := by
    rw [List.length_append, hlen]
    rfl
  have hs' : s = unlines 13 10 (rl :: ls) ++ CRLF ++ rest := by rw [hs, List.append_assoc]; rfl
  rw [← hlen', hs', List.take_left]

theorem rewrite_block {head : Bytes} (hrl : Plain rl) (hls : ∀ l ∈ ls, FieldLine l)
    (h : rewrite_request_head (unlines 13 10 (rl :: ls) ++ CRLF) rewrites = .ok head) :
    (∀ l ∈ ls, ∃ name, line_name l = .ok name) ∧
      head = unlines 13 10 (rl :: inserted_lines rewrites ++ kept rewrites ls ++ [[]]) := by
  have hnames := (rewrite_request_head_ok h).1
  rw [after_request_line_lines hrl, ← List.append_nil (unlines 13 10 ls ++ CRLF), field_lines_unlines hls] at hnames
  refine ⟨hnames, ?_⟩
  rw [rewrite_request_head_lines rewrites hrl fun l hl => ⟨hls l hl, hnames l hl⟩, Except.ok.injEq] at h
  exact h.symm

end Symphony.Http
