import Mathlib.Data.List.Induction
import Symphony.Lib.Group
import Symphony.Rust.Basic
/-!
# The Prometheus text

`Exposition` collects samples by metric name and renders them, all samples of a name under
one pair of HELP and TYPE lines. The second half of this module reads the text the way the
exposition format says: lines end with a line feed, empty lines are skipped, and a label
value goes up to the first quote that is not escaped. A string is its UTF-8 text, in which
the characters that matter here are single bytes.
-/

namespace Symphony.Server

open Lib (firsts firsts_concat)

/-! ## Rendering -/

/-- `replace(/\r\n?/g, '\n')`. -/
def replace_newlines : Bytes → Bytes
  | [] => []
  | 13 :: 10 :: t => 10 :: replace_newlines t
  | 13 :: t => 10 :: replace_newlines t
  | b :: t => b :: replace_newlines t

/-- `replace` of every occurrence of one character. -/
def replace_all (c : UInt8) (new : Bytes) (s : Bytes) : Bytes := s.flatMap fun b => if b = c then new else [b]

def escapeLabel (value : Bytes) : Bytes :=
  replace_all 10 (bytes "\\n") (replace_all 34 (bytes "\\\"") (replace_all 92 (bytes "\\\\") (replace_newlines value)))

/-- The pairs are those of `Object.entries`, in its order. -/
def labels (pairs : List (Bytes × Bytes)) : Bytes :=
  let rendered := [44].intercalate (pairs.map fun (k, v) => k ++ bytes "=\"" ++ escapeLabel v ++ bytes "\"")
  if rendered = [] then [] else bytes "\x7b" ++ rendered ++ bytes "\x7d"

inductive MetricType where
  | counter
  | gauge
  deriving DecidableEq, Repr

def MetricType.text : MetricType → Bytes
  | .counter => bytes "counter"
  | .gauge => bytes "gauge"

/-- A number as a template literal writes it: in one line, whatever the number. -/
structure NumberText where
  text : Bytes
  one_line : 10 ∉ text
  deriving DecidableEq, Repr

/-- The arguments of one `sample` call. -/
structure Sample where
  name : Bytes
  type : MetricType
  help : Bytes
  value : NumberText
  tags : List (Bytes × Bytes) := []
  deriving DecidableEq, Repr

structure Group where
  type : MetricType
  help : Bytes
  samples : List Bytes
  deriving DecidableEq, Repr

/-- The groups of the `Map`, in the order they were first set. -/
structure Exposition where
  groups : List (Bytes × Group) := []
  deriving DecidableEq, Repr

/-- The line that a call pushes. -/
def Sample.line (c : Sample) : Bytes := c.name ++ labels c.tags ++ bytes " " ++ c.value.text

def Exposition.sample (e : Exposition) (c : Sample) : Exposition :=
  if (e.groups.map (·.1)).contains c.name then
    { groups := e.groups.map fun (name, group) =>
        if name = c.name then (name, { group with samples := group.samples ++ [c.line] }) else (name, group) }
  else { groups := e.groups ++ [(c.name, ⟨c.type, c.help, [c.line]⟩)] }

def help_line (name help : Bytes) : Bytes := bytes "# HELP " ++ name ++ bytes " " ++ help

def type_line (name : Bytes) (type : MetricType) : Bytes := bytes "# TYPE " ++ name ++ bytes " " ++ type.text

def Exposition.toString (e : Exposition) : Bytes :=
  let lines := e.groups.flatMap fun (name, group) =>
    help_line name group.help :: type_line name group.type :: group.samples
  [10].intercalate lines ++ [10]

/-- The text after the given calls. -/
def exposition (calls : List Sample) : Bytes := (calls.foldl Exposition.sample {}).toString

/-! ## Reading -/

/-- The lines of a text; empty ones are skipped. -/
def readLines (text : Bytes) : List Bytes := (text.splitOn 10).filter fun l => l ≠ []

/-- The rest of the text after `t`. -/
def readText (t s : Bytes) : Option Bytes := if t.isPrefixOf s then some (s.drop t.length) else none

/-- A label value, up to the closing quote, and what follows it. -/
def readValue : Bytes → Option (Bytes × Bytes)
  | [] => none
  | 34 :: rest => some ([], rest)
  | 92 :: 92 :: rest => (readValue rest).map fun (v, rest) => (92 :: v, rest)
  | 92 :: 34 :: rest => (readValue rest).map fun (v, rest) => (34 :: v, rest)
  | 92 :: 110 :: rest => (readValue rest).map fun (v, rest) => (10 :: v, rest)
  | 92 :: _ => none
  | b :: rest => (readValue rest).map fun (v, rest) => (b :: v, rest)

/-- The values of the labels with the given names, after the opening brace, and what follows
the closing one. -/
def readTags : List Bytes → Bytes → Option (List Bytes × Bytes)
  | [], s => some ([], s)
  | k :: ks, s => do
    let s ← readText (k ++ bytes "=\"") s
    let (v, s) ← readValue s
    let s ← readText (if ks = [] then bytes "\x7d" else bytes ",") s
    let (vs, s) ← readTags ks s
    return (v :: vs, s)

/-- The label values and the number of a sample of the metric `name`, whose labels have the
names `keys`. -/
def readSample (name : Bytes) (keys : List Bytes) (line : Bytes) : Option (List Bytes × Bytes) := do
  let s ← readText name line
  let s ← if keys = [] then some s else readText (bytes "\x7b") s
  let (values, s) ← readTags keys s
  let number ← readText (bytes " ") s
  return (values, number)

/-! ## Values -/

/-- What `escapeLabel` makes of a byte, once newlines are line feeds. -/
def escape_byte (b : UInt8) : Bytes :=
  if b = 92 then bytes "\\\\" else if b = 34 then bytes "\\\"" else if b = 10 then bytes "\\n" else [b]

variable (value : Bytes) (calls : List Sample) (t : Bytes × Bytes)

/-- The replacements do not get in each other's way: each byte is escaped once. -/
theorem escapeLabel_eq : escapeLabel value = (replace_newlines value).flatMap escape_byte := by
  unfold escapeLabel replace_all
  rw [List.flatMap_assoc, List.flatMap_assoc]
  congr 1
  funext b
  unfold escape_byte
  by_cases h92 : b = 92
  · subst h92
    decide
  · by_cases h34 : b = 34
    · subst h34
      decide
    · simp [h92, h34]

theorem ten_not_mem_escape_byte (b : UInt8) : 10 ∉ escape_byte b := by
  unfold escape_byte
  split_ifs with h92 h34 h10
  · decide
  · decide
  · decide
  · simpa using fun h => h10 h.symm

theorem readValue_plain {b : UInt8} (hquote : b ≠ 34) (hescape : b ≠ 92) (s : Bytes) :
    readValue (b :: s) = (readValue s).map fun (v, rest) => (b :: v, rest) := by
  rw [readValue]
  all_goals simp_all

theorem readValue_escape_byte (b : UInt8) (s : Bytes) :
    readValue (escape_byte b ++ s) = (readValue s).map fun (v, rest) => (b :: v, rest) := by
  unfold escape_byte
  split_ifs with h92 h34 h10
  · subst h92
    rfl
  · subst h34
    rfl
  · subst h10
    rfl
  · exact readValue_plain h34 h92 s

/-- A value is read back up to its closing quote, whatever follows. -/
theorem readValue_escapeLabel (rest : Bytes) :
    readValue (escapeLabel value ++ 34 :: rest) = some (replace_newlines value, rest) := by
  rw [escapeLabel_eq]
  induction replace_newlines value with
  | nil => rfl
  | cons b v ih => rw [List.flatMap_cons, List.append_assoc, readValue_escape_byte, ih, Option.map_some]

theorem ten_not_mem_escapeLabel : 10 ∉ escapeLabel value := by
  rw [escapeLabel_eq, List.mem_flatMap]
  rintro ⟨b, -, hb⟩
  exact ten_not_mem_escape_byte b hb

/-! ## Lines -/

theorem readText_append (t s : Bytes) : readText t (t ++ s) = some s := by
  unfold readText
  rw [if_pos (List.isPrefixOf_iff_prefix.2 (List.prefix_append t s)), List.drop_left]

/-- The rendering of one label. -/
def tag (t : Bytes × Bytes) : Bytes := t.1 ++ bytes "=\"" ++ escapeLabel t.2 ++ bytes "\""

/-- One label is read back, with what separates it from the next. -/
theorem readTags_cons (ks : List Bytes) (s : Bytes) :
    readTags (t.1 :: ks) (tag t ++ ((if ks = [] then bytes "\x7d" else bytes ",") ++ s)) =
      (readTags ks s).map fun (vs, s) => (replace_newlines t.2 :: vs, s) := by
  have hassoc : tag t ++ ((if ks = [] then bytes "\x7d" else bytes ",") ++ s) = t.1 ++ bytes "=\"" ++
      (escapeLabel t.2 ++ 34 :: ((if ks = [] then bytes "\x7d" else bytes ",") ++ s)) := by
    unfold tag
    rw [List.append_assoc, List.append_assoc (t.1 ++ bytes "=\"")]
    rfl
  rw [hassoc, readTags, readText_append]
  simp only [Option.bind_eq_bind, Option.bind_some, readValue_escapeLabel, readText_append]
  cases readTags ks s <;> rfl

/-- The labels of a sample are read back, whatever follows the closing brace. -/
theorem readTags_tags (tags : List (Bytes × Bytes)) (rest : Bytes) :
    readTags ((t :: tags).map (·.1)) ([44].intercalate ((t :: tags).map tag) ++ bytes "\x7d" ++ rest) =
      some ((t :: tags).map fun t => replace_newlines t.2, rest) := by
  induction tags generalizing t with
  | nil =>
    have hone := readTags_cons t [] rest
    rw [if_pos rfl, ← List.append_assoc] at hone
    simpa [readTags] using hone
  | cons t' tags ih =>
    have hmore := readTags_cons t ((t' :: tags).map (·.1))
      ([44].intercalate ((t' :: tags).map tag) ++ bytes "\x7d" ++ rest)
    rw [if_neg (by simp), ih] at hmore
    have hjoin : [44].intercalate ((t :: t' :: tags).map tag) ++ bytes "\x7d" ++ rest =
        tag t ++ (bytes "," ++ ([44].intercalate ((t' :: tags).map tag) ++ bytes "\x7d" ++ rest)) := by
      simp only [List.map_cons, List.intercalate_cons_cons, List.append_assoc]
      rfl
    rw [hjoin]
    exact hmore

theorem tag_ne_nil : tag t ≠ [] := by
  intro h
  exact absurd (List.append_eq_nil_iff.1 h).2 (by decide)

theorem labels_cons (tags : List (Bytes × Bytes)) :
    labels (t :: tags) = bytes "\x7b" ++ ([44].intercalate ((t :: tags).map tag) ++ bytes "\x7d") := by
  have hne : [44].intercalate ((t :: tags).map tag) ≠ [] := by
    cases tags with
    | nil => simpa using tag_ne_nil t
    | cons t' tags =>
      rw [List.map_cons, List.map_cons, List.intercalate_cons_cons]
      simp
  unfold labels
  rw [← List.append_assoc]
  exact if_neg hne

/-- The line of a call is read back, given the names. -/
theorem readSample_line (c : Sample) :
    readSample c.name (c.tags.map (·.1)) c.line = some (c.tags.map fun t => replace_newlines t.2, c.value.text) := by
  unfold readSample Sample.line
  rw [List.append_assoc, List.append_assoc, readText_append]
  cases c.tags with
  | nil =>
    have hnone : labels [] = [] := by decide
    simp [hnone, readTags, readText_append]
  | cons t tags =>
    have hbrace : labels (t :: tags) ++ (bytes " " ++ c.value.text) = bytes "\x7b" ++
        ([44].intercalate ((t :: tags).map tag) ++ bytes "\x7d" ++ (bytes " " ++ c.value.text)) := by
      rw [labels_cons, List.append_assoc]
    have hkeys : (t :: tags).map (·.1) ≠ [] := by simp
    rw [hbrace]
    simp only [if_neg hkeys, Option.bind_eq_bind, Option.bind_some, readText_append, readTags_tags]
    rfl

/-- A call whose names and help text are in one line. -/
structure Sample.OneLine (c : Sample) : Prop where
  name : 10 ∉ c.name
  help : 10 ∉ c.help
  keys : ∀ t ∈ c.tags, 10 ∉ t.1

theorem mem_intercalate {x : UInt8} {ls : List Bytes} (h : x ∈ [44].intercalate ls) : x = 44 ∨ ∃ l ∈ ls, x ∈ l := by
  induction ls with
  | nil => simp at h
  | cons l ls ih =>
    cases ls with
    | nil => exact .inr ⟨l, List.mem_cons_self, by simpa using h⟩
    | cons l' ls =>
      rw [List.intercalate_cons_cons, List.mem_append, List.mem_append] at h
      rcases h with (h | h) | h
      · exact .inr ⟨l, List.mem_cons_self, h⟩
      · exact .inl (List.mem_singleton.1 h)
      · exact (ih h).imp id fun ⟨l, hl, hx⟩ => ⟨l, List.mem_cons_of_mem _ hl, hx⟩

theorem ten_not_mem_labels {tags : List (Bytes × Bytes)} (h : ∀ t ∈ tags, 10 ∉ t.1) : 10 ∉ labels tags := by
  cases tags with
  | nil => decide
  | cons t tags =>
    have htag (t' : Bytes × Bytes) (ht' : t' ∈ t :: tags) : 10 ∉ tag t' := by
      have h₁ : 10 ∉ bytes "=\"" := by decide
      have h₂ : 10 ∉ bytes "\"" := by decide
      simp only [tag, List.mem_append, h t' ht', h₁, ten_not_mem_escapeLabel, h₂, or_self, not_false_eq_true]
    rw [labels_cons, List.mem_append, List.mem_append]
    rintro (hx | hx | hx)
    · exact absurd hx (by decide)
    · rcases mem_intercalate hx with hx | ⟨l, hl, hx⟩
      · exact absurd hx (by decide)
      · obtain ⟨t', ht', rfl⟩ := List.mem_map.1 hl
        exact htag t' ht' hx
    · exact absurd hx (by decide)

/-- A line that the reader gets as it was written. -/
def Line (l : Bytes) : Prop := 10 ∉ l ∧ l ≠ []

theorem Sample.OneLine.line {c : Sample} (h : c.OneLine) : Line c.line := by
  have hspace : 10 ∉ bytes " " := by decide
  constructor
  · simp only [Sample.line, List.mem_append, h.name, ten_not_mem_labels h.keys, hspace, c.value.one_line, or_self,
      not_false_eq_true]
  · simp [Sample.line, show bytes " " = [32] by decide]

theorem Sample.OneLine.help_line {c : Sample} (h : c.OneLine) : Line (help_line c.name c.help) := by
  have hhelp : 10 ∉ bytes "# HELP " := by decide
  have hspace : 10 ∉ bytes " " := by decide
  constructor
  · simp only [Server.help_line, List.mem_append, hhelp, h.name, hspace, h.help, or_self, not_false_eq_true]
  · simp [Server.help_line, show bytes " " = [32] by decide]

theorem Sample.OneLine.type_line {c : Sample} (h : c.OneLine) : Line (type_line c.name c.type) := by
  have htype : 10 ∉ bytes "# TYPE " := by decide
  have hspace : 10 ∉ bytes " " := by decide
  have htext : 10 ∉ c.type.text := by cases c.type <;> decide
  constructor
  · simp only [Server.type_line, List.mem_append, htype, h.name, hspace, htext, or_self, not_false_eq_true]
  · simp [Server.type_line, show bytes " " = [32] by decide]

theorem intercalate_concat (l : Bytes) (ls : List Bytes) :
    [10].intercalate (l :: ls) ++ [10] = [10].intercalate (l :: ls ++ [[]]) := by
  induction ls generalizing l with
  | nil => simp [List.intercalate_cons_cons]
  | cons l' ls ih =>
    rw [List.cons_append, List.cons_append, List.intercalate_cons_cons, List.intercalate_cons_cons, List.append_assoc,
      ih l', List.cons_append]

/-- Lines that are joined and ended by line feeds are read back. -/
theorem readLines_lines {ls : List Bytes} (h : ∀ l ∈ ls, Line l) : readLines ([10].intercalate ls ++ [10]) = ls := by
  cases ls with
  | nil => decide
  | cons l ls =>
    have hfree : ∀ l' ∈ l :: ls ++ [[]], 10 ∉ l' := by
      intro l' hl'
      rcases List.mem_append.1 hl' with hl' | hl'
      · exact (h l' hl').1
      · rw [List.mem_singleton.1 hl']
        exact List.not_mem_nil
    unfold readLines
    rw [intercalate_concat, List.splitOn_intercalate 10 hfree (by simp), List.filter_append,
      List.filter_eq_self.2 fun l' hl' => decide_eq_true (h l' hl').2]
    simp

/-! ## Groups -/

/-- The group of the metric that `c` is the first call of. -/
def groupOf (calls : List Sample) (c : Sample) : Bytes × Group :=
  (c.name, ⟨c.type, c.help, (calls.filter fun d => d.name = c.name).map Sample.line⟩)

/-- One more call adds its line to the group of its name. -/
theorem groupOf_concat (c f : Sample) :
    groupOf (calls ++ [c]) f =
      if f.name = c.name then (f.name, { (groupOf calls f).2 with samples := (groupOf calls f).2.samples ++ [c.line] })
      else groupOf calls f := by
  unfold groupOf
  by_cases h : f.name = c.name
  · simp [h]
  · have h' : c.name ≠ f.name := fun e => h e.symm
    simp [h, h']

/-- The groups after some calls: those of the first calls of each name. -/
theorem groups_eq :
    (calls.foldl Exposition.sample {}).groups = (firsts Sample.name calls).map (groupOf calls) := by
  induction calls using List.reverseRecOn with
  | nil => rfl
  | append_singleton calls c ih =>
    rw [List.foldl_append, List.foldl_cons, List.foldl_nil, firsts_concat]
    generalize calls.foldl Exposition.sample {} = e at ih ⊢
    have hnames : (e.groups.map (·.1)).contains c.name = true ↔ ∃ b ∈ calls, b.name = c.name := by
      rw [ih, List.contains_iff_mem, List.map_map]
      constructor
      · intro h
        obtain ⟨f, hf, hname⟩ := List.mem_map.1 h
        exact ⟨f, Lib.mem_of_mem_firsts _ hf, hname⟩
      · rintro ⟨b, hb, hname⟩
        obtain ⟨f, hf, hname'⟩ := Lib.exists_mem_firsts Sample.name hb
        exact List.mem_map.2 ⟨f, hf, hname'.trans hname⟩
    unfold Exposition.sample
    by_cases hthere : ∃ b ∈ calls, b.name = c.name
    · rw [if_pos (hnames.2 hthere), if_pos hthere, List.append_nil, ih, List.map_map]
      apply List.map_congr_left
      intro f _
      rw [groupOf_concat]
      rfl
    · have hnone : (calls.filter fun d => d.name = c.name) = [] := by
        rw [List.filter_eq_nil_iff]
        intro d hd hname
        exact hthere ⟨d, hd, of_decide_eq_true hname⟩
      have hold : (firsts Sample.name calls).map (groupOf calls) =
          (firsts Sample.name calls).map (groupOf (calls ++ [c])) := by
        apply List.map_congr_left
        intro f hf
        rw [groupOf_concat, if_neg fun hname => hthere ⟨f, Lib.mem_of_mem_firsts _ hf, hname⟩]
      have hnew : groupOf (calls ++ [c]) c = (c.name, ⟨c.type, c.help, [c.line]⟩) := by
        rw [groupOf_concat, if_pos rfl]
        simp [groupOf, hnone]
      rw [if_neg (hnames.not.2 hthere), if_neg hthere, List.map_append, List.map_singleton, hnew, ← hold, ih]

/-! ## Reading the text back -/

/-- Each metric's HELP and TYPE lines and its samples, in the order of the calls. -/
def metricLines (calls : List Sample) : List Bytes :=
  (firsts Sample.name calls).flatMap fun c =>
    help_line c.name c.help :: type_line c.name c.type :: (calls.filter fun d => d.name = c.name).map Sample.line

/-- The text is the lines of the metrics, each ended by a line feed. A reader gets these
lines, and of each sample its label values, with line feeds for newlines. -/
structure ReadsBack (calls : List Sample) : Prop where
  text : exposition calls = [10].intercalate (metricLines calls) ++ [10]
  ended : (exposition calls).getLast? = some 10
  lines : readLines (exposition calls) = metricLines calls
  once : ((firsts Sample.name calls).map Sample.name).Nodup
  every : ∀ c ∈ calls, c.name ∈ (firsts Sample.name calls).map Sample.name
  values : ∀ c ∈ calls, readSample c.name (c.tags.map (·.1)) c.line =
    some (c.tags.map fun t => replace_newlines t.2, c.value.text)

theorem exposition_eq : exposition calls = [10].intercalate (metricLines calls) ++ [10] := by
  unfold exposition Exposition.toString
  rw [groups_eq, List.flatMap_map]
  rfl

/-- The Prometheus text of any samples with names and help texts of one line can be read back. -/
theorem exposition_reads_back (calls : List Sample) (h : ∀ c ∈ calls, c.OneLine) : ReadsBack calls where
  text := exposition_eq calls
  ended := by
    rw [exposition_eq]
    simp
  lines := by
    rw [exposition_eq]
    apply readLines_lines
    intro l hl
    obtain ⟨c, hc, hl⟩ := List.mem_flatMap.1 hl
    have hone := h c (Lib.mem_of_mem_firsts _ hc)
    rcases List.mem_cons.1 hl with rfl | hl
    · exact hone.help_line
    · rcases List.mem_cons.1 hl with rfl | hl
      · exact hone.type_line
      · obtain ⟨d, hd, rfl⟩ := List.mem_map.1 hl
        exact (h d (List.mem_filter.1 hd).1).line
  once := Lib.nodup_firsts Sample.name calls
  every c hc := by
    obtain ⟨f, hf, hname⟩ := Lib.exists_mem_firsts Sample.name hc
    exact List.mem_map.2 ⟨f, hf, hname⟩
  values c _ := readSample_line c

/-- Samples of two metrics in turn; a label value has a quote, a backslash and all newlines. -/
def interleaved : List Sample :=
  [⟨bytes "a", .gauge, bytes "h", ⟨bytes "1", by decide⟩, [(bytes "k", bytes "\"\\\r\n\r\n\n")]⟩,
    ⟨bytes "b", .counter, bytes "h", ⟨bytes "2", by decide⟩, []⟩,
    ⟨bytes "a", .gauge, bytes "h", ⟨bytes "3", by decide⟩, []⟩]

theorem interleaved_reads_back : ReadsBack interleaved ∧
    readLines (exposition interleaved) = [bytes "# HELP a h", bytes "# TYPE a gauge",
      bytes "a\x7bk=\"\\\"\\\\\\n\\n\\n\"\x7d 1", bytes "a 3",
      bytes "# HELP b h", bytes "# TYPE b counter", bytes "b 2"] := by
  refine ⟨exposition_reads_back interleaved ?_, by decide +kernel⟩
  intro c hc
  rw [interleaved, List.mem_cons, List.mem_cons, List.mem_singleton] at hc
  rcases hc with rfl | rfl | rfl
  · exact ⟨by decide, by decide, by decide⟩
  · exact ⟨by decide, by decide, by decide⟩
  · exact ⟨by decide, by decide, by decide⟩

end Symphony.Server
