import Mathlib.Data.List.Basic
import Mathlib.Data.Nat.Notation
/-!
# Rust primitives

The part of the Rust standard library the modelled functions use: byte strings,
ASCII predicates, UTF-8 validity, integer parsing and saturating arithmetic.
A `str` is the list of its UTF-8 bytes, so `len`, slicing and comparison are
those of the bytes, as in Rust.
-/

namespace Symphony

/-- A Rust `[u8]`, `Vec<u8>`, `str` or `String`. -/
abbrev Bytes := List UInt8

/-- The bytes of a literal. -/
def bytes (s : String) : Bytes := s.toList.flatMap String.utf8EncodeChar

/-! ## Machine integers -/

def U16_MAX : Nat := 0xffff
def U32_MAX : Nat := 0xffffffff
def U64_MAX : Nat := 0xffffffffffffffff

/-- `u32::saturating_add`. -/
def sat_add32 (a b : Nat) : Nat := min (a + b) U32_MAX

/-- `u64::saturating_add`. -/
def sat_add64 (a b : Nat) : Nat := min (a + b) U64_MAX

/-- `u64::saturating_mul`. -/
def sat_mul64 (a b : Nat) : Nat := min (a * b) U64_MAX

/-- `u16::from_be_bytes`. -/
def be16 (a b : UInt8) : Nat := a.toNat * 256 + b.toNat

/-- `u16::to_be_bytes`, of the low 16 bits of `n`. -/
def to_be16 (n : Nat) : Bytes := [UInt8.ofNat (n / 256), UInt8.ofNat n]

variable (sep : UInt8) (s : Bytes)

theorem be16_lt (a b : UInt8) : be16 a b < 65536 := by
  have := a.toNat_lt
  have := b.toNat_lt
  unfold be16
  omega

theorem be16_to_be16 {n : Nat} (h : n < 65536) :
    be16 (UInt8.ofNat (n / 256)) (UInt8.ofNat n) = n := by
  unfold be16
  simp only [UInt8.toNat_ofNat']
  omega

theorem ofNat_eq_of_mod {n : Nat} {b : UInt8} (h : n % 256 = b.toNat) : UInt8.ofNat n = b := by
  apply UInt8.toNat_inj.1
  simpa using h

theorem to_be16_be16 (a b : UInt8) : to_be16 (be16 a b) = [a, b] := by
  have := a.toNat_lt
  have := b.toNat_lt
  unfold to_be16 be16
  rw [ofNat_eq_of_mod (b := a) (by omega), ofNat_eq_of_mod (b := b) (by omega)]

/-- A decidable property of a byte, checked on all of them. -/
theorem forall_byte {p : UInt8 → Prop} [DecidablePred p] (h : ∀ n : Fin 256, p (UInt8.ofNat n)) (b : UInt8) : p b := by
  have hb := h ⟨b.toNat, b.toNat_lt⟩
  rwa [UInt8.ofNat_toNat] at hb

/-! ## ASCII -/

/-- `u8::is_ascii_whitespace`: space, tab, line feed, form feed, carriage return. -/
def is_ascii_whitespace (b : UInt8) : Bool := b == 32 || b == 9 || b == 10 || b == 12 || b == 13

def is_ascii_digit (b : UInt8) : Bool := 48 ≤ b && b ≤ 57

def is_ascii_uppercase (b : UInt8) : Bool := 65 ≤ b && b ≤ 90

def is_ascii_alphanumeric (b : UInt8) : Bool :=
  is_ascii_digit b || is_ascii_uppercase b || (97 ≤ b && b ≤ 122)

/-- `u8::to_ascii_lowercase`. -/
def to_ascii_lowercase (b : UInt8) : UInt8 := if is_ascii_uppercase b then b + 32 else b

/-- `[u8]::eq_ignore_ascii_case`. -/
def eq_ignore_ascii_case (a b : Bytes) : Bool := a.map to_ascii_lowercase == b.map to_ascii_lowercase

theorem eq_ignore_ascii_case_iff {a b : Bytes} :
    eq_ignore_ascii_case a b = true ↔ a.map to_ascii_lowercase = b.map to_ascii_lowercase := by
  simp [eq_ignore_ascii_case]

theorem lowercase_fixed {x c : UInt8} (hc : c < 97) (h : to_ascii_lowercase x = c) : x = c := by
  unfold to_ascii_lowercase at h
  split at h
  · rename_i hx
    have hx : 65 ≤ x.toNat ∧ x.toNat ≤ 90 := by simpa [is_ascii_uppercase, UInt8.le_iff_toNat_le] using hx
    have hlt : (x.toNat + 32) % 256 < 97 := by
      rw [← h, UInt8.lt_iff_toNat_lt] at hc
      simpa using hc
    omega
  · exact h

/-! ## UTF-8 -/

/-- A continuation byte. -/
def utf8_cont (b : UInt8) : Bool := 0x80 ≤ b && b ≤ 0xbf

/-- `std::str::from_utf8(..).is_ok()`: no overlong form, surrogate or code point
past U+10FFFF. -/
def utf8_ok : Bytes → Bool
  | [] => true
  | a :: t =>
    if a ≤ 0x7f then utf8_ok t
    else match t with
      | [] => false
      | b :: t =>
        if 0xc2 ≤ a && a ≤ 0xdf then utf8_cont b && utf8_ok t
        else match t with
          | [] => false
          | c :: t =>
            if a == 0xe0 then 0xa0 ≤ b && b ≤ 0xbf && utf8_cont c && utf8_ok t
            else if a == 0xed then 0x80 ≤ b && b ≤ 0x9f && utf8_cont c && utf8_ok t
            else if 0xe1 ≤ a && a ≤ 0xef then utf8_cont b && utf8_cont c && utf8_ok t
            else match t with
              | [] => false
              | d :: t =>
                if a == 0xf0 then 0x90 ≤ b && b ≤ 0xbf && utf8_cont c && utf8_cont d && utf8_ok t
                else if 0xf1 ≤ a && a ≤ 0xf3 then utf8_cont b && utf8_cont c && utf8_cont d && utf8_ok t
                else if a == 0xf4 then 0x80 ≤ b && b ≤ 0x8f && utf8_cont c && utf8_cont d && utf8_ok t
                else false

theorem utf8_ok_append {a : Bytes} (h : utf8_ok a = true) (t : Bytes) : utf8_ok (a ++ t) = utf8_ok t := by
  fun_induction utf8_ok a
  case case1 => rfl
  -- the branches that reject are gone; in the others the same branch is taken with `t` appended
  all_goals first
    | cases h
    | rw [List.cons_append, utf8_ok.eq_def]
      simp only [Bool.and_eq_true, decide_eq_true_eq] at *
      simp only [*, List.cons_append, and_self, if_true, if_false, decide_true, Bool.true_and, Bool.false_eq_true]

theorem utf8_ok_ascii {t : Bytes} (h : ∀ b ∈ t, b ≤ 0x7f) : utf8_ok t = true := by
  induction t with
  | nil => rfl
  | cons b t ih =>
    rw [utf8_ok.eq_def]
    simp [h b (by simp), ih fun c hc => h c (by simp [hc])]

/-- An ASCII byte is part of no longer sequence: the text is valid when what stands before
it and what stands after it are. -/
theorem utf8_ok_around {b : UInt8} (hb : b ≤ 0x7f) (a t : Bytes) :
    utf8_ok (a ++ b :: t) = (utf8_ok a && utf8_ok t) := by
  have hcont : utf8_cont b = false ∧ decide (0x80 ≤ b) = false ∧ decide (0x90 ≤ b) = false ∧
      decide (0xa0 ≤ b) = false :=
    forall_byte (p := fun b => b ≤ 0x7f → utf8_cont b = false ∧ decide (0x80 ≤ b) = false ∧
      decide (0x90 ≤ b) = false ∧ decide (0xa0 ≤ b) = false) (by decide +kernel) b hb
  fun_induction utf8_ok a
  case case1 =>
    rw [List.nil_append, utf8_ok.eq_def]
    simp only [hb, if_true, Bool.true_and]
  -- the same branch is taken with more appended; a sequence cut short meets `b` and is rejected
  all_goals
    simp only [List.cons_append, List.nil_append]
    rw [utf8_ok.eq_def]
    simp only [*, if_true, if_false, Bool.and_assoc, Bool.false_and, Bool.and_false, Bool.false_eq_true]
  all_goals
    repeat' split
  all_goals rfl

/-- `std::str::from_utf8`. -/
def from_utf8 (v : Bytes) : Option Bytes := if utf8_ok v then some v else none

/-- `str::trim_start`: drops leading Unicode `White_Space`. -/
def trim_start : Bytes → Bytes
  | [] => []
  | a :: t =>
    if a == 32 || (9 ≤ a && a ≤ 13) then trim_start t
    else match a, t with
      | 0xc2, 0x85 :: t => trim_start t
      | 0xc2, 0xa0 :: t => trim_start t
      | 0xe1, 0x9a :: 0x80 :: t => trim_start t
      | 0xe2, 0x80 :: c :: t =>
        if (0x80 ≤ c && c ≤ 0x8a) || c == 0xa8 || c == 0xa9 || c == 0xaf then trim_start t
        else a :: 0x80 :: c :: t
      | 0xe2, 0x81 :: 0x9f :: t => trim_start t
      | 0xe3, 0x80 :: 0x80 :: t => trim_start t
      | _, _ => a :: t

/-- Leading white space of a reversed `str`: the code points' bytes come last first. -/
def trim_start_rev : Bytes → Bytes
  | [] => []
  | a :: t =>
    if a == 32 || (9 ≤ a && a ≤ 13) then trim_start_rev t
    else match a, t with
      | 0x85, 0xc2 :: t => trim_start_rev t
      | 0xa0, 0xc2 :: t => trim_start_rev t
      | 0x80, 0x9a :: 0xe1 :: t => trim_start_rev t
      | 0x9f, 0x81 :: 0xe2 :: t => trim_start_rev t
      | 0x80, 0x80 :: 0xe3 :: t => trim_start_rev t
      | c, 0x80 :: 0xe2 :: t =>
        if (0x80 ≤ c && c ≤ 0x8a) || c == 0xa8 || c == 0xa9 || c == 0xaf then trim_start_rev t
        else c :: 0x80 :: 0xe2 :: t
      | _, _ => a :: t

/-- `str::trim`. -/
def trim (s : Bytes) : Bytes := (trim_start_rev (trim_start s).reverse).reverse

/-! ## Parsing integers -/

/-- `char::to_digit(16)` of an ASCII byte. -/
def hex_digit (b : UInt8) : Option Nat :=
  if is_ascii_digit b then some (b.toNat - 48)
  else if 97 ≤ b && b ≤ 102 then some (b.toNat - 87)
  else if 65 ≤ b && b ≤ 70 then some (b.toNat - 55)
  else none

/-- `char::to_digit(radix)` for the radices the program uses (10 and 16). -/
def to_digit (radix : Nat) (b : UInt8) : Option Nat := (hex_digit b).filter (· < radix)

/-- The digits of a number, most significant first, read onto `acc`; a digit out
of the radix or a value over `top` is an error. -/
def parse_digits (radix top : Nat) : Nat → Bytes → Option Nat
  | acc, [] => some acc
  | acc, b :: t =>
    match to_digit radix b with
    | none => none
    | some d => if acc * radix + d ≤ top then parse_digits radix top (acc * radix + d) t else none

/-- `u64::from_str_radix`: at least one digit, after an optional `+`. -/
def from_str_radix (radix top : Nat) (s : Bytes) : Option Nat :=
  match s with
  | [] => none
  | [43] => none
  | 43 :: t => parse_digits radix top 0 t
  | s => parse_digits radix top 0 s

/-- `str::parse::<u64>`. -/
def parse_u64 (s : Bytes) : Option Nat := from_str_radix 10 U64_MAX s

/-- `str::parse::<u32>`. -/
def parse_u32 (s : Bytes) : Option Nat := from_str_radix 10 U32_MAX s

/-- `str::parse::<u16>`. -/
def parse_u16 (s : Bytes) : Option Nat := from_str_radix 10 U16_MAX s

/-! ## Splitting -/

/-- `slice.split(|&b| b == sep)`. -/
def split_on (sep : UInt8) : Bytes → List Bytes
  | [] => [[]]
  | b :: t =>
    if b == sep then [] :: split_on sep t
    else match split_on sep t with
      | [] => [[b]]
      | p :: ps => (b :: p) :: ps

/-- `str::split_whitespace`: `skip` bytes of white space are still to pass, `word` was read so
far, last byte first. -/
def split_words : Nat → Bytes → Bytes → List Bytes
  | _, word, [] => if word.isEmpty then [] else [word.reverse]
  | skip + 1, word, _ :: t => split_words skip word t
  | 0, word, b :: t =>
    match (b :: t).length - (trim_start (b :: t)).length with
    | 0 => split_words 0 (b :: word) t
    | white + 1 => (if word.isEmpty then [] else [word.reverse]) ++ split_words white [] t

def split_whitespace (s : Bytes) : List Bytes := split_words 0 [] s

/-- `str::lines`: a carriage return is part of the line end, but not at the end of the text. -/
def lines (s : Bytes) : List Bytes :=
  let pieces := split_on 10 s
  let strip (line : Bytes) : Bytes := if line.getLast? = some 13 then line.dropLast else line
  pieces.dropLast.map strip ++ pieces.getLast?.toList.filter (!·.isEmpty)

/-- `str::rfind` of an ASCII character. -/
def rfind (c : UInt8) (s : Bytes) : Option Nat := (s.reverse.idxOf? c).map (s.length - 1 - ·)

theorem split_on_ne_nil : split_on sep s ≠ [] := by
  cases s with
  | nil => simp [split_on]
  | cons b t =>
    rw [split_on]
    split
    · simp
    · split <;> simp

theorem split_on_append (a b : Bytes) :
    split_on sep (a ++ sep :: b) = split_on sep a ++ split_on sep b := by
  induction a with
  | nil => simp [split_on]
  | cons x a ih =>
    rw [List.cons_append, split_on, split_on, ih]
    split
    · rfl
    · cases h : split_on sep a with
      | nil => exact absurd h (split_on_ne_nil sep a)
      | cons p ps => rfl

theorem split_on_free {sep : UInt8} {s : Bytes} (h : sep ∉ s) : split_on sep s = [s] := by
  induction s with
  | nil => rfl
  | cons b t ih =>
    have hb : (b == sep) = false := by simpa using fun e => h (by simp [e])
    rw [split_on, hb, ih fun ht => h (by simp [ht])]
    rfl

/-- Joined pieces come apart again. -/
theorem split_on_intercalate {sep : UInt8} {pieces : List Bytes} (hne : pieces ≠ []) (h : ∀ p ∈ pieces, sep ∉ p) :
    split_on sep ([sep].intercalate pieces) = pieces := by
  induction pieces with
  | nil => exact absurd rfl hne
  | cons p pieces ih =>
    cases pieces with
    | nil => simpa [List.intercalate] using split_on_free (h p (by simp))
    | cons q pieces =>
      have hjoin : [sep].intercalate (p :: q :: pieces) = p ++ sep :: [sep].intercalate (q :: pieces) := by
        simp [List.intercalate]
      rw [hjoin, split_on_append, split_on_free (h p (by simp)), ih (by simp) fun p' hp' => h p' (by simp [hp'])]
      rfl

theorem length_split_on : (split_on sep s).length = s.count sep + 1 := by
  induction s with
  | nil => rfl
  | cons b t ih =>
    rw [split_on, List.count_cons]
    split
    · rw [List.length_cons, ih]
    · cases h : split_on sep t with
      | nil => exact absurd h (split_on_ne_nil sep t)
      | cons p ps =>
        rw [← ih, h]
        rfl

theorem not_mem_split_on : ∀ p ∈ split_on sep s, sep ∉ p := by
  induction s with
  | nil => simp [split_on]
  | cons b t ih =>
    rw [split_on]
    split
    · intro p hp
      rcases List.mem_cons.1 hp with rfl | hp
      · simp
      · exact ih p hp
    · rename_i hb
      cases h : split_on sep t with
      | nil => exact absurd h (split_on_ne_nil sep t)
      | cons q qs =>
        rw [h] at ih
        have hne : sep ≠ b := fun e => hb (by simp [e])
        intro p hp
        rcases List.mem_cons.1 hp with rfl | hp
        · simpa [hne] using ih q (by simp)
        · exact ih p (by simp [hp])

theorem split_on_head {sep : UInt8} {a : Bytes} (h : sep ∉ a) (t : Bytes) :
    ∃ q qs, split_on sep t = q :: qs ∧ split_on sep (a ++ t) = (a ++ q) :: qs := by
  cases ht : split_on sep t with
  | nil => exact absurd ht (split_on_ne_nil sep t)
  | cons q qs =>
    refine ⟨q, qs, rfl, ?_⟩
    induction a with
    | nil => exact ht
    | cons b a ih =>
      have hb : (b == sep) = false := by simpa using fun e => h (by simp [e])
      rw [List.cons_append, split_on, hb, ih fun ha => h (by simp [ha])]
      rfl

end Symphony
