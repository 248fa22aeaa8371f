import Mathlib.Data.List.Basic
import Mathlib.Logic.Relation
/-!
# Copying a stream

One direction of a copy: items are read into a buffer and written from it, in
chunks of any size and in any order of reads and writes. Whenever it stops, what
was written is a prefix of the stream, and all of it once nothing is left to read
or to write.
-/

namespace Symphony.Lib

/-- What is left to read, what was read but not written, and what was written. -/
structure Copy (α : Type) where
  unread : List α
  buf : List α
  written : List α

namespace Copy

variable {α : Type}

def start (stream : List α) : Copy α := ⟨stream, [], []⟩

inductive Step : Copy α → Copy α → Prop
  | read (chunk rest buf written : List α) : Step ⟨chunk ++ rest, buf, written⟩ ⟨rest, buf ++ chunk, written⟩
  | write (unread chunk buf written : List α) : Step ⟨unread, chunk ++ buf, written⟩ ⟨unread, buf, written ++ chunk⟩

abbrev Run : Copy α → Copy α → Prop := Relation.ReflTransGen Step

/-- The stream a copy is of. -/
def whole (c : Copy α) : List α := c.written ++ c.buf ++ c.unread

/-- Nothing is left to read or to write. -/
def Drained (c : Copy α) : Prop := c.unread = [] ∧ c.buf = []

theorem Step.whole_eq {c c' : Copy α} (h : Step c c') : c'.whole = c.whole := by
  cases h <;> simp [whole]

theorem Run.whole_eq {c c' : Copy α} (h : Run c c') : c'.whole = c.whole := by
  induction h with
  | refl => rfl
  | tail _ hs ih => exact hs.whole_eq.trans ih

variable {stream : List α} {c : Copy α}

theorem Run.written_eq (h : Run (start stream) c) : c.written ++ (c.buf ++ c.unread) = stream := by
  have := Run.whole_eq h
  simpa [whole, start] using this

theorem Run.written_le (h : Run (start stream) c) : c.written <+: stream :=
  ⟨_, Run.written_eq h⟩

theorem Run.written_all (h : Run (start stream) c) (hd : c.Drained) : c.written = stream := by
  have := Run.written_eq h
  simpa [hd.1, hd.2] using this

theorem run_all (stream : List α) : Run (start stream) ⟨[], [], stream⟩ := by
  have hread := Step.read stream [] [] []
  have hwrite := Step.write [] stream [] []
  simp only [List.append_nil, List.nil_append] at hread hwrite
  exact (Relation.ReflTransGen.single hread).tail hwrite

end Copy

end Symphony.Lib
