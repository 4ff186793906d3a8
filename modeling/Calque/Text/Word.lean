import Calque.Text.Range
import Calque.Text.WordTable

namespace Calque

/-- Letters, digits of every kind, and the underscore. -/
def isWordChar (c : Char) : Bool :=
  if c.toNat < 128 then c.isAlphanum || c == '_' else Text.inRanges c.toNat Text.wordRanges

def isWordChar? (c : Option Char) : Bool := c.any isWordChar

def isWord (w : List Char) : Bool := !w.isEmpty && w.all isWordChar

theorem isWord_iff {w : List Char} : isWord w = true ↔ w ≠ [] ∧ ∀ c ∈ w, isWordChar c = true := by
  simp [isWord]

theorem isWordChar?_none : isWordChar? none = false := rfl

theorem isWordChar?_some (c : Char) : isWordChar? (some c) = isWordChar c := rfl

end Calque
