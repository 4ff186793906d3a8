namespace Calque

/-- Structural words are replaced wherever they stand as whole words, callable words only where they
are called. -/
inductive WordClass
  | structural
  | callable
  deriving DecidableEq, Repr

structure WordPair where
  dialect : String
  host : String
  deriving DecidableEq, Repr

structure Entry where
  wordClass : WordClass
  pair : WordPair
  deriving DecidableEq, Repr

structure Counts where
  structural : Nat
  callable : Nat
  deriving DecidableEq, Repr

namespace Counts

def zero : Counts := ⟨0, 0⟩

def total (c : Counts) : Nat := c.structural + c.callable

def add (c : Counts) (cls : WordClass) (n : Nat) : Counts :=
  match cls with
  | .structural => { c with structural := c.structural + n }
  | .callable => { c with callable := c.callable + n }

theorem total_add (c : Counts) (cls : WordClass) (n : Nat) : (c.add cls n).total = c.total + n := by
  cases cls <;> simp [add, total] <;> omega

end Counts

end Calque
