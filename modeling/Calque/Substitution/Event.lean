import Calque.Substitution.Chain

namespace Calque

inductive Event
  /-- An occurrence was left alone; `pos` is its offset in the text of that pass. -/
  | leftAlone (word : String) (pos : Nat) (reason : Reason)
  | passDone (word : String) (replaced skipped : Nat)
  /-- The totals of all passes, and the number of bytes of the source. -/
  | finished (replaced : Counts) (skipped bytes : Nat)
  deriving DecidableEq, Repr

def Pass.events (word : String) (p : Pass) : List Event :=
  p.skipped.map (fun s => .leftAlone word s.1 s.2) ++
    if p.met = 0 then [] else [.passDone word p.replaced p.skipped.length]

def replacedIn (ps : List (Entry × Pass)) : Counts :=
  ps.foldl (fun n s => n.add s.1.wordClass s.2.replaced) .zero

def skippedIn (ps : List (Entry × Pass)) : Nat :=
  ps.foldl (fun n s => n + s.2.skipped.length) 0

def Dictionary.journal (d : Dictionary) (o : Options) (source : String) : List Event :=
  let ps := d.passes o source
  ps.flatMap (fun s => s.2.events s.1.pair.dialect) ++
    [.finished (replacedIn ps) (skippedIn ps) (width source.toList)]

end Calque
