import Calque.Bounded.Lexical
import Calque.Substitution.Chain
import Calque.Substitution.Rescan

namespace Calque.Bounded

def stands (cls : WordClass) (word text : List Char) (pos : Nat) : Bounded Bool := do
  let before ← cut text 0 pos
  let stop ← add pos (width word)
  let after ← cut text stop (width text)
  return cls.fits before.getLast? after.head?

def candidates (cls : WordClass) (word text : List Char) : Bounded (List Nat) :=
  filter (stands cls word text) (occurrences word text)

/-- A pass under way. The index is built for the first occurrence. -/
structure Rewriting where
  index : Option Tables
  out : List Char
  /-- The offset up to which the text is copied. -/
  last : Nat
  rewritten : Nat
  skipped : Nat

def Rewriting.start : Rewriting := ⟨none, [], 0, 0, 0⟩

def Rewriting.tables (text : String) (s : Rewriting) : Bounded Tables :=
  match s.index with
  | some tables => pure tables
  | none => build text

def Rewriting.step (o : Options) (cls : WordClass) (old new text : String) (s : Rewriting)
    (pos : Nat) : Bounded Rewriting := do
  let tables ← s.tables text
  match o.protects cls (tables.place pos) with
  | some _ => return { s with index := some tables, skipped := s.skipped + 1 }
  | none =>
    let part ← cut text.toList s.last pos
    let last ← add pos (width old.toList)
    return ⟨some tables, s.out ++ part ++ new.toList, last, s.rewritten + 1, s.skipped⟩

def rewrite (o : Options) (cls : WordClass) (old new text : String) : Bounded (Option String) := do
  let found ← candidates cls old.toList text.toList
  let s ← found.foldlM (Rewriting.step o cls old new text) .start
  if 0 < s.rewritten then
    let rest ← cut text.toList s.last (width text.toList)
    return some (.ofList (s.out ++ rest))
  else
    return none

def replaceAs (cls : WordClass) (source old new : String) (o : Options) : Bounded String := do
  let out ← rewrite o cls old new source
  return out.getD source

def count (d : Dictionary) (source : String) : Bounded Counts :=
  d.entries.foldlM (fun n e => do
    let found ← candidates e.wordClass e.pair.dialect.toList source.toList
    return n.add e.wordClass found.length) .zero

def toHost (d : Dictionary) (o : Options) (source : String) : Bounded String :=
  d.entries.foldlM (fun text e => replaceAs e.wordClass text e.pair.dialect e.pair.host o) source

end Calque.Bounded
