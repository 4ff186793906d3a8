import Calque.Substitution.Options
import Calque.Substitution.Piece

namespace Calque

structure Pass where
  text : List Char
  replaced : Nat
  /-- The occurrences left alone, by offset in the text before the pass. -/
  skipped : List (Nat × Reason)
  deriving DecidableEq, Repr

def settle (verdict : Nat → Option Reason) (old new : List Char) (pos : Nat) : List Piece → Pass
  | [] => ⟨[], 0, []⟩
  | .other c :: ps =>
    let rest := settle verdict old new (pos + c.utf8Size) ps
    { rest with text := c :: rest.text }
  | .found :: ps =>
    let rest := settle verdict old new (pos + width old) ps
    match verdict pos with
    | none => { rest with text := new ++ rest.text, replaced := rest.replaced + 1 }
    | some reason =>
      { rest with text := old ++ rest.text, skipped := (pos, reason) :: rest.skipped }

/-- The index is made at the first occurrence that asks for it. -/
def substitute (o : Options) (cls : WordClass) (old new text : List Char) : Pass :=
  let index := Thunk.mk fun _ => Lexical.Index.ofChars text
  settle (fun pos => o.protects cls (index.get.place pos)) old new 0 (pieces cls old text)

def replacedOffsets (o : Options) (cls : WordClass) (old text : List Char) : List Nat :=
  (candidates cls old text).filter fun pos =>
    (o.protects cls ((Lexical.Index.ofChars text).place pos)).isNone

def Pass.met (p : Pass) : Nat := p.replaced + p.skipped.length

theorem met_settle (verdict : Nat → Option Reason) (old new : List Char) (pos : Nat)
    (ps : List Piece) : (settle verdict old new pos ps).met = ps.count .found := by
  fun_induction settle verdict old new pos ps with
  | case1 => rfl
  | case2 _ c ps rest ih => simpa [Pass.met, rest] using ih
  | case3 _ ps rest _ ih => simp [Pass.met, rest] at ih ⊢; omega
  | case4 _ ps rest reason _ ih => simp [Pass.met, rest] at ih ⊢; omega

def replaceWord (source old new : String) (o : Options) : String :=
  .ofList (substitute o .structural old.toList new.toList source.toList).text

def replaceCall (source old new : String) (o : Options) : String :=
  .ofList (substitute o .callable old.toList new.toList source.toList).text

def replaceAs (cls : WordClass) (source old new : String) (o : Options) : String :=
  match cls with
  | .structural => replaceWord source old new o
  | .callable => replaceCall source old new o

theorem toList_replaceAs (cls : WordClass) (source old new : String) (o : Options) :
    (replaceAs cls source old new o).toList =
      (substitute o cls old.toList new.toList source.toList).text := by
  cases cls <;> exact String.toList_ofList

end Calque
