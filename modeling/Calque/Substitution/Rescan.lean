import Calque.Lexical.Rescan
import Calque.Substitution.Options
import Calque.Substitution.Piece
import Calque.Text.Slice

namespace Calque

def occurrencesFrom (w : Char) (ws : List Char) (pos : Nat) : List Char → List Nat
  | [] => []
  | c :: text =>
    if w = c ∧ ws.isPrefixOf text then
      pos :: occurrencesFrom w ws (pos + width (w :: ws)) (text.drop ws.length)
    else occurrencesFrom w ws (pos + c.utf8Size) text
termination_by text => text.length
decreasing_by all_goals simp only [List.length_cons, List.length_drop]; omega

def occurrences (word text : List Char) : List Nat :=
  match word with
  | [] => []
  | w :: ws => occurrencesFrom w ws 0 text

def standsAt (cls : WordClass) (word text : List Char) (pos : Nat) : Bool :=
  cls.fits (takeBytes pos text).getLast? (dropBytes (pos + width word) text).head?

/-- The last offset before `pos` that is in no literal. -/
def lastOutside? (text : String) : Nat → Option Nat
  | 0 => none
  | pos + 1 => if Lexical.insideString text pos then lastOutside? text pos else some pos

/-- Whether the occurrence at `pos` is left alone. The literal around it does not protect a callable
word if it is a template. -/
def Options.protectsAt (o : Options) (cls : WordClass) (text : String) (pos : Nat) : Bool :=
  o.avoidComments && Lexical.insideComment text pos ||
    o.avoidStrings && Lexical.insideString text pos &&
      match cls with
      | .structural => true
      | .callable => !(lastOutside? text pos).any (Lexical.templateQuote text)

def keptOffsets (o : Options) (cls : WordClass) (word text : String) : List Nat :=
  (occurrences word.toList text.toList).filter fun pos =>
    standsAt cls word.toList text.toList pos && !o.protectsAt cls text pos

def splice (word new text : List Char) (last : Nat) : List Nat → List Char
  | [] => dropBytes last text
  | pos :: left => slice last pos text ++ new ++ splice word new text (pos + width word) left

def rescan (o : Options) (cls : WordClass) (source old new : String) : String :=
  .ofList (splice old.toList new.toList source.toList 0 (keptOffsets o cls old source))

end Calque
