import Calque.Dictionary.Entry
import Calque.Text.Bytes
import Calque.Text.Word

namespace Calque

inductive Piece
  | other (c : Char)
  /-- An occurrence of the word that is searched for. -/
  | found
  deriving DecidableEq, Repr

/-- Whether an occurrence with these neighbours stands as a word of the class. No word character may
come before it; after it a structural word wants none either, a callable word an opening parenthesis
at once. -/
def WordClass.fits (cls : WordClass) (before after : Option Char) : Bool :=
  !isWordChar? before &&
    match cls with
    | .structural => !isWordChar? after
    | .callable => after == some '('

/-- The pieces of a text that `before` precedes, for the word `w :: ws`. The search goes from left
to right and never overlaps: an occurrence uses up its characters also where it does not fit. -/
def piecesFrom (w : Char) (ws : List Char) (cls : WordClass) (before : Option Char) :
    List Char → List Piece
  | [] => []
  | c :: text =>
    if w = c ∧ ws.isPrefixOf text then
      let rest := text.drop ws.length
      let last := (w :: ws).getLast?
      if cls.fits before rest.head? then .found :: piecesFrom w ws cls last rest
      else (w :: ws).map .other ++ piecesFrom w ws cls last rest
    else .other c :: piecesFrom w ws cls (some c) text
termination_by text => text.length
decreasing_by all_goals simp only [List.length_cons, List.length_drop]; omega

def pieces (cls : WordClass) (word text : List Char) : List Piece :=
  match word with
  | [] => text.map .other
  | w :: ws => piecesFrom w ws cls none text

def Piece.chars (word : List Char) : Piece → List Char
  | .other c => [c]
  | .found => word

theorem flatten_map_other (word text : List Char) :
    (text.map Piece.other).flatMap (Piece.chars word) = text := by
  induction text with
  | nil => rfl
  | cons c text ih => simp [Piece.chars, ih]

theorem flatten_piecesFrom (w : Char) (ws : List Char) (cls : WordClass) (before : Option Char)
    (text : List Char) :
    (piecesFrom w ws cls before text).flatMap (Piece.chars (w :: ws)) = text := by
  fun_induction piecesFrom w ws cls before text with
  | case1 => rfl
  | case2 before c text h rest last _ ih =>
    obtain ⟨t, rfl⟩ := List.isPrefixOf_iff_prefix.mp h.2
    simpa [Piece.chars, rest, h.1] using ih
  | case3 before c text h rest last _ ih =>
    obtain ⟨t, rfl⟩ := List.isPrefixOf_iff_prefix.mp h.2
    rw [List.flatMap_append, flatten_map_other, ih]
    simp [rest, h.1]
  | case4 before c text _ ih => simp [Piece.chars, ih]

theorem flatten_pieces (cls : WordClass) (word text : List Char) :
    (pieces cls word text).flatMap (Piece.chars word) = text := by
  cases word with
  | nil => exact flatten_map_other [] text
  | cons w ws => exact flatten_piecesFrom w ws cls none text

def foundOffsets (word : List Char) (pos : Nat) : List Piece → List Nat
  | [] => []
  | .other c :: ps => foundOffsets word (pos + c.utf8Size) ps
  | .found :: ps => pos :: foundOffsets word (pos + width word) ps

/-- The candidates for a substitution: the offsets at which `word` stands as a word of its class. -/
def candidates (cls : WordClass) (word text : List Char) : List Nat :=
  foundOffsets word 0 (pieces cls word text)

theorem length_foundOffsets (word : List Char) (pos : Nat) (ps : List Piece) :
    (foundOffsets word pos ps).length = ps.count .found := by
  fun_induction foundOffsets word pos ps with
  | case1 => rfl
  | case2 _ c ps ih => simp [ih]
  | case3 _ ps ih => simp [ih]

end Calque
