import Calque.Lexical.Mark
import Calque.Text.Word

namespace Calque.Lexical

/-- The quote left open by `ms` when `q` is open before them. Inside a literal a backslash covers
the byte after it. -/
def openAfter : Option Quote → List Mark → Option Quote
  | q, [] => q
  | some q, .backslash :: _ :: ms => openAfter (some q) ms
  | none, .quote q :: ms => openAfter (some q) ms
  | some q, .quote r :: ms => openAfter (if r = q then none else some q) ms
  | q, _ :: ms => openAfter q ms

def insideString (text : String) (pos : Nat) : Bool :=
  let ms := marks text.toList
  pos < ms.length && (openAfter none (ms.take pos)).isSome

def lineStart (ms : List Mark) : Nat :=
  ms.length - (ms.reverse.takeWhile (· ≠ .newline)).length

/-- A comment runs from the first `#` of a line to its end, unless that `#` is in a literal. -/
def insideComment (text : String) (pos : Nat) : Bool :=
  let seen := (marks text.toList).take pos
  let start := lineStart seen
  match (seen.drop start).findIdx? (· = .hash) with
  | some k => !insideString text (start + k)
  | none => false

/-- Whether the character around offset `pos` of `text` and one of its two neighbours differ in
being word characters; `before` precedes the text. A missing neighbour is not one. -/
def boundaryAt (before : Option Char) : Nat → List Char → Bool
  | _, [] => true
  | pos, c :: text =>
    if pos < c.utf8Size then
      isWordChar c != isWordChar? before || isWordChar c != isWordChar? text.head?
    else boundaryAt (some c) (pos - c.utf8Size) text

def wordBoundary (text : String) (pos : Nat) : Bool := boundaryAt none pos text.toList

def templateQuote (text : String) (pos : Nat) : Bool :=
  0 < pos && (marks text.toList)[pos - 1]? = some .templateLetter

end Calque.Lexical
