import Calque.Lexical.State

namespace Calque.Lexical

structure Place where
  /-- The offset of the opening quote of the literal around the byte. -/
  stringStart : Option Nat
  template : Bool
  hole : Bool
  comment : Bool
  deriving DecidableEq, Repr

def Place.outside : Place := ⟨none, false, false, false⟩

def Place.inString (p : Place) : Bool := p.stringStart.isSome

/-- The place of the byte `m` in the state before it. Of two opening braces outside a hole the
second is text; any other byte after the first brace is in its hole. -/
def State.place (s : State) (m : Mark) : Place :=
  match s.mode with
  | .code _ => ⟨none, false, false, s.line = .comment⟩
  | .literal l =>
    ⟨some l.start, l.template, 0 < l.depth || (l.held = .brace && m ≠ .openBrace),
      s.line = .comment⟩

def State.places : State → List Mark → List Place
  | _, [] => []
  | s, m :: ms => s.place m :: (s.step m).places ms

@[simp] theorem State.length_places (s : State) (ms : List Mark) :
    (s.places ms).length = ms.length := by
  induction ms generalizing s with
  | nil => rfl
  | cons m ms ih => simp [State.places, ih]

theorem State.places_append (s : State) (ms ns : List Mark) :
    s.places (ms ++ ns) = s.places ms ++ (s.run ms).places ns := by
  induction ms generalizing s with
  | nil => rfl
  | cons m ms ih => simp [State.places, ih]

structure Index where
  places : Array Place

def Index.ofChars (text : List Char) : Index := ⟨(State.start.places (marks text)).toArray⟩

def Index.ofText (text : String) : Index := .ofChars text.toList

def Index.place (index : Index) (pos : Nat) : Place := index.places[pos]?.getD .outside

def Index.stringStart? (index : Index) (pos : Nat) : Option Nat := (index.place pos).stringStart

def Index.inString (index : Index) (pos : Nat) : Bool := (index.place pos).inString

def Index.inTemplate (index : Index) (pos : Nat) : Bool := (index.place pos).template

def Index.inHole (index : Index) (pos : Nat) : Bool := (index.place pos).hole

def Index.inComment (index : Index) (pos : Nat) : Bool := (index.place pos).comment

theorem Index.place_ofChars (text : List Char) (pos : Nat) :
    (Index.ofChars text).place pos = ((State.start.places (marks text))[pos]?).getD .outside := by
  simp [Index.place, Index.ofChars]

end Calque.Lexical
