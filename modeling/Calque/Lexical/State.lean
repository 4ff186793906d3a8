import Calque.Lexical.Mark

namespace Calque.Lexical

/-- What the byte before the next one keeps open inside a literal. -/
inductive Held
  | nothing
  | backslash
  /-- An opening brace outside a hole, not yet known to be the first half of a doubled one. -/
  | brace
  deriving DecidableEq, Repr

structure Literal where
  /-- The offset of the opening quote. -/
  start : Nat
  quote : Quote
  template : Bool
  /-- The number of open holes. -/
  depth : Nat
  held : Held
  deriving DecidableEq, Repr

inductive Mode
  | code (afterLetter : Bool)
  | literal (l : Literal)
  deriving DecidableEq, Repr

/-- What the first `#` of the current line has settled, if there has been one. -/
inductive LineMark
  | clear
  | comment
  /-- The first `#` stood in a literal: no comment starts on this line any more. -/
  | quoted
  deriving DecidableEq, Repr

structure State where
  offset : Nat
  mode : Mode
  line : LineMark
  deriving DecidableEq, Repr

def Literal.read (l : Literal) : Mark → Mode
  | .backslash => .literal { l with held := .backslash }
  | .quote q => if q = l.quote then .code false else .literal l
  | .openBrace =>
    if !l.template then .literal l
    else if l.depth = 0 then .literal { l with held := .brace }
    else .literal { l with depth := l.depth + 1 }
  | .closeBrace => .literal { l with depth := l.depth - 1 }
  | _ => .literal l

def Literal.step (l : Literal) (m : Mark) : Mode :=
  match l.held, m with
  | .nothing, m => l.read m
  | .backslash, _ => .literal { l with held := .nothing }
  | .brace, .openBrace => .literal { l with held := .nothing }
  | .brace, m => { l with depth := 1, held := .nothing : Literal }.read m

def Mode.step (offset : Nat) : Mode → Mark → Mode
  | .code afterLetter, .quote q => .literal ⟨offset, q, afterLetter, 0, .nothing⟩
  | .code _, m => .code (m = .templateLetter)
  | .literal l, m => l.step m

def LineMark.step (mode : Mode) : LineMark → Mark → LineMark
  | _, .newline => .clear
  | .clear, .hash =>
    match mode with
    | .code _ => .comment
    | .literal _ => .quoted
  | line, _ => line

def State.step (s : State) (m : Mark) : State :=
  ⟨s.offset + 1, s.mode.step s.offset m, s.line.step s.mode m⟩

def State.start : State := ⟨0, .code false, .clear⟩

def State.run (s : State) (ms : List Mark) : State := ms.foldl State.step s

@[simp] theorem State.run_nil (s : State) : s.run [] = s := rfl

@[simp] theorem State.run_cons (s : State) (m : Mark) (ms : List Mark) :
    s.run (m :: ms) = (s.step m).run ms := rfl

theorem State.run_append (s : State) (ms ns : List Mark) : s.run (ms ++ ns) = (s.run ms).run ns :=
  List.foldl_append

theorem State.offset_run (s : State) (ms : List Mark) :
    (s.run ms).offset = s.offset + ms.length := by
  induction ms generalizing s with
  | nil => rfl
  | cons m ms ih => simp [ih, State.step]; omega

end Calque.Lexical
