import Calque.Text.Bytes

namespace Calque.Lexical

inductive Quote
  | single
  | double
  deriving DecidableEq, Repr

inductive Mark
  | quote (q : Quote)
  | backslash
  | hash
  | newline
  | openBrace
  | closeBrace
  /-- The letter that turns a quote right after it into the start of a template. -/
  | templateLetter
  | plain
  deriving DecidableEq, Repr

def Mark.ofByte (b : UInt8) : Mark :=
  if b = 0x22 then .quote .double
  else if b = 0x27 then .quote .single
  else if b = 0x5C then .backslash
  else if b = 0x23 then .hash
  else if b = 0x0A then .newline
  else if b = 0x7B then .openBrace
  else if b = 0x7D then .closeBrace
  else if b = 0x66 ∨ b = 0x46 then .templateLetter
  else .plain

def marks (text : List Char) : List Mark := (bytes text).map Mark.ofByte

@[simp] theorem length_marks (text : List Char) : (marks text).length = width text := by
  simp [marks]

theorem marks_append (a b : List Char) : marks (a ++ b) = marks a ++ marks b := by
  simp [marks, bytes_append]

end Calque.Lexical
