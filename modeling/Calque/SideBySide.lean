import Calque.Text.Split

namespace Calque.SideBySide

def leftWidth : Nat := 45

def rightWidth : Nat := 50

def rule (c : Char) : List Char := List.replicate 100 c

def lines (text : List Char) : List (List Char) := text.splitOn '\n'

def clip (width : Nat) (line : List Char) : List Char :=
  if width < line.length then line.take (width - 3) ++ ['.', '.', '.'] else line

def pad (width : Nat) (line : List Char) : List Char :=
  line ++ List.replicate (width - line.length) ' '

def cell (width : Nat) (line : List Char) : List Char := pad width (clip width line)

theorem length_cell {width : Nat} (h : 3 ≤ width) (line : List Char) :
    (cell width line).length = width := by
  simp only [cell, pad, clip]
  split <;> simp <;> omega

inductive Style
  | bold
  | yellow
  | green
  deriving DecidableEq, Repr

structure Palette where
  start : Style → List Char
  stop : Style → List Char

def escape (code : List Char) : List Char := '\x1b' :: '[' :: (code ++ ['m'])

def ansi : Palette where
  start
    | .bold => escape ['1']
    | .yellow => escape ['3', '8', ';', '5', ';', '1', '1']
    | .green => escape ['3', '8', ';', '5', ';', '1', '0']
  stop
    | .bold => escape ['0']
    | .yellow | .green => escape ['3', '9']

def Style.apply (s : Style) (palette : Option Palette) (text : List Char) : List Char :=
  match palette with
  | some p => p.start s ++ text ++ p.stop s
  | none => text

def separator : List Char := [' ', '|', ' ']

def header : List Char :=
  cell leftWidth "PT-BR".toList ++ separator ++ cell rightWidth "Python".toList

/-- A row is coloured when its lines differ, even where their cells look the same. -/
def row (palette : Option Palette) (left right : List Char) : List Char :=
  let palette := if left = right then none else palette
  Style.yellow.apply palette (cell leftWidth left) ++ separator ++
    Style.green.apply palette (cell rightWidth right)

def rows (palette : Option Palette) : List (List Char) → List (List Char) → List (List Char)
  | [], [] => []
  | l :: ls, [] => row palette l [] :: rows palette ls []
  | [], r :: rs => row palette [] r :: rows palette [] rs
  | l :: ls, r :: rs => row palette l r :: rows palette ls rs

def viewLines (palette : Option Palette) (left right : List Char) : List (List Char) :=
  [rule '=', Style.bold.apply palette "TRANSLATION DEBUG VIEW".toList, rule '=',
    Style.bold.apply palette header, rule '-'] ++
    rows palette (lines left) (lines right) ++ [rule '=']

def view (palette : Option Palette) (left right : String) : String :=
  .ofList ((viewLines palette left.toList right.toList).flatMap (· ++ ['\n']))

end Calque.SideBySide
