import Calque.Json.Fault
import Calque.Json.Grammar

namespace Calque.Json

def someDigits (cs : List Char) : Except Fault (List Char × List Char) :=
  match cs with
  | [] => .error (.ended .value)
  | c :: _ =>
    if c.isDigit then .ok (cs.takeWhile Char.isDigit, cs.dropWhile Char.isDigit)
    else .error .malformedNumber

def scanFraction : List Char → Except Fault (List Char × List Char)
  | '.' :: cs => someDigits cs
  | cs => .ok ([], cs)

def scanSign : List Char → Bool × List Char
  | '-' :: cs => (true, cs)
  | '+' :: cs => (false, cs)
  | cs => (false, cs)

def scanExponent : List Char → Except Fault (Option (Bool × List Char) × List Char)
  | [] => .ok (none, [])
  | c :: cs =>
    if c = 'e' ∨ c = 'E' then do
      let (negative, cs) := scanSign cs
      let (digits, cs) ← someDigits cs
      .ok (some (negative, digits), cs)
    else .ok (none, c :: cs)

def scanWhole (cs : List Char) : Except Fault (List Char × List Char) := do
  let (digits, cs) ← someDigits cs
  match digits with
  | '0' :: _ :: _ => .error .malformedNumber
  | _ => .ok (digits, cs)

def scanNumeral (negative : Bool) (cs : List Char) : Except Fault (Numeral × List Char) := do
  let (whole, cs) ← scanWhole cs
  let (fraction, cs) ← scanFraction cs
  let (exponent, cs) ← scanExponent cs
  .ok (⟨negative, whole, fraction, exponent⟩, cs)

def digitValue (c : Char) : Nat := c.toNat - '0'.toNat

def digitsValue (ds : List Char) : Nat := ds.foldl (fun n d => 10 * n + digitValue d) 0

def appendDigits (n : Nat) : List Char → Nat × List Char
  | [] => (n, [])
  | d :: ds =>
    if 10 * n + digitValue d < wordSize then appendDigits (10 * n + digitValue d) ds
    else (n, d :: ds)

namespace Numeral

/-- Digits that no longer fit are dropped; those before the point still count for the exponent. -/
def toFloat (x : Numeral) : Except Fault Number :=
  let (n, dropped) := appendDigits 0 x.whole
  let (n, rest) := appendDigits n x.fraction
  let kept := x.fraction.length - rest.length
  let exponent : Int :=
    match x.exponent with
    | none => 0
    | some (negative, ds) => if negative then -(digitsValue ds : Int) else digitsValue ds
  match Decimal.Binary64.ofDecimal x.negative n (exponent + dropped.length - kept) with
  | some f => .ok (.float f)
  | none => .error .numberOutOfRange

/-- Without a point and an exponent a number is an integer, unless it is minus zero or does not fit:
non-negative ones stay below `wordSize`, negative ones go down to minus its half. -/
def toNumber (x : Numeral) : Except Fault Number :=
  let n := digitsValue x.whole
  if x.fraction = [] ∧ x.exponent = none then
    if !x.negative ∧ n < wordSize then .ok (.integer n)
    else if x.negative ∧ 0 < n ∧ n ≤ wordSize / 2 then .ok (.integer (-n))
    else x.toFloat
  else x.toFloat

end Numeral

end Calque.Json
