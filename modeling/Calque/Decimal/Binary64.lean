namespace Calque.Decimal

/-- The number `± mantissa * 2 ^ exponent`. The exponent is at least -1074, and the mantissa lies in
`[2 ^ 52, 2 ^ 53)` unless the exponent is -1074, when it may be smaller. -/
structure Binary64 where
  negative : Bool
  mantissa : Nat
  exponent : Int
  deriving DecidableEq, Repr

def roundDiv (num den : Nat) : Nat :=
  let q := num / den
  let r := num % den
  if den < 2 * r || (2 * r == den && q % 2 == 1) then q + 1 else q

def scale (num den : Nat) (e : Int) : Nat × Nat :=
  if 0 ≤ e then (num, den * Nat.pow 2 e.toNat) else (num * Nat.pow 2 (-e).toNat, den)

def minMantissa : Nat := 0x10000000000000

namespace Binary64

def zero (negative : Bool) : Binary64 := ⟨negative, 0, -1074⟩

def isZero (x : Binary64) : Bool := x.mantissa == 0

def ofRatio (negative : Bool) (num den : Nat) : Option Binary64 :=
  if num = 0 then some (zero negative)
  else
    let low : Int := (num.log2 : Int) - den.log2 - 53
    let quotient := fun e => let s := scale num den e; s.1 / s.2
    let e := max (-1074) (if quotient low < 2 * minMantissa then low else low + 1)
    let s := scale num den e
    let m := roundDiv s.1 s.2
    let x : Binary64 :=
      if m = 2 * minMantissa then ⟨negative, minMantissa, e + 1⟩ else ⟨negative, m, e⟩
    if x.exponent ≤ 971 then some x else none

def ofNat (negative : Bool) (n : Nat) : Option Binary64 := ofRatio negative n 1

def toRatio (x : Binary64) : Nat × Nat :=
  if 0 ≤ x.exponent then (x.mantissa * Nat.pow 2 x.exponent.toNat, 1)
  else (x.mantissa, Nat.pow 2 (-x.exponent).toNat)

def mul (x y : Binary64) : Option Binary64 :=
  ofRatio x.negative (x.toRatio.1 * y.toRatio.1) (x.toRatio.2 * y.toRatio.2)

def div (x y : Binary64) : Option Binary64 :=
  if y.isZero then none
  else ofRatio x.negative (x.toRatio.1 * y.toRatio.2) (x.toRatio.2 * y.toRatio.1)

def pow10 (n : Nat) : Option Binary64 := ofRatio false (Nat.pow 10 n) 1

def maxPow10 : Nat := 308

def divPow10 (x : Binary64) (n : Nat) : Option Binary64 :=
  if n ≤ maxPow10 then do x.div (← pow10 n)
  else if x.isZero then some x
  else do divPow10 (← x.div (← pow10 maxPow10)) (n - maxPow10)
termination_by n
decreasing_by simp only [maxPow10] at *; omega

/-- The number written as `significand` and a decimal exponent. The significand is rounded first and
scaled by rounded powers of ten, so the result can miss the nearest number by a little. -/
def ofDecimal (negative : Bool) (significand : Nat) (exponent : Int) : Option Binary64 := do
  let x ← ofNat negative significand
  if exponent < 0 then x.divPow10 (-exponent).toNat
  else if exponent ≤ maxPow10 then x.mul (← pow10 exponent.toNat)
  else if x.isZero then some x
  else none

end Binary64

end Calque.Decimal
