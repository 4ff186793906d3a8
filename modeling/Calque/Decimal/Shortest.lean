import Calque.Decimal.Binary64

namespace Calque.Decimal

def leadingExponent (num den : Nat) : Int :=
  if den ≤ num then ((Nat.toDigits 10 (num / den)).length : Int) - 1
  else
    let d := (Nat.toDigits 10 (den / num)).length
    if den ≤ num * Nat.pow 10 (d - 1) then -((d : Int) - 1) else -(d : Int)

def scale10 (num den : Nat) (k : Int) : Nat × Nat :=
  if 0 ≤ k then (num, den * Nat.pow 10 k.toNat) else (num * Nat.pow 10 (-k).toNat, den)

namespace Binary64

/-- Whether `c * 10 ^ k` reads back as `x`: it lies in the interval of the reals that round to `x`,
whose ends belong to it when the mantissa is even. Everything is measured in quarters of the gap
above `x`; below a power of two the gap is half as wide. -/
def readsBack (x : Binary64) (c : Nat) (k : Int) : Bool :=
  let below := if x.mantissa = minMantissa && x.exponent ≠ -1074 then 1 else 2
  let v := scale10 (4 * c) 1 (-k)
  let s := scale v.1 v.2 x.exponent
  let low := (4 * x.mantissa - below) * s.2
  let high := (4 * x.mantissa + 2) * s.2
  if x.mantissa % 2 = 0 then low ≤ s.1 && s.1 ≤ high else low < s.1 && s.1 < high

def onGrid (x : Binary64) (k : Int) : Option Nat :=
  let s := scale10 x.toRatio.1 x.toRatio.2 k
  let down := s.1 / s.2
  let nearest := roundDiv s.1 s.2
  let farther := if nearest = down then down + 1 else down
  if x.readsBack nearest k then some nearest
  else if x.readsBack farther k then some farther
  else none

def shortest (x : Binary64) : Nat × Int :=
  let e := leadingExponent x.toRatio.1 x.toRatio.2
  let grids := (List.range 17).map fun (n : Nat) => e - n
  (grids.findSome? fun k => (x.onGrid k).map (·, k)).getD (0, 0)

end Binary64

def stripZeros (n : Nat) : List Char × Nat :=
  let ds := (Nat.toDigits 10 n).reverse
  ((ds.dropWhile (· = '0')).reverse, (ds.takeWhile (· = '0')).length)

def positional (digits : List Char) (exponent : Int) : List Char :=
  if 0 ≤ exponent then digits ++ List.replicate exponent.toNat '0' ++ ['.', '0']
  else
    let places := (-exponent).toNat
    if places < digits.length then
      digits.take (digits.length - places) ++ '.' :: digits.drop (digits.length - places)
    else '0' :: '.' :: List.replicate (places - digits.length) '0' ++ digits

def scientific (digits : List Char) (leading : Int) : List Char :=
  let fraction := match digits.drop 1 with
    | [] => []
    | rest => '.' :: rest
  digits.take 1 ++ fraction ++ 'e' :: (if leading < 0 then '-' else '+') ::
    Nat.toDigits 10 leading.natAbs

def Binary64.toText (x : Binary64) : String :=
  let unsigned :=
    if x.isZero then ['0', '.', '0']
    else
      let (c, k) := x.shortest
      let (digits, zeros) := stripZeros c
      let exponent := k + zeros
      let leading := exponent + digits.length - 1
      if -5 ≤ leading ∧ leading < 16 then positional digits exponent else scientific digits leading
  .ofList (if x.negative then '-' :: unsigned else unsigned)

end Calque.Decimal
