import Calque.Decimal.Binary64

namespace Calque

namespace Json

def wordSize : Nat := 0x10000000000000000

/-- An integer that fits a word is exact, any other number is a binary floating-point number. -/
inductive Number
  | integer (n : Int)
  | float (x : Decimal.Binary64)
  deriving DecidableEq, Repr

end Json

inductive Json
  | null
  | bool (b : Bool)
  | number (n : Json.Number)
  | string (s : String)
  | array (items : List Json)
  /-- The members in the order of the document, repeated names included. -/
  | object (members : List (String × Json))
  deriving Repr

namespace Json

def ofNat (n : Nat) : Json := .number (.integer n)

def member? (name : String) (members : List (String × Json)) : Option Json :=
  (members.reverse.find? (·.1 = name)).map (·.2)

def distinct : List (String × Json) → List (String × Json)
  | [] => []
  | m :: members => if members.any (·.1 = m.1) then distinct members else m :: distinct members

def get? (j : Json) (name : String) : Option Json :=
  match j with
  | .object members => member? name members
  | _ => none

end Json

end Calque
