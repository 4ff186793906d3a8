import Calque.Json.Library
import Calque.Json.Skip

namespace Calque.Json

abbrev Parser (α : Type) := Reader Fault (List Token) α

def Token.found : Token → Except Fault Found
  | .openBrace => .ok .map
  | .openBracket => .ok .sequence
  | .string read _ => read.map .string
  | .scalar read _ => read.map fun
    | .null => .null
    | .bool b => .boolean b
    | .number (.integer n) => .integer n
    | .number (.float x) => .float x
  | _ => .error .expectedValue

def refuse (wanted : String) : List Token → Fault
  | [] => .ended .value
  | t :: _ =>
    match t.found with
    | .ok found => .wrongType found wanted
    | .error fault => fault

def readBool : Parser Bool
  | .scalar (.ok (.bool b)) _ :: ts => .ok (b, ts)
  | ts => .error (refuse "a boolean" ts)

def readText : Parser String
  | .string (.ok s) _ :: ts => .ok (s, ts)
  | ts => .error (refuse "a string" ts)

def readWord : Parser UInt64
  | .scalar (.ok (.number (.integer n))) _ :: ts =>
    if 0 ≤ n then .ok (.ofNat n.toNat, ts) else .error (.wrongValue (.integer n) "usize")
  | ts => .error (refuse "usize" ts)

def readNull : Parser Unit
  | .scalar (.ok .null) _ :: ts => .ok ((), ts)
  | ts => .error (refuse "unit" ts)

def readColon : List Token → Except Fault (List Token)
  | .colon :: ts => .ok ts
  | [] => .error (.ended .object)
  | _ => .error .expectedColon

/-- Members up to the closing brace, from the first name on. A member is read by `step`, from the
colon on. The bound `n` is at least the number of tokens, so it runs out with them. -/
def readMembers {σ : Type} (step : String → σ → Parser σ) : Nat → σ → Parser σ
  | 0, _, _ => .error (.ended .object)
  | n + 1, s, .string read _ :: ts => do
    let name ← read
    let (s, ts) ← step name s ts
    match ts with
    | .closeBrace :: ts => .ok (s, ts)
    | .comma :: .closeBrace :: _ => .error .trailingComma
    | [.comma] => .error (.ended .value)
    | .comma :: ts => readMembers step n s ts
    | [] => .error (.ended .object)
    | _ => .error .expectedObjectSeparator
  | _, _, [] => .error (.ended .object)
  | _, _, _ => .error .keyNotString

def readOpened {σ : Type} (step : String → σ → Parser σ) (s : σ) : Parser σ
  | .closeBrace :: ts => .ok (s, ts)
  | ts => readMembers step ts.length s ts

def readObject {σ : Type} (wanted : String) (member : String → σ → Parser σ) (s : σ) : Parser σ
  | .openBrace :: ts =>
    let step (name : String) (s : σ) : Parser σ := fun ts => do
      let ts ← readColon ts
      member name s ts
    readOpened step s ts
  | ts => .error (refuse wanted ts)

def readElements {α : Type} (element : Parser α) : Nat → Parser (List α)
  | 0, _ => .error (.ended .value)
  | n + 1, ts => do
    let (a, ts) ← element ts
    match ts with
    | .closeBracket :: ts => .ok ([a], ts)
    | .comma :: .closeBracket :: _ => .error .trailingComma
    | .comma :: ts => do
      let (as, ts) ← readElements element n ts
      .ok (a :: as, ts)
    | [] => .error (.ended .list)
    | _ => .error .expectedListSeparator

def readList {α : Type} (element : Parser α) : Parser (List α)
  | .closeBracket :: ts => .ok ([], ts)
  | [] => .error (.ended .list)
  | ts => readElements element ts.length ts

def readVariant {α : Type} (variants : List (String × α)) : Parser α := fun ts =>
  let pick (name : String) : Except Fault α :=
    match variants.find? (·.1 = name) with
    | some v => .ok v.2
    | none => .error (.unknownVariant name (variants.map (·.1)))
  match ts with
  | [] => .error (.ended .value)
  | .string read _ :: ts => do
    let name ← read
    let a ← pick name
    .ok (a, ts)
  | .openBrace :: .string read _ :: ts => do
    let name ← read
    let a ← pick name
    let ts ← readColon ts
    let ((), ts) ← readNull ts
    match ts with
    | .closeBrace :: ts => .ok (a, ts)
    | [] => .error (.ended .object)
    | _ => .error .expectedValue
  | [.openBrace] => .error (.ended .object)
  | .openBrace :: .closeBrace :: _ => .error .expectedValue
  | .openBrace :: _ => .error .keyNotString
  | _ => .error .expectedValue

def readValue : Nat → Parser Json
  | 0, _ => .error .expectedValue
  | n + 1, .openBrace :: ts => do
    let member (name : String) (done : List (String × Json)) : Parser (List (String × Json)) :=
      fun ts => do
        let ts ← readColon ts
        let (j, ts) ← readValue n ts
        .ok ((name, j) :: done, ts)
    let (members, ts) ← readOpened member [] ts
    .ok (.object members.reverse, ts)
  | n + 1, .openBracket :: ts => do
    let (items, ts) ← readList (readValue n) ts
    .ok (.array items, ts)
  | _, .string read _ :: ts => do
    let s ← read
    .ok (.string s, ts)
  | _, .scalar read _ :: ts => do
    let value ← read
    let j := match value with
      | .null => Json.null
      | .bool b => .bool b
      | .number n => .number n
    .ok (j, ts)
  | _, [] => .error (.ended .value)
  | _, _ => .error .expectedValue

end Calque.Json
