import Calque.Json.Reader

namespace Calque.Json.Record

variable {σ α : Type}

def wanted (r : Record Fault (List Token) σ α) : String := "struct " ++ r.name

/-- A member of an object, from the colon on. A repeated field and an unwanted member are noticed as
soon as their name has been read. -/
def readMember (r : Record Fault (List Token) σ α) (name : String) (s : σ) : Parser σ := fun ts =>
  match r.fields.find? (·.name = name) with
  | some f =>
    if f.given s then .error (.repeatedField name)
    else do
      let ts ← readColon ts
      f.read s ts
  | none =>
    if r.closed then .error (.unknownField name (r.fields.map (·.name)))
    else do
      let ts ← readColon ts
      let ts ← skip ts
      .ok (s, ts)

def readEnd (s : σ) : Parser σ
  | .closeBracket :: ts => .ok (s, ts)
  | .comma :: .closeBracket :: _ => .error .trailingComma
  | [] => .error (.ended .list)
  | _ => .error .trailingCharacters

def readFields (r : Record Fault (List Token) σ α) (n : Nat) (s : σ) :
    List (Field Fault (List Token) σ) → Parser σ
  | [], ts => readEnd s ts
  | _ :: _, [] => .error (.ended .list)
  | _ :: _, .closeBracket :: ts =>
    if r.required then
      .error (.wrongLength n (r.wanted ++ " with " ++ toString r.fields.length ++ " elements"))
    else .ok (s, ts)
  | f :: fs, t :: ts =>
    if n = 0 then do
      let (s, ts) ← f.read s (t :: ts)
      r.readFields (n + 1) s fs ts
    else match t, ts with
      | .comma, .closeBracket :: _ => .error .trailingComma
      | .comma, ts => do
        let (s, ts) ← f.read s ts
        r.readFields (n + 1) s fs ts
      | _, _ => .error .expectedListSeparator

def readDraft (r : Record Fault (List Token) σ α) : Parser σ
  | .openBrace :: ts => readOpened r.readMember r.start ts
  | .openBracket :: ts => r.readFields 0 r.start r.fields ts
  | ts => .error (refuse r.wanted ts)

def read (r : Record Fault (List Token) σ α) : Parser α := fun ts => do
  let (s, ts) ← r.readDraft ts
  match r.finish s with
  | .ok a => .ok (a, ts)
  | .error name => .error (.missingField name)

end Calque.Json.Record
