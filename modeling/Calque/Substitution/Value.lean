import Calque.Json.Fault
import Calque.Substitution.Document

namespace Calque

open Json (Fault)

namespace Json

def found : Json → Json.Found
  | .null => .null
  | .bool b => .boolean b
  | .number (.integer n) => .integer n
  | .number (.float x) => .float x
  | .string s => .string s
  | .array _ => .sequence
  | .object _ => .map

def asBool : Json → Except Fault Bool
  | .bool b => .ok b
  | j => .error (.wrongType j.found "a boolean")

end Json

def TemplateScope.ofJson (j : Json) : Except Fault TemplateScope := do
  let pick (name : String) : Except Fault TemplateScope :=
    match variants.find? (·.1 = name) with
    | some v => .ok v.2
    | none => .error (.unknownVariant name (variants.map (·.1)))
  match j with
  | .string name => pick name
  | .object members =>
    match Json.distinct members with
    | [(name, payload)] => do
      let scope ← pick name
      match payload with
      | .null => .ok scope
      | j => .error (.wrongType j.found "unit")
    | _ => .error (.wrongValue .map "map with a single key")
  | j => .error (.wrongType j.found "string or map")

namespace Options

def ofItems (items : List Json) : Except Fault Draft := do
  let strings ← items[0]?.mapM Json.asBool
  let comments ← items[1]?.mapM Json.asBool
  let scope ← items[2]?.mapM TemplateScope.ofJson
  if items.length ≤ 3 then .ok ⟨strings, comments, scope⟩
  else .error (.wrongLength items.length "fewer elements in array")

/-- Members come in the order of their names, and the last of several members of one name counts. -/
def ofMembers (members : List (String × Json)) : Except Fault Draft := do
  let comments ← (Json.member? "avoid_comments" members).mapM Json.asBool
  let strings ← (Json.member? "avoid_strings" members).mapM Json.asBool
  let scope ← (Json.member? "template_scope" members).mapM TemplateScope.ofJson
  .ok ⟨strings, comments, scope⟩

def ofJson : Json → Except Fault Options
  | .object members => (ofMembers members).map Draft.finish
  | .array items => (ofItems items).map Draft.finish
  | j => .error (.wrongType j.found "struct TranslateOptions")

end Options

end Calque
