import Calque.Json.Library
import Calque.Substitution.Options

namespace Calque

open Json (Library Reader Field Record)

variable {ε : Type} (lib : Library ε)

namespace TemplateScope

def name : TemplateScope → String
  | .wholeLiteral => "whole-literal"
  | .holesOnly => "holes-only"

def variants : List (String × TemplateScope) :=
  [(name .wholeLiteral, .wholeLiteral), (name .holesOnly, .holesOnly)]

def reader : Reader ε lib.Source TemplateScope := lib.readVariant variants

def toJson (scope : TemplateScope) : Json := .string scope.name

end TemplateScope

namespace Options

structure Draft where
  avoidStrings : Option Bool
  avoidComments : Option Bool
  templateScope : Option TemplateScope

def Draft.finish (s : Draft) : Options :=
  let default : Options := {}
  { avoidStrings := s.avoidStrings.getD default.avoidStrings
    avoidComments := s.avoidComments.getD default.avoidComments
    templateScope := s.templateScope.getD default.templateScope }

def record : Record ε lib.Source Draft Options where
  name := "TranslateOptions"
  fields := [
    .of "avoid_strings" (·.avoidStrings) (fun s b => { s with avoidStrings := some b })
      lib.readBool,
    .of "avoid_comments" (·.avoidComments) (fun s b => { s with avoidComments := some b })
      lib.readBool,
    .of "template_scope" (·.templateScope) (fun s scope => { s with templateScope := some scope })
      (TemplateScope.reader lib)]
  required := false
  closed := false
  start := ⟨none, none, none⟩
  finish s := .ok s.finish

def reader : Reader ε lib.Source Options := lib.readRecord (record lib)

def toJson (o : Options) : Json :=
  .object [("avoid_strings", .bool o.avoidStrings), ("avoid_comments", .bool o.avoidComments),
    ("template_scope", o.templateScope.toJson)]

end Options

end Calque
