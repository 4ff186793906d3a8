import Calque.Dictionary.Entry
import Calque.Lexical.Index

namespace Calque

/-- The part of a template that counts as live code for callable words. -/
inductive TemplateScope
  | wholeLiteral
  | holesOnly
  deriving DecidableEq, Repr

structure Options where
  /-- Leave occurrences in string literals alone. -/
  avoidStrings : Bool := true
  /-- Leave occurrences in comments alone. -/
  avoidComments : Bool := true
  templateScope : TemplateScope := .wholeLiteral
  deriving DecidableEq, Repr

inductive Reason
  | string
  | comment
  deriving DecidableEq, Repr

def TemplateScope.live (scope : TemplateScope) (p : Lexical.Place) : Bool :=
  match scope with
  | .wholeLiteral => p.template
  | .holesOnly => p.template && p.hole

/-- A structural word is protected by the literal around it before the comment, a callable word by
the comment first, and by the literal only where that is not live. -/
def Options.protects (o : Options) (cls : WordClass) (p : Lexical.Place) : Option Reason :=
  match cls with
  | .structural =>
    if o.avoidStrings && p.inString then some .string
    else if o.avoidComments && p.comment then some .comment
    else none
  | .callable =>
    if o.avoidComments && p.comment then some .comment
    else if o.avoidStrings && p.inString && !o.templateScope.live p then some .string
    else none

end Calque
