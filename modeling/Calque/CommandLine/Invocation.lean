import Calque.CommandLine.Arguments
import Calque.Launch

namespace Calque.CommandLine

inductive Action
  | run (script : String) (args : List String) (interpreter : String)
  | toHost (file : String) (output : Option String)
  | sideBySide (file : String) (plain : Bool)
  | count (file : String) (json : Bool)
  | words (json : Bool)
  deriving DecidableEq, Repr

structure Invocation where
  dictionary : Option String
  strictTemplates : Bool
  action : Action
  deriving DecidableEq, Repr

structure Environment where
  dictionary : Option String
  interpreter : Option String

def fromEnvironment (value : Option String) : Except Stop (Option String) :=
  if value = some "" then .error .usage else .ok value

/-- A dictionary named after the command wins over one named before it, and that over the one of the
environment, which is looked at wherever a level names none. -/
def chooseDictionary (environment : Environment) (above below : Given) :
    Except Stop (Option String) :=
  match above.value? .dictionary, below.value? .dictionary with
  | some _, some path => .ok (some path)
  | above, below => do
    let inherited ← fromEnvironment environment.dictionary
    .ok (below <|> above <|> inherited)

def chooseAction (environment : Environment) (command : CommandName) (g : Given) :
    Except Stop Action := do
  let word := g.word.getD ""
  match command with
  | .run =>
    match g.value? .interpreter with
    | some program => .ok (.run word g.trailing program)
    | none => do
      let inherited ← fromEnvironment environment.interpreter
      .ok (.run word g.trailing (inherited.getD Launcher.defaultInterpreter))
  | .toHost => .ok (.toHost word (g.value? .output))
  | .sideBySide => .ok (.sideBySide word (g.has .noColor))
  | .count => .ok (.count word (g.has .json))
  | .words => .ok (.words (g.has .json))

def Invocation.read (environment : Environment) (args : List String) :
    Except Stop Invocation := do
  let (above, command, below) ← readTop .nothing args
  let dictionary ← chooseDictionary environment above below
  let action ← chooseAction environment command below
  .ok ⟨dictionary, above.has .strictTemplates || below.has .strictTemplates, action⟩

end Calque.CommandLine
