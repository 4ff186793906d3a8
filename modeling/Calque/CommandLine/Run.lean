import Calque.CommandLine.Invocation
import Calque.Dictionary.Builtin
import Calque.SideBySide
import Calque.Substitution.Chain

namespace Calque.CommandLine

open Machine (Path)

variable {m : Type → Type} {Draft : Type} [Monad m] {ε : Type} (lib : Json.Library ε)

structure Context where
  /-- The path of the program itself, if it can be told. -/
  self : Option String
  environment : Environment
  /-- How colours are shown, if they are. -/
  palette : Option SideBySide.Palette

def say (machine : Machine m Draft) (text : String) : m Unit := machine.print (bytes text.toList)

def complain (machine : Machine m Draft) (text : String) : m Unit :=
  machine.printError (bytes text.toList)

def line (text : String) : String := text ++ "\n"

def failWith (machine : Machine m Draft) (code : Nat) (text : String) : m Nat := do
  complain machine (line text)
  pure code

def optionsOf (i : Invocation) : Options :=
  { templateScope := if i.strictTemplates then .holesOnly else .wholeLiteral }

/-- The command that treats a module as this invocation treats its script. -/
def moduleCommand (i : Invocation) (self : String) : List String :=
  self :: (match i.dictionary with
    | some path => ["--dictionary", path]
    | none => []) ++ if i.strictTemplates then ["--strict-templates"] else []

def withSource (machine : Machine m Draft) (file : String) (next : String → m Nat) : m Nat := do
  match ← machine.readText (.ofText file) with
  | .ok source => next source
  | .error fault =>
    failWith machine 1 ("Error reading file '" ++ file ++ "': " ++ fault.fileMessage)

def describeCounts (c : Counts) : String :=
  line ("structural: " ++ toString c.structural) ++ line ("callable:   " ++ toString c.callable) ++
    line ("total:      " ++ toString c.total)

def wordWidth : Nat := 20

def pairLine (p : WordPair) : String :=
  line ("  " ++ .ofList (SideBySide.pad wordWidth p.dialect.toList) ++ " → " ++ p.host)

def wordList (d : Dictionary) : String :=
  let rule := line (.ofList (List.replicate 70 '='))
  rule ++ line "PT-BR TO PYTHON TRANSLATION MAPPINGS" ++ rule ++
    line ("\nKeywords: " ++ toString d.structural.length) ++
    .join (d.structural.map pairLine) ++
    line ("\nBuilt-in Functions: " ++ toString d.callable.length) ++
    .join (d.callable.map pairLine) ++
    line ("\nTotal Translations: " ++ toString d.size) ++ rule

def runScript (machine : Machine m Draft) (launcher : Launcher) (toHost : String → String)
    (script : String) (args : List String) : m Nat := do
  if ← machine.doesExist (.ofText script) then
    withSource machine script fun source => do
      match ← launcher.run lib machine script (toHost source) args with
      | .ok code => pure (if code < 256 then code else 1)
      | .error fault => failWith machine 1 ("Error executing script: " ++ fault.message)
  else failWith machine 1 ("Error: File '" ++ script ++ "' not found")

def perform (machine : Machine m Draft) (context : Context) (i : Invocation) (d : Dictionary) :
    m Nat :=
  let toHost := d.toHost (optionsOf i)
  match i.action with
  | .run script args interpreter =>
    runScript lib machine ⟨interpreter, context.self.map (moduleCommand i)⟩ toHost script args
  | .toHost file output =>
    withSource machine file fun source => do
      match output with
      | none =>
        say machine (toHost source)
        pure 0
      | some path =>
        match ← machine.writeAtomically (.ofText path) (toHost source) with
        | .ok () => pure 0
        | .error fault => failWith machine 1 ("Error: " ++ fault.fileMessage)
  | .sideBySide file plain =>
    withSource machine file fun source => do
      say machine (SideBySide.view (if plain then none else context.palette) source (toHost source))
      pure 0
  | .count file json =>
    withSource machine file fun source => do
      let counts := d.count source
      say machine (if json then line (lib.writeIndented counts.toJson) else describeCounts counts)
      pure 0
  | .words json => do
    say machine (if json then line (lib.writeIndented d.toJson) else wordList d)
    pure 0

def execute (machine : Machine m Draft) (context : Context) (i : Invocation) : m Nat := do
  match i.dictionary with
  | none => perform lib machine context i .builtin
  | some path =>
    match ← machine.loadDictionary lib (.ofText path) with
    | .ok d => perform lib machine context i d
    | .error fault =>
      failWith machine 2
        ("Error: could not load dictionary '" ++ path ++ "': " ++ fault.message lib)

def versionText : String := "ptbr 1.0.0"

def usageText : String :=
  "Usage: ptbr [--dictionary FILE] [--strict-templates] COMMAND\n\n" ++
  "Commands:\n" ++
  "  run [--python PROGRAM] SCRIPT [ARGS]...\n" ++
  "  translate FILE [-o FILE]\n" ++
  "  debug [--no-color] FILE\n" ++
  "  count [--json] FILE\n" ++
  "  words [--json]"

def main (machine : Machine m Draft) (context : Context) (args : List String) : m Nat := do
  match Invocation.read context.environment args with
  | .ok i => execute lib machine context i
  | .error .version =>
    say machine (line versionText)
    pure 0
  | .error .help =>
    say machine (line usageText)
    pure 0
  | .error .usage => failWith machine 2 usageText

end Calque.CommandLine
