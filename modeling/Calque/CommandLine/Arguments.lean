namespace Calque.CommandLine

inductive Switch
  | dictionary
  | strictTemplates
  | version
  | help
  | output
  | noColor
  | json
  | interpreter
  deriving DecidableEq, Repr

def Switch.takesValue : Switch → Bool
  | .dictionary | .output | .interpreter => true
  | _ => false

inductive CommandName
  | run
  | toHost
  | sideBySide
  | count
  | words
  deriving DecidableEq, Repr

def commandNames : List (String × CommandName) :=
  [("run", .run), ("translate", .toHost), ("debug", .sideBySide), ("count", .count),
    ("words", .words)]

/-- What may stand at a level: before the command, or after it. -/
structure Level where
  long : List (String × Switch)
  short : List (Char × Switch)
  /-- Whether the name of a command belongs here. -/
  command : Bool
  /-- Whether one plain word belongs here. -/
  word : Bool
  /-- Whether more words follow the first one. These may look like switches, and after the first of
  them everything is one. -/
  trailing : Bool

def everywhere : List (String × Switch) :=
  [("dictionary", .dictionary), ("strict-templates", .strictTemplates), ("help", .help)]

def Level.top : Level :=
  ⟨("version", .version) :: everywhere, [('h', .help), ('V', .version)], true, false, false⟩

def Level.of : CommandName → Level
  | .run => ⟨("python", .interpreter) :: everywhere, [('h', .help)], false, true, true⟩
  | .toHost =>
    ⟨("output", .output) :: everywhere, [('h', .help), ('o', .output)], false, true, false⟩
  | .sideBySide => ⟨("no-color", .noColor) :: everywhere, [('h', .help)], false, true, false⟩
  | .count => ⟨("json", .json) :: everywhere, [('h', .help)], false, true, false⟩
  | .words => ⟨("json", .json) :: everywhere, [('h', .help)], false, false, false⟩

inductive Stop
  | usage
  | version
  | help
  deriving DecidableEq, Repr

structure Given where
  switches : List (Switch × String)
  /-- A switch that still waits for its value. -/
  pending : Option Switch
  word : Option String
  trailing : List String
  /-- Whether the switches have ended. -/
  verbatim : Bool
  deriving Repr

namespace Given

def nothing : Given := ⟨[], none, none, [], false⟩

def value? (g : Given) (s : Switch) : Option String :=
  (g.switches.find? (·.1 = s)).map (·.2)

def has (g : Given) (s : Switch) : Bool := (g.value? s).isSome

def give (g : Given) (s : Switch) (value : String) : Except Stop Given :=
  if g.has s || (s.takesValue && value = "") then .error .usage
  else match s with
    | .version => .error .version
    | .help => .error .help
    | _ => .ok { g with switches := (s, value) :: g.switches, pending := none }

def giveWord (g : Given) (level : Level) (arg : String) : Except Stop Given :=
  match g.word with
  | none =>
    if level.word && arg ≠ "" then .ok { g with word := some arg } else .error .usage
  | some _ =>
    if level.trailing then .ok { g with trailing := g.trailing ++ [arg], verbatim := true }
    else .error .usage

def givePlain (g : Given) (level : Level) (arg : String) : Except Stop Given :=
  match g.pending with
  | some s => g.give s arg
  | none => g.giveWord level arg

def takesAnything (g : Given) (level : Level) : Bool := level.trailing && g.word.isSome

def giveLong (g : Given) (level : Level) (arg name : String) (attached : Option String) :
    Except Stop Given :=
  match level.long.find? (·.1 = name) with
  | none => if g.takesAnything level then g.givePlain level arg else .error .usage
  | some (_, s) =>
    if g.pending.isSome then .error .usage
    else match s.takesValue, attached with
      | true, some value => g.give s value
      | true, none => .ok { g with pending := some s }
      | false, some _ => .error .usage
      | false, none => g.give s ""

def giveLetters (g : Given) (level : Level) : List Char → Except Stop Given
  | [] => .ok g
  | c :: cs =>
    match level.short.find? (·.1 = c) with
    | none => .error .usage
    | some (_, s) =>
      if g.pending.isSome then .error .usage
      else if s.takesValue then
        match cs with
        | [] => .ok { g with pending := some s }
        | '=' :: value => g.give s (.ofList value)
        | value => g.give s (.ofList value)
      else do
        let g ← g.give s ""
        g.giveLetters level cs

def giveArgument (g : Given) (level : Level) (arg : String) : Except Stop Given :=
  if g.verbatim then g.giveWord level arg
  else match arg.toList with
    | ['-', '-'] =>
      if g.pending.isSome then .error .usage else .ok { g with verbatim := true }
    | '-' :: '-' :: body =>
      let name := body.takeWhile (· ≠ '=')
      let attached := match body.drop name.length with
        | '=' :: value => some (String.ofList value)
        | _ => none
      g.giveLong level arg (.ofList name) attached
    | '-' :: c :: cs =>
      let known := (c :: cs).all fun c => level.short.any (·.1 = c)
      if g.takesAnything level && !known then g.givePlain level arg
      else g.giveLetters level (c :: cs)
    | _ => g.givePlain level arg

def finish (g : Given) (level : Level) : Except Stop Given :=
  if g.pending.isSome || (level.word && g.word.isNone) then .error .usage else .ok g

end Given

def readLevel (level : Level) (args : List String) : Except Stop Given := do
  let g ← args.foldlM (fun (g : Given) arg => g.giveArgument level arg) Given.nothing
  g.finish level

def helpWord : String := "help"

def readHelp : List String → Stop
  | [] => .help
  | [arg] => if arg = helpWord || commandNames.any (·.1 = arg) then .help else .usage
  | _ => .usage

def readTop (g : Given) : List String → Except Stop (Given × CommandName × Given)
  | [] => .error .usage
  | arg :: args =>
    match commandNames.find? (·.1 = arg), g.pending, g.verbatim with
    | some (_, command), none, false => do
      let below ← readLevel (.of command) args
      .ok (g, command, below)
    | none, none, false => do
      if arg = helpWord then .error (readHelp args)
      let g ← g.giveArgument .top arg
      readTop g args
    | _, _, _ => do
      let g ← g.giveArgument .top arg
      readTop g args

end Calque.CommandLine
