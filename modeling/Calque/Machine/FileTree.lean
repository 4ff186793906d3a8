import Calque.Machine.Path

namespace Calque.Machine

abbrev Location := List String

inductive Node
  | directory
  | file (content : List UInt8) (executable : Bool)
  deriving DecidableEq, Repr

structure FileTree where
  entries : List (Location × Node)

namespace FileTree

def node? (t : FileTree) (loc : Location) : Option Node :=
  if loc = [] then some .directory else (t.entries.find? (·.1 = loc)).map (·.2)

def erase (t : FileTree) (loc : Location) : FileTree := ⟨t.entries.filter (·.1 ≠ loc)⟩

def put (t : FileTree) (loc : Location) (node : Node) : FileTree :=
  ⟨(loc, node) :: (t.erase loc).entries⟩

theorem node?_erase_of_ne {t : FileTree} {loc other : Location} (h : other ≠ loc) :
    (t.erase loc).node? other = t.node? other := by
  simp only [node?, erase, List.find?_filter]
  split
  · rfl
  · congr 2
    funext e
    by_cases he : e.1 = other <;> simp [he, h]

theorem node?_put_self {t : FileTree} {loc : Location} {node : Node} (h : loc ≠ []) :
    (t.put loc node).node? loc = some node := by
  simp [node?, put, h]

theorem node?_put_of_ne {t : FileTree} {loc other : Location} {node : Node} (h : other ≠ loc) :
    (t.put loc node).node? other = t.node? other := by
  rw [← node?_erase_of_ne h (t := t)]
  simp [node?, put, h.symm]

def enter (loc : Location) (name : String) : Except Fault Location :=
  if name = "." then .ok loc
  else if name = ".." then .ok loc.dropLast
  else if Path.maxName < name.utf8ByteSize then .error .nameTooLong
  else .ok (loc ++ [name])

/-- The names `names` further from a location. Every location that is left has to be a directory;
the one that is reached need not exist. -/
def walk (t : FileTree) (loc : Location) : List String → Except Fault Location
  | [] => .ok loc
  | name :: names =>
    match t.node? loc with
    | some .directory => do t.walk (← enter loc name) names
    | some (.file ..) => .error .notDirectory
    | none => .error .notFound

def start (current : Location) (p : Path) : Location := if p.absolute then [] else current

def find (t : FileTree) (current : Location) (p : Path) : Except Fault (Location × Node) := do
  p.check
  let loc ← t.walk (start current p) (if p.slashed then p.names ++ ["."] else p.names)
  match t.node? loc with
  | some node => .ok (loc, node)
  | none => .error .notFound

/-- The location for a new entry, in a directory that exists. A path that ends in no name of its own
is refused with `unnamed`. -/
def place (t : FileTree) (current : Location) (p : Path) (unnamed : Fault) :
    Except Fault Location := do
  p.check
  match p.names.getLast? with
  | none => .error unnamed
  | some name => do
    let loc ← t.walk (start current p) p.names.dropLast
    match t.node? loc with
    | none => .error .notFound
    | some (.file ..) => .error .notDirectory
    | some .directory =>
      if name = "." ∨ name = ".." then .error unnamed else enter loc name

def readFile (t : FileTree) (current : Location) (p : Path) : Except Fault (List UInt8) := do
  match ← t.find current p with
  | (_, .file content _) => .ok content
  | (_, .directory) => .error .isDirectory

def makeDirectory (t : FileTree) (current : Location) (p : Path) : Except Fault FileTree := do
  let loc ← t.place current p .alreadyExists
  match t.node? loc with
  | some _ => .error .alreadyExists
  | none => .ok (t.put loc .directory)

def draftName (n : Nat) : String := ".tmp" ++ toString n

def createDraft (t : FileTree) (current : Location) (directory : Path) :
    Except Fault (Location × FileTree) := do
  match ← t.find current directory with
  | (_, .file ..) => .error .notDirectory
  | (loc, .directory) =>
    let names := (List.range (t.entries.length + 1)).map draftName
    match names.find? (fun name => (t.node? (loc ++ [name])).isNone) with
    | none => .error .alreadyExists
    | some name => .ok (loc ++ [name], t.put (loc ++ [name]) (.file [] false))

def append (t : FileTree) (loc : Location) (bytes : List UInt8) : FileTree :=
  match t.node? loc with
  | some (.file content executable) => t.put loc (.file (content ++ bytes) executable)
  | _ => t

def rename (t : FileTree) (current : Location) (loc : Location) (p : Path) :
    Except Fault FileTree := do
  let goal ← t.place current p .busy
  if p.slashed then .error .notDirectory
  else match t.node? goal, t.node? loc with
    | some .directory, _ => .error .isDirectory
    | _, none => .error .notFound
    | _, some node => .ok ((t.erase loc).put goal node)

end FileTree

end Calque.Machine
