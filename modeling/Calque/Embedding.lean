import Calque.Dictionary.Builtin
import Calque.Substitution.Chain

namespace Calque.Embedding

def untilNul (memory : List UInt8) : List UInt8 := memory.takeWhile (· ≠ 0)

/-- The memory that is handed out for a text. A reader would take a NUL in the text for its end, so
there is none for such a text. -/
def handOut? (text : String) : Option (List UInt8) :=
  let bs := bytes text.toList
  if 0 ∈ bs then none else some (bs ++ [0])

inductive Notice
  | ready
  | invalidDictionary
  | failedTranslation
  deriving DecidableEq, Repr

structure Session where
  /-- Whether the dictionary has been announced, or found to be invalid. -/
  announced : Bool
  dictionary : Option Dictionary
  notices : List Notice

namespace Session

def start : Session := ⟨false, none, []⟩

def tell (s : Session) (n : Notice) : Session := { s with notices := s.notices ++ [n] }

/-- The dictionary, which is made if there is none yet. A failure is not kept. -/
def demand (s : Session) : Option Dictionary × Session :=
  match s.dictionary with
  | some d => (some d, s)
  | none =>
    match Dictionary.ofLists Dictionary.builtinStructural Dictionary.builtinCallable with
    | .ok d => (some d, { s with dictionary := some d })
    | .error _ => (none, s)

def announce (s : Session) : Session :=
  let (d, s) := s.demand
  { s with announced := true }.tell (if d.isSome then .ready else .invalidDictionary)

def init (s : Session) : Bool × Session :=
  let s := if s.announced then s else s.announce
  let (d, s) := s.demand
  (d.isSome, s)

def toHost? (s : Session) (memory : Option (List UInt8)) : Option (List UInt8) × Session :=
  match memory with
  | none => (none, s)
  | some memory =>
    match String.fromUTF8? ⟨(untilNul memory).toArray⟩ with
    | none => (none, s)
    | some source =>
      match s.demand with
      | (some d, s) => (handOut? (d.toHost {} source), s)
      | (none, s) => (none, s.tell .failedTranslation)

end Session

inductive Call
  | init
  | toHost (memory : Option (List UInt8))
  deriving DecidableEq, Repr

inductive Answer
  | ready (b : Bool)
  | memory (m : Option (List UInt8))
  deriving DecidableEq, Repr

namespace Session

def call (s : Session) : Call → Answer × Session
  | .init =>
    let (b, s) := s.init
    (.ready b, s)
  | .toHost memory =>
    let (m, s) := s.toHost? memory
    (.memory m, s)

def run (s : Session) : List Call → List Answer × Session
  | [] => ([], s)
  | c :: calls =>
    let (a, s) := s.call c
    let (as, s) := s.run calls
    (a :: as, s)

end Session

end Calque.Embedding
