import Calque.Machine.Path

namespace Calque

namespace Machine

inductive Exit
  | code (n : Nat)
  | signal (n : Nat)
  deriving DecidableEq, Repr

def Exit.status : Exit → Nat
  | .code n => n
  | .signal _ => 1

/-- A program to start, with its arguments and what changes in the environment: a variable is set,
or removed. -/
structure Command where
  program : String
  arguments : List String
  environment : List (String × Option String)
  deriving DecidableEq, Repr

end Machine

open Machine

structure Machine (m : Type → Type) (Draft : Type) where
  readFile : Path → m (Except Fault (List UInt8))
  doesExist : Path → m Bool
  isDirectory : Path → m Bool
  makeDirectory : Path → m (Except Fault Unit)
  /-- A new draft in a directory. -/
  createDraft : Path → m (Except Fault Draft)
  draftPath : Draft → String
  writeDraft : Draft → List UInt8 → m (Except Fault Unit)
  flushDraft : Draft → m (Except Fault Unit)
  /-- Moves a draft to a path in one step. -/
  persist : Draft → Path → m (Except Fault Unit)
  /-- Removes a draft that has not been moved. -/
  discard : Draft → m Unit
  /-- The directory for drafts that go nowhere. -/
  scratch : Path
  execute : Command → m (Except Fault Exit)
  print : List UInt8 → m Unit
  printError : List UInt8 → m Unit

end Calque
