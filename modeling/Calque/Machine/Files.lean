import Calque.Dictionary.Document
import Calque.Machine.Basic
import Calque.Text.Bytes

namespace Calque

inductive LoadFault (ε : Type)
  | file (fault : Machine.Fault)
  | document (fault : Dictionary.DocumentFault ε)

namespace Machine

variable {m : Type → Type} {Draft : Type} [Monad m]

def Fault.fileMessage (fault : Fault) : String := "IO error: " ++ fault.message

def readText (machine : Machine m Draft) (p : Path) : m (Except Fault String) := do
  match ← machine.readFile p with
  | .error fault => pure (.error fault)
  | .ok content =>
    match String.fromUTF8? ⟨content.toArray⟩ with
    | some text => pure (.ok text)
    | none => pure (.error .notText)

def makeDirectories (machine : Machine m Draft) : List Path → m (Except Fault Unit)
  | [] => pure (.ok ())
  | p :: up => do
    let settle (result : Except Fault Unit) : m (Except Fault Unit) := do
      match result with
      | .ok () => pure (.ok ())
      | .error fault => if ← machine.isDirectory p then pure (.ok ()) else pure (.error fault)
    match ← machine.makeDirectory p with
    | .error .notFound =>
      match ← machine.makeDirectories up with
      | .error fault => pure (.error fault)
      | .ok () => settle (← machine.makeDirectory p)
    | result => settle result

def finish (machine : Machine m Draft) (draft : Draft) (p : Path) (bytes : List UInt8) :
    m (Except Fault Unit) := do
  match ← machine.writeDraft draft bytes with
  | .error fault => pure (.error fault)
  | .ok () =>
    match ← machine.flushDraft draft with
    | .error fault => pure (.error fault)
    | .ok () => machine.persist draft p

def writeAtomically (machine : Machine m Draft) (p : Path) (text : String) :
    m (Except Fault Unit) := do
  match ← machine.makeDirectories p.parent.upward with
  | .error fault => pure (.error fault)
  | .ok () =>
    match ← machine.createDraft p.parent with
    | .error fault => pure (.error fault)
    | .ok draft =>
      match ← machine.finish draft p (bytes text.toList) with
      | .ok () => pure (.ok ())
      | .error fault => do
        machine.discard draft
        pure (.error fault)

def loadDictionary {ε : Type} (machine : Machine m Draft) (lib : Json.Library ε) (p : Path) :
    m (Except (LoadFault ε) Dictionary) := do
  match ← machine.readText p with
  | .error fault => pure (.error (.file fault))
  | .ok text =>
    match Dictionary.ofDocument lib text with
    | .error fault => pure (.error (.document fault))
    | .ok d => pure (.ok d)

end Machine

def LoadFault.message {ε : Type} (lib : Json.Library ε) : LoadFault ε → String
  | .file fault => fault.fileMessage
  | .document fault => fault.message lib

end Calque
