import Calque.CommandLine.Run
import Calque.Json.Standard

namespace Calque.CommandLine

open Machine (Fault Path)

def faultOf (e : IO.Error) : Fault :=
  match e with
  | .noFileOrDirectory .. => .notFound
  | .permissionDenied .. => .accessDenied
  | .alreadyExists .. => .alreadyExists
  | .inappropriateType _ 20 _ => .notDirectory
  | .inappropriateType _ 21 _ => .isDirectory
  | .resourceBusy .. => .busy
  | e => .other (toString e)

def attempt {α : Type} (action : IO α) : IO (Except Fault α) := do
  try
    let a ← action
    pure (.ok a)
  catch e => pure (.error (faultOf e))

structure OpenDraft where
  path : String
  handle : IO.FS.Handle

def openDraft (directory : Path) : IO OpenDraft := do
  let n ← IO.rand 0 999999999
  let path := (directory.child (".tmp" ++ toString n)).text
  let handle ← IO.FS.Handle.mk path .writeNew
  pure ⟨path, handle⟩

/-- A path leads to a directory when a directory cannot be made below it under the name of the
directory itself, because it is there. -/
def leadsToDirectory (p : Path) : IO Bool := do
  match ← attempt (IO.FS.createDir (p.child ".").text) with
  | .error .alreadyExists => pure true
  | _ => pure false

def thisMachine : Machine IO OpenDraft where
  readFile p := attempt do
    let content ← IO.FS.readBinFile p.text
    pure content.toList
  doesExist p := do
    match ← attempt (IO.FS.Handle.mk p.text .read) with
    | .error .notFound | .error .notDirectory => pure false
    | _ => pure true
  isDirectory p := leadsToDirectory p
  makeDirectory p := attempt (IO.FS.createDir p.text)
  createDraft directory := attempt (openDraft directory)
  draftPath draft := draft.path
  writeDraft draft bytes := attempt (draft.handle.write ⟨bytes.toArray⟩)
  flushDraft draft := attempt draft.handle.flush
  persist draft p := attempt (IO.FS.rename draft.path p.text)
  discard draft := do
    let _ ← attempt (IO.FS.removeFile draft.path)
  scratch := .ofText "/tmp"
  execute _ := pure (.error .notPermitted)
  print bytes := do
    (← IO.getStdout).write ⟨bytes.toArray⟩
    (← IO.getStdout).flush
  printError bytes := do
    (← IO.getStderr).write ⟨bytes.toArray⟩

end Calque.CommandLine

open Calque.CommandLine in
def main (args : List String) : IO UInt32 := do
  let self ← IO.appPath
  let dictionary ← IO.getEnv "PTBR_DICTIONARY"
  let interpreter ← IO.getEnv "PTBR_PYTHON"
  let terminal ← (← IO.getStdout).isTty
  let palette := if terminal then some Calque.SideBySide.ansi else none
  let context : Context := ⟨some (toString self), ⟨dictionary, interpreter⟩, palette⟩
  let code ← Calque.CommandLine.main Calque.Json.standard thisMachine context args
  pure code.toUInt32
