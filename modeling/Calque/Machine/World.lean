import Calque.Machine.Basic
import Calque.Machine.FileTree

namespace Calque.Machine

structure World where
  tree : FileTree
  current : Location
  printed : List UInt8
  printedErrors : List UInt8

namespace World

def change (f : FileTree → Location → Except Fault FileTree) : StateM World (Except Fault Unit) :=
  fun w =>
    match f w.tree w.current with
    | .ok tree => (.ok (), { w with tree := tree })
    | .error fault => (.error fault, w)

/-- Drafts are known by their locations. What a program does to the world is left open. -/
def machine (execute : Command → StateM World (Except Fault Exit)) :
    Machine (StateM World) Location where
  readFile p := fun w => (w.tree.readFile w.current p, w)
  doesExist p := fun w => ((w.tree.find w.current p).isOk, w)
  isDirectory p := fun w => (
    match w.tree.find w.current p with
    | .ok (_, .directory) => true
    | _ => false, w)
  makeDirectory p := change fun tree current => tree.makeDirectory current p
  createDraft directory := fun w =>
    match w.tree.createDraft w.current directory with
    | .ok (loc, tree) => (.ok loc, { w with tree := tree })
    | .error fault => (.error fault, w)
  draftPath loc := "/" ++ "/".intercalate loc
  writeDraft loc bytes := change fun tree _ => .ok (tree.append loc bytes)
  flushDraft _ := pure (.ok ())
  persist loc p := change fun tree current => tree.rename current loc p
  discard loc := modify fun w => { w with tree := w.tree.erase loc }
  scratch := .ofText "/tmp"
  execute := execute
  print bytes := modify fun w => { w with printed := w.printed ++ bytes }
  printError bytes := modify fun w => { w with printedErrors := w.printedErrors ++ bytes }

end World

end Calque.Machine
