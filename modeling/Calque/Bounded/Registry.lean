import Calque.Bounded.Basic
import Calque.Dictionary.Basic

namespace Calque.Bounded

structure Slot where
  index : Nat
  wordClass : WordClass
  deriving DecidableEq, Repr

abbrev SlotTable := Std.HashMap String Slot

def enterWord (table : SlotTable) (word : String) (slot : Slot) (taken : Dictionary.Fault) :
    Except Dictionary.Fault SlotTable :=
  let (known, table) := table.containsThenInsert word slot
  if known then throw taken else pure table

structure Slots where
  byDialect : SlotTable
  byHost : SlotTable

namespace Slots

def empty : Slots := ⟨∅, ∅⟩

def checkWord (word : String) : Except Dictionary.Fault Unit :=
  match Dictionary.wordFault? word with
  | some fault => throw fault
  | none => pure ()

def register (s : Slots) (p : WordPair) (slot : Slot) : Except Dictionary.Fault Slots := do
  checkWord p.dialect
  checkWord p.host
  let byDialect ← enterWord s.byDialect p.dialect slot (.duplicateDialect p.dialect)
  let byHost ← enterWord s.byHost p.host slot (.duplicateHost p.host)
  return ⟨byDialect, byHost⟩

def registerAll (s : Slots) (cls : WordClass) (ps : List WordPair) :
    Except Dictionary.Fault Slots :=
  ps.zipIdx.foldlM (fun s (p, index) => s.register p ⟨index, cls⟩) s

end Slots

structure Registry where
  structural : List WordPair
  callable : List WordPair
  slots : Slots

namespace Registry

def ofLists (structural callable : List WordPair) : Except Dictionary.Fault Registry := do
  let slots ← Slots.empty.registerAll .structural structural
  let slots ← slots.registerAll .callable callable
  return ⟨structural, callable, slots⟩

variable (r : Registry)

def pairs : WordClass → List WordPair
  | .structural => r.structural
  | .callable => r.callable

def pairAt (slot : Slot) : Bounded WordPair := read (r.pairs slot.wordClass) slot.index

def hostFor? (dialect : String) : Bounded (Option (String × WordClass)) :=
  match r.slots.byDialect[dialect]? with
  | some slot => do
    let p ← r.pairAt slot
    return some (p.host, slot.wordClass)
  | none => return none

def dialectFor? (host : String) : Bounded (Option String) :=
  match r.slots.byHost[host]? with
  | some slot => do
    let p ← r.pairAt slot
    return some p.dialect
  | none => return none

end Registry

end Calque.Bounded
