import Calque.Dictionary.Fault

namespace Calque

structure Dictionary where
  structural : List WordPair
  callable : List WordPair
  sound : Dictionary.Sound (structural ++ callable)

namespace Dictionary

def ofLists (structural callable : List WordPair) : Except Fault Dictionary :=
  match h : firstFault? [] (structural ++ callable) with
  | none => .ok ⟨structural, callable, sound_iff.mp h⟩
  | some fault => .error fault

theorem ofLists_eq_ok {structural callable : List WordPair} (h : Sound (structural ++ callable)) :
    ofLists structural callable = .ok ⟨structural, callable, h⟩ := by
  unfold ofLists
  split
  · rfl
  · rename_i h'; rw [sound_iff.mpr h] at h'; cases h'

theorem ofLists_eq_error_iff {structural callable : List WordPair} {fault : Fault} :
    ofLists structural callable = .error fault ↔
      firstFault? [] (structural ++ callable) = some fault := by
  unfold ofLists
  split <;> simp_all

def entries (d : Dictionary) : List Entry :=
  d.structural.map (⟨.structural, ·⟩) ++ d.callable.map (⟨.callable, ·⟩)

theorem map_pair_entries (d : Dictionary) :
    d.entries.map (·.pair) = d.structural ++ d.callable := by
  simp [entries, Function.comp_def]

def size (d : Dictionary) : Nat := d.structural.length + d.callable.length

def isEmpty (d : Dictionary) : Bool := d.size == 0

theorem length_entries (d : Dictionary) : d.entries.length = d.size := by simp [entries, size]

def hostFor? (d : Dictionary) (dialect : String) : Option (String × WordClass) :=
  (d.entries.find? (·.pair.dialect = dialect)).map fun e => (e.pair.host, e.wordClass)

def dialectFor? (d : Dictionary) (host : String) : Option String :=
  (d.entries.find? (·.pair.host = host)).map (·.pair.dialect)

end Dictionary

end Calque
