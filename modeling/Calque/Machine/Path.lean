import Calque.Machine.Fault

namespace Calque.Machine

structure Path where
  /-- The stretches between the slashes. The first one is empty when the path starts at the root. -/
  parts : List String
  deriving DecidableEq, Repr

namespace Path

def ofText (text : String) : Path := ⟨(text.toList.splitOn '/').map .ofList⟩

def text (p : Path) : String := "/".intercalate p.parts

def names (p : Path) : List String := p.parts.filter (· ≠ "")

def absolute (p : Path) : Bool := p.parts.head? = some "" && 1 < p.parts.length

def slashed (p : Path) : Bool := p.parts.getLast? = some "" && 1 < p.parts.length

def isEmpty (p : Path) : Bool := !p.absolute && p.names.isEmpty

def here : Path := ⟨["."]⟩

def root : Path := ⟨["", ""]⟩

def climb (first : String) : (rest : List String) → List Path
  | [] => []
  | name :: rest =>
    if name = "" ∨ name = "." then climb first rest
    else ⟨first :: (name :: rest).reverse⟩ :: climb first rest

/-- A path and the directories above it as far as it names them, innermost first. -/
def upward (p : Path) : List Path :=
  match p.parts with
  | [] | [""] => []
  | "" :: rest => climb "" rest.reverse ++ [root]
  | first :: rest => climb first rest.reverse ++ [⟨[first]⟩]

def parent (p : Path) : Path := ((p.upward).drop 1).headD here

theorem upward_cons {first name : String} {rest : List String} (hname : name ≠ "" ∧ name ≠ ".") :
    ∃ up, upward ⟨first :: (name :: rest).reverse⟩ = ⟨first :: (name :: rest).reverse⟩ :: up := by
  have hclimb : climb first (name :: rest) =
      ⟨first :: (name :: rest).reverse⟩ :: climb first rest := by
    rw [climb, if_neg (by simp [hname])]
  rw [upward]
  split
  · simp_all
  · simp_all
  · rename_i heq
    obtain ⟨rfl, rfl⟩ := List.cons.inj heq
    rw [List.reverse_reverse, hclimb]
    exact ⟨_, rfl⟩
  · rename_i heq
    obtain ⟨rfl, rfl⟩ := List.cons.inj heq
    rw [List.reverse_reverse, hclimb]
    exact ⟨_, rfl⟩

theorem upward_of_mem_climb {first : String} {rest : List String} {q : Path}
    (h : q ∈ climb first rest) : ∃ up, q.upward = q :: up := by
  induction rest with
  | nil => cases h
  | cons name rest ih =>
      rw [climb] at h
      split at h
      · exact ih h
      · rename_i hname
        rcases List.mem_cons.mp h with rfl | h
        · exact upward_cons (not_or.mp hname)
        · exact ih h

theorem upward_of_mem_upward {p q : Path} (h : q ∈ p.upward) : ∃ up, q.upward = q :: up := by
  rw [upward] at h
  split at h
  · cases h
  · cases h
  · rcases List.mem_append.mp h with h | h
    · exact upward_of_mem_climb h
    · obtain rfl := List.mem_singleton.mp h
      exact ⟨[], rfl⟩
  · rename_i first rest _ hfirst _
    rcases List.mem_append.mp h with h | h
    · exact upward_of_mem_climb h
    · obtain rfl := List.mem_singleton.mp h
      refine ⟨[], ?_⟩
      rw [upward]
      split <;> simp_all [climb]

/-- The way up from the parent of a path starts with the parent itself. -/
theorem upward_parent (p : Path) : ∃ up, p.parent.upward = p.parent :: up := by
  rw [parent]
  cases h : p.upward.drop 1 with
  | nil => exact ⟨[], rfl⟩
  | cons q up =>
      have hq : q ∈ p.upward := List.mem_of_mem_drop (h ▸ List.mem_cons_self ..)
      exact upward_of_mem_upward hq

def child (p : Path) (name : String) : Path := ⟨p.parts ++ [name]⟩

def maxName : Nat := 255

def maxPath : Nat := 4096

def check (p : Path) : Except Fault Unit :=
  if p.parts.any (·.toList.contains '\x00') then .error .nulInName
  else if p.isEmpty then .error .notFound
  else if maxPath ≤ p.text.utf8ByteSize then .error .nameTooLong
  else .ok ()

end Path

end Calque.Machine
