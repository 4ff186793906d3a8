import Mathlib.Data.List.Nodup
import Mathlib.Data.List.Perm.Subperm
import Calque.Machine.Laws
import Calque.Machine.Mishap
import Calque.Outcome

namespace Calque.Machine

namespace FileTree

variable {t t' : FileTree} {current loc goal : Location} {p : Path}

theorem directory_put {other : Location} {node : Node} (hloc : t.node? loc ≠ some .directory)
    (h : t.node? other = some .directory) : (t.put loc node).node? other = some .directory := by
  have hne : other ≠ loc := fun he => hloc (he ▸ h)
  rwa [node?_put_of_ne hne]

/-- The directories stay when a file is moved over what is no directory. -/
theorem directory_move {other : Location} {node : Node} (hloc : t.node? loc ≠ some .directory)
    (hgoal : t.node? goal ≠ some .directory) (h : t.node? other = some .directory) :
    ((t.erase loc).put goal node).node? other = some .directory := by
  have hne : other ≠ loc := fun he => hloc (he ▸ h)
  have hne' : other ≠ goal := fun he => hgoal (he ▸ h)
  rwa [node?_put_of_ne hne', node?_erase_of_ne hne]

theorem walk_append (t : FileTree) (loc : Location) (as bs : List String) :
    t.walk loc (as ++ bs) = t.walk loc as >>= (t.walk · bs) := by
  induction as generalizing loc with
  | nil => rfl
  | cons a as ih =>
      rw [List.cons_append, walk, walk]
      cases t.node? loc with
      | none => rfl
      | some node =>
          cases node with
          | file content executable => rfl
          | directory =>
              cases h : enter loc a with
              | error fault => rfl
              | ok next => exact ih next

theorem walk_cons {name : String} {names : List String} :
    t.walk loc (name :: names) = .ok goal ↔
      t.node? loc = some .directory ∧ ∃ next, enter loc name = .ok next ∧
        t.walk next names = .ok goal := by
  rw [walk]
  constructor
  · intro h
    cases hnode : t.node? loc with
    | none => rw [hnode] at h; cases h
    | some node =>
        rw [hnode] at h
        cases node with
        | file content executable => cases h
        | directory => exact ⟨rfl, bind_eq_ok.mp h⟩
  · rintro ⟨hnode, h⟩
    rw [hnode]
    exact bind_eq_ok.mpr h

theorem walk_mono (h : ∀ loc, t.node? loc = some .directory → t'.node? loc = some .directory)
    {names : List String} (hwalk : t.walk loc names = .ok goal) :
    t'.walk loc names = .ok goal := by
  induction names generalizing loc with
  | nil => exact hwalk
  | cons name names ih =>
      obtain ⟨hnode, next, hnext, hrest⟩ := walk_cons.mp hwalk
      exact walk_cons.mpr ⟨h loc hnode, next, hnext, ih hrest⟩

/-- A path leads to a node if it may be used at all, a walk along its names ends at the location of
the node, and the node is there. -/
theorem find_eq_ok {node : Node} : t.find current p = .ok (loc, node) ↔
    p.check = .ok () ∧
      t.walk (start current p) (if p.slashed then p.names ++ ["."] else p.names) = .ok loc ∧
      t.node? loc = some node := by
  rw [find, bind_eq_ok]
  constructor
  · rintro ⟨⟨⟩, hcheck, h⟩
    obtain ⟨reached, hwalk, h⟩ := bind_eq_ok.mp h
    cases hnode : t.node? reached with
    | none => rw [hnode] at h; cases h
    | some found =>
        rw [hnode] at h
        cases h
        exact ⟨hcheck, hwalk, hnode⟩
  · rintro ⟨hcheck, hwalk, hnode⟩
    refine ⟨(), hcheck, bind_eq_ok.mpr ⟨loc, hwalk, ?_⟩⟩
    rw [hnode]

/-- The place for a new entry is one name further than a directory. -/
theorem place_eq_ok {unnamed : Fault} : t.place current p unnamed = .ok goal ↔
    ∃ name loc, p.check = .ok () ∧ p.names = p.names.dropLast ++ [name] ∧
      name ≠ "." ∧ name ≠ ".." ∧ t.walk (start current p) p.names.dropLast = .ok loc ∧
      t.node? loc = some .directory ∧ enter loc name = .ok goal := by
  rw [place, bind_eq_ok]
  constructor
  · rintro ⟨⟨⟩, hcheck, h⟩
    cases hlast : p.names.getLast? with
    | none => rw [hlast] at h; cases h
    | some name =>
        rw [hlast] at h
        obtain ⟨loc, hwalk, h⟩ := bind_eq_ok.mp h
        have hnames : p.names = p.names.dropLast ++ [name] :=
          (List.dropLast_append_getLast? name hlast).symm
        cases hnode : t.node? loc with
        | none => rw [hnode] at h; cases h
        | some node =>
            rw [hnode] at h
            cases node with
            | file content executable => cases h
            | directory =>
                simp only at h
                split at h
                · cases h
                · rename_i hname
                  rw [not_or] at hname
                  exact ⟨name, loc, hcheck, hnames, hname.1, hname.2, hwalk, hnode, h⟩
  · rintro ⟨name, loc, hcheck, hnames, hdot, hdots, hwalk, hnode, henter⟩
    have hlast : p.names.getLast? = some name := by rw [hnames, List.getLast?_concat]
    refine ⟨(), hcheck, ?_⟩
    rw [hlast]
    refine bind_eq_ok.mpr ⟨loc, hwalk, ?_⟩
    rw [hnode]
    simp only [hdot, hdots, or_self, if_false, henter]

theorem ne_nil_of_enter {name : String} (hdot : name ≠ ".") (hdots : name ≠ "..")
    (h : enter loc name = .ok goal) : goal ≠ [] := by
  rw [enter, if_neg hdot, if_neg hdots] at h
  split at h
  · cases h
  · cases h
    simp

section Places

variable {unnamed : Fault} (hplace : t.place current p unnamed = .ok goal)
include hplace

theorem ne_nil_of_place : goal ≠ [] := by
  obtain ⟨name, loc, -, -, hdot, hdots, -, -, henter⟩ := place_eq_ok.mp hplace
  exact ne_nil_of_enter hdot hdots henter

variable (h : ∀ loc, t.node? loc = some .directory → t'.node? loc = some .directory)
include h

theorem place_mono : t'.place current p unnamed = .ok goal := by
  obtain ⟨name, loc, hcheck, hnames, hdot, hdots, hwalk, hnode, henter⟩ := place_eq_ok.mp hplace
  exact place_eq_ok.mpr
    ⟨name, loc, hcheck, hnames, hdot, hdots, walk_mono h hwalk, h loc hnode, henter⟩

/-- The way to a new entry leads there as long as no directory on it goes. -/
theorem walk_of_place : t'.walk (start current p) p.names = .ok goal := by
  obtain ⟨name, loc, -, hnames, -, -, hwalk, hdirectory, henter⟩ := place_eq_ok.mp hplace
  rw [hnames, walk_append, walk_mono h hwalk]
  exact walk_cons.mpr ⟨h loc hdirectory, goal, henter, rfl⟩

theorem find_file (hslashed : p.slashed = false) {node : Node} (hnode : t'.node? goal = some node) :
    t'.find current p = .ok (goal, node) := by
  obtain ⟨-, -, hcheck, -⟩ := place_eq_ok.mp hplace
  refine find_eq_ok.mpr ⟨hcheck, ?_, hnode⟩
  rw [if_neg (by simp [hslashed])]
  exact walk_of_place hplace h

end Places

section Operations

theorem createDraft_cases {draft : Location} (h : t.createDraft current p = .ok (draft, t')) :
    draft ≠ [] ∧ t.node? draft = none ∧ t' = t.put draft (.file [] false) := by
  obtain ⟨⟨loc, node⟩, -, h⟩ := bind_eq_ok.mp h
  cases node with
  | file content executable => cases h
  | directory =>
      simp only at h
      split at h
      · cases h
      · rename_i name hname
        have hfree := List.find?_some hname
        cases h
        exact ⟨by simp, by simpa using hfree, rfl⟩

theorem append_file {content : List UInt8} {executable : Bool}
    (h : t.node? loc = some (.file content executable)) (bytes : List UInt8) :
    t.append loc bytes = t.put loc (.file (content ++ bytes) executable) := by
  rw [append, h]

/-- A directory that is there is not made again. -/
theorem makeDirectory_of_find (h : t.find current p = .ok (loc, .directory)) :
    t.makeDirectory current p = .error .alreadyExists := by
  obtain ⟨hcheck, hwalk, hnode⟩ := find_eq_ok.mp h
  rw [makeDirectory]
  cases hlast : p.names.getLast? with
  | none => simp [place, hcheck, hlast, bind, Except.bind]
  | some name =>
      have hnames : p.names = p.names.dropLast ++ [name] :=
        (List.dropLast_append_getLast? name hlast).symm
      obtain ⟨rest, hrest, hwalk⟩ : ∃ rest, (rest = [] ∨ rest = ["."]) ∧
          t.walk (start current p) (p.names.dropLast ++ name :: rest) = .ok loc := by
        by_cases hslashed : p.slashed = true
        · rw [if_pos hslashed, hnames, List.append_assoc] at hwalk
          exact ⟨["."], .inr rfl, hwalk⟩
        · rw [if_neg hslashed, hnames] at hwalk
          exact ⟨[], .inl rfl, hwalk⟩
      rw [walk_append] at hwalk
      obtain ⟨parent, hparent, hwalk⟩ := bind_eq_ok.mp hwalk
      obtain ⟨hdirectory, next, hnext, hwalk⟩ := walk_cons.mp hwalk
      have hthere : t.node? next = some .directory := by
        rcases hrest with rfl | rfl
        · cases hwalk
          exact hnode
        · exact (walk_cons.mp hwalk).1
      by_cases hdot : name = "." ∨ name = ".."
      · simp [place, hcheck, hlast, hparent, hdirectory, hdot, bind, Except.bind]
      · rw [not_or] at hdot
        rw [place_eq_ok.mpr
          ⟨name, parent, hcheck, hnames, hdot.1, hdot.2, hparent, hdirectory, hnext⟩]
        simp [hthere, bind, Except.bind]

theorem draftName_inj {m n : Nat} (h : draftName m = draftName n) : m = n := by
  have hdigits : Nat.toDigits 10 m = Nat.toDigits 10 n := by
    rw [← Nat.toList_repr, ← Nat.toList_repr]
    exact congrArg String.toList ((String.append_right_inj _).mp h)
  have hvalue := congrArg (Nat.ofDigitChars 10 · 0) hdigits
  simpa using hvalue

/-- There are fewer entries than names for drafts. -/
theorem exists_free (t : FileTree) (loc : Location) :
    ∃ name ∈ (List.range (t.entries.length + 1)).map draftName,
      (t.node? (loc ++ [name])).isNone = true := by
  by_contra hnone
  push Not at hnone
  have hsubset : (List.range (t.entries.length + 1)).map (fun n => loc ++ [draftName n]) ⊆
      t.entries.map (·.1) := by
    intro other hother
    obtain ⟨n, hn, rfl⟩ := List.mem_map.mp hother
    have htaken := hnone (draftName n) (List.mem_map_of_mem hn)
    rw [node?, if_neg (by simp), Option.isNone_map, ne_eq, Bool.not_eq_true,
      Option.isNone_eq_false_iff, List.find?_isSome] at htaken
    obtain ⟨e, he, hloc⟩ := htaken
    exact List.mem_map.mpr ⟨e, he, by simpa using hloc⟩
  have hnodup : ((List.range (t.entries.length + 1)).map fun n => loc ++ [draftName n]).Nodup := by
    refine List.nodup_range.map fun m n h => draftName_inj ?_
    simpa using h
  have hlength := (hnodup.subperm hsubset).length_le
  rw [List.length_map, List.length_map, List.length_range] at hlength
  omega

theorem createDraft_of_find (h : t.find current p = .ok (loc, .directory)) :
    ∃ draft t', t.createDraft current p = .ok (draft, t') := by
  obtain ⟨name, hname, hfree⟩ := exists_free t loc
  rw [createDraft, h]
  simp only [bind, Except.bind]
  split
  · rename_i hnone
    have htaken := List.find?_eq_none.mp hnone name hname
    simp [hfree] at htaken
  · exact ⟨_, _, rfl⟩

theorem rename_of_place {node : Node} (hplace : t.place current p .busy = .ok goal)
    (hslashed : p.slashed = false) (hgoal : t.node? goal ≠ some .directory)
    (hnode : t.node? loc = some node) :
    t.rename current loc p = .ok ((t.erase loc).put goal node) := by
  rw [rename, hplace]
  simp only [bind, Except.bind, hslashed, hnode]
  rfl

end Operations

end FileTree

open FileTree

namespace World

/-- A path leads to a location if it names the node that is there. -/
def view : View World Location where
  Place := Location
  Node := Node
  node? w loc := w.tree.node? loc
  leads w p loc := ∃ node, w.tree.find w.current p = .ok (loc, node)
  directory node := node = .directory
  file content node := ∃ executable, node = .file content executable
  home draft := draft

variable {w w' : World} {loc : Location} {content : List UInt8}

section Steps

variable (execute : Command → StateM World (Except Fault Exit))

end Steps

end World

section Mishaps

variable {Draft α : Type} {machine : Machine (StateM World) Draft} {view : View World Draft}
  {mishaps : Nat → Option Mishap}

end Mishaps

end Calque.Machine
