import Calque.Bounded.Registry
import Mathlib.Data.Set.Card

namespace Calque

theorem Dictionary.pairFault?_reverse (earlier : List WordPair) (p : WordPair) :
    pairFault? earlier.reverse p = pairFault? earlier p := by
  simp [pairFault?]

namespace Bounded

open Dictionary (pairFault? pairFault?_reverse firstFault? wordFault?)

def placed (cls : WordClass) (ps : List WordPair) : List (WordPair × Slot) :=
  ps.zipIdx.map fun (p, index) => (p, ⟨index, cls⟩)

def placedIn (structural callable : List WordPair) : List (WordPair × Slot) :=
  placed .structural structural ++ placed .callable callable

theorem map_placed (cls : WordClass) (ps : List WordPair) : (placed cls ps).map (·.1) = ps := by
  rw [placed, List.map_map]
  exact List.zipIdx_map_fst 0 ps

theorem map_placedIn (structural callable : List WordPair) :
    (placedIn structural callable).map (·.1) = structural ++ callable := by
  rw [placedIn, List.map_append, map_placed, map_placed]

def Leads (side : WordPair → String) (table : SlotTable) (xs : List (WordPair × Slot)) : Prop :=
  ∀ word, table[word]? = (xs.find? (side ·.1 = word)).map (·.2)

structure Slots.Holds (s : Slots) (xs : List (WordPair × Slot)) : Prop where
  byDialect : Leads (·.dialect) s.byDialect xs
  byHost : Leads (·.host) s.byHost xs

theorem holds_empty : Slots.empty.Holds [] :=
  ⟨fun _ => Std.HashMap.getElem?_empty, fun _ => Std.HashMap.getElem?_empty⟩

theorem enterWord_eq (table : SlotTable) (word : String) (slot : Slot) (taken : Dictionary.Fault) :
    enterWord table word slot taken =
      if table.contains word = true then .error taken else .ok (table.insert word slot) := by
  have hboth : table.containsThenInsert word slot =
      (table.contains word, table.insert word slot) :=
    Prod.ext Std.HashMap.containsThenInsert_fst Std.HashMap.containsThenInsert_snd
  rw [enterWord, hboth]
  rfl

section Leads

variable {side : WordPair → String} {table : SlotTable} {xs : List (WordPair × Slot)}
  (h : Leads side table xs)
include h

theorem contains_iff (word : String) :
    table.contains word = true ↔ word ∈ (xs.map (·.1)).map side := by
  rw [Std.HashMap.contains_eq_isSome_getElem?, h word]
  simp

theorem enterWord_taken {word : String} (hword : word ∈ (xs.map (·.1)).map side) (slot : Slot)
    (taken : Dictionary.Fault) : enterWord table word slot taken = .error taken := by
  rw [enterWord_eq, if_pos ((contains_iff h word).mpr hword)]

theorem enterWord_new {p : WordPair} (hword : side p ∉ (xs.map (·.1)).map side) (slot : Slot)
    (taken : Dictionary.Fault) : ∃ table', enterWord table (side p) slot taken = .ok table' ∧
      Leads side table' (xs ++ [(p, slot)]) := by
  refine ⟨table.insert (side p) slot, ?_, fun word => ?_⟩
  · rw [enterWord_eq, if_neg (mt (contains_iff h _).mp hword)]
  · rw [Std.HashMap.getElem?_insert, List.find?_append, h word]
    by_cases hw : side p = word
    · have hnone : xs.find? (side ·.1 = word) = none := by
        rw [List.find?_eq_none]
        intro x hx hside
        have hside : side x.1 = side p := (of_decide_eq_true hside).trans hw.symm
        exact hword (hside ▸ List.mem_map_of_mem (List.mem_map_of_mem hx))
      simp [hnone, hw]
    · simp [hw]

end Leads

theorem checkWord_eq (word : String) : Slots.checkWord word =
    match wordFault? word with
    | some fault => .error fault
    | none => .ok () := by
  rw [Slots.checkWord]
  cases wordFault? word <;> rfl

/-- A pair is registered unless it has a fault, and then its first fault is the error. -/
theorem register_cases {s : Slots} {xs : List (WordPair × Slot)} (h : s.Holds xs) (p : WordPair)
    (slot : Slot) :
    (∃ fault, pairFault? (xs.map (·.1)) p = some fault ∧ s.register p slot = .error fault) ∨
      pairFault? (xs.map (·.1)) p = none ∧
        ∃ s', s.register p slot = .ok s' ∧ s'.Holds (xs ++ [(p, slot)]) := by
  rw [pairFault?, Slots.register, checkWord_eq, checkWord_eq]
  cases wordFault? p.dialect with
  | some fault => exact .inl ⟨fault, rfl, rfl⟩
  | none =>
      cases wordFault? p.host with
      | some fault => exact .inl ⟨fault, rfl, rfl⟩
      | none =>
          by_cases hdialect : p.dialect ∈ (xs.map (·.1)).map (·.dialect)
          · rw [enterWord_taken h.byDialect hdialect, if_pos hdialect]
            exact .inl ⟨_, rfl, rfl⟩
          · obtain ⟨byDialect, henter, hleads⟩ :=
              enterWord_new h.byDialect hdialect slot (.duplicateDialect p.dialect)
            rw [henter, if_neg hdialect]
            by_cases hhost : p.host ∈ (xs.map (·.1)).map (·.host)
            · rw [enterWord_taken h.byHost hhost, if_pos hhost]
              exact .inl ⟨_, rfl, rfl⟩
            · obtain ⟨byHost, henter', hleads'⟩ :=
                enterWord_new h.byHost hhost slot (.duplicateHost p.host)
              rw [henter', if_neg hhost]
              exact .inr ⟨rfl, ⟨byDialect, byHost⟩, rfl, ⟨hleads, hleads'⟩⟩

def Slots.registerPlaced (s : Slots) (xs : List (WordPair × Slot)) :
    Except Dictionary.Fault Slots :=
  xs.foldlM (fun s x => s.register x.1 x.2) s

/-- Registering goes on to the end, or to the first fault. -/
theorem register_run {s : Slots} {xs : List (WordPair × Slot)} (h : s.Holds xs)
    (ys : List (WordPair × Slot)) :
    (∃ fault, firstFault? (xs.map (·.1)).reverse (ys.map (·.1)) = some fault ∧
        s.registerPlaced ys = .error fault) ∨
      firstFault? (xs.map (·.1)).reverse (ys.map (·.1)) = none ∧
        ∃ s', s.registerPlaced ys = .ok s' ∧ s'.Holds (xs ++ ys) := by
  induction ys generalizing s xs with
  | nil => exact .inr ⟨rfl, s, rfl, by rwa [List.append_nil]⟩
  | cons y ys ih =>
      rw [List.map_cons, firstFault?, pairFault?_reverse, Slots.registerPlaced,
        List.foldlM_cons]
      rcases register_cases h y.1 y.2 with ⟨fault, hfault, herror⟩ | ⟨hnone, s', hok, hholds⟩
      · rw [hfault, herror]
        exact .inl ⟨fault, rfl, rfl⟩
      · have hrest := ih hholds
        rw [List.map_append, List.reverse_append, List.append_assoc] at hrest
        rw [hnone, hok]
        exact hrest

theorem registerPlaced_placed (s : Slots) (cls : WordClass) (ps : List WordPair) :
    s.registerPlaced (placed cls ps) = s.registerAll cls ps := List.foldlM_map

theorem ofLists_eq (structural callable : List WordPair) :
    Registry.ofLists structural callable =
      (Slots.empty.registerPlaced (placedIn structural callable)).map
        (⟨structural, callable, ·⟩) := by
  have hboth : Slots.empty.registerPlaced (placedIn structural callable) =
      (Slots.empty.registerPlaced (placed .structural structural) >>= fun s =>
        s.registerPlaced (placed .callable callable)) := List.foldlM_append
  rw [hboth, registerPlaced_placed, Registry.ofLists]
  cases Slots.empty.registerAll .structural structural with
  | error fault => rfl
  | ok s =>
      simp only [bind, Except.bind, registerPlaced_placed]
      cases s.registerAll .callable callable <;> rfl

/-- A dictionary with tables is made if its lists have no fault, or else their first fault is the
error. -/
theorem ofLists_cases (structural callable : List WordPair) :
    (∃ fault, firstFault? [] (structural ++ callable) = some fault ∧
        Registry.ofLists structural callable = .error fault) ∨
      firstFault? [] (structural ++ callable) = none ∧
        ∃ slots : Slots, Registry.ofLists structural callable = .ok ⟨structural, callable, slots⟩ ∧
          slots.Holds (placedIn structural callable) := by
  have hrun := register_run holds_empty (placedIn structural callable)
  rw [map_placedIn] at hrun
  rw [ofLists_eq]
  rcases hrun with ⟨fault, hfault, herror⟩ | ⟨hnone, slots, hok, hholds⟩
  · rw [herror]
    exact .inl ⟨fault, hfault, rfl⟩
  · rw [hok]
    exact .inr ⟨hnone, slots, rfl, hholds⟩

end Bounded

end Calque
