import Calque.Json.Writer
import Calque.Proofs.Grammar

namespace Calque.Json

theorem hexDigit?_hexDigit (n : Nat) : hexDigit? (hexDigit n) = some (n % 16) := by
  have h : ∀ m < 16, hexDigit? (Nat.digitChar m) = some m := by decide
  exact h _ (Nat.mod_lt _ (by decide))

theorem stands_writeChar (c : Char) : Stands (writeChar c) c := by
  unfold writeChar
  -- The seven characters that have an escape of their own.
  iterate 7
    split
    · subst c
      exact .short (by decide)
  split
  · rename_i hc
    have hn : c.toNat < 32 := hc
    have hzero : hexDigit? '0' = some 0 := by decide
    have hvalue : ((0 * 16 + 0) * 16 + c.toNat / 16 % 16) * 16 + c.toNat % 16 = c.toNat := by omega
    exact .unit (by simp only [unit?, hzero, hexDigit?_hexDigit, hvalue])
  · exact .plain ‹_› ‹_› ‹_›

theorem says_writeChar (text : List Char) : Says (text.flatMap writeChar) text := by
  induction text with
  | nil => exact .nil
  | cons c text ih =>
      rw [List.flatMap_cons]
      exact .cons (stands_writeChar c) ih

theorem writeItems_eq (items : List Json) :
    writeItems items = [','].intercalate (items.map write) := by
  induction items with
  | nil => rw [writeItems]; rfl
  | cons j items ih =>
      cases items with
      | nil => rw [writeItems, List.map_singleton, List.intercalate_singleton]
      | cons k items =>
          rw [writeItems, ih, List.map_cons, List.map_cons, List.map_cons,
            List.intercalate_cons_cons]
          simp

def Member.compact (m : String × Json) : Member :=
  ⟨[], m.1.toList.flatMap writeChar, [], write m.2⟩

theorem writeMembers_eq (members : List (String × Json)) :
    writeMembers members = [','].intercalate (members.map fun m => (Member.compact m).text) := by
  induction members with
  | nil => rw [writeMembers]; rfl
  | cons m members ih =>
      cases members with
      | nil =>
          rw [writeMembers, List.map_singleton, List.intercalate_singleton]
          rfl
      | cons m' members =>
          rw [writeMembers, ih, List.map_cons, List.map_cons, List.map_cons,
            List.intercalate_cons_cons]
          simp [Member.text, Member.compact, writeString]

theorem writes_string (s : String) : Writes (.string s) (write (.string s)) := by
  rw [write]
  exact .string (says_writeChar s.toList) (padded_self _)

theorem writes_bool (b : Bool) : Writes (.bool b) (write (.bool b)) := by
  cases b <;> exact .bool _ (padded_self _)

theorem writes_ofNat {n : Nat} (hn : n < wordSize) : Writes (.ofNat n) (write (.ofNat n)) := by
  have htext : write (.ofNat n) = Nat.toDigits 10 n := by
    rw [ofNat, write, Number.text]
    exact Nat.toList_repr
  rw [htext]
  exact .natural hn (padded_self _)

theorem writes_array {js : List Json} (h : ∀ j ∈ js, Writes j (write j)) :
    Writes (.array js) (write (.array js)) := by
  have hlist : ListText (js.map write) (listText [] (js.map write)) := by
    refine .mk blank_nil ?_ (padded_self _)
    simp only [List.forall_mem_map]
    exact fun j hj => (h j hj).wellFormed
  have hitems : ∀ i ∈ js.map fun j => (j, write j), Writes i.1 i.2 := by
    simpa only [List.forall_mem_map] using h
  have htext : write (.array js) = listText [] (js.map write) := by
    rw [write, writeItems_eq]
    rfl
  rw [htext]
  simpa [Function.comp_def] using Writes.array hitems (by simpa [Function.comp_def] using hlist)

theorem writes_object {members : List (String × Json)}
    (h : ∀ m ∈ members, Writes m.2 (write m.2)) :
    Writes (.object members) (write (.object members)) := by
  have htext : write (.object members) = objectText [] (members.map Member.compact) := by
    rw [write, writeMembers_eq, objectText, List.map_map]
    rfl
  have hobject : Writes (.object (members.map fun m => (m.1, m.2))) (write (.object members)) := by
    rw [htext]
    exact writes_object_map blank_nil (fun m _ => ⟨blank_nil, blank_nil⟩)
      (fun m _ => says_writeChar _) h (padded_self _)
  rwa [List.map_id'] at hobject

theorem Writes.write {j : Json} {text : List Char} (h : Writes j text) : Writes j (write j) := by
  induction h with
  | null _ =>
      rw [Json.write]
      exact .null (padded_self _)
  | bool b _ => exact writes_bool b
  | natural hn _ => exact writes_ofNat hn
  | string _ _ => exact writes_string _
  | array _ _ ih => exact writes_array (by simpa only [List.forall_mem_map] using ih)
  | object _ _ ih => exact writes_object (by simpa only [List.forall_mem_map] using ih)

end Calque.Json
