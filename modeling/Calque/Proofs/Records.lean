import Mathlib.Data.List.Nodup
import Calque.Json.Laws

namespace Calque.Json

theorem Writes.members {fields : List (String × Json)} {text : List Char}
    (h : Writes (.object fields) text) :
    ∃ members : List (String × Json × List Char), (members.map fun m => (m.1, m.2.1)) = fields ∧
      (∀ m ∈ members, Writes m.2.1 m.2.2) ∧
      ObjectText (members.map fun m => (m.1, m.2.2)) text := by
  cases h with
  | object hvalues h => exact ⟨_, rfl, hvalues, h⟩

section Fields

variable {ε S σ α τ : Type} (Before : S → List Char → S → Prop)

def given? (done : List String) (name : String) (a : τ) : Option τ :=
  if name ∈ done then some a else none

theorem isSome_given? (done : List String) (name : String) (a : τ) :
    (given? done name a).isSome = decide (name ∈ done) := by
  unfold given?
  split <;> simp [*]

/-- The field `f` takes the value `v`, where the draft is `part` of the names of the fields that
have been read so far. -/
structure Field.Takes (part : List String → σ) (f : Field ε S σ) (v : String × Json) : Prop where
  name : f.name = v.1
  given : ∀ done, f.given (part done) = decide (v.1 ∈ done)
  read : ∀ done text, Writes v.2 text →
    Reads Before (f.read (part done)) text (part (v.1 :: done))

variable {Before} {part : List String → σ}

theorem takes_of {name : String} {slot : σ → Option τ} {fill : σ → τ → σ} {reader : Reader ε S τ}
    {j : Json} {a : τ} (hread : ∀ text, Writes j text → Reads Before reader text a)
    (hslot : ∀ done, slot (part done) = given? done name a)
    (hfill : ∀ done, fill (part done) a = part (name :: done)) :
    Field.Takes Before part (.of name slot fill reader) (name, j) where
  name := rfl
  given done := by simp only [Field.of, hslot, isSome_given?]
  read done text htext src rest hsrc := by
    rw [Field.of, ← hfill]
    simp only [bind, Except.bind, hread text htext src rest hsrc]

theorem exists_takes {fs : List (Field ε S σ)} {fields : List (String × Json)}
    (h : List.Forall₂ (Field.Takes Before part) fs fields) {v : String × Json} (hv : v ∈ fields) :
    ∃ f ∈ fs, Field.Takes Before part f v := by
  induction h with
  | nil => cases hv
  | cons hfirst _ ih =>
      rcases List.mem_cons.mp hv with rfl | hv
      · exact ⟨_, List.mem_cons_self .., hfirst⟩
      · obtain ⟨f, hf, htakes⟩ := ih hv
        exact ⟨f, List.mem_cons_of_mem _ hf, htakes⟩

theorem names_of_takes {fs : List (Field ε S σ)} {fields : List (String × Json)}
    (h : List.Forall₂ (Field.Takes Before part) fs fields) :
    fs.map (·.name) = fields.map (·.1) := by
  induction h with
  | nil => rfl
  | cons hf _ ih => rw [List.map_cons, List.map_cons, hf.name, ih]

end Fields

namespace Record

variable {ε S σ α : Type} (Before : S → List Char → S → Prop)

structure Fills (r : Record ε S σ α) (fields : List (String × Json)) (part : List String → σ) :
    Prop where
  takes : List.Forall₂ (Field.Takes Before part) r.fields fields
  nodup : (fields.map (·.1)).Nodup
  start : part [] = r.start

namespace Fills

variable {Before} {r : Record ε S σ α} {fields : List (String × Json)} {part : List String → σ}

theorem nodup_names (h : r.Fills Before fields part) : (r.fields.map (·.name)).Nodup := by
  rw [names_of_takes h.takes]
  exact h.nodup

/-- The members of an object fill a draft: each of the fields among them once, in whatever order,
and no others where the record is closed. -/
theorem walk (h : r.Fills Before fields part) {members : List (String × List Char)}
    (hown : ∀ m ∈ members, ∀ j, (m.1, j) ∈ fields → Writes j m.2)
    (hothers : ∀ m ∈ members, m.1 ∉ fields.map (·.1) → r.closed = false)
    (hnodup : ((members.map (·.1)).filter (· ∈ fields.map (·.1))).Nodup) {done : List String}
    (hdone : ∀ m ∈ members, m.1 ∈ fields.map (·.1) → m.1 ∉ done) :
    Walk (r.Step Before) members (part done)
      (part (((members.map (·.1)).filter (· ∈ fields.map (·.1))).reverse ++ done)) := by
  induction members generalizing done with
  | nil => exact .nil _
  | cons m members ih =>
      obtain ⟨hownm, hown⟩ := List.forall_mem_cons.mp hown
      obtain ⟨hothersm, hothers⟩ := List.forall_mem_cons.mp hothers
      obtain ⟨hdonem, hdone⟩ := List.forall_mem_cons.mp hdone
      rw [List.map_cons] at hnodup ⊢
      by_cases hknown : m.1 ∈ fields.map (·.1)
      · rw [List.filter_cons_of_pos (by simpa using hknown)] at hnodup ⊢
        obtain ⟨hnew, hnodup⟩ := List.nodup_cons.mp hnodup
        have hrest : ∀ m' ∈ members, m'.1 ∈ fields.map (·.1) → m'.1 ∉ m.1 :: done := by
          intro m' hm' hknown' hmem
          rcases List.mem_cons.mp hmem with he | hmem
          · exact hnew (he ▸ List.mem_filter.mpr ⟨List.mem_map_of_mem hm', by simpa using hknown'⟩)
          · exact hdone m' hm' hknown' hmem
        obtain ⟨⟨name, j⟩, hj, hname⟩ := List.mem_map.mp hknown
        obtain ⟨f, hf, htakes⟩ := exists_takes h.takes hj
        have hvalue : Writes j m.2 := hownm j (by rwa [← hname])
        have hnew : f.given (part done) = false := by
          rw [htakes.given, hname]
          simpa using hdonem hknown
        have hstep := Step.field hf hnew (htakes.read done m.2 hvalue)
        rw [htakes.name, hname] at hstep
        rw [List.reverse_cons, List.append_assoc]
        exact .cons hstep (ih hown hothers hnodup hrest)
      · rw [List.filter_cons_of_neg (by simpa using hknown)] at hnodup ⊢
        refine .cons (.other (hothersm hknown) ?_) (ih hown hothers hnodup hdone)
        rwa [names_of_takes h.takes]

/-- So do the items of a list, in the order of the fields. -/
theorem walk_list {fs : List (Field ε S σ)} (h : List.Forall₂ (Field.Takes Before part) fs fields)
    {items : List (List Char)}
    (hvalues : List.Forall₂ (fun f item => Writes f.2 item) fields items) (done : List String) :
    Walk (fun p s => Reads Before (p.1.read s) p.2) (fs.zip items) (part done)
      (part ((fields.map (·.1)).reverse ++ done)) := by
  induction h generalizing items done with
  | nil =>
      cases hvalues
      exact .nil _
  | @cons f v fs fields hf _ ih =>
      cases hvalues with
      | cons hv hvalues =>
          rw [List.map_cons, List.reverse_cons, List.append_assoc]
          exact .cons (hf.read done _ hv) (ih hvalues (v.1 :: done))

end Fills

end Record

end Calque.Json
