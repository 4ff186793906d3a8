import Calque.Json.Grammar
import Calque.Json.Library

namespace Calque.Json

inductive Walk {β σ : Type} (step : β → σ → σ → Prop) : List β → σ → σ → Prop
  | nil (s : σ) : Walk step [] s s
  | cons {b : β} {bs : List β} {s s' s'' : σ} (h : step b s s') (hrest : Walk step bs s' s'') :
      Walk step (b :: bs) s s''

theorem Walk.mono {β σ : Type} {step step' : β → σ → σ → Prop} {bs : List β} {s s' : σ}
    (h : Walk step bs s s') (himp : ∀ b ∈ bs, ∀ s s', step b s s' → step' b s s') :
    Walk step' bs s s' := by
  induction h with
  | nil s => exact .nil s
  | cons h _ ih =>
      obtain ⟨hb, hbs⟩ := List.forall_mem_cons.mp himp
      exact .cons (hb _ _ h) (ih hbs)

section Readers

variable {ε S σ α : Type} (Before : S → List Char → S → Prop)

/-- A reader takes a value from a text wherever the text stands. -/
def Reads (reader : Reader ε S α) (text : List Char) (a : α) : Prop :=
  ∀ src rest, Before src text rest → reader src = .ok (a, rest)

/-- What a member of an object does to the draft of a record. -/
inductive Record.Step (r : Record ε S σ α) : String × List Char → σ → σ → Prop
  | field {f : Field ε S σ} {text : List Char} {s s' : σ} (hf : f ∈ r.fields)
      (hnew : f.given s = false) (h : Reads Before (f.read s) text s') :
      Record.Step r (f.name, text) s s'
  | other {name : String} {text : List Char} {s : σ} (hopen : r.closed = false)
      (hother : name ∉ r.fields.map (·.name)) : Record.Step r (name, text) s s

end Readers

/-- A library keeps to the grammar, where `Before depth src text rest` says that the source `src`
begins with the text of a value and goes on as `rest`, and that values may be nested `depth` deep
there; 127 levels are read of a document. Members come in the order of the document, repeated names
included, and a record is read as its description says. -/
structure Library.Laws {ε : Type} (lib : Library ε)
    (Before : Nat → lib.Source → List Char → lib.Source → Prop) : Prop where
  start : ∀ text : String, WellFormed text.toList →
    ∃ rest, Before 127 (lib.start text) text.toList rest ∧ lib.finish rest = .ok ()
  bool : ∀ depth b text, Writes (.bool b) text → Reads (Before depth) lib.readBool text b
  text : ∀ depth s text, Writes (.string s) text → Reads (Before depth) lib.readText text s
  word : ∀ depth (n : UInt64) text, Writes (.ofNat n.toNat) text →
    Reads (Before depth) lib.readWord text n
  variant : ∀ {α : Type} depth (variants : List (String × α)) name a text,
    (variants.map (·.1)).Nodup → (name, a) ∈ variants → Writes (.string name) text →
      Reads (Before depth) (lib.readVariant variants) text a
  object : ∀ {σ : Type} depth wanted (member : String → σ → Reader ε lib.Source σ) members text s
      s', ObjectText members text →
      Walk (fun m s => Reads (Before depth) (member m.1 s) m.2) members s s' →
        Reads (Before (depth + 1)) (lib.readObject wanted member s) text s'
  /-- Members that are no fields are passed over, however deep they are. -/
  record_object : ∀ {σ α : Type} depth (r : Record ε lib.Source σ α) members text s a,
    (r.fields.map (·.name)).Nodup → ObjectText members text →
      Walk (r.Step (Before depth)) members r.start s → r.finish s = .ok a →
        Reads (Before (depth + 1)) (lib.readRecord r) text a
  record_list : ∀ {σ α : Type} depth (r : Record ε lib.Source σ α) items text s a,
    items.length = r.fields.length → ListText items text →
      Walk (fun p s => Reads (Before depth) (p.1.read s) p.2) (r.fields.zip items) r.start s →
        r.finish s = .ok a → Reads (Before (depth + 1)) (lib.readRecord r) text a
  /-- Every record that is read has been finished. -/
  record_finish : ∀ {σ α : Type} (r : Record ε lib.Source σ α) src a rest,
    lib.readRecord r src = .ok (a, rest) → ∃ s, r.finish s = .ok a
  write : ∀ j text, Writes j text → Writes j (lib.write j).toList

theorem Library.Laws.decode {ε α : Type} {lib : Library ε}
    {Before : Nat → lib.Source → List Char → lib.Source → Prop} (laws : lib.Laws Before)
    {reader : Reader ε lib.Source α} {text : String} {a : α} (htext : WellFormed text.toList)
    (h : Reads (Before 127) reader text.toList a) : lib.decode reader text = .ok a := by
  obtain ⟨rest, hbefore, hfinish⟩ := laws.start text htext
  rw [Library.decode, h _ _ hbefore]
  simp only [bind, Except.bind, hfinish]

end Calque.Json
