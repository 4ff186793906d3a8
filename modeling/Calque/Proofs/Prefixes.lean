import Calque.Proofs.BoundedIndex

namespace Calque

open Lexical

variable {s t : String} {pos : Nat}

/-- The two texts have the same bytes up to offset `pos`, and there. -/
def SameUpTo (s t : String) (pos : Nat) : Prop :=
  ∀ i ≤ pos, (bytes s.toList)[i]? = (bytes t.toList)[i]?

instance : Decidable (SameUpTo s t pos) :=
  inferInstanceAs (Decidable (∀ i ≤ pos, (bytes s.toList)[i]? = (bytes t.toList)[i]?))

structure SameClass (s t : String) (pos : Nat) : Prop where
  insideString : insideString s pos = insideString t pos
  insideComment : insideComment s pos = insideComment t pos
  templateQuote : templateQuote s pos = templateQuote t pos
  stringStart : (Index.ofText s).stringStart? pos = (Index.ofText t).stringStart? pos
  inString : (Index.ofText s).inString pos = (Index.ofText t).inString pos
  inComment : (Index.ofText s).inComment pos = (Index.ofText t).inComment pos
  inTemplate : (Index.ofText s).inTemplate pos = (Index.ofText t).inTemplate pos
  inHole : (Index.ofText s).inHole pos = (Index.ofText t).inHole pos

theorem SameUpTo.mark (h : SameUpTo s t pos) {i : Nat} (hi : i ≤ pos) :
    (marks s.toList)[i]? = (marks t.toList)[i]? := by
  rw [marks, marks, List.getElem?_map, List.getElem?_map, h i hi]

theorem SameUpTo.before (h : SameUpTo s t pos) :
    (marks s.toList).take pos = (marks t.toList).take pos := by
  apply List.ext_getElem?
  intro i
  rw [List.getElem?_take, List.getElem?_take]
  split
  · exact h.mark (by omega)
  · rfl

theorem SameUpTo.within (h : SameUpTo s t pos) :
    pos < width s.toList ↔ pos < width t.toList := by
  have hnone := congrArg (· = none) (h pos (Nat.le_refl pos))
  simp only [List.getElem?_eq_none_iff, length_bytes, eq_iff_iff] at hnone
  omega

theorem SameUpTo.place (h : SameUpTo s t pos) :
    (Index.ofText s).place pos = (Index.ofText t).place pos := by
  rw [Index.ofText, Index.ofText, Index.place_ofChars, Index.place_ofChars, getElem?_places,
    getElem?_places, h.mark (Nat.le_refl pos), h.before]

theorem SameUpTo.sameClass (h : SameUpTo s t pos) : SameClass s t pos where
  insideString := by rw [insideString_eq, insideString_eq, h.before, decide_eq_decide.mpr h.within]
  insideComment := by rw [insideComment_eq, insideComment_eq, h.before]
  templateQuote := by rw [templateQuote, templateQuote, h.mark (Nat.sub_le pos 1)]
  stringStart := congrArg Place.stringStart h.place
  inString := congrArg Place.inString h.place
  inComment := congrArg Place.comment h.place
  inTemplate := congrArg Place.template h.place
  inHole := congrArg Place.hole h.place

theorem sameUpTo_append (h : pos < width s.toList) (rest : String) :
    SameUpTo s (s ++ rest) pos := by
  intro i hi
  rw [String.toList_append, bytes_append, List.getElem?_append_left (by rw [length_bytes]; omega)]

namespace Bounded

structure SameClass (s t : String) (pos : Nat) : Prop where
  insideString : insideString s pos = insideString t pos
  insideComment : insideComment s pos = insideComment t pos
  templateQuote : templateQuote s pos = templateQuote t pos
  place : ∃ a b, build s = pure a ∧ build t = pure b ∧ a.place pos = b.place pos

theorem sameClass (h : SameUpTo s t pos) (hs : width s.toList < 2 ^ 63)
    (ht : width t.toList < 2 ^ 63) : SameClass s t pos where
  insideString := by
    rw [insideString_ends hs, insideString_ends ht, h.sameClass.insideString]
  insideComment := by
    rw [insideComment_ends hs, insideComment_ends ht, h.sameClass.insideComment]
  templateQuote := by rw [templateQuote_ends, templateQuote_ends, h.sameClass.templateQuote]
  place := ⟨tablesOf s, tablesOf t, build_ends hs, build_ends ht,
    by rw [place_tablesOf, place_tablesOf, h.place]⟩

end Bounded

/-- The class of an offset is settled by the text up to it and the byte there, so that no text
behind changes it. -/
theorem class_of_prefix (s t : String) (pos : Nat) :
    (SameUpTo s t pos → SameClass s t pos ∧
      (width s.toList < 2 ^ 63 → width t.toList < 2 ^ 63 → Bounded.SameClass s t pos)) ∧
    (pos < width s.toList → ∀ rest, SameClass s (s ++ rest) pos) :=
  ⟨fun h => ⟨h.sameClass, Bounded.sameClass h⟩, fun h rest => (sameUpTo_append h rest).sameClass⟩

/-- The brace that a text ends in is the first of two in another text, and the scan takes them
together there. -/
theorem class_of_prefix_brace :
    SameUpTo "f\"\x7b" "f\"{{e}}\"" 2 ∧ SameClass "f\"\x7b" "f\"{{e}}\"" 2 ∧
      width "f\"\x7b".toList < 2 ^ 63 ∧ width "f\"{{e}}\"".toList < 2 ^ 63 ∧
      Bounded.SameClass "f\"\x7b" "f\"{{e}}\"" 2 ∧
      2 < width "f\"\x7b".toList ∧ SameClass "f\"\x7b" ("f\"\x7b" ++ "\x7be") 2 := by
  have hsame : SameUpTo "f\"\x7b" "f\"{{e}}\"" 2 := by decide
  have hs : width "f\"\x7b".toList < 2 ^ 63 := by decide
  have ht : width "f\"{{e}}\"".toList < 2 ^ 63 := by decide
  have hin : 2 < width "f\"\x7b".toList := by decide
  obtain ⟨hclass, happend⟩ := class_of_prefix "f\"\x7b" "f\"{{e}}\"" 2
  obtain ⟨hfree, hbounded⟩ := hclass hsame
  exact ⟨hsame, hfree, hs, ht, hbounded hs ht, hin, happend hin "\x7be"⟩

end Calque
