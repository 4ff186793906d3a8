import Calque.Proofs.Openings
import Calque.Proofs.Rescanning

namespace Calque.Lexical

def Mode.HolesInTemplates : Mode → Prop
  | .code _ => True
  | .literal l => 0 < l.depth ∨ l.held = .brace → l.template = true

theorem holes_read {l : Literal} (h : (Mode.literal l).HolesInTemplates) (m : Mark) :
    (l.read m).HolesInTemplates := by
  cases m with
  | quote q =>
      rw [Literal.read]
      split
      · trivial
      · exact h
  | backslash =>
      intro hopen
      exact h (.inl (hopen.resolve_right (by simp)))
  | openBrace =>
      simp only [Literal.read]
      split
      · exact h
      · rename_i ht
        have ht : l.template = true := by simpa using ht
        split <;> exact fun _ => ht
  | closeBrace =>
      rintro (hdepth | hheld)
      · exact h (.inl (Nat.lt_of_lt_of_le hdepth (Nat.sub_le _ _)))
      · exact h (.inr hheld)
  | hash | newline | templateLetter | plain => exact h

theorem holes_step {offset : Nat} {mode : Mode} (h : mode.HolesInTemplates) (m : Mark) :
    (mode.step offset m).HolesInTemplates := by
  cases mode with
  | code a => cases m <;> simp [Mode.step, Mode.HolesInTemplates]
  | literal l =>
      cases hheld : l.held with
      | nothing =>
          simp only [Mode.step, Literal.step, hheld]
          exact holes_read h m
      | backslash =>
          simp only [Mode.step, Literal.step, hheld]
          intro hopen
          exact h (.inl (hopen.resolve_right (by simp)))
      | brace =>
          have ht : l.template = true := h (.inr hheld)
          by_cases hm : m = .openBrace
          · subst hm
            simp only [Mode.step, Literal.step, hheld]
            exact fun _ => ht
          · rw [Mode.step, step_brace hheld hm]
            refine holes_read ?_ m
            exact fun _ => ht

theorem holes_run {s : State} (h : s.mode.HolesInTemplates) (ms : List Mark) :
    (s.run ms).mode.HolesInTemplates := by
  induction ms generalizing s with
  | nil => exact h
  | cons m ms ih => exact ih (holes_step h m)

theorem hole_place {s : State} (h : s.mode.HolesInTemplates) {m : Mark}
    (hhole : (s.place m).hole = true) : (s.place m).template = true := by
  cases hs : s.mode with
  | code a => simp [State.place, hs] at hhole
  | literal l =>
      rw [hs] at h
      simp only [State.place, hs, Bool.or_eq_true, decide_eq_true_eq, Bool.and_eq_true] at hhole ⊢
      exact h (hhole.imp_right And.left)

/-- An open literal is a template if the byte before its opening quote says so. -/
theorem templateQuote_opened {text : String} {pos : Nat} {l : Literal}
    (h : (State.start.run ((marks text.toList).take pos)).mode = .literal l) :
    templateQuote text l.start = l.template := by
  obtain ⟨hlt, ht⟩ := opened_run h
  rw [List.length_take] at hlt
  rw [templateQuote, ht, List.getElem?_take_of_lt (by omega), Bool.decide_and]

theorem place_past {text : String} {pos : Nat} (h : width text.toList ≤ pos) :
    (Index.ofText text).place pos = .outside := by
  rw [Index.ofText, Index.place_ofChars, List.getElem?_eq_none (by simpa using h)]
  rfl

theorem place_cases (text : String) (pos : Nat) :
    (pos < width text.toList ∧ ∃ m, (Index.ofText text).place pos =
      (State.start.run ((marks text.toList).take pos)).place m) ∨
    (width text.toList ≤ pos ∧ (Index.ofText text).place pos = .outside) := by
  rcases Nat.lt_or_ge pos (width text.toList) with h | h
  · exact .inl ⟨h, place_ofText text h⟩
  · exact .inr ⟨h, place_past h⟩

theorem inString_agrees (text : String) (pos : Nat) :
    (Index.ofText text).inString pos = insideString text pos := by
  rw [insideString_eq, Index.inString]
  rcases place_cases text pos with ⟨h, m, hm⟩ | ⟨h, houtside⟩
  · rw [hm, inString_place, decide_eq_true h, Bool.true_and]
  · rw [houtside, decide_eq_false (by omega)]
    rfl

theorem inTemplate_agrees (text : String) (pos : Nat) :
    (Index.ofText text).inTemplate pos = true ↔
      ∃ q, (Index.ofText text).stringStart? pos = some q ∧ templateQuote text q = true := by
  rw [Index.inTemplate, Index.stringStart?]
  rcases place_cases text pos with ⟨-, m, hm⟩ | ⟨-, houtside⟩
  · rw [hm]
    cases hs : (State.start.run ((marks text.toList).take pos)).mode with
    | code a => simp [State.place, hs]
    | literal l => simp [State.place, hs, templateQuote_opened hs]
  · simp [houtside, Place.outside]

theorem inTemplate_of_inHole {text : String} {pos : Nat}
    (h : (Index.ofText text).inHole pos = true) : (Index.ofText text).inTemplate pos = true := by
  rw [Index.inHole] at h
  rw [Index.inTemplate]
  have hstart : State.start.mode.HolesInTemplates := trivial
  rcases place_cases text pos with ⟨-, m, hm⟩ | ⟨-, houtside⟩
  · rw [hm] at h ⊢
    exact hole_place (holes_run hstart _) h
  · rw [houtside] at h
    cases h

theorem inComment_agrees {text : String} {pos : Nat} (h : pos < width text.toList) :
    (Index.ofText text).inComment pos = insideComment text pos := by
  obtain ⟨m, hm⟩ := place_ofText text h
  rw [Index.inComment, hm, comment_place, insideComment_eq]

theorem insideComment_past {text : String} {pos : Nat} (h : width text.toList ≤ pos) :
    insideComment text pos = insideComment text (width text.toList) := by
  rw [insideComment_eq, insideComment_eq, List.take_of_length_le (by simpa using h),
    List.take_of_length_le (by simp)]

/-- At every offset an index gives the answers that reading the text anew gives. A comment is the
one thing on which they differ past the end: reading anew stays in the comment of the last line. -/
theorem index_agrees (text : String) (pos : Nat) :
    (Index.ofText text).inString pos = insideString text pos ∧
      ((Index.ofText text).inTemplate pos = true ↔
        ∃ q, (Index.ofText text).stringStart? pos = some q ∧ templateQuote text q = true) ∧
      ((Index.ofText text).inHole pos = true → (Index.ofText text).inTemplate pos = true) ∧
      (pos < width text.toList →
        (Index.ofText text).inComment pos = insideComment text pos) ∧
      (width text.toList ≤ pos →
        (Index.ofText text).inString pos = false ∧ (Index.ofText text).stringStart? pos = none ∧
        (Index.ofText text).inTemplate pos = false ∧ (Index.ofText text).inHole pos = false ∧
        (Index.ofText text).inComment pos = false ∧
        insideComment text pos = insideComment text (width text.toList)) := by
  refine ⟨inString_agrees text pos, inTemplate_agrees text pos, inTemplate_of_inHole,
    inComment_agrees, fun h => ?_⟩
  simp only [Index.inString, Index.stringStart?, Index.inTemplate, Index.inHole, Index.inComment,
    place_past h, Place.outside, Place.inString, Option.isSome_none, insideComment_past h, and_self]

/-- A place in the hole, a place in the comment, and one past the end of the comment. -/
theorem index_agrees_hole : (Index.ofText "f\"{e}\" # e").inHole 3 = true ∧
    (Index.ofText "f\"{e}\" # e").inTemplate 3 = true ∧
    9 < width "f\"{e}\" # e".toList ∧
    (Index.ofText "f\"{e}\" # e").inComment 9 = insideComment "f\"{e}\" # e" 9 ∧
    width "f\"{e}\" # e".toList ≤ 64 ∧
    insideComment "f\"{e}\" # e" 64 = insideComment "f\"{e}\" # e" 10 := by
  have hhole : (Index.ofText "f\"{e}\" # e").inHole 3 = true := by decide
  have hinside : 9 < width "f\"{e}\" # e".toList := by decide
  have hpast : width "f\"{e}\" # e".toList ≤ 64 := by decide
  obtain ⟨-, -, htemplate, -, -⟩ := index_agrees "f\"{e}\" # e" 3
  obtain ⟨-, -, -, hcomment, -⟩ := index_agrees "f\"{e}\" # e" 9
  obtain ⟨-, -, -, -, houtside⟩ := index_agrees "f\"{e}\" # e" 64
  exact ⟨hhole, htemplate hhole, hinside, hcomment hinside, hpast,
    (houtside hpast).2.2.2.2.2⟩

end Calque.Lexical
