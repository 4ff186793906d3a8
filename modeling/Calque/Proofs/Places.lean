import Calque.Proofs.Phase
import Calque.Proofs.Rescanning

namespace Calque

open Lexical

theorem place_inert {m : Mark} (hm : m.Inert) (s : State) : s.place m = s.place .plain := by
  rcases hm with rfl | rfl
  · rfl
  · cases hs : s.mode <;> simp [State.place, hs]

theorem place_word (before : List Char) {w : List Char} (hw : ∀ d ∈ w, isWordChar d = true)
    (hne : w ≠ []) (after : List Char) :
    (Index.ofChars (before ++ (w ++ after))).place (width before) =
      (State.start.run (marks before)).place .plain := by
  cases w with
  | nil => exact absurd rfl hne
  | cons c w =>
      obtain ⟨m, ms, hm⟩ := List.exists_cons_of_ne_nil (marks_ne_nil c)
      have hi : m.Inert := (marks_word (hw c (by simp))).1 m (by simp [hm])
      have hlen : ((State.start.places (marks before))).length = width before := by simp
      rw [Index.place_ofChars, marks_append, State.places_append,
        List.getElem?_append_right (by omega), hlen, Nat.sub_self, List.cons_append, marks_cons, hm]
      exact place_inert hi _

section Visits

variable {text : String} {v : Visit} (hv : v ∈ (Runs.ofText text.toList).visits State.start)
include hv

theorem visit_offset : ∃ pre post, text.toList = pre ++ (v.block ++ post) ∧
    v.after = post.head? ∧ v.state = State.start.run (marks pre) ∧
      v.state.offset = width pre := by
  obtain ⟨-, -, pre, post, ht, hs, hafter⟩ := Runs.mem_visits (Runs.ofText_proper text.toList) hv
  rw [Runs.text_ofText] at ht
  refine ⟨pre, post, ht, hafter, hs, ?_⟩
  rw [hs, State.offset_run, length_marks]
  exact Nat.zero_add _

theorem visit_block : ∀ d ∈ v.block, isWordChar d = true :=
  (Runs.mem_visits (Runs.ofText_proper text.toList) hv).1

theorem visit_after : isWordChar? v.after = false :=
  (Runs.mem_visits (Runs.ofText_proper text.toList) hv).2.1

variable (hne : v.block ≠ [])
include hne

theorem place_visit : (Index.ofText text).place v.state.offset = v.state.place .plain := by
  obtain ⟨pre, post, ht, -, hs, ho⟩ := visit_offset hv
  rw [Index.ofText, ho, ht, place_word pre (visit_block hv) hne, hs]

theorem state_visit : v.state.offset < width text.toList ∧
    v.state = State.start.run ((marks text.toList).take v.state.offset) := by
  obtain ⟨pre, post, ht, -, hs, ho⟩ := visit_offset hv
  rw [ho, ht]
  constructor
  · have hw : 0 < width v.block := by
      cases hb : v.block with
      | nil => exact absurd hb hne
      | cons c w => have := c.utf8Size_pos; simp; omega
    simp only [width_append]
    omega
  · rw [marks_append, ← length_marks, List.take_left]
    exact hs

theorem insideString_visit :
    insideString text v.state.offset = (v.state.place .plain).inString := by
  obtain ⟨hlt, hs⟩ := state_visit hv hne
  rw [insideString_eq, ← hs, inString_place]
  simp [hlt]

theorem insideComment_visit :
    insideComment text v.state.offset = (v.state.place .plain).comment := by
  obtain ⟨-, hs⟩ := state_visit hv hne
  rw [insideComment_eq, ← hs, comment_place]

end Visits

end Calque
