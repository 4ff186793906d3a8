import Calque.Proofs.Scan
import Mathlib.Data.List.Induction

namespace Calque.Lexical

def Mode.start? : Mode → Option Nat
  | .code _ => none
  | .literal l => some l.start

theorem start_place (s : State) (m : Mark) : (s.place m).stringStart = s.mode.start? := by
  cases h : s.mode <;> simp [State.place, Mode.start?, h]

theorem start_outline (mode : Mode) : mode.start?.isSome = mode.outline.isSome := by
  cases mode <;> rfl

theorem letter_read (l : Literal) (m : Mark) {a : Bool} (h : l.read m = .code a) : a = false := by
  cases m with
  | quote q =>
      rw [Literal.read] at h
      split at h
      · cases h
        rfl
      · cases h
  | openBrace =>
      simp only [Literal.read] at h
      (repeat' split at h) <;> cases h
  | backslash | hash | newline | closeBrace | templateLetter | plain => cases h

theorem kept_read {l l' : Literal} {m : Mark} (h : l.read m = .literal l') :
    l'.start = l.start ∧ l'.template = l.template := by
  cases m with
  | quote q =>
      rw [Literal.read] at h
      split at h
      · cases h
      · cases h
        exact ⟨rfl, rfl⟩
  | openBrace =>
      simp only [Literal.read] at h
      (repeat' split at h) <;> cases h <;> exact ⟨rfl, rfl⟩
  | backslash | hash | newline | closeBrace | templateLetter | plain =>
      cases h
      exact ⟨rfl, rfl⟩

theorem step_literal (l : Literal) (m : Mark) : ∃ l' : Literal,
    l'.start = l.start ∧ l'.template = l.template ∧
      (l.step m = l'.read m ∨ l.step m = .literal l') := by
  rcases l with ⟨start, q, template, depth, held⟩
  cases held with
  | nothing => exact ⟨⟨start, q, template, depth, .nothing⟩, rfl, rfl, .inl rfl⟩
  | backslash => exact ⟨⟨start, q, template, depth, .nothing⟩, rfl, rfl, .inr rfl⟩
  | brace =>
      by_cases hm : m = .openBrace
      · subst hm
        exact ⟨⟨start, q, template, depth, .nothing⟩, rfl, rfl, .inr rfl⟩
      · exact ⟨⟨start, q, template, 1, .nothing⟩, rfl, rfl, .inl (step_brace rfl hm)⟩

theorem kept_step {l l' : Literal} {m : Mark} (h : l.step m = .literal l') :
    l'.start = l.start ∧ l'.template = l.template := by
  obtain ⟨l₁, hs, ht, hr | hr⟩ := step_literal l m
  · obtain ⟨hs', ht'⟩ := kept_read (hr.symm.trans h)
    exact ⟨hs'.trans hs, ht'.trans ht⟩
  · cases hr.symm.trans h
    exact ⟨hs, ht⟩

theorem letter_step {offset : Nat} {mode : Mode} {m : Mark} {a : Bool}
    (h : mode.step offset m = .code a) : a = decide (m = .templateLetter) := by
  cases mode with
  | code b => cases m <;> cases h <;> rfl
  | literal l =>
      obtain ⟨l', -, -, hr | hr⟩ := step_literal l m
      · have hread := hr.symm.trans h
        have ha := letter_read l' m hread
        subst ha
        cases m <;> first | rfl | cases hread
      · cases hr.symm.trans h

theorem letter_run {ms : List Mark} {a : Bool} (h : (State.start.run ms).mode = .code a) :
    a = decide (ms.getLast? = some .templateLetter) := by
  cases ms using List.reverseRecOn with
  | nil =>
      cases h
      rfl
  | append_singleton ms m =>
      rw [State.run_append] at h
      rw [letter_step h, List.getLast?_concat]
      simp

/-- The scanner knows where the open literal begins and whether it is a template. -/
theorem opened_run {ms : List Mark} {l : Literal} (h : (State.start.run ms).mode = .literal l) :
    l.start < ms.length ∧
      l.template = decide (0 < l.start ∧ ms[l.start - 1]? = some .templateLetter) := by
  induction ms using List.reverseRecOn generalizing l with
  | nil => cases h
  | append_singleton ms m ih =>
      rw [State.run_append] at h
      have h : (State.start.run ms).mode.step (State.start.run ms).offset m = .literal l := h
      cases hs : (State.start.run ms).mode with
      | code a =>
          rw [hs, State.offset_run] at h
          have hq : ∃ q, m = .quote q := by
            cases m <;> first | exact ⟨_, rfl⟩ | cases h
          obtain ⟨q, rfl⟩ := hq
          cases h
          have hoff : State.start.offset + ms.length = ms.length := Nat.zero_add _
          rw [hoff]
          refine ⟨by simp, ?_⟩
          rw [letter_run hs, List.getLast?_eq_getElem?]
          cases ms with
          | nil => rfl
          | cons n ms =>
              rw [List.getElem?_append_left (by simp)]
              simp
      | literal l₀ =>
          rw [hs] at h
          obtain ⟨hlt, ht⟩ := ih hs
          obtain ⟨hstart, htemplate⟩ := kept_step h
          rw [hstart, htemplate, List.getElem?_append_left (by omega), ← ht]
          exact ⟨by simp; omega, rfl⟩

theorem kept_inert {ms : List Mark} (hms : ∀ m ∈ ms, m.Inert) {s : State} {l : Literal}
    (h : s.mode = .literal l) : ∃ l' : Literal,
      (s.run ms).mode = .literal l' ∧ l'.start = l.start ∧ l'.template = l.template := by
  by_cases hne : ms = []
  · subst hne
    exact ⟨l, h, rfl, rfl⟩
  · rw [run_inert hms hne, h]
    exact ⟨_, rfl, rfl, rfl⟩

theorem code_inert {ms : List Mark} (hms : ∀ m ∈ ms, m.Inert) {s : State} {a : Bool}
    (h : s.mode = .code a) : ∃ b, (s.run ms).mode = .code b := by
  by_cases hne : ms = []
  · subst hne
    exact ⟨a, h⟩
  · rw [run_inert hms hne, h]
    exact ⟨_, rfl⟩

theorem start_inert {ms : List Mark} (hms : ∀ m ∈ ms, m.Inert) (s : State) :
    (s.run ms).mode.start? = s.mode.start? := by
  cases hs : s.mode with
  | code a =>
      obtain ⟨b, hb⟩ := code_inert hms hs
      rw [hb]
      rfl
  | literal l =>
      obtain ⟨l', hl, hstart, -⟩ := kept_inert hms hs
      rw [hl, Mode.start?, hstart]
      rfl

section Blocks

variable {s : State} {w : List Char} {c : Char} {l : Literal} (hw : ∀ d ∈ w, isWordChar d = true)
  (hc : isWordChar c = false)

include hc in
theorem letter_gap : (s.run (marks (w ++ [c]))).mode ≠ .code true := by
  intro h
  obtain ⟨m, hm, hrun⟩ : ∃ m, m ≠ .templateLetter ∧ ∃ ms, marks (w ++ [c]) = ms ++ [m] := by
    rw [marks_append]
    rcases marks_gap hc with hp | ⟨m, hm, hne⟩
    · obtain ⟨ms, m, hms⟩ := (List.eq_nil_or_concat (marks [c])).resolve_left (marks_ne_nil c)
      rw [List.concat_eq_append] at hms
      have hplain : m = .plain := hp m (by simp [hms])
      exact ⟨m, by simp [hplain], marks w ++ ms, by rw [hms, List.append_assoc]⟩
    · exact ⟨m, hne, marks w, by rw [hm]⟩
  obtain ⟨ms, hms⟩ := hrun
  rw [hms, State.run_append] at h
  exact hm (by simpa using letter_step h)

include hw in
theorem letter_block (hs : s.mode = .code false) :
    (s.run (marks w)).mode = .code (endsInLetter w) := by
  by_cases hne : w = []
  · subst hne
    exact hs
  · rw [run_word hw hne, hs]
    rfl

include hw hc in
/-- A literal is open after a block and the character behind it because it was open before, or
because that character opened it; then the block settles whether it is a template. -/
theorem opened_block (hs : s.mode ≠ .code true)
    (h : (s.run (marks (w ++ [c]))).mode = .literal l) :
    (∃ l₀, s.mode = .literal l₀ ∧ l.start = l₀.start ∧ l.template = l₀.template) ∨
      s.mode.start? = none ∧ l.start = s.offset + width w ∧ l.template = endsInLetter w := by
  rw [marks_append, State.run_append] at h
  cases hmode : s.mode with
  | code a =>
      have ha : a = false := by
        cases a with
        | false => rfl
        | true => exact absurd hmode hs
      subst ha
      have hletter := letter_block hw hmode
      rcases marks_gap hc with hp | ⟨m, hm, -⟩
      · obtain ⟨b, hb⟩ := code_inert (fun m hm => .inl (hp m hm)) hletter
        cases hb.symm.trans h
      · have hstep : (s.run (marks w)).mode.step (s.run (marks w)).offset m = .literal l := by
          rw [hm] at h
          exact h
        rw [hletter, State.offset_run, length_marks] at hstep
        cases m with
        | quote q =>
            cases hstep
            exact .inr ⟨rfl, rfl, rfl⟩
        | backslash | hash | newline | openBrace | closeBrace | templateLetter | plain =>
            cases hstep
  | literal l₀ =>
      obtain ⟨l₁, hl, hstart, htemplate⟩ := kept_inert (fun m => marks_block hw) hmode
      refine .inl ⟨l₀, rfl, ?_⟩
      rcases marks_gap hc with hp | ⟨m, hm, -⟩
      · obtain ⟨l₂, hl₂, hstart₂, htemplate₂⟩ := kept_inert (fun m hm => .inl (hp m hm)) hl
        cases hl₂.symm.trans h
        exact ⟨hstart₂.trans hstart, htemplate₂.trans htemplate⟩
      · have hstep : (s.run (marks w)).mode.step (s.run (marks w)).offset m = .literal l := by
          rw [hm] at h
          exact h
        rw [hl] at hstep
        obtain ⟨hstart₂, htemplate₂⟩ := kept_step hstep
        exact ⟨hstart₂.trans hstart, htemplate₂.trans htemplate⟩

end Blocks

end Calque.Lexical
