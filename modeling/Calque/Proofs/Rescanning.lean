import Calque.Lexical.Rescan
import Calque.Proofs.Scan
import Mathlib.Data.List.Induction

namespace Calque.Lexical

theorem getElem?_places (s : State) (ms : List Mark) (pos : Nat) :
    (s.places ms)[pos]? = ms[pos]?.map (s.run (ms.take pos)).place := by
  induction ms generalizing s pos with
  | nil => simp [State.places]
  | cons m ms ih =>
      cases pos with
      | zero => simp [State.places]
      | succ pos => simp [State.places, ih]

theorem place_ofText (text : String) {pos : Nat} (h : pos < width text.toList) :
    ∃ m, (Index.ofText text).place pos =
      (State.start.run ((marks text.toList).take pos)).place m := by
  have hm : pos < (marks text.toList).length := by simpa using h
  refine ⟨(marks text.toList)[pos], ?_⟩
  rw [Index.ofText, Index.place_ofChars, getElem?_places, List.getElem?_eq_getElem hm]
  rfl

theorem outline_modeRun (s : State) (ms : List Mark) :
    (s.run ms).mode.outline = ms.foldl outlineStep s.mode.outline := by
  induction ms generalizing s with
  | nil => rfl
  | cons m ms ih => rw [State.run_cons, ih, List.foldl_cons, State.step, outline_modeStep]

theorem openAfter_eq (q : Option Quote) (ms : List Mark) :
    openAfter q ms = (ms.foldl outlineStep (q.map (·, false))).map (·.1) := by
  fun_induction openAfter q ms with
  | case1 q => cases q <;> rfl
  | case2 q m ms ih => exact ih
  | case3 q ms ih => exact ih
  | case4 q r ms ih =>
      by_cases h : r = q <;> simpa [outlineStep, h] using ih
  | case5 q m ms hb hn hq ih =>
      cases q with
      | none => cases m <;> simp_all [outlineStep]
      | some q =>
          cases m with
          | quote r => exact absurd rfl (hq q r rfl)
          | backslash =>
              cases ms with
              | nil => rfl
              | cons n ms => exact absurd rfl (hb q n ms rfl rfl)
          | hash | newline | openBrace | closeBrace | templateLetter | plain => exact ih

theorem insideString_eq (text : String) (pos : Nat) :
    insideString text pos = (decide (pos < width text.toList) &&
      (State.start.run ((marks text.toList).take pos)).mode.outline.isSome) := by
  rw [insideString, length_marks, openAfter_eq, outline_modeRun, Option.isSome_map]
  rfl

/-- Where a text goes on, the scanner's state before it tells whether a literal is open. -/
theorem insideString_before {text : String} {pre post : List Char} (h : text.toList = pre ++ post)
    (hne : post ≠ []) : insideString text (width pre) =
      (State.start.run (marks pre)).mode.outline.isSome := by
  have hw : 0 < width post := by
    cases post with
    | nil => exact absurd rfl hne
    | cons c post => exact Nat.lt_of_lt_of_le c.utf8Size_pos (Nat.le_add_right _ _)
  have hlt : width pre < width text.toList := by
    rw [h, width_append]
    omega
  rw [insideString_eq, h, ← h, decide_eq_true hlt, Bool.true_and, h, marks_append, ← length_marks,
    List.take_left]

theorem lineStart_newline (ms : List Mark) : lineStart (ms ++ [.newline]) = ms.length + 1 := by
  simp [lineStart]

theorem lineStart_snoc {m : Mark} (hm : m ≠ .newline) (ms : List Mark) :
    lineStart (ms ++ [m]) = lineStart ms := by
  simp [lineStart, hm]

theorem lineStart_le (ms : List Mark) : lineStart ms ≤ ms.length := Nat.sub_le _ _

def firstHash? (ms : List Mark) : Option Nat :=
  ((ms.drop (lineStart ms)).findIdx? (· = .hash)).map (lineStart ms + ·)

theorem firstHash?_newline (ms : List Mark) : firstHash? (ms ++ [.newline]) = none := by
  rw [firstHash?, lineStart_newline, List.drop_eq_nil_of_le (by simp)]
  rfl

theorem firstHash?_snoc {m : Mark} (hm : m ≠ .newline) (ms : List Mark) :
    firstHash? (ms ++ [m]) =
      (firstHash? ms).or (if m = .hash then some ms.length else none) := by
  have hl := lineStart_le ms
  rw [firstHash?, lineStart_snoc hm, List.drop_append_of_le_length hl, List.findIdx?_append,
    firstHash?]
  cases (ms.drop (lineStart ms)).findIdx? (· = .hash) with
  | some k => rfl
  | none =>
      by_cases hh : m = .hash
      · simp [hh]
        omega
      · simp [hh]

theorem firstHash?_lt {ms : List Mark} {k : Nat} (h : firstHash? ms = some k) : k < ms.length := by
  obtain ⟨j, hj, rfl⟩ := Option.map_eq_some_iff.mp h
  have := (List.findIdx?_eq_some_iff_getElem.mp hj).1
  rw [List.length_drop] at this
  omega

/-- A line is marked by its first `#`, and by whether that stands in code. -/
theorem line_run (ms : List Mark) :
    (State.start.run ms).line =
      match firstHash? ms with
      | none => .clear
      | some k =>
        if (State.start.run (ms.take k)).mode.outline.isNone then .comment else .quoted := by
  induction ms using List.reverseRecOn with
  | nil => rfl
  | append_singleton ms m ih =>
      have hs : (State.start.run (ms ++ [m])).line =
          (State.start.run ms).line.step (State.start.run ms).mode m := by
        rw [State.run_append]
        rfl
      rw [hs, ih]
      by_cases hm : m = .newline
      · subst hm
        rw [firstHash?_newline]
        cases firstHash? ms <;> rfl
      · rw [firstHash?_snoc hm]
        cases hk : firstHash? ms with
        | some k =>
            have hlt := firstHash?_lt hk
            simp only [Option.some_or, List.take_append_of_le_length (Nat.le_of_lt hlt)]
            split <;> cases m <;> first | rfl | exact absurd rfl hm
        | none =>
            by_cases hh : m = .hash
            · subst hh
              simp only [if_true, Option.none_or, List.take_left]
              cases (State.start.run ms).mode <;> simp [LineMark.step, Mode.outline]
            · simp only [if_neg hh, Option.none_or]
              cases m <;> first | rfl | exact absurd rfl hm | exact absurd rfl hh

theorem insideComment_eq (text : String) (pos : Nat) :
    insideComment text pos =
      decide ((State.start.run ((marks text.toList).take pos)).line = .comment) := by
  set ms := (marks text.toList).take pos with hms
  have hk : insideComment text pos =
      match firstHash? ms with
      | none => false
      | some k => !insideString text k := by
    simp only [insideComment, firstHash?, ← hms]
    cases (ms.drop (lineStart ms)).findIdx? (· = .hash) <;> rfl
  rw [hk, line_run]
  cases h : firstHash? ms with
  | none => rfl
  | some k =>
      have hlt := firstHash?_lt h
      have htake : (marks text.toList).take k = ms.take k := by
        rw [hms, List.take_take, Nat.min_eq_left]
        rw [hms, List.length_take] at hlt
        omega
      have hwidth : k < width text.toList := by
        rw [hms, List.length_take, length_marks] at hlt
        omega
      simp only [insideString_eq, hwidth, htake, decide_true, Bool.true_and]
      have hmode := Option.eq_none_or_eq_some (State.start.run (ms.take k)).mode.outline
      rcases hmode with ho | ⟨q, ho⟩ <;> simp [ho]

theorem inString_place (s : State) (m : Mark) : (s.place m).inString = s.mode.outline.isSome := by
  cases h : s.mode <;> simp [State.place, Place.inString, Mode.outline, h]

theorem comment_place (s : State) (m : Mark) :
    (s.place m).comment = decide (s.line = .comment) := by
  cases h : s.mode <;> simp [State.place, h]

end Calque.Lexical
