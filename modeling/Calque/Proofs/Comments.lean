import Calque.Proofs.Passes

namespace Calque

open Lexical

def lastLine (cs : List Char) : List Char := (cs.reverse.takeWhile (· ≠ '\n')).reverse

theorem lastLine_snoc (cs : List Char) {c : Char} (hc : c ≠ '\n') :
    lastLine (cs ++ [c]) = lastLine cs ++ [c] := by
  simp [lastLine, hc]

theorem ofByte_low_line : ∀ n < 128,
    (Mark.ofByte (UInt8.ofNat n) = .hash → Char.ofNat n = '#') ∧
      (Mark.ofByte (UInt8.ofNat n) = .newline → Char.ofNat n = '\n') := by
  decide

theorem marks_line (c : Char) :
    (.hash ∈ marks [c] → c = '#') ∧ (.newline ∈ marks [c] → c = '\n') := by
  by_cases hc : c.toNat < 128
  · have ho := ofByte_low_line c.toNat hc
    rw [Char.ofNat_toNat] at ho
    rw [marks_low hc, List.mem_singleton, List.mem_singleton]
    exact ⟨fun h => ho.1 h.symm, fun h => ho.2 h.symm⟩
  · constructor
    · intro h
      cases marks_high (by omega) h
    · intro h
      cases marks_high (by omega) h

theorem mark_not_mem {m : Mark} {d : Char} (hm : ∀ c, m ∈ marks [c] → c = d) {cs : List Char}
    (h : d ∉ cs) : m ∉ marks cs := by
  induction cs with
  | nil => simp [marks]
  | cons c cs ih =>
      rw [List.mem_cons, not_or] at h
      rw [marks_cons, List.mem_append, not_or]
      exact ⟨fun hc => h.1 (hm c hc).symm, ih h.2⟩

theorem newline_not_mem {cs : List Char} (h : '\n' ∉ cs) : .newline ∉ marks cs :=
  mark_not_mem (fun c => (marks_line c).2) h

theorem hash_not_mem {cs : List Char} (h : '#' ∉ cs) : .hash ∉ marks cs :=
  mark_not_mem (fun c => (marks_line c).1) h

theorem line_kept {ms : List Mark} (hh : .hash ∉ ms) (hn : .newline ∉ ms) (s : State) :
    (s.run ms).line = s.line := by
  induction ms generalizing s with
  | nil => rfl
  | cons m ms ih =>
      rw [List.mem_cons, not_or] at hh hn
      have hs : (s.step m).line = s.line := by
        cases hl : s.line <;> cases m <;> simp_all [State.step, LineMark.step]
      rw [State.run_cons, ih hh.2 hn.2, hs]

theorem line_comment {ms : List Mark} (hn : .newline ∉ ms) {s : State} (hs : s.line = .comment) :
    (s.run ms).line = .comment := by
  induction ms generalizing s with
  | nil => exact hs
  | cons m ms ih =>
      rw [List.mem_cons, not_or] at hn
      apply ih hn.2
      cases m <;> simp_all [State.step, LineMark.step]

theorem line_clear {cs : List Char} (h : '#' ∉ lastLine cs) :
    (State.start.run (marks cs)).line = .clear := by
  induction cs using List.reverseRecOn with
  | nil => rfl
  | append_singleton cs c ih =>
      rw [marks_append, State.run_append]
      by_cases hc : c = '\n'
      · subst hc
        rfl
      · rw [lastLine_snoc cs hc, List.mem_append, not_or, List.mem_singleton] at h
        have hh : .hash ∉ marks [c] := fun hm => h.2 ((marks_line c).1 hm).symm
        have hn : .newline ∉ marks [c] := fun hm => hc ((marks_line c).2 hm)
        rw [line_kept hh hn, ih h.1]

theorem line_hash {s : State} (hmode : s.mode.outline = none) (hline : s.line = .clear) :
    (s.step .hash).line = .comment := by
  rw [State.step, hline]
  cases hs : s.mode with
  | code letter => rfl
  | literal l =>
      rw [hs] at hmode
      cases hmode

theorem code_before {a : String} (ha : '#' ∉ lastLine a.toList)
    (hcode : insideString (a ++ "#") (width a.toList) = false) :
    (State.start.run (marks a.toList)).outline = (none, .clear) := by
  rw [insideString_before String.toList_append (by decide)] at hcode
  have hmode : (State.start.run (marks a.toList)).mode.outline = none := by simpa using hcode
  rw [State.outline, line_clear ha, hmode]

theorem hash_not_word : isWordChar '#' = false := by decide

theorem newline_not_word : isWordChar '\n' = false := by decide

variable {o : Options} {cls : WordClass} {r : List Char → List Char}

theorem phase_comment (ho : o.avoidComments = true) {s : State} (hs : s.line = .comment)
    {c : List Char} (hc : '\n' ∉ c) : phase o cls r s c = c := by
  refine phase_eq_self fun v hv he => absurd he ?_
  obtain ⟨-, -, pre, post, ht, hstate, -⟩ := Runs.mem_visits (Runs.ofText_proper c) hv
  rw [Runs.text_ofText] at ht
  have hpre : '\n' ∉ pre := fun hm => hc (by rw [ht]; exact List.mem_append_left _ hm)
  have hline : v.state.line = .comment := by
    rw [hstate]
    exact line_comment (newline_not_mem hpre) hs
  have hplace : (v.state.place .plain).comment = true := by
    rw [comment_place, hline]
    rfl
  cases cls with
  | structural => simp [Visit.exposed, protects_structural, ho, hplace]
  | callable => simp [Visit.exposed, protects_callable, ho, hplace]

/-- A phase works apart on what stands before a comment and on what comes after its line. -/
theorem phase_around (ho : o.avoidComments = true) {a c : List Char}
    (ha : (State.start.run (marks a)).outline = (none, .clear)) (hc : '\n' ∉ c) (b : List Char) :
    phase o cls r .start (a ++ '#' :: (c ++ '\n' :: b)) =
      phase o cls r .start a ++ '#' :: (c ++ '\n' ::
        phase o cls r ((State.start.run (marks (a ++ '#' :: c))).step .newline) b) := by
  obtain ⟨hmode, hline⟩ := Prod.mk.inj ha
  have hash : marks ['#'] = [.hash] := by decide
  have newline : marks ['\n'] = [.newline] := by decide
  have hcomment : (State.start.run (marks (a ++ ['#']))).line = .comment := by
    rw [marks_append, State.run_append, hash]
    exact line_hash hmode hline
  have hb : (State.start.run (marks (a ++ ['#']))).run (marks (c ++ ['\n'])) =
      (State.start.run (marks (a ++ '#' :: c))).step .newline := by
    rw [List.append_cons a '#' c, marks_append c, newline, marks_append (a ++ ['#']),
      State.run_append, State.run_append]
    rfl
  rw [phase_append _ _ hash_not_word (by decide), phase_append _ _ newline_not_word (by decide),
    phase_comment ho hcomment hc, hb]

/-- After a line that leaves no literal open a text is scanned like one of its own. -/
theorem newline_bare {s : State} (h : s.mode.outline = none) :
    (s.step .newline).bare = State.start.bare := by
  rcases s with ⟨offset, mode, line⟩
  cases mode with
  | code letter => cases line <;> rfl
  | literal l => cases h

theorem newline_open {s : State} (h : s.mode.outline ≠ none) :
    (s.step .newline).mode.outline ≠ none := by
  rw [State.step, outline_modeStep]
  cases hs : s.mode.outline with
  | none => exact absurd hs h
  | some p =>
      rcases p with ⟨q, escaped⟩
      cases escaped <;> simp [outlineStep]

theorem phase_open (ho : o.avoidStrings = true) {s : State} (hs : s.mode.outline ≠ none)
    {w : List Char} (hw : ∀ d ∈ w, isWordChar d = true) : phase o cls r s w = w := by
  have hplace : (s.place .plain).inString = true := by
    rw [inString_place, Option.isSome_iff_ne_none]
    exact hs
  rw [phase_word s hw, rename, if_neg]
  cases cls with
  | structural => simp [Visit.exposed, protects_structural, ho, hplace]
  | callable => simp [Visit.exposed, WordClass.fits]

namespace Dictionary

/-- A comment is copied. What becomes of the text after its line is a matter of the state there,
which the words before the comment hardly change. -/
theorem toHost_around (d : Dictionary) (ho : o.avoidComments = true) {a c : String}
    (ha : (State.start.run (marks a.toList)).outline = (none, .clear)) (hc : '\n' ∉ c.toList)
    (b : String) : ∃ t : State,
      t.outline = (State.start.run (marks (a ++ "#" ++ c).toList)).outline ∧
      (d.toHost o (a ++ "#" ++ c ++ "\n" ++ b)).toList =
        (d.toHost o a).toList ++ '#' :: (c.toList ++ '\n' ::
          phase o .callable (chain d.callable) (t.step .newline)
            (phase o .structural (chain d.structural)
              ((State.start.run (marks (a ++ "#" ++ c).toList)).step .newline) b.toList)) := by
  have hwords := chain_keepsWords d.structural_words
  have hlist : (a ++ "#" ++ c ++ "\n" ++ b).toList =
      a.toList ++ '#' :: (c.toList ++ '\n' :: b.toList) := by
    simp [String.toList_append]
  have hline : (a ++ "#" ++ c).toList = a.toList ++ '#' :: c.toList := by
    simp [String.toList_append]
  have hafter : (State.start.run (marks a.toList)).outline = (State.start.run
      (marks (phase o .structural (chain d.structural) .start a.toList))).outline :=
    outline_of_agree (agree_phase hwords o .start a.toList)
  refine ⟨State.start.run
    (marks (phase o .structural (chain d.structural) .start a.toList ++ '#' :: c.toList)), ?_, ?_⟩
  · rw [hline, marks_append, marks_append, State.run_append, State.run_append]
    exact outline_run hafter.symm _
  · rw [toHost_phases, toHost_phases, hlist, hline, phase_around ho ha hc,
      phase_around ho (hafter.symm.trans ha) hc]

variable {a c : String}

/-- The text after the line of a comment is on its own if and only if the comment leaves no literal
open; the text before it is so in any case, and the comment is copied. -/
theorem toHost_comment (ha : '#' ∉ lastLine a.toList) (hc : '\n' ∉ c.toList)
    (hcode : insideString (a ++ "#") (width a.toList) = false) :
    (∀ b, ∃ rest, builtin.toHost { } (a ++ "#" ++ c ++ "\n" ++ b) =
      builtin.toHost { } a ++ "#" ++ c ++ "\n" ++ rest) ∧
    ((∀ b, builtin.toHost { } (a ++ "#" ++ c ++ "\n" ++ b) =
      builtin.toHost { } a ++ "#" ++ c ++ "\n" ++ builtin.toHost { } b) ↔
      insideString (a ++ "#" ++ c ++ "\n") (width (a ++ "#" ++ c).toList) = false) := by
  have hcode := code_before ha hcode
  have hsplit (b rest : String) : builtin.toHost { } (a ++ "#" ++ c ++ "\n" ++ b) =
      builtin.toHost { } a ++ "#" ++ c ++ "\n" ++ rest ↔
        (builtin.toHost { } (a ++ "#" ++ c ++ "\n" ++ b)).toList =
          (builtin.toHost { } a).toList ++ '#' :: (c.toList ++ '\n' :: rest.toList) := by
    rw [← String.toList_inj]
    simp [String.toList_append]
  rw [insideString_before String.toList_append (by decide)]
  refine ⟨fun b => ?_, fun h => ?_, fun hclosed b => ?_⟩
  · obtain ⟨t, -, hb⟩ := toHost_around builtin (o := { }) rfl hcode hc b
    rw [← String.toList_ofList (l := phase ..)] at hb
    exact ⟨_, (hsplit b _).mpr hb⟩
  · -- In an open literal a structural word stays.
    by_contra hopen
    rw [Bool.not_eq_false, Option.isSome_iff_ne_none] at hopen
    have hword : isWord "se".toList = true := by decide
    have hse := (isWord_iff.mp hword).2
    obtain ⟨t, ht, hb⟩ := toHost_around builtin (o := { }) rfl hcode hc "se"
    have htopen : t.mode.outline ≠ none := (Prod.mk.inj ht).1 ▸ hopen
    have hsame := (hsplit "se" _).mp (h "se")
    rw [hb, phase_open rfl (newline_open hopen) hse, phase_open rfl (newline_open htopen) hse,
      toHost_word builtin hword] at hsame
    have hchain : chain builtin.structural "se".toList ≠ "se".toList := by decide
    simp only [List.append_cancel_left_eq, List.cons.injEq, true_and] at hsame
    exact hchain hsame.symm
  · have hclosed : (State.start.run (marks (a ++ "#" ++ c).toList)).mode.outline = none := by
      simpa using hclosed
    obtain ⟨t, ht, hb⟩ := toHost_around builtin (o := { }) rfl hcode hc b
    have htclosed : t.mode.outline = none := (Prod.mk.inj ht).1.trans hclosed
    have hcallable : Agree .callable (t.step .newline) .start := newline_bare htclosed
    have hstructural : Agree .structural
        ((State.start.run (marks (a ++ "#" ++ c).toList)).step .newline) .start :=
      outline_of_bare (newline_bare hclosed)
    rw [hsplit, hb, toHost_phases builtin { } b, phase_congr hcallable, phase_congr hstructural]

theorem toHost_comment_quotes : '#' ∉ lastLine "se 1: ".toList ∧ '\n' ∉ " 'e' ".toList ∧
    insideString ("se 1: " ++ "#") (width "se 1: ".toList) = false ∧
    (∀ b, builtin.toHost { } ("se 1: " ++ "#" ++ " 'e' " ++ "\n" ++ b) =
      builtin.toHost { } "se 1: " ++ "#" ++ " 'e' " ++ "\n" ++ builtin.toHost { } b) := by
  have ha : '#' ∉ lastLine "se 1: ".toList := by decide
  have hc : '\n' ∉ " 'e' ".toList := by decide
  have hcode : insideString ("se 1: " ++ "#") (width "se 1: ".toList) = false := by decide
  exact ⟨ha, hc, hcode, (toHost_comment ha hc hcode).2.mpr (by decide)⟩

/-- An apostrophe in a comment opens a literal, and the words of the next line stay. -/
theorem comment_matters : ¬ ∀ a c b : String, '#' ∉ lastLine a.toList → '\n' ∉ c.toList →
    insideString (a ++ "#") (width a.toList) = false →
    builtin.toHost { } (a ++ "#" ++ c ++ "\n" ++ b) =
      builtin.toHost { } a ++ "#" ++ c ++ "\n" ++ builtin.toHost { } b := by
  intro h
  have hsame := congrArg String.toList (h "" "'" "se" (by decide) (by decide) (by decide))
  simp only [String.toList_append, toHost_phases] at hsame
  revert hsame
  decide

end Dictionary

end Calque
