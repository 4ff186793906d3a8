import Calque.Proofs.Comments

namespace Calque

open Lexical

variable {o : Options} {cls : WordClass} {r : List Char → List Char}

theorem agree_newline {s : State} (h : s.mode.outline = none) (cls : WordClass) :
    Agree cls (s.step .newline) .start :=
  agree_of_bare (newline_bare h) cls

theorem phase_lines {a : List Char} (ha : (State.start.run (marks a)).mode.outline = none)
    (b : List Char) : phase o cls r .start (a ++ '\n' :: b) =
      phase o cls r .start a ++ '\n' :: phase o cls r .start b := by
  have hnewline : State.start.run (marks (a ++ ['\n'])) =
      (State.start.run (marks a)).step .newline := by
    rw [marks_append, State.run_append]
    rfl
  rw [phase_append _ _ newline_not_word (by decide), hnewline, phase_congr (agree_newline ha cls)]

/-- A phase leaves a literal open where it found one open. -/
theorem closed_phase (hr : KeepsWords r) {a : List Char}
    (ha : (State.start.run (marks a)).mode.outline = none) :
    (State.start.run (marks (phase o cls r .start a))).mode.outline = none := by
  rw [← (Prod.mk.inj (outline_of_agree (agree_phase hr o .start a))).1, ha]

namespace Dictionary

/-- Translation works apart on the two sides of a line end at which no literal is open. The entries
of the dictionary may be chained. -/
theorem toHost_lines (d : Dictionary) (o : Options) {a : String}
    (ha : insideString (a ++ "\n") (width a.toList) = false) (b : String) :
    d.toHost o (a ++ "\n" ++ b) = d.toHost o a ++ "\n" ++ d.toHost o b := by
  have hclosed : (State.start.run (marks a.toList)).mode.outline = none := by
    rw [insideString_before String.toList_append (by decide)] at ha
    simpa using ha
  have hlist (x y : String) : (x ++ "\n" ++ y).toList = x.toList ++ '\n' :: y.toList := by
    simp [String.toList_append]
  have hwords := chain_keepsWords d.structural_words
  rw [← String.toList_inj, hlist, toHost_phases, toHost_phases, toHost_phases, hlist,
    phase_lines hclosed, phase_lines (closed_phase hwords hclosed)]

/-- The letter before the line end makes no template of the literal after it. -/
theorem toHost_lines_letter : insideString ("se f" ++ "\n") (width "se f".toList) = false ∧
    builtin.toHost { } ("se f" ++ "\n" ++ "'soma(1)'") =
      builtin.toHost { } "se f" ++ "\n" ++ builtin.toHost { } "'soma(1)'" := by
  have h : insideString ("se f" ++ "\n") (width "se f".toList) = false := by decide
  exact ⟨h, toHost_lines builtin { } h _⟩

end Dictionary

end Calque
