import Calque.Proofs.LineComments

namespace Calque

open Lexical SideBySide

namespace SideBySide

/-- A cell shows a line that fits, with spaces after it, or else the line's begin and three dots. -/
structure IsCell (width : Nat) (line cell : List Char) : Prop where
  length : cell.length = width
  padded : line.length ≤ width → cell = line ++ List.replicate (width - line.length) ' '
  clipped : width < line.length → cell = line.take (width - 3) ++ ['.', '.', '.']

theorem isCell {width : Nat} (hwidth : 3 ≤ width) (line : List Char) :
    IsCell width line (cell width line) := by
  refine ⟨length_cell hwidth line, fun hfits => ?_, fun hlong => ?_⟩
  · rw [cell, clip, if_neg (Nat.not_lt.mpr hfits), pad]
  · have hcut : (line.take (width - 3) ++ ['.', '.', '.']).length = width := by
      rw [List.length_append, List.length_take]
      simp only [List.length_cons, List.length_nil]
      omega
    rw [cell, clip, if_pos hlong, pad, hcut, Nat.sub_self, List.replicate_zero, List.append_nil]

theorem row_none (left right : List Char) :
    row none left right = cell leftWidth left ++ separator ++ cell rightWidth right := by
  simp [row, Style.apply]

theorem getElem?_rows (palette : Option Palette) (ls rs : List (List Char)) (k : Nat) :
    (rows palette ls rs)[k]? =
      if k < max ls.length rs.length then some (row palette (ls[k]?.getD []) (rs[k]?.getD []))
      else none := by
  fun_induction rows palette ls rs generalizing k with
  | case1 => rfl
  | case2 l ls ih => cases k <;> simp [ih]
  | case3 r rs ih => cases k <;> simp [ih]
  | case4 l ls r rs ih => cases k <;> simp [ih]

theorem length_rows (palette : Option Palette) (ls rs : List (List Char)) :
    (rows palette ls rs).length = max ls.length rs.length := by
  fun_induction rows palette ls rs with
  | case1 => rfl
  | case2 l ls ih => simp [ih]
  | case3 r rs ih => simp [ih]
  | case4 l ls r rs ih => simp [ih]

theorem not_mem_cell {c : Char} {line : List Char} (h : c ∉ line) (hspace : c ≠ ' ')
    (hdot : c ≠ '.') (width : Nat) : c ∉ cell width line := by
  have hclip : c ∉ clip width line := by
    rw [clip]
    split
    · simp [mt List.mem_of_mem_take h, hdot]
    · exact h
  simp [cell, pad, hclip, hspace]

theorem not_mem_line {c : Char} {ls : List (List Char)} (h : ∀ l ∈ ls, c ∉ l) (k : Nat) :
    c ∉ ls[k]?.getD [] := by
  cases hk : ls[k]? with
  | none => simp
  | some l => exact h l (List.mem_of_getElem? hk)

section Newlines

variable {palette : Option Palette}
  (hpalette : ∀ p ∈ palette, ∀ s, '\n' ∉ p.start s ∧ '\n' ∉ p.stop s)
include hpalette

theorem newline_apply {text : List Char} (h : '\n' ∉ text) (s : Style) :
    '\n' ∉ s.apply palette text := by
  cases palette with
  | none => exact h
  | some p =>
      obtain ⟨hstart, hstop⟩ := hpalette p rfl s
      simp only [Style.apply, List.mem_append, not_or]
      exact ⟨⟨hstart, h⟩, hstop⟩

theorem newline_row {left right : List Char} (hleft : '\n' ∉ left) (hright : '\n' ∉ right) :
    '\n' ∉ row palette left right := by
  have hseparator : '\n' ∉ separator := by decide
  have hcell {line : List Char} (hline : '\n' ∉ line) (width : Nat) : '\n' ∉ cell width line :=
    not_mem_cell hline (by decide) (by decide) width
  have hcoloured : ∀ p ∈ (if left = right then none else palette),
      ∀ s, '\n' ∉ p.start s ∧ '\n' ∉ p.stop s := by
    split
    · simp
    · exact hpalette
  simp only [row, List.mem_append, not_or]
  exact ⟨⟨newline_apply hcoloured (hcell hleft leftWidth) _, hseparator⟩,
    newline_apply hcoloured (hcell hright rightWidth) _⟩

theorem newline_rows {ls rs : List (List Char)} (hls : ∀ l ∈ ls, '\n' ∉ l)
    (hrs : ∀ r ∈ rs, '\n' ∉ r) : ∀ line ∈ rows palette ls rs, '\n' ∉ line := by
  intro line hline
  obtain ⟨k, hk⟩ := List.mem_iff_getElem?.mp hline
  rw [getElem?_rows] at hk
  split at hk
  · cases hk
    exact newline_row hpalette (not_mem_line hls k) (not_mem_line hrs k)
  · cases hk

theorem newline_viewLines (left right : List Char) :
    ∀ line ∈ viewLines palette left right, '\n' ∉ line := by
  have hrule (c : Char) (hc : c ≠ '\n') : '\n' ∉ rule c := by
    simp [rule, Ne.symm hc]
  have htitle : '\n' ∉ Style.bold.apply palette "TRANSLATION DEBUG VIEW".toList :=
    newline_apply hpalette (by decide) .bold
  have hheader : '\n' ∉ Style.bold.apply palette header :=
    newline_apply hpalette (by decide) .bold
  have hrows : ∀ line ∈ rows palette (lines left) (lines right), '\n' ∉ line :=
    newline_rows hpalette (fun _ => Text.not_mem_splitOn) fun _ => Text.not_mem_splitOn
  have hequal := hrule '=' (by decide)
  have hdash := hrule '-' (by decide)
  simp only [viewLines, List.forall_mem_append, List.forall_mem_cons]
  exact ⟨⟨⟨hequal, htitle, hequal, hheader, hdash, by simp⟩, hrows⟩, hequal, by simp⟩

end Newlines

theorem length_viewLines (palette : Option Palette) (left right : List Char) :
    (viewLines palette left right).length = 6 + max (lines left).length (lines right).length := by
  simp only [viewLines, List.length_append, List.length_cons, List.length_nil, length_rows]
  omega

/-- Row `k` of a view comes after the five lines of the head. -/
theorem getElem?_viewLines (palette : Option Palette) {left right : List Char} {k : Nat}
    (hk : k < max (lines left).length (lines right).length) :
    (viewLines palette left right)[5 + k]? =
      some (row palette ((lines left)[k]?.getD []) ((lines right)[k]?.getD [])) := by
  have hrow := getElem?_rows palette (lines left) (lines right) k
  rw [if_pos hk] at hrow
  have hlength : k < (rows palette (lines left) (lines right)).length := by rwa [length_rows]
  rw [viewLines, List.append_assoc, List.getElem?_append_right (Nat.le_add_right 5 k),
    List.getElem?_append_left (by simpa using hlength), ← hrow]
  simp

/-- Line `5 + k` of a view pairs two lines in its columns. -/
def Pairs (view : List (List Char)) (k : Nat) (left right : List Char) : Prop :=
  ∃ l r, view[5 + k]? = some (l ++ " | ".toList ++ r) ∧ IsCell 45 left l ∧ IsCell 50 right r

theorem pairs_viewLines {left right : List Char} {k : Nat}
    (hk : k < max (lines left).length (lines right).length) :
    Pairs (viewLines none left right) k ((lines left)[k]?.getD [])
      ((lines right)[k]?.getD []) := by
  have hrow := getElem?_viewLines none hk
  rw [row_none] at hrow
  exact ⟨_, _, hrow, isCell (by decide) _, isCell (by decide) _⟩

end SideBySide

def lineGaps (text : List Char) : List (List (List Char)) :=
  (lines text).map fun line => (Runs.ofText line).gaps

theorem lineGaps_phase {o : Options} {cls : WordClass} {r : List Char → List Char}
    (hr : KeepsWords r) (s : State) (text : List Char) :
    lineGaps (phase o cls r s text) = lineGaps text := by
  induction text using Text.split_induction '\n' generalizing s with
  | last line hline =>
      have hphase : '\n' ∉ phase o cls r s line := by
        rwa [mem_phase hr s line newline_not_word]
      rw [lineGaps, lineGaps, lines, lines, List.splitOn_eq_singleton hphase,
        List.splitOn_eq_singleton hline, List.map_singleton, List.map_singleton, gaps_phase hr]
  | next line rest hline ih =>
      have hphase : '\n' ∉ phase o cls r s line := by
        rwa [mem_phase hr s line newline_not_word]
      have ih := ih (s.run (marks (line ++ ['\n'])))
      rw [lineGaps, lineGaps, lines, lines] at ih
      rw [phase_append s line newline_not_word (by decide), lineGaps, lineGaps, lines, lines,
        List.splitOn_append_cons_self_of_not_mem hphase,
        List.splitOn_append_cons_self_of_not_mem hline, List.map_cons, List.map_cons,
        gaps_phase hr, ih]

namespace Dictionary

theorem lineGaps_toHost (d : Dictionary) (o : Options) (source : String) :
    lineGaps (d.toHost o source).toList = lineGaps source.toList := by
  rw [toHost_phases, lineGaps_phase (chain_keepsWords d.callable_words),
    lineGaps_phase (chain_keepsWords d.structural_words)]

/-- The line of a translation that stands for a line of its source. -/
theorem line_toHost (d : Dictionary) (o : Options) {source : String} {k : Nat} {line : List Char}
    (h : (lines source.toList)[k]? = some line) :
    ∃ line', (lines (d.toHost o source).toList)[k]? = some line' ∧
      (Runs.ofText line').gaps = (Runs.ofText line).gaps := by
  have hgaps := congrArg (·[k]?) (lineGaps_toHost d o source)
  simp only [lineGaps, List.getElem?_map, h, Option.map_some] at hgaps
  exact Option.map_eq_some_iff.mp hgaps

end Dictionary

/-- The view has a frame of six lines and a row for every line of the longer text, in columns of 45
and 50 characters. A translation has a line for every line of its source, with the same gaps, and
stands beside it. -/
theorem SideBySide.view_columns (left right : String) :
    (∀ text ∈ [left.toList, right.toList], ['\n'].intercalate (lines text) = text ∧
      (lines text).length = text.count '\n' + 1) ∧
    ∃ view : List (List Char),
      (SideBySide.view none left right).toList = view.flatMap (· ++ ['\n']) ∧
      (∀ line ∈ view, '\n' ∉ line) ∧
      view.length = 6 + max (lines left.toList).length (lines right.toList).length ∧
      (∀ k, k < max (lines left.toList).length (lines right.toList).length →
        Pairs view k ((lines left.toList)[k]?.getD []) ((lines right.toList)[k]?.getD [])) ∧
      ∀ (d : Dictionary) (o : Options), right = d.toHost o left →
        (lines right.toList).length = (lines left.toList).length ∧
        ∀ (k : Nat) (line : List Char), (lines left.toList)[k]? = some line →
          ∃ line', (lines right.toList)[k]? = some line' ∧
            (Runs.ofText line').gaps = (Runs.ofText line).gaps ∧ Pairs view k line line' := by
  refine ⟨fun text _ => ⟨List.intercalate_splitOn '\n', Text.length_splitOn '\n' text⟩,
    viewLines none left.toList right.toList, ?_, newline_viewLines (by simp) _ _,
    length_viewLines _ _ _, fun k hk => pairs_viewLines hk, ?_⟩
  · rw [SideBySide.view, String.toList_ofList]
  · rintro d o rfl
    have hlength := congrArg List.length (d.lineGaps_toHost o left)
    rw [lineGaps, lineGaps, List.length_map, List.length_map] at hlength
    refine ⟨hlength, fun k line hline => ?_⟩
    obtain ⟨line', hline', hgaps⟩ := d.line_toHost o hline
    have hk : k < max (lines left.toList).length (lines (d.toHost o left).toList).length :=
      Nat.lt_of_lt_of_le (List.getElem?_eq_some_iff.mp hline).1 (Nat.le_max_left ..)
    have hpairs := pairs_viewLines hk
    rw [hline, hline'] at hpairs
    exact ⟨line', hline', hgaps, hpairs⟩

end Calque
