import Calque.Proofs.Columns

namespace Calque.SideBySide

def colours : List (List Char) :=
  ["\x1b[38;5;11m".toList, "\x1b[38;5;10m".toList, "\x1b[39m".toList]

def codes : List (List Char) := "\x1b[1m".toList :: "\x1b[0m".toList :: colours

/-- Bold, yellow and green wrap a text in these sequences. -/
structure Palette.IsAnsi (p : Palette) : Prop where
  bold : p.start .bold = "\x1b[1m".toList ∧ p.stop .bold = "\x1b[0m".toList
  yellow : p.start .yellow = "\x1b[38;5;11m".toList ∧ p.stop .yellow = "\x1b[39m".toList
  green : p.start .green = "\x1b[38;5;10m".toList ∧ p.stop .green = "\x1b[39m".toList

theorem isAnsi_ansi : ansi.IsAnsi :=
  ⟨⟨by decide, by decide⟩, ⟨by decide, by decide⟩, ⟨by decide, by decide⟩⟩

theorem Palette.IsAnsi.mem_codes {p : Palette} (h : p.IsAnsi) (s : Style) :
    p.start s ∈ codes ∧ p.stop s ∈ codes := by
  cases s with
  | bold => rw [h.bold.1, h.bold.2]; decide
  | yellow => rw [h.yellow.1, h.yellow.2]; decide
  | green => rw [h.green.1, h.green.2]; decide

/-- What is left of a text when all codes in it are deleted. -/
def uncoloured : List Char → List Char
  | [] => []
  | c :: text =>
    match codes.find? (·.isPrefixOf (c :: text)) with
    | some code => uncoloured (text.drop (code.length - 1))
    | none => c :: uncoloured text
termination_by text => text.length
decreasing_by all_goals simp only [List.length_cons, List.length_drop]; omega

theorem head_code : ∀ code ∈ codes, code.head? = some '\x1b' := by decide

theorem uncoloured_code {code : List Char} (h : code ∈ codes) (rest : List Char) :
    uncoloured (code ++ rest) = uncoloured rest := by
  simp only [codes, colours, List.mem_cons, List.not_mem_nil, or_false] at h
  rcases h with rfl | rfl | rfl | rfl | rfl <;> simp [uncoloured, codes, colours]

theorem uncoloured_cons {c : Char} (hc : c ≠ '\x1b') (rest : List Char) :
    uncoloured (c :: rest) = c :: uncoloured rest := by
  have hnone : codes.find? (·.isPrefixOf (c :: rest)) = none := by
    rw [List.find?_eq_none]
    intro code hcode hprefix
    have hhead := head_code code hcode
    obtain ⟨after, hafter⟩ := List.isPrefixOf_iff_prefix.mp hprefix
    cases code with
    | nil => cases hhead
    | cons d code =>
        cases hhead
        exact hc (List.cons.inj hafter).1.symm
  rw [uncoloured, hnone]

def Shows (styled plain : List Char) : Prop :=
  ∀ rest, uncoloured (styled ++ rest) = plain ++ uncoloured rest

theorem shows_code {code : List Char} (h : code ∈ codes) : Shows code [] := uncoloured_code h

theorem shows_plain {text : List Char} (h : '\x1b' ∉ text) : Shows text text := by
  intro rest
  induction text with
  | nil => rfl
  | cons c text ih =>
      rw [List.mem_cons, not_or] at h
      rw [List.cons_append, uncoloured_cons (Ne.symm h.1), ih h.2, List.cons_append]

theorem Shows.append {a b a' b' : List Char} (ha : Shows a a') (hb : Shows b b') :
    Shows (a ++ b) (a' ++ b') := by
  intro rest
  rw [List.append_assoc, ha, hb, List.append_assoc]

section Palettes

variable {palette : Option Palette} (hpalette : ∀ p ∈ palette, p.IsAnsi)
include hpalette

theorem shows_apply {text : List Char} (h : '\x1b' ∉ text) (s : Style) :
    Shows (s.apply palette text) text := by
  cases palette with
  | none => exact shows_plain h
  | some p =>
      obtain ⟨hstart, hstop⟩ := (hpalette p rfl).mem_codes s
      have happly := ((shows_code hstart).append (shows_plain h)).append (shows_code hstop)
      rwa [List.append_nil] at happly

theorem shows_row {left right : List Char} (hleft : '\x1b' ∉ left) (hright : '\x1b' ∉ right) :
    Shows (row palette left right) (row none left right) := by
  have hseparator : '\x1b' ∉ separator := by decide
  have hcell {line : List Char} (h : '\x1b' ∉ line) (width : Nat) : '\x1b' ∉ cell width line :=
    not_mem_cell h (by decide) (by decide) width
  have hcoloured : ∀ p ∈ (if left = right then none else palette), p.IsAnsi := by
    split
    · simp
    · exact hpalette
  rw [row_none]
  exact ((shows_apply hcoloured (hcell hleft leftWidth) _).append (shows_plain hseparator)).append
    (shows_apply hcoloured (hcell hright rightWidth) _)

end Palettes

/-- The colours of a row say that its lines differ. -/
theorem colours_row {palette : Palette} (hpalette : palette.IsAnsi) {left right : List Char}
    (hleft : '\x1b' ∉ left) :
    (∃ code ∈ colours, code <:+: row (some palette) left right) ↔ left ≠ right := by
  constructor
  · rintro ⟨code, hcode, hinfix⟩ rfl
    have hplain : row (some palette) left left =
        cell leftWidth left ++ separator ++ cell rightWidth left := by simp [row, Style.apply]
    have hhead := head_code code (List.mem_cons_of_mem _ (List.mem_cons_of_mem _ hcode))
    have hmem := hinfix.subset (List.mem_of_mem_head? hhead)
    have hcell (width : Nat) : '\x1b' ∉ cell width left :=
      not_mem_cell hleft (by decide) (by decide) width
    simp only [hplain, List.mem_append, hcell, false_or, or_false] at hmem
    exact absurd hmem (by decide)
  · intro hne
    refine ⟨"\x1b[38;5;11m".toList, by decide, List.IsPrefix.isInfix ?_⟩
    simp [row, hne, Style.apply, hpalette.yellow.1]

theorem forall₂_rows {palette : Option Palette} (hpalette : ∀ p ∈ palette, p.IsAnsi)
    {ls rs : List (List Char)} (hls : ∀ l ∈ ls, '\x1b' ∉ l) (hrs : ∀ r ∈ rs, '\x1b' ∉ r) :
    List.Forall₂ Shows (rows palette ls rs) (rows none ls rs) := by
  fun_induction rows palette ls rs with
  | case1 =>
      rw [rows]
      exact .nil
  | case2 l ls ih =>
      obtain ⟨hl, hls⟩ := List.forall_mem_cons.mp hls
      rw [rows]
      exact .cons (shows_row hpalette hl List.not_mem_nil) (ih hls hrs)
  | case3 r rs ih =>
      obtain ⟨hr, hrs⟩ := List.forall_mem_cons.mp hrs
      rw [rows]
      exact .cons (shows_row hpalette List.not_mem_nil hr) (ih hls hrs)
  | case4 l ls r rs ih =>
      obtain ⟨hl, hls⟩ := List.forall_mem_cons.mp hls
      obtain ⟨hr, hrs⟩ := List.forall_mem_cons.mp hrs
      rw [rows]
      exact .cons (shows_row hpalette hl hr) (ih hls hrs)

theorem shows_lines {as bs : List (List Char)} (h : List.Forall₂ Shows as bs) :
    Shows (as.flatMap (· ++ ['\n'])) (bs.flatMap (· ++ ['\n'])) := by
  have hend : Shows ['\n'] ['\n'] := shows_plain (by decide)
  induction h with
  | nil => exact shows_plain (by simp)
  | cons hline _ ih => exact (hline.append hend).append ih

theorem mem_of_mem_lines {c : Char} {text line : List Char} (h : line ∈ lines text)
    (hc : c ∈ line) : c ∈ text := by
  induction text using Text.split_induction '\n' with
  | last text htext =>
      rw [lines, List.splitOn_eq_singleton htext, List.mem_singleton] at h
      rwa [← h]
  | next text rest htext ih =>
      rw [lines, List.splitOn_append_cons_self_of_not_mem htext, List.mem_cons] at h
      rcases h with rfl | h
      · exact List.mem_append_left _ hc
      · exact List.mem_append_right _ (List.mem_cons_of_mem _ (ih h))

section View

variable {palette : Palette} (hpalette : palette.IsAnsi)
include hpalette

theorem shows_viewLines {left right : List Char} (hleft : '\x1b' ∉ left)
    (hright : '\x1b' ∉ right) :
    List.Forall₂ Shows (viewLines (some palette) left right) (viewLines none left right) := by
  have hsome : ∀ p ∈ some palette, p.IsAnsi := by
    rintro _ ⟨⟩
    exact hpalette
  have hrule (c : Char) (hc : c ≠ '\x1b') : Shows (rule c) (rule c) :=
    shows_plain (by simp [rule, Ne.symm hc])
  have hequal := hrule '=' (by decide)
  have hrows := forall₂_rows hsome (fun _ h => mt (mem_of_mem_lines h) hleft)
    (fun _ h => mt (mem_of_mem_lines h) hright)
  refine List.rel_append (List.rel_append ?_ hrows) (.cons hequal .nil)
  exact .cons hequal (.cons (shows_apply hsome (by decide) .bold) (.cons hequal
    (.cons (shows_apply hsome (by decide) .bold) (.cons (hrule '-' (by decide)) .nil))))

theorem newline_palette : ∀ p ∈ some palette, ∀ s, '\n' ∉ p.start s ∧ '\n' ∉ p.stop s := by
  rintro _ ⟨⟩ s
  have hcodes : ∀ code ∈ codes, '\n' ∉ code := by decide
  exact (hpalette.mem_codes s).imp (hcodes _) (hcodes _)

/-- Without its codes the styled view is the plain one. Of its rows those have colours whose lines
differ, also where that is past the end of a cell. -/
theorem view_uncoloured {left right : String} (hleft : '\x1b' ∉ left.toList)
    (hright : '\x1b' ∉ right.toList) :
    uncoloured (view (some palette) left right).toList = (view none left right).toList ∧
    ∃ styled : List (List Char),
      (view (some palette) left right).toList = styled.flatMap (· ++ ['\n']) ∧
      (∀ line ∈ styled, '\n' ∉ line) ∧
      styled.length = 6 + max (lines left.toList).length (lines right.toList).length ∧
      ∀ k, k < max (lines left.toList).length (lines right.toList).length →
        ∃ line, styled[5 + k]? = some line ∧
          ((∃ code ∈ colours, code <:+: line) ↔
            (lines left.toList)[k]?.getD [] ≠ (lines right.toList)[k]?.getD []) := by
  have hlines {text : List Char} (h : '\x1b' ∉ text) (k : Nat) :
      '\x1b' ∉ (lines text)[k]?.getD [] :=
    not_mem_line (fun _ hl => mt (mem_of_mem_lines hl) h) k
  refine ⟨?_, viewLines (some palette) left.toList right.toList, String.toList_ofList,
    newline_viewLines (newline_palette hpalette) _ _, length_viewLines _ _ _, fun k hk => ?_⟩
  · have hshows := shows_lines (shows_viewLines hpalette hleft hright) []
    rw [List.append_nil, uncoloured, List.append_nil] at hshows
    rwa [view, view, String.toList_ofList, String.toList_ofList]
  · exact ⟨_, getElem?_viewLines (some palette) hk, colours_row hpalette (hlines hleft k)⟩

end View

/-- Two lines whose cells end in the same dots are coloured for what the cells leave out. -/
theorem view_uncoloured_cut :
    ansi.IsAnsi ∧
    '\x1b' ∉ (String.ofList (List.replicate 60 'x')).toList ∧
    '\x1b' ∉ (String.ofList (List.replicate 61 'x')).toList ∧
    clip 50 (List.replicate 60 'x') = clip 50 (List.replicate 61 'x') ∧
    uncoloured (view (some ansi) (.ofList (List.replicate 60 'x'))
        (.ofList (List.replicate 61 'x'))).toList =
      (view none (.ofList (List.replicate 60 'x')) (.ofList (List.replicate 61 'x'))).toList ∧
    ∃ (styled : List (List Char)) (line : List Char),
      (view (some ansi) (.ofList (List.replicate 60 'x'))
          (.ofList (List.replicate 61 'x'))).toList = styled.flatMap (· ++ ['\n']) ∧
      styled[5]? = some line ∧ ∃ code ∈ colours, code <:+: line := by
  have hescape (n : Nat) : '\x1b' ∉ (String.ofList (List.replicate n 'x')).toList := by
    simp [String.toList_ofList]
  have hlines (n : Nat) :
      lines (String.ofList (List.replicate n 'x')).toList = [List.replicate n 'x'] := by
    rw [String.toList_ofList, lines, List.splitOn_eq_singleton (by simp)]
  obtain ⟨hplain, styled, hstyled, -, -, hrows⟩ :=
    view_uncoloured isAnsi_ansi (hescape 60) (hescape 61)
  rw [hlines, hlines] at hrows
  obtain ⟨line, hline, hcolours⟩ := hrows 0 (by decide)
  exact ⟨isAnsi_ansi, hescape 60, hescape 61, by decide, hplain, styled, line, hstyled, hline,
    hcolours.mpr (by decide)⟩

end Calque.SideBySide
