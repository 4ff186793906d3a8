import Calque.Proofs.Comments
import Calque.Proofs.Skeleton
import Mathlib.Data.List.TakeWhile

namespace Calque

open Lexical SideBySide

/-- What follows the first `#` of a line, unless a literal is open before that. -/
def commentOf? (opened : List Char → Bool) (line : List Char) : Option (List Char) :=
  match line.dropWhile (· ≠ '#') with
  | [] => none
  | _ :: comment => if opened (line.takeWhile (· ≠ '#')) then none else some comment

def commentsFrom (text : String) (pos : Nat) : List (List Char) → List (Option (List Char))
  | [] => []
  | line :: rest =>
    commentOf? (fun before => insideString text (pos + width before)) line ::
      commentsFrom text (pos + width line + 1) rest

/-- The comment of every line of a text, if there is one. -/
def comments (text : String) : List (Option (List Char)) :=
  commentsFrom text 0 (lines text.toList)

example : comments "se x: # se\n'#' # e" = [some " se".toList, none] := by decide

theorem length_comments (text : String) : (comments text).length = (lines text.toList).length := by
  have h (pos : Nat) (ls : List (List Char)) : (commentsFrom text pos ls).length = ls.length := by
    induction ls generalizing pos with
    | nil => rfl
    | cons l ls ih => rw [commentsFrom, List.length_cons, ih, List.length_cons]
  exact h 0 _

theorem commentOf?_none {line : List Char} (h : '#' ∉ line) (opened : List Char → Bool) :
    commentOf? opened line = none := by
  have hdrop : line.dropWhile (· ≠ '#') = [] := by
    rw [List.dropWhile_eq_nil_iff]
    intro c hc
    simpa using fun he : c = '#' => h (he ▸ hc)
  rw [commentOf?, hdrop]

theorem commentOf?_hash {before : List Char} (h : '#' ∉ before) (comment : List Char)
    (opened : List Char → Bool) : commentOf? opened (before ++ '#' :: comment) =
      if opened before then none else some comment := by
  have hbefore : ∀ c ∈ before, decide (c ≠ '#') = true := by
    intro c hc
    simpa using fun he : c = '#' => h (he ▸ hc)
  rw [commentOf?, List.dropWhile_append_of_pos hbefore, List.takeWhile_append_of_pos hbefore]
  simp

namespace Lexical.State

def opened (s : State) (before : List Char) : Bool := (s.run (marks before)).mode.outline.isSome

def comments (s : State) : List (List Char) → List (Option (List Char))
  | [] => []
  | line :: rest => commentOf? s.opened line :: (s.run (marks (line ++ ['\n']))).comments rest

end Lexical.State

theorem commentOf?_scan {text : String} {before line after : List Char}
    (h : text.toList = before ++ (line ++ after)) :
    commentOf? (fun b => insideString text (width before + width b)) line =
      commentOf? (State.start.run (marks before)).opened line := by
  by_cases hline : '#' ∈ line
  · obtain ⟨b, comment, rfl, hb⟩ := List.eq_append_cons_of_mem hline
    have htext : text.toList = (before ++ b) ++ ('#' :: (comment ++ after)) := by simp [h]
    rw [commentOf?_hash hb, commentOf?_hash hb, ← width_append,
      insideString_before htext (by simp), marks_append, State.run_append]
    rfl
  · rw [commentOf?_none hline, commentOf?_none hline]

theorem comments_scan (text : String) :
    comments text = State.start.comments (lines text.toList) := by
  have h (rest before : List Char) (ht : text.toList = before ++ rest) :
      commentsFrom text (width before) (lines rest) =
        (State.start.run (marks before)).comments (lines rest) := by
    induction rest using Text.split_induction '\n' generalizing before with
    | last line hline =>
        have ht : text.toList = before ++ (line ++ []) := by simpa using ht
        rw [lines, List.splitOn_eq_singleton hline, commentsFrom, commentOf?_scan ht]
        rfl
    | next line rest hline ih =>
        have hwidth : width (before ++ (line ++ ['\n'])) = width before + width line + 1 := by
          simp [Nat.add_assoc]
          rfl
        have ih := ih (before ++ (line ++ ['\n'])) (by simp [ht])
        rw [hwidth, marks_append, State.run_append] at ih
        rw [lines, List.splitOn_append_cons_self_of_not_mem hline, commentsFrom,
          commentOf?_scan ht, ← lines, ih]
        rfl
  exact h text.toList [] rfl

section Phase

variable {o : Options} {cls : WordClass} {r : List Char → List Char} (hr : KeepsWords r)
include hr

theorem mem_phase (s : State) (text : List Char) {c : Char} (hc : isWordChar c = false) :
    c ∈ phase o cls r s text ↔ c ∈ text := by
  have hkept : (phase o cls r s text).filter (!isWordChar ·) = text.filter (!isWordChar ·) :=
    filter_phase hr s text
  have hmem := congrArg (c ∈ ·) hkept
  simpa [hc] using hmem

variable (ho : o.avoidComments = true) {s t : State} (hst : Agree cls s t) (hs : s.line = .clear)
include ho hst hs

/-- On a line on which no `#` has settled anything yet. -/
theorem comment_phase {line : List Char} (hline : '\n' ∉ line) :
    commentOf? t.opened (phase o cls r s line) = commentOf? s.opened line := by
  by_cases hhash : '#' ∈ line
  · obtain ⟨before, comment, rfl, hbefore⟩ := List.eq_append_cons_of_mem hhash
    rw [List.mem_append, List.mem_cons, not_or, not_or] at hline
    have hphase : '#' ∉ phase o cls r s before := by
      rwa [mem_phase hr s before hash_not_word]
    have hopened : t.opened (phase o cls r s before) = s.opened before := by
      have hagree := outline_of_agree (agree_scans hr o hst before)
      rw [State.opened, State.opened, (Prod.mk.inj hagree).1]
    rw [phase_append s before hash_not_word (by decide), commentOf?_hash hphase,
      commentOf?_hash hbefore, hopened]
    cases hb : s.opened before with
    | true => rfl
    | false =>
        have hmode : (s.run (marks before)).mode.outline = none := by
          simpa [State.opened] using hb
        have hclear : (s.run (marks before)).line = .clear := by
          rw [line_kept (hash_not_mem hbefore) (newline_not_mem hline.1), hs]
        have hcomment : (s.run (marks (before ++ ['#']))).line = .comment := by
          rw [marks_append, State.run_append]
          exact line_hash hmode hclear
        rw [phase_comment ho hcomment hline.2.2]
  · rw [commentOf?_none hhash, commentOf?_none]
    rwa [mem_phase hr s line hash_not_word]

theorem comments_phase (text : List Char) :
    t.comments (lines (phase o cls r s text)) = s.comments (lines text) := by
  induction text using Text.split_induction '\n' generalizing s t with
  | last line hline =>
      have hphase : '\n' ∉ phase o cls r s line := by
        rwa [mem_phase hr s line newline_not_word]
      rw [lines, lines, List.splitOn_eq_singleton hphase, List.splitOn_eq_singleton hline,
        State.comments, State.comments, comment_phase hr ho hst hs hline]
      rfl
  | next line rest hline ih =>
      have hphase : '\n' ∉ phase o cls r s line := by
        rwa [mem_phase hr s line newline_not_word]
      have hagree : Agree cls (s.run (marks (line ++ ['\n'])))
          (t.run (marks (phase o cls r s line ++ ['\n']))) := by
        rw [marks_append, marks_append, State.run_append, State.run_append]
        exact agree_run (agree_scans hr o hst line) _
      have hclear : (s.run (marks (line ++ ['\n']))).line = .clear := by
        rw [marks_append, State.run_append]
        rfl
      rw [phase_append s line newline_not_word (by decide), lines, lines,
        List.splitOn_append_cons_self_of_not_mem hphase,
        List.splitOn_append_cons_self_of_not_mem hline, State.comments, State.comments,
        comment_phase hr ho hst hs hline, ← lines, ← lines, ih hagree hclear]

end Phase

namespace Dictionary

/-- No comment is touched, no comment is lost and none is made. The entries of the dictionary may be
chained. -/
theorem comments_toHost (d : Dictionary) {o : Options} (ho : o.avoidComments = true)
    (source : String) :
    (lines (d.toHost o source).toList).length = (lines source.toList).length ∧
      comments (d.toHost o source) = comments source := by
  have hcomments : comments (d.toHost o source) = comments source := by
    rw [comments_scan, comments_scan, toHost_phases,
      comments_phase (chain_keepsWords d.callable_words) ho (agree_refl ..) rfl,
      comments_phase (chain_keepsWords d.structural_words) ho (agree_refl ..) rfl]
  refine ⟨?_, hcomments⟩
  rw [← length_comments, ← length_comments, hcomments]

def chained : Dictionary where
  structural := [⟨"a", "b"⟩, ⟨"b", "c"⟩]
  callable := []
  sound := ⟨by decide, by decide, by decide, by decide⟩

theorem comments_toHost_chained : ({ avoidStrings := false } : Options).avoidComments = true ∧
    (lines (chained.toHost { avoidStrings := false } "a # b\n'#' # a").toList).length =
      (lines "a # b\n'#' # a".toList).length ∧
    comments (chained.toHost { avoidStrings := false } "a # b\n'#' # a") =
      [some " b".toList, none] := by
  have ho : ({ avoidStrings := false } : Options).avoidComments = true := rfl
  obtain ⟨hlines, hcomments⟩ := comments_toHost chained ho "a # b\n'#' # a"
  refine ⟨ho, hlines, ?_⟩
  rw [hcomments]
  decide

end Dictionary

end Calque
