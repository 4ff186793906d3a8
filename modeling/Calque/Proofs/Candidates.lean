import Calque.Proofs.Splicing

namespace Calque

open Lexical

/-- Between these two stretches of a text stands a run: a block of word characters that no word
character adjoins. -/
structure IsRun (before run after : List Char) : Prop where
  word : isWord run = true
  before : isWordChar? before.getLast? = false
  after : isWordChar? after.head? = false

namespace Runs

theorem mem_visits_join {s : State} {rs after : Runs} {c : Char} {v : Visit}
    (hv : v ∈ after.visits (s.run (marks (rs.text ++ [c])))) :
    v ∈ (rs.join c after).visits s := by
  induction rs generalizing s with
  | last w => exact List.mem_cons_of_mem _ hv
  | next w d rest ih =>
      refine List.mem_cons_of_mem _ (ih ?_)
      have htext : (next w d rest).text ++ [c] = w ++ [d] ++ (rest.text ++ [c]) := by simp
      rwa [htext, marks_append, State.run_append] at hv

theorem first_visit {run after : List Char} (hrun : ∀ d ∈ run, isWordChar d = true)
    (hafter : isWordChar? after.head? = false) (s : State) :
    ⟨s, run, after.head?⟩ ∈ (ofText (run ++ after)).visits s := by
  cases after with
  | nil =>
      rw [List.append_nil, ofText_last hrun]
      exact List.mem_singleton_self _
  | cons c after =>
      rw [ofText_next hrun hafter]
      exact List.mem_cons_self ..

/-- Every run of a text is visited. -/
theorem visit_of_isRun {before run after : List Char} (h : IsRun before run after) :
    ⟨State.start.run (marks before), run, after.head?⟩ ∈
      (ofText (before ++ run ++ after)).visits .start := by
  have hrun : ∀ d ∈ run, isWordChar d = true := (isWord_iff.mp h.word).2
  rcases List.eq_nil_or_concat before with rfl | ⟨rest, c, rfl⟩
  · exact first_visit hrun h.after .start
  · have hc : isWordChar c = false := by
      have hbefore := h.before
      rwa [List.concat_eq_append, List.getLast?_concat] at hbefore
    have htext : rest.concat c ++ run ++ after = rest ++ c :: (run ++ after) := by simp
    rw [htext, ofText_append rest hc]
    apply mem_visits_join
    rw [text_ofText, ← List.concat_eq_append]
    exact first_visit hrun h.after _

end Runs

theorem not_word_after {cls : WordClass} {before after : Option Char}
    (h : cls.fits before after = true) : isWordChar? after = false := by
  cases after with
  | none => rfl
  | some c =>
      cases hc : isWordChar c with
      | false => exact hc
      | true => rw [not_fits_after hc] at h; cases h

section Candidates

variable {word : List Char} (hword : isWord word = true) (text : List Char)
include hword

theorem candidates_increasing (cls : WordClass) :
    (candidates cls word text).Pairwise (· < ·) := by
  rw [candidates_visits cls hword, List.pairwise_map]
  refine ((visits_before .start (Runs.ofText text)).filter _).imp fun {u v} h => ?_
  have hwidth := width_text h.1
  have hle := h.2
  omega

/-- A candidate is a run of the text whose end suits the class. -/
theorem mem_candidates_iff (cls : WordClass) {pos : Nat} : pos ∈ candidates cls word text ↔
    ∃ before after, text = before ++ word ++ after ∧ pos = width before ∧
      IsRun before word after ∧ cls.fits none after.head? = true := by
  constructor
  · intro h
    rw [candidates_occurrences, List.mem_filter] at h
    obtain ⟨hmem, hstands⟩ := h
    obtain ⟨-, before, after, rfl, rfl⟩ := mem_occurrences hmem
    rw [standsAt_append] at hstands
    have hbefore : isWordChar? before.getLast? = false := by
      cases hb : isWordChar? before.getLast? with
      | false => rfl
      | true => rw [not_fits_before hb] at hstands; cases hstands
    refine ⟨before, after, rfl, rfl, ⟨hword, hbefore, not_word_after hstands⟩, ?_⟩
    rwa [← fits_of_gap hbefore]
  · rintro ⟨before, after, rfl, rfl, hrun, hfits⟩
    refine (mem_candidates cls hword).mpr ⟨_, Runs.visit_of_isRun hrun, rfl, hfits, ?_⟩
    rw [State.offset_run, length_marks]
    exact Nat.zero_add _

/-- Taking occurrences from left to right without overlap, before their neighbours are looked at,
misses no run: the candidates are the runs that are the word, in their order, and of the callable
class those that an opening parenthesis follows. -/
theorem candidates_runs :
    (∀ cls, candidates cls word text = (occurrences word text).filter (standsAt cls word text) ∧
      (candidates cls word text).Pairwise (· < ·)) ∧
    (∀ pos, pos ∈ candidates .structural word text ↔ ∃ before after,
      text = before ++ word ++ after ∧ pos = width before ∧ IsRun before word after) ∧
    ∀ pos, pos ∈ candidates .callable word text ↔ ∃ before after,
      text = before ++ word ++ after ∧ pos = width before ∧ IsRun before word after ∧
        after.head? = some '(' := by
  refine ⟨fun cls => ⟨candidates_occurrences cls word text, candidates_increasing hword text cls⟩,
    fun pos => ?_, fun pos => ?_⟩
  · have hfits {before after : List Char} (h : IsRun before word after) :
        WordClass.structural.fits none after.head? = true := by
      simp [WordClass.fits, isWordChar?_none, h.after]
    rw [mem_candidates_iff hword]
    constructor
    · rintro ⟨before, after, htext, hpos, hrun, -⟩
      exact ⟨before, after, htext, hpos, hrun⟩
    · rintro ⟨before, after, htext, hpos, hrun⟩
      exact ⟨before, after, htext, hpos, hrun, hfits hrun⟩
  · have hfits (after : Option Char) :
        WordClass.callable.fits none after = true ↔ after = some '(' := by
      simp [WordClass.fits, isWordChar?_none]
    rw [mem_candidates_iff hword]
    simp only [hfits]

end Candidates

/-- The first occurrence is refused and uses up the begin of another one, which no run is; the call
behind it is found. -/
theorem candidates_runs_overlap : isWord "aba".toList = true ∧
    occurrences "aba".toList "ababa aba(é)".toList = [0, 6] ∧
    candidates .callable "aba".toList "ababa aba(é)".toList = [6] ∧
    ∃ before after, "ababa aba(é)".toList = before ++ "aba".toList ++ after ∧ 6 = width before ∧
      IsRun before "aba".toList after ∧ after.head? = some '(' := by
  have hword : isWord "aba".toList = true := by decide
  have hoccurrences : occurrences "aba".toList "ababa aba(é)".toList = [0, 6] := by decide +kernel
  obtain ⟨hsearch, -, hcallable⟩ := candidates_runs hword "ababa aba(é)".toList
  have hfound : candidates .callable "aba".toList "ababa aba(é)".toList = [6] := by
    rw [(hsearch .callable).1, hoccurrences]
    decide
  refine ⟨hword, hoccurrences, hfound, (hcallable 6).mp ?_⟩
  rw [hfound]
  exact List.mem_singleton_self 6

end Calque
