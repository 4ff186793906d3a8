import Calque.Bounded.Substitution
import Calque.Proofs.BoundedIndex
import Calque.Proofs.Passes
import Calque.Proofs.Splicing

namespace Calque

theorem occurrencesFrom_apart (w : Char) (ws : List Char) (pos : Nat) (text : List Char) :
    (∀ p ∈ occurrencesFrom w ws pos text, pos ≤ p) ∧
      (occurrencesFrom w ws pos text).Pairwise fun p q => p + width (w :: ws) ≤ q := by
  fun_induction occurrencesFrom w ws pos text with
  | case1 => exact ⟨by simp, .nil⟩
  | case2 pos c text h ih =>
      refine ⟨fun p hp => ?_, List.pairwise_cons.mpr ⟨ih.1, ih.2⟩⟩
      rcases List.mem_cons.mp hp with rfl | hp
      · exact Nat.le_refl _
      · exact Nat.le_trans (Nat.le_add_right _ _) (ih.1 p hp)
  | case3 pos c text h ih =>
      exact ⟨fun p hp => Nat.le_trans (Nat.le_add_right _ _) (ih.1 p hp), ih.2⟩

theorem occurrences_apart (word text : List Char) :
    (occurrences word text).Pairwise fun p q => p + width word ≤ q := by
  cases word with
  | nil => exact .nil
  | cons w ws => exact (occurrencesFrom_apart w ws 0 text).2

namespace Bounded

open Lexical

section Candidates

variable {word text : List Char} {pos : Nat} (hlen : width text < 2 ^ 63)

theorem boundary_occurrence (h : pos ∈ occurrences word text) :
    boundary text pos = true ∧ boundary text (pos + width word) = true ∧
      pos + width word ≤ width text := by
  obtain ⟨-, a, b, rfl, rfl⟩ := mem_occurrences h
  have hstop := boundary_append (a ++ word) b
  rw [width_append] at hstop
  refine ⟨?_, hstop, by simp⟩
  rw [List.append_assoc]
  exact boundary_append a (word ++ b)

include hlen

theorem stands_ends (cls : WordClass) (h : pos ∈ occurrences word text) :
    stands cls word text pos = pure (standsAt cls word text pos) := by
  have hle := (boundary_occurrence h).2.2
  obtain ⟨-, a, b, rfl, rfl⟩ := mem_occurrences h
  have hbefore : cut (a ++ word ++ b) 0 (width a) = pure a := by
    rw [List.append_assoc, cut_before]
  rw [stands, hbefore, pure_bind, add_eq (by omega), pure_bind, ← width_append, cut_behind,
    pure_bind, standsAt_append]

theorem candidates_ends (cls : WordClass) :
    candidates cls word text = pure (Calque.candidates cls word text) := by
  rw [candidates, filter_eq fun pos h => stands_ends hlen cls h, candidates_occurrences]

end Candidates

section Passes

def unprotected (o : Options) (cls : WordClass) (text : String) (left : List Nat) : List Nat :=
  left.filter fun pos => (o.protects cls ((Index.ofText text).place pos)).isNone

/-- What a pass makes of a text when the occurrences at `left` are still to come. -/
def Rewriting.result (o : Options) (cls : WordClass) (old new text : String) (s : Rewriting)
    (left : List Nat) : List Char :=
  s.out ++ splice old.toList new.toList text.toList s.last (unprotected o cls text left)

structure Rewriting.Sound (text : String) (s : Rewriting) : Prop where
  index : ∀ t ∈ s.index, t = tablesOf text
  last : boundary text.toList s.last = true

variable (o : Options) (cls : WordClass) {old : String} (new : String) {text : String}
  (hlen : width text.toList < 2 ^ 63)
include hlen

omit o cls new in
theorem tables_ends {s : Rewriting} (hs : s.Sound text) :
    s.tables text = pure (tablesOf text) := by
  rw [Rewriting.tables]
  cases hindex : s.index with
  | none => exact build_ends hlen
  | some t => rw [hs.index t hindex]

theorem rewriteStep_ends {s : Rewriting} (hs : s.Sound text) {pos : Nat}
    (hpos : pos ∈ occurrences old.toList text.toList) (hlast : s.last ≤ pos) :
    ∃ s', Rewriting.step o cls old new text s pos = pure s' ∧ s'.Sound text ∧
      s'.last ≤ pos + width old.toList ∧
      (∀ left, s'.result o cls old new text left = s.result o cls old new text (pos :: left)) ∧
      s'.rewritten = s.rewritten + (unprotected o cls text [pos]).length := by
  obtain ⟨hstart, hstop, hle⟩ := boundary_occurrence hpos
  have hplace : (tablesOf text).place pos = (Index.ofText text).place pos := place_tablesOf pos
  rw [Rewriting.step, tables_ends hlen hs, pure_bind, hplace]
  cases hv : o.protects cls ((Index.ofText text).place pos) with
  | some reason =>
      refine ⟨_, rfl, ⟨by simp, hs.last⟩, by dsimp only; omega, fun left => ?_, ?_⟩
      · simp [Rewriting.result, unprotected, hv]
      · simp [unprotected, hv]
  | none =>
      dsimp only
      rw [cut_eq hlast hs.last hstart, pure_bind, add_eq (by omega), pure_bind]
      refine ⟨_, rfl, ⟨by simp, hstop⟩, Nat.le_refl _, fun left => ?_, ?_⟩
      · simp [Rewriting.result, unprotected, hv, splice]
      · simp [unprotected, hv]

theorem rewriteSteps_end {left : List Nat} (hleft : left ⊆ occurrences old.toList text.toList)
    (hapart : left.Pairwise fun p q => p + width old.toList ≤ q) {s : Rewriting}
    (hs : s.Sound text) (hlast : ∀ pos ∈ left, s.last ≤ pos) :
    ∃ s', left.foldlM (Rewriting.step o cls old new text) s = pure s' ∧ s'.Sound text ∧
      s'.result o cls old new text [] = s.result o cls old new text left ∧
      s'.rewritten = s.rewritten + (unprotected o cls text left).length := by
  induction left generalizing s with
  | nil => exact ⟨s, rfl, hs, rfl, rfl⟩
  | cons pos left ih =>
      obtain ⟨hpos, hleft⟩ := List.cons_subset.mp hleft
      obtain ⟨hnext, hapart⟩ := List.pairwise_cons.mp hapart
      obtain ⟨t, hstep, ht, htlast, hresult, hcount⟩ :=
        rewriteStep_ends o cls new hlen hs hpos (hlast pos (by simp))
      obtain ⟨s', hrun, hs', hresult', hcount'⟩ :=
        ih hleft hapart ht fun p hp => Nat.le_trans htlast (hnext p hp)
      refine ⟨s', ?_, hs', hresult'.trans (hresult left), ?_⟩
      · rw [List.foldlM_cons, hstep, pure_bind, hrun]
      · rw [hcount', hcount, Nat.add_assoc, ← List.length_append, unprotected, unprotected,
          unprotected, ← List.filter_append]
        rfl

theorem replaceAs_ends (old : String) :
    replaceAs cls text old new o = pure (Calque.replaceAs cls text old new o) := by
  have hkept : unprotected o cls text (Calque.candidates cls old.toList text.toList) =
      replacedOffsets o cls old.toList text.toList := rfl
  have hfound : Calque.candidates cls old.toList text.toList ⊆
      occurrences old.toList text.toList := by
    rw [candidates_occurrences]
    exact List.filter_subset_self _
  have hapart := (occurrences_apart old.toList text.toList).filter
    (standsAt cls old.toList text.toList)
  rw [← candidates_occurrences] at hapart
  have hstart : Rewriting.start.Sound text := ⟨by simp [Rewriting.start], boundary_zero _⟩
  obtain ⟨s, hrun, hs, hresult, hcount⟩ := rewriteSteps_end o cls new hlen hfound hapart hstart
    fun pos _ => Nat.zero_le pos
  rw [hkept] at hcount
  have hresult : s.out ++ dropBytes s.last text.toList =
      (substitute o cls old.toList new.toList text.toList).text := by
    rw [text_substitute_splice]
    exact hresult
  rw [replaceAs, rewrite, candidates_ends hlen, pure_bind, hrun, pure_bind]
  by_cases hsome : 0 < s.rewritten
  · rw [if_pos hsome, cut_rest hs.last, pure_bind, pure_bind, hresult, ← toList_replaceAs,
      String.ofList_toList, Option.getD_some]
  · have hnone : replacedOffsets o cls old.toList text.toList = [] := by
      rw [← List.length_eq_zero_iff]
      omega
    rw [if_neg hsome, pure_bind, replaceAs_unchanged hnone, Option.getD_none]

end Passes

section Dictionaries

variable {text : String} (hlen : width text.toList < 2 ^ 63)
include hlen

theorem count_ends (d : Dictionary) : count d text = pure (d.count text) := by
  have hstep : (fun (n : Counts) (e : Entry) => do
      let found ← candidates e.wordClass e.pair.dialect.toList text.toList
      return n.add e.wordClass found.length) =
        fun n e => (pure (n.add e.wordClass (e.count text.toList)) : Bounded Counts) := by
    funext n e
    rw [candidates_ends hlen, pure_bind, Entry.count]
  rw [count, hstep, List.foldlM_pure, Dictionary.count, countAll]

omit hlen in
theorem entries_end (o : Options) {es : List Entry} (hlen : width text.toList < 2 ^ 63)
    (hpasses : ∀ p ∈ passes o es text.toList, width p.2.text < 2 ^ 63) :
    es.foldlM (fun text e => replaceAs e.wordClass text e.pair.dialect e.pair.host o) text =
      pure (String.ofList (substituteAll o es text.toList)) := by
  induction es generalizing text with
  | nil => rw [substituteAll, List.foldl_nil, String.ofList_toList]; rfl
  | cons e es ih =>
      have hout : (Calque.replaceAs e.wordClass text e.pair.dialect e.pair.host o).toList =
          (e.substitute o text.toList).text := toList_replaceAs ..
      rw [passes, List.forall_mem_cons] at hpasses
      rw [← hout] at hpasses
      rw [List.foldlM_cons, replaceAs_ends o e.wordClass e.pair.host hlen, pure_bind,
        ih hpasses.1 hpasses.2, hout, substituteAll, substituteAll, List.foldl_cons]

end Dictionaries

/-- A computation on a text of less than 2^63 bytes never leaves the bounds and comes to an end, and
its result is the one that computing without bounds has; so does one with a dictionary as long as
every pass leaves a text of that kind. -/
theorem within_bounds {text : String} (hlen : width text.toList < 2 ^ 63) :
    (∀ pos, insideString text pos = pure (Lexical.insideString text pos) ∧
      insideComment text pos = pure (Lexical.insideComment text pos) ∧
      wordBoundary text pos = pure (Lexical.wordBoundary text pos) ∧
      templateQuote text pos = pure (Lexical.templateQuote text pos)) ∧
    (∃ tables, build text = pure tables ∧
      ∀ pos, tables.place pos = (Index.ofText text).place pos) ∧
    (∀ cls old new o, replaceAs cls text old new o = pure (Calque.replaceAs cls text old new o)) ∧
    ∀ d : Dictionary, count d text = pure (d.count text) ∧
      ∀ o, (∀ p ∈ d.passes o text, width p.2.text < 2 ^ 63) →
        toHost d o text = pure (d.toHost o text) := by
  refine ⟨fun pos => ?_, ⟨tablesOf text, build_ends hlen, place_tablesOf⟩, fun cls old new o => ?_,
    fun d => ⟨count_ends hlen d, fun o hpasses => entries_end o hlen hpasses⟩⟩
  · exact ⟨insideString_ends hlen pos, insideComment_ends hlen pos, wordBoundary_ends hlen pos,
      templateQuote_ends pos⟩
  · exact replaceAs_ends o cls new hlen old

/-- An offset inside a character, one far past the end, and a text that ends in a backslash. -/
theorem within_bounds_backslash : width "e f\"{{é}}\\".toList < 2 ^ 63 ∧
    insideString "e f\"{{é}}\\" 7 = pure true ∧
    insideComment "e f\"{{é}}\\" (2 ^ 64 - 1) =
      pure (Lexical.insideComment "e f\"{{é}}\\" (2 ^ 64 - 1)) ∧
    wordBoundary "e f\"{{é}}\\" 7 = pure true ∧
    replaceAs .structural "e f\"{{é}}\\" "e" "and" { } = pure "and f\"{{é}}\\" ∧
    ∃ d : Dictionary, d.entries = [⟨.structural, ⟨"e", "and"⟩⟩] ∧
      (∀ p ∈ d.passes { } "e f\"{{é}}\\", width p.2.text < 2 ^ 63) ∧
      toHost d { } "e f\"{{é}}\\" = pure "and f\"{{é}}\\" := by
  have hlen : width "e f\"{{é}}\\".toList < 2 ^ 63 := by decide
  have hword : isWord "e".toList = true := by decide
  have hpass : (substitute { } .structural "e".toList "and".toList "e f\"{{é}}\\".toList).text =
      "and f\"{{é}}\\".toList := by
    rw [text_substitute { } .structural hword]
    decide
  have hstring : Lexical.insideString "e f\"{{é}}\\" 7 = true := by decide
  have hboundary : Lexical.wordBoundary "e f\"{{é}}\\" 7 = true := by decide
  have hsound : Dictionary.Sound [⟨"e", "and"⟩] := ⟨by decide, by decide, by decide, by decide⟩
  have hpasses : ∀ p ∈ passes { } [⟨.structural, ⟨"e", "and"⟩⟩] "e f\"{{é}}\\".toList,
      width p.2.text < 2 ^ 63 := by
    rw [passes, passes, List.forall_mem_singleton, Entry.substitute, hpass]
    decide
  obtain ⟨hreading, -, hreplace, hdictionary⟩ := within_bounds hlen
  refine ⟨hlen, ?_, (hreading _).2.1, ?_, ?_, ⟨[⟨"e", "and"⟩], [], hsound⟩, rfl, hpasses, ?_⟩
  · rw [(hreading 7).1, hstring]
  · rw [(hreading 7).2.2.1, hboundary]
  · rw [hreplace]
    exact congrArg pure (String.toList_inj.mp ((toList_replaceAs ..).trans hpass))
  · rw [(hdictionary ⟨[⟨"e", "and"⟩], [], hsound⟩).2 { } hpasses]
    exact congrArg pure (String.toList_inj.mp (String.toList_ofList.trans hpass))

end Bounded

end Calque
