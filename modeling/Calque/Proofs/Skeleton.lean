import Calque.Proofs.Passes
import Calque.SideBySide

namespace Calque

open Lexical SideBySide

namespace Runs

def gaps : Runs → List (List Char)
  | .last w => if w = [] then [[]] else [[], []]
  | .next w c rest =>
    if w = [] then rest.gaps.modifyHead (c :: ·) else [] :: rest.gaps.modifyHead (c :: ·)

def words (rs : Runs) : List (List Char) := rs.blocks.filter (· ≠ [])

def mask (rs : Runs) : List Bool := rs.blocks.map (· ≠ [])

def weave : List (List Char) → List (List Char) → List Char
  | g :: gs, w :: ws => g ++ (w ++ weave gs ws)
  | gs, _ => gs.flatten

theorem gaps_ne_nil (rs : Runs) : rs.gaps ≠ [] := by
  induction rs with
  | last w => rw [gaps]; split <;> simp
  | next w c rest ih => rw [gaps]; split <;> simp [ih]

theorem words_next (w : List Char) (c : Char) (rest : Runs) :
    (next w c rest).words = if w = [] then rest.words else w :: rest.words := by
  by_cases hw : w = [] <;> simp [words, blocks, hw]

theorem weave_cons (c : Char) {gs : List (List Char)} (hgs : gs ≠ []) (ws : List (List Char)) :
    weave (gs.modifyHead (c :: ·)) ws = c :: weave gs ws := by
  obtain ⟨g, gs, rfl⟩ := List.exists_cons_of_ne_nil hgs
  cases ws <;> simp [weave]

theorem weave_words (rs : Runs) : weave rs.gaps rs.words = rs.text := by
  induction rs with
  | last w => by_cases hw : w = [] <;> simp [gaps, words, blocks, weave, hw]
  | next w c rest ih =>
      have hrest := weave_cons c rest.gaps_ne_nil rest.words
      rw [ih] at hrest
      rw [words_next, gaps, text_next]
      split
      · subst_vars
        exact hrest
      · rw [weave, hrest, List.nil_append]

theorem length_gaps (rs : Runs) : rs.gaps.length = rs.words.length + 1 := by
  induction rs with
  | last w => by_cases hw : w = [] <;> simp [gaps, words, blocks, hw]
  | next w c rest ih =>
      rw [gaps, words_next]
      split <;> simp [ih]

theorem flatten_cons (c : Char) {gs : List (List Char)} (hgs : gs ≠ []) :
    (gs.modifyHead (c :: ·)).flatten = c :: gs.flatten := by
  obtain ⟨g, gs, rfl⟩ := List.exists_cons_of_ne_nil hgs
  rfl

/-- The gaps hold the characters that belong to no word. -/
theorem flatten_gaps {rs : Runs} (h : rs.Proper) :
    rs.gaps.flatten = rs.text.filter (!isWordChar ·) := by
  have hblock {w : List Char} (hw : ∀ d ∈ w, isWordChar d = true) :
      w.filter (!isWordChar ·) = [] := by
    rw [List.filter_eq_nil_iff]
    intro d hd
    simp [hw d hd]
  induction rs with
  | last w =>
      rw [text_last, hblock h, gaps]
      split <;> rfl
  | next w c rest ih =>
      have hrest : (rest.gaps.modifyHead (c :: ·)).flatten =
          (c :: rest.text).filter (!isWordChar ·) := by
        rw [flatten_cons c rest.gaps_ne_nil, ih h.2.2, List.filter_cons_of_pos (by simp [h.2.1])]
      rw [text_next, List.filter_append, hblock h.1, ← hrest, gaps, List.nil_append]
      split <;> rfl

theorem blocks_replace (f : Visit → List Char) (s : State) (rs : Runs) :
    (rs.replace f s).blocks = (rs.visits s).map f := by
  induction rs generalizing s with
  | last w => rfl
  | next w c rest ih => rw [replace, blocks, visits, List.map_cons, ih]

section Replace

variable {f : Visit → List Char} {s : State} {rs : Runs}
  (h : ∀ v ∈ rs.visits s, f v = [] ↔ v.block = [])
include h

theorem gaps_replace : (rs.replace f s).gaps = rs.gaps := by
  induction rs generalizing s with
  | last w =>
      have hw : f ⟨s, w, none⟩ = [] ↔ w = [] := h ⟨s, w, none⟩ (List.mem_cons_self ..)
      simp only [replace, gaps, hw]
  | next w c rest ih =>
      have hw : f ⟨s, w, some c⟩ = [] ↔ w = [] := h ⟨s, w, some c⟩ (List.mem_cons_self ..)
      simp only [replace, gaps, hw, ih fun v hv => h v (List.mem_cons_of_mem _ hv)]

theorem mask_replace : (rs.replace f s).mask = rs.mask := by
  rw [mask, mask, blocks_replace, ← map_block_visits s, List.map_map, List.map_map]
  refine List.map_congr_left fun v hv => ?_
  simp only [Function.comp_apply, ne_eq, h v hv]

end Replace

theorem filter_at {α : Type} (p : α → Bool) (m : List Bool) (k : Nat) :
    ∃ j : Nat, ∀ as : List α, as.map p = m → (as.filter p)[k]? = as[j]? := by
  induction m generalizing k with
  | nil =>
      refine ⟨0, fun as has => ?_⟩
      rw [List.map_eq_nil_iff.mp has]
      simp
  | cons b m ih =>
      cases b with
      | false =>
          obtain ⟨j, hj⟩ := ih k
          refine ⟨j + 1, fun as has => ?_⟩
          obtain ⟨a, as, rfl, ha, hm⟩ := List.map_eq_cons_iff.mp has
          rw [List.filter_cons_of_neg (by simp [ha]), List.getElem?_cons_succ, hj as hm]
      | true =>
          cases k with
          | zero =>
              refine ⟨0, fun as has => ?_⟩
              obtain ⟨a, as, rfl, ha, hm⟩ := List.map_eq_cons_iff.mp has
              rw [List.filter_cons_of_pos ha, List.getElem?_cons_zero, List.getElem?_cons_zero]
          | succ k =>
              obtain ⟨j, hj⟩ := ih k
              refine ⟨j + 1, fun as has => ?_⟩
              obtain ⟨a, as, rfl, ha, hm⟩ := List.map_eq_cons_iff.mp has
              rw [List.filter_cons_of_pos ha, List.getElem?_cons_succ, List.getElem?_cons_succ,
                hj as hm]

/-- The run of a number stands at one block, whatever words the blocks hold. -/
theorem run_block (m : List Bool) (k : Nat) :
    ∃ j : Nat, ∀ rs : Runs, rs.mask = m → rs.words[k]? = rs.blocks[j]? := by
  obtain ⟨j, hj⟩ := filter_at (fun w : List Char => decide (w ≠ [])) m k
  exact ⟨j, fun rs => hj rs.blocks⟩

end Runs

section Phase

variable {o : Options} {cls : WordClass} {r : List Char → List Char} (hr : KeepsWords r)
  (s : State) (text : List Char)
include hr

theorem rename_visit {v : Visit} (hv : v ∈ (Runs.ofText text).visits s) :
    rename o cls r v = [] ↔ v.block = [] :=
  rename_eq_nil hr o (Runs.mem_visits (Runs.ofText_proper text) hv).1

theorem gaps_phase : (Runs.ofText (phase o cls r s text)).gaps = (Runs.ofText text).gaps := by
  rw [ofText_phase hr, Runs.gaps_replace fun v hv => rename_visit hr s text hv]

theorem mask_phase : (Runs.ofText (phase o cls r s text)).mask = (Runs.ofText text).mask := by
  rw [ofText_phase hr, Runs.mask_replace fun v hv => rename_visit hr s text hv]

theorem block_phase (j : Nat) : (Runs.ofText (phase o cls r s text)).blocks[j]? =
    (((Runs.ofText text).visits s)[j]?).map (rename o cls r) := by
  rw [ofText_phase hr, Runs.blocks_replace, List.getElem?_map]

theorem filter_phase :
    (phase o cls r s text).filter (!isWordChar ·) = text.filter (!isWordChar ·) := by
  have hgaps (cs : List Char) := Runs.flatten_gaps (Runs.ofText_proper cs)
  simp only [Runs.text_ofText] at hgaps
  rw [← hgaps, ← hgaps, gaps_phase hr]

end Phase

/-- A phase makes a host word of a block or leaves it as it is. -/
theorem block_pairs {ps : List WordPair} (h : AllWords ps) (o : Options) (cls : WordClass)
    (text : List Char) (j : Nat) :
    (Runs.ofText (phase o cls (chain ps) .start text)).blocks[j]? =
        (Runs.ofText text).blocks[j]? ∨
      ∃ p ∈ ps, (Runs.ofText (phase o cls (chain ps) .start text)).blocks[j]? =
        some p.host.toList := by
  rw [block_phase (chain_keepsWords h), ← Runs.map_block_visits .start, List.getElem?_map]
  cases ((Runs.ofText text).visits .start)[j]? with
  | none => exact .inl rfl
  | some v =>
      rw [Option.map_some, Option.map_some, rename]
      split
      · rcases chain_mem ps v.block with hsame | ⟨p, hp, hhost⟩
        · exact .inl (congrArg some hsame)
        · exact .inr ⟨p, hp, congrArg some hhost⟩
      · exact .inl rfl

theorem count_kept {a b : List Char} {c : Char} (hc : isWordChar c = false)
    (h : a.filter (!isWordChar ·) = b.filter (!isWordChar ·)) : a.count c = b.count c := by
  have hcount (cs : List Char) : (cs.filter (!isWordChar ·)).count c = cs.count c :=
    List.count_filter (p := fun d => !isWordChar d) (by simp [hc])
  rw [← hcount, h, hcount]

/-- The texts before, between and after the runs of a text. -/
def gapsOf (text : String) : List (List Char) := (Runs.ofText text.toList).gaps

theorem weave_runsOf (text : String) : Runs.weave (gapsOf text) (runsOf text) = text.toList := by
  have h := (Runs.ofText text.toList).weave_words
  rwa [Runs.text_ofText] at h

namespace Dictionary

variable (d : Dictionary) (o : Options) (source : String)

theorem gapsOf_toHost : gapsOf (d.toHost o source) = gapsOf source := by
  rw [gapsOf, toHost_phases, gaps_phase (chain_keepsWords d.callable_words),
    gaps_phase (chain_keepsWords d.structural_words), gapsOf]

theorem mask_toHost : (Runs.ofText (d.toHost o source).toList).mask =
    (Runs.ofText source.toList).mask := by
  rw [toHost_phases, mask_phase (chain_keepsWords d.callable_words),
    mask_phase (chain_keepsWords d.structural_words)]

theorem filter_toHost : (d.toHost o source).toList.filter (!isWordChar ·) =
    source.toList.filter (!isWordChar ·) := by
  rw [toHost_phases, filter_phase (chain_keepsWords d.callable_words),
    filter_phase (chain_keepsWords d.structural_words)]

theorem block_toHost (j : Nat) :
    (Runs.ofText (d.toHost o source).toList).blocks[j]? = (Runs.ofText source.toList).blocks[j]? ∨
      ∃ p ∈ d.structural ++ d.callable,
        (Runs.ofText (d.toHost o source).toList).blocks[j]? = some p.host.toList := by
  rw [toHost_phases]
  rcases block_pairs d.callable_words o .callable _ j with hc | ⟨p, hp, hhost⟩
  · rw [hc]
    rcases block_pairs d.structural_words o .structural source.toList j with hs | ⟨p, hp, hhost⟩
    · exact .inl hs
    · exact .inr ⟨p, List.mem_append_left _ hp, hhost⟩
  · exact .inr ⟨p, List.mem_append_right _ hp, hhost⟩

theorem run_block_toHost (k : Nat) : ∃ j : Nat,
    (runsOf source)[k]? = (Runs.ofText source.toList).blocks[j]? ∧
      ∀ o : Options, (runsOf (d.toHost o source))[k]? =
        (Runs.ofText (d.toHost o source).toList).blocks[j]? := by
  obtain ⟨j, hj⟩ := Runs.run_block (Runs.ofText source.toList).mask k
  exact ⟨j, hj _ rfl, fun o => hj _ (mask_toHost d o source)⟩

theorem run_toHost (k : Nat) :
    (runsOf (d.toHost o source))[k]? = (runsOf source)[k]? ∨
      ∃ p ∈ d.structural ++ d.callable,
        (runsOf (d.toHost o source))[k]? = some p.host.toList := by
  obtain ⟨j, hsource, htarget⟩ := run_block_toHost d source k
  rw [htarget, hsource]
  exact block_toHost d o source j

/-- Translation exchanges runs for host words, each in its place, and keeps all that stands between
them. The entries of the dictionary may be chained. -/
theorem skeleton_toHost :
    (runsOf (d.toHost o source)).length = (runsOf source).length ∧
      gapsOf (d.toHost o source) = gapsOf source ∧
      (d.toHost o source).toList = Runs.weave (gapsOf source) (runsOf (d.toHost o source)) ∧
      (lines (d.toHost o source).toList).length = (lines source.toList).length ∧
      ∀ k : Nat, (runsOf (d.toHost o source))[k]? = (runsOf source)[k]? ∨
        ∃ p ∈ d.structural ++ d.callable,
          (runsOf (d.toHost o source))[k]? = some p.host.toList := by
  have hgaps := gapsOf_toHost d o source
  have hlength (text : String) : (gapsOf text).length = (runsOf text).length + 1 :=
    (Runs.ofText text.toList).length_gaps
  refine ⟨?_, hgaps, ?_, ?_, run_toHost d o source⟩
  · have h := congrArg List.length hgaps
    rwa [hlength, hlength, Nat.add_right_cancel_iff] at h
  · rw [← hgaps, weave_runsOf]
  · rw [lines, lines, Text.length_splitOn, Text.length_splitOn,
      count_kept (by decide) (filter_toHost d o source)]

end Dictionary

end Calque
