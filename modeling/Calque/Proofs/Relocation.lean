import Calque.Proofs.Delimiters
import Calque.Proofs.Passes
import Calque.Proofs.Protection
import Calque.Proofs.Visits

namespace Calque

open Lexical

def replacedBefore (o : Options) (cls : WordClass) (old text : List Char) (p : Nat) : Nat :=
  (replacedOffsets o cls old text).countP (· + width old ≤ p)

/-- Where an offset goes: every replaced occurrence before it has changed its width. -/
def relocate (o : Options) (cls : WordClass) (old new text : List Char) (p : Nat) : Nat :=
  p + replacedBefore o cls old text p * width new - replacedBefore o cls old text p * width old

section Places

def Visit.mark (v : Visit) : Mark :=
  if v.block = [] then (marks v.after.toList).headD .plain else .plain

theorem place_afterWord (a b : Nat) (letter : Bool) (mode : Mode) (line : LineMark) (m : Mark) :
    (⟨a, mode.afterWord letter, line⟩ : State).place m =
      (⟨b, mode, line⟩ : State).place .plain := by
  cases mode with
  | code x => rfl
  | literal l => cases hl : l.held <;> simp [Mode.afterWord, State.place, hl]

/-- All bytes of a visit have one place. -/
theorem place_content {text : String} {v : Visit}
    (hv : v ∈ (Runs.ofText text.toList).visits .start) {i : Nat} (hi : i < width v.text) :
    (Index.ofText text).place (v.state.offset + i) = v.state.place v.mark := by
  obtain ⟨m, hm, hplace⟩ := place_within hv hi
  have hinert := inert_take (visit_block hv) (visit_after hv) hi
  -- Behind the first byte the scan has gone over bytes that mean nothing to it.
  have hlater (hpos : 0 < i) : (v.state.run ((marks v.text).take i)).place m =
      v.state.place .plain := by
    have hne : (marks v.text).take i ≠ [] := by
      rw [← List.length_pos_iff, List.length_take, length_marks]
      omega
    rw [run_inert hinert hne, place_afterWord _ v.state.offset]
  rw [hplace]
  by_cases hb : v.block = []
  · have htext : marks v.text = marks v.after.toList := by rw [Visit.text, hb, List.nil_append]
    rcases Nat.eq_zero_or_pos i with rfl | hpos
    · have hmark : v.mark = m := by
        rw [Visit.mark, if_pos hb, ← htext, List.headD_eq_head?_getD, List.head?_eq_getElem?, hm]
        rfl
      rw [List.take_zero, State.run_nil, hmark]
    · have hplain : v.mark = .plain ∨ v.mark = .templateLetter := by
        have hhead : ∃ n ns, marks v.text = n :: ns ∧ n ∈ (marks v.text).take i := by
          cases ht : marks v.text with
          | nil => simp [ht] at hm
          | cons n ns =>
              refine ⟨n, ns, rfl, ?_⟩
              rw [← Nat.succ_pred_eq_of_pos hpos]
              simp
        obtain ⟨n, ns, ht, hmem⟩ := hhead
        have hn := hinert n hmem
        rw [Visit.mark, if_pos hb, ← htext, ht]
        exact hn
      rw [hlater hpos]
      exact (place_inert hplain v.state).symm
  · rw [Visit.mark, if_neg hb]
    rcases Nat.eq_zero_or_pos i with rfl | hpos
    · have hmem : m ∈ marks v.block := by
        have hlen : 0 < (marks v.block).length := by
          obtain ⟨c, w, hc⟩ := List.exists_cons_of_ne_nil hb
          have := c.utf8Size_pos
          simp only [length_marks, hc, width_cons]
          omega
        rw [Visit.text, marks_append, List.getElem?_append_left hlen] at hm
        exact List.mem_of_getElem? hm
      rw [List.take_zero, State.run_nil]
      exact place_inert (marks_block (visit_block hv) hmem) v.state
    · exact hlater hpos

end Places

section Visits

def Visit.replacedBy (o : Options) (cls : WordClass) (old : List Char) (v : Visit) : Bool :=
  v.block = old && v.exposed o cls

variable {o : Options} {cls : WordClass} {old new : List Char}

theorem rename_swap (v : Visit) : rename o cls (swap old new) v =
    if v.replacedBy o cls old then new else v.block := by
  rw [rename, swap, Visit.replacedBy]
  by_cases hb : v.block = old <;> cases v.exposed o cls <;> simp [hb]

variable (hold : isWord old = true)
include hold

theorem replacedOffsets_visits (text : String) :
    replacedOffsets o cls old text.toList =
      (((Runs.ofText text.toList).visits .start).filter (·.replacedBy o cls old)).map
        (·.state.offset) := by
  have hne := (isWord_iff.mp hold).1
  rw [replacedOffsets, candidates_visits cls hold, List.filter_map, List.filter_filter]
  congr 1
  apply List.filter_congr
  intro v hv
  rw [Visit.holds, Visit.replacedBy, Visit.exposed, Function.comp_apply]
  by_cases hb : v.block = old
  · have hplace := place_visit hv (by rw [hb]; exact hne)
    rw [Index.ofText] at hplace
    rw [hplace]
    simp [hb, Bool.and_comm]
  · simp [hb]

theorem replacedBy_block {v : Visit} (h : v.replacedBy o cls old = true) :
    v.block = old ∧ 0 < width v.block := by
  have hb : v.block = old := by simpa using (Bool.and_eq_true_iff.mp h).1
  obtain ⟨c, w, hc⟩ := List.exists_cons_of_ne_nil (isWord_iff.mp hold).1
  have := c.utf8Size_pos
  refine ⟨hb, ?_⟩
  rw [hb, hc, width_cons]
  omega

theorem replacedBefore_visits (text : String) (p : Nat) :
    replacedBefore o cls old text.toList p =
      ((Runs.ofText text.toList).visits .start).countP fun v =>
        v.replacedBy o cls old && decide (v.state.offset + width v.block ≤ p) := by
  rw [replacedBefore, replacedOffsets_visits hold, List.countP_map, List.countP_filter]
  apply List.countP_congr
  intro v _
  by_cases h : v.replacedBy o cls old = true
  · simp [h, (replacedBy_block hold h).1]
  · simp [h]

/-- Of the replaced occurrences those before a visit have ended, and perhaps its own block. -/
theorem replacedBefore_within {text : String} {v : Visit}
    (hv : v ∈ (Runs.ofText text.toList).visits .start) {i : Nat} (hi : i ≤ width v.text) :
    replacedBefore o cls old text.toList (v.state.offset + i) =
      replacedBefore o cls old text.toList v.state.offset +
        if v.replacedBy o cls old ∧ width v.block ≤ i then 1 else 0 := by
  obtain ⟨us, vs, hsplit⟩ := List.append_of_mem hv
  have hbefore := visits_before .start (Runs.ofText text.toList)
  rw [hsplit, List.pairwise_append, List.pairwise_cons] at hbefore
  obtain ⟨-, ⟨hlater, -⟩, hearlier⟩ := hbefore
  have hended (p : Nat) (hp : v.state.offset ≤ p) :
      (us.countP fun u => u.replacedBy o cls old &&
        decide (u.state.offset + width u.block ≤ p)) = us.countP (·.replacedBy o cls old) := by
    apply List.countP_congr
    intro u hu
    obtain ⟨hafter, hle⟩ := hearlier u hu v (List.mem_cons_self ..)
    have := width_text hafter
    have hend : u.state.offset + width u.block ≤ p := by omega
    simp [hend]
  have hahead (p : Nat) (hp : p ≤ v.state.offset + width v.text) :
      (vs.countP fun u => u.replacedBy o cls old &&
        decide (u.state.offset + width u.block ≤ p)) = 0 := by
    rw [List.countP_eq_zero]
    intro u hu h
    obtain ⟨hreplaced, hend⟩ := Bool.and_eq_true_iff.mp h
    have hpos := (replacedBy_block hold hreplaced).2
    have hend := of_decide_eq_true hend
    have hle := (hlater u hu).2
    omega
  rw [replacedBefore_visits hold, replacedBefore_visits hold, hsplit, List.countP_append,
    List.countP_append, List.countP_cons, List.countP_cons, hended _ (by omega),
    hended _ (le_refl _), hahead _ (by omega), hahead _ (by omega)]
  by_cases h : v.replacedBy o cls old = true
  · have hpos := (replacedBy_block hold h).2
    have hnot : ¬v.state.offset + width v.block ≤ v.state.offset := by omega
    simp [h, hnot]
  · simp [h]

end Visits

section Scans

variable {o : Options} {cls : WordClass} {old new : List Char}

def Moved (o : Options) (cls : WordClass) (old new : List Char) (text : String)
    (p p' : Nat) : Prop :=
  p' + replacedBefore o cls old text.toList p * width old =
    p + replacedBefore o cls old text.toList p * width new

/-- Two scans side by side, of a text and of what a pass leaves of it. -/
structure Tracked (o : Options) (cls : WordClass) (old new : List Char) (text : String)
    (s t : State) : Prop where
  agree : Agree cls s t
  bare : endsInLetter old = endsInLetter new → s.bare = t.bare
  source : s.mode ≠ .code true
  target : t.mode ≠ .code true
  offset : Moved o cls old new text s.offset t.offset
  opened : ∀ l l', s.mode = .literal l → t.mode = .literal l' →
    Moved o cls old new text l.start l'.start

theorem isSome_tracked {text : String} {s t : State} (h : Tracked o cls old new text s t) :
    s.mode.start?.isSome = t.mode.start?.isSome := by
  rw [start_outline, start_outline, (Prod.mk.inj (outline_of_agree h.agree)).1]

theorem bare_visit (v : Visit) (hold : isWord old = true) (hnew : isWord new = true)
    (hletter : endsInLetter old = endsInLetter new) {t : State} (h : v.state.bare = t.bare)
    (c : Char) : (v.state.run (marks (v.block ++ [c]))).bare =
      (t.run (marks (rename o cls (swap old new) v ++ [c]))).bare := by
  rw [marks_append, marks_append, State.run_append, State.run_append]
  apply bare_run
  rw [rename_swap]
  split
  · rename_i hr
    obtain ⟨hne, hw⟩ := isWord_iff.mp hold
    obtain ⟨hne', hw'⟩ := isWord_iff.mp hnew
    rw [(replacedBy_block hold hr).1]
    exact bare_letters hw hw' hne hne' hletter h
  · exact bare_run h _

variable {text : String} {v : Visit} (hv : v ∈ (Runs.ofText text.toList).visits .start)
include hv

theorem moved_behind (hold : isWord old = true) {q : Nat}
    (h : Moved o cls old new text v.state.offset q) {i : Nat} (hi : width v.block ≤ i)
    (hle : i ≤ width v.text) :
    Moved o cls old new text (v.state.offset + i)
      (q + (width (rename o cls (swap old new) v) + (i - width v.block))) := by
  unfold Moved at h ⊢
  rw [replacedBefore_within hold hv hle, rename_swap]
  by_cases hr : v.replacedBy o cls old = true
  · have hb := (replacedBy_block hold hr).1
    rw [hb] at hi
    simp only [hr, hb, hi, and_self, if_true, Nat.add_mul, Nat.one_mul]
    omega
  · simp only [hr, if_false, false_and, Bool.false_eq_true, Nat.add_zero]
    omega

theorem moved_within (hold : isWord old = true) {q : Nat}
    (h : Moved o cls old new text v.state.offset q) (hr : v.replacedBy o cls old = false) {i : Nat}
    (hle : i ≤ width v.text) : Moved o cls old new text (v.state.offset + i) (q + i) := by
  unfold Moved at h ⊢
  simp only [replacedBefore_within hold hv hle, hr, if_false, false_and, Bool.false_eq_true,
    Nat.add_zero]
  omega

theorem tracked_visit (hold : isWord old = true) (hnew : isWord new = true) {t : State}
    (h : Tracked o cls old new text v.state t) {c : Char} (hc : v.after = some c) :
    Tracked o cls old new text (v.state.run (marks (v.block ++ [c])))
      (t.run (marks (rename o cls (swap old new) v ++ [c]))) := by
  have hr := swap_keepsWords hold hnew
  have hw := visit_block hv
  have hw' : ∀ d ∈ rename o cls (swap old new) v, isWordChar d = true := rename_block hr o hw
  have hgap : isWordChar c = false := by
    have := visit_after hv
    rwa [hc] at this
  have htext : width v.text = width v.block + c.utf8Size := by simp [Visit.text, hc]
  have hagree := agree_visit hr o hw hc h.agree
  refine ⟨hagree, fun hletter => bare_visit v hold hnew hletter (h.bare hletter) c,
    letter_gap hgap, letter_gap hgap, ?_, fun l l' hl hl' => ?_⟩
  · have hnext := moved_behind hv hold h.offset (i := width v.text) (by omega) (le_refl _)
    rw [state_next, state_next, ← htext]
    rwa [htext, Nat.add_sub_cancel_left, ← htext] at hnext
  · have hopen := isSome_tracked h
    rcases opened_block hw hgap h.source hl with ⟨l₀, hl₀, hstart, -⟩ | ⟨hnone, hstart, -⟩ <;>
      rcases opened_block hw' hgap h.target hl' with ⟨l₁, hl₁, hstart', -⟩ | ⟨hnone', hstart', -⟩
    · rw [hstart, hstart']
      exact h.opened l₀ l₁ hl₀ hl₁
    · rw [hl₀, hnone'] at hopen
      cases hopen
    · rw [hnone, hl₁] at hopen
      cases hopen
    · have hquote := moved_behind hv hold h.offset (i := width v.block) (le_refl _) (by omega)
      rw [Nat.sub_self, Nat.add_zero] at hquote
      rwa [hstart, hstart']

end Scans

theorem exists_visit {text : String} {p : Nat} (hp : p < width text.toList) :
    ∃ v ∈ (Runs.ofText text.toList).visits .start, ∃ i < width v.text,
      p = v.state.offset + i := by
  have hp : p < (bytes text.toList).length := by rwa [length_bytes]
  have hmem : ((bytes text.toList)[p], p) ∈ (bytes text.toList).zipIdx :=
    List.mem_zipIdx_iff_getElem?.mpr (List.getElem?_eq_getElem hp)
  have hcontent := content_visits .start (Runs.ofText text.toList)
  rw [Runs.text_ofText] at hcontent
  obtain ⟨v, hv, hpv⟩ := List.mem_flatMap.mp (hcontent ▸ hmem)
  obtain ⟨hle, hlt⟩ := mem_content hpv
  exact ⟨v, hv, p - v.state.offset, by omega, by omega⟩

section Passes

variable (o : Options) (cls : WordClass) {old new : List Char} (hold : isWord old = true)
  (hnew : isWord new = true) (text : String)
include hold hnew

theorem visits_tracked :
    List.Forall₂ (Visit.Matches (Tracked o cls old new text) (rename o cls (swap old new)))
      ((Runs.ofText text.toList).visits .start)
      ((Runs.ofText (substitute o cls old new text.toList).text).visits .start) := by
  rw [text_substitute o cls hold, ofText_phase (swap_keepsWords hold hnew)]
  have hnone : replacedBefore o cls old text.toList 0 = 0 := by
    rw [replacedBefore, List.countP_eq_zero]
    intro pos _
    obtain ⟨c, w, hc⟩ := List.exists_cons_of_ne_nil (isWord_iff.mp hold).1
    have := c.utf8Size_pos
    simp [hc]
    omega
  refine visits_replace ⟨agree_refl cls _, fun _ => rfl, by simp [State.start],
    by simp [State.start], ?_, fun l l' hl => by cases hl⟩ fun v hv c hc t h => ?_
  · simp [Moved, State.start, hnone]
  · exact tracked_visit hv hold hnew h hc

omit hnew in
theorem replacedBefore_past {p : Nat} (hp : width text.toList ≤ p) :
    replacedBefore o cls old text.toList p =
      ((Runs.ofText text.toList).visits .start).countP (·.replacedBy o cls old) := by
  rw [replacedBefore_visits hold]
  apply List.countP_congr
  intro v hv
  obtain ⟨pre, post, ht, -, -, hoff⟩ := visit_offset hv
  have hend : v.state.offset + width v.block ≤ p := by
    rw [ht, width_append, width_append] at hp
    omega
  simp [hend]

omit hnew in
theorem width_substitute :
    Moved o cls old new text (width text.toList)
      (width (substitute o cls old new text.toList).text) := by
  have hblock (v : Visit) : width (rename o cls (swap old new) v) +
      (if v.replacedBy o cls old then 1 else 0) * width old =
        width v.block + (if v.replacedBy o cls old then 1 else 0) * width new := by
    rw [rename_swap]
    by_cases hr : v.replacedBy o cls old = true
    · simp [hr, (replacedBy_block hold hr).1, Nat.add_comm]
    · simp [hr]
  have hwidth (rs : Runs) (s : State) : width (rs.replace (rename o cls (swap old new)) s).text +
      (rs.visits s).countP (·.replacedBy o cls old) * width old =
        width rs.text + (rs.visits s).countP (·.replacedBy o cls old) * width new := by
    induction rs generalizing s with
    | last w =>
        have h := hblock ⟨s, w, none⟩
        simpa [Runs.replace, Runs.visits, List.countP_cons] using h
    | next w c rest ih =>
        have h := hblock ⟨s, w, some c⟩
        have hrest := ih (s.run (marks (w ++ [c])))
        simp only [Runs.replace, Runs.visits, List.countP_cons, Runs.text_next, width_append,
          width_cons, Nat.add_mul] at h hrest ⊢
        omega
  have h := hwidth (Runs.ofText text.toList) .start
  rw [Runs.text_ofText] at h
  rw [Moved, replacedBefore_past o cls hold text (le_refl _), text_substitute o cls hold]
  exact h

omit hnew in
theorem moved_past {p : Nat} (hp : width text.toList ≤ p) :
    Moved o cls old new text p
      (width (substitute o cls old new text.toList).text + (p - width text.toList)) := by
  have h : Moved o cls old new text _ _ := width_substitute o cls hold text
  rw [Moved, replacedBefore_past o cls hold text (le_refl _)] at h
  rw [Moved, replacedBefore_past o cls hold text hp]
  omega

theorem visit_matched {v : Visit} (hv : v ∈ (Runs.ofText text.toList).visits .start) :
    ∃ v' ∈ (Runs.ofText (substitute o cls old new text.toList).text).visits .start,
      v.Matches (Tracked o cls old new text) (rename o cls (swap old new)) v' := by
  obtain ⟨k, hk, hget⟩ := List.getElem_of_mem hv
  have hvisits := visits_tracked o cls hold hnew text
  have hk' := hvisits.length_eq ▸ hk
  have hmatch := hvisits.get hk hk'
  rw [List.get_eq_getElem, List.get_eq_getElem, hget] at hmatch
  exact ⟨_, List.getElem_mem hk', hmatch⟩

theorem visit_relocated {p : Nat} (hp : p < width text.toList)
    (hfree : ∀ pos ∈ replacedOffsets o cls old text.toList, ¬(pos < p ∧ p < pos + width old)) :
    ∃ v ∈ (Runs.ofText text.toList).visits .start,
      ∃ v' ∈ (Runs.ofText (substitute o cls old new text.toList).text).visits .start,
        v.Matches (Tracked o cls old new text) (rename o cls (swap old new)) v' ∧
        ∃ i < width v.text, ∃ j < width v'.text, p = v.state.offset + i ∧
          Moved o cls old new text p (v'.state.offset + j) := by
  obtain ⟨v, hv, i, hi, rfl⟩ := exists_visit hp
  obtain ⟨v', hv', hmatch⟩ := visit_matched o cls hold hnew text hv
  refine ⟨v, hv, v', hv', hmatch, i, hi, ?_⟩
  have hwidth : width v'.text = width (rename o cls (swap old new) v) + width v.after.toList := by
    rw [Visit.text, hmatch.block, hmatch.after, width_append]
  have hwidth' : width v.text = width v.block + width v.after.toList := by
    rw [Visit.text, width_append]
  cases hr : v.replacedBy o cls old with
  | false =>
      refine ⟨i, ?_, rfl, moved_within hv hold hmatch.state.offset hr (Nat.le_of_lt hi)⟩
      rw [rename_swap, hr, if_neg (by simp)] at hwidth
      omega
  | true =>
      have hb := (replacedBy_block hold hr).1
      have hmem : v.state.offset ∈ replacedOffsets o cls old text.toList := by
        rw [replacedOffsets_visits hold]
        exact List.mem_map_of_mem (List.mem_filter.mpr ⟨hv, hr⟩)
      have hout := hfree _ hmem
      rw [← hb] at hout
      rcases Nat.eq_zero_or_pos i with rfl | hpos
      · refine ⟨0, ?_, rfl, hmatch.state.offset⟩
        rw [rename_swap, hr, if_pos rfl] at hwidth
        obtain ⟨c, w, hc⟩ := List.exists_cons_of_ne_nil (isWord_iff.mp hnew).1
        have := c.utf8Size_pos
        rw [hc, width_cons] at hwidth
        omega
      · refine ⟨width (rename o cls (swap old new) v) + (i - width v.block), by omega, rfl, ?_⟩
        exact moved_behind hv hold hmatch.state.offset (by omega) (Nat.le_of_lt hi)

theorem relocate_eq (p : Nat) : (relocate o cls old new text.toList p : ℤ) =
    p + replacedBefore o cls old text.toList p * ((width new : ℤ) - width old) := by
  have hle : replacedBefore o cls old text.toList p * width old ≤
      p + replacedBefore o cls old text.toList p * width new := by
    rcases Nat.lt_or_ge p (width text.toList) with hp | hp
    · obtain ⟨v, hv, i, hi, rfl⟩ := exists_visit hp
      obtain ⟨v', -, hmatch⟩ := visit_matched o cls hold hnew text hv
      have hoff := hmatch.state.offset
      rw [Moved] at hoff
      rw [replacedBefore_within hold hv (Nat.le_of_lt hi)]
      split
      · rename_i hended
        rw [(replacedBy_block hold hended.1).1] at hended
        rw [Nat.add_mul, Nat.add_mul]
        omega
      · rw [Nat.add_zero]
        omega
    · have h : Moved o cls old new text p _ := moved_past o cls hold text hp
      rw [Moved] at h
      omega
  rw [relocate, Int.ofNat_sub hle, Int.mul_sub]
  simp only [Int.natCast_add, Int.natCast_mul]
  omega

end Passes

section Answers

variable {o : Options} {cls : WordClass} {old new : List Char} {text : String}

theorem relocate_moved {p p' : Nat} (h : Moved o cls old new text p p') :
    relocate o cls old new text.toList p = p' := by
  rw [Moved] at h
  rw [relocate]
  omega

variable {s t : State} (h : Tracked o cls old new text s t)
include h

theorem start_tracked :
    t.mode.start? = s.mode.start?.map (relocate o cls old new text.toList) := by
  have hopen := isSome_tracked h
  cases hs : s.mode with
  | code a =>
      rw [hs] at hopen
      exact Option.not_isSome_iff_eq_none.mp (by rw [← hopen]; simp [Mode.start?])
  | literal l =>
      rw [hs] at hopen
      obtain ⟨k, hk⟩ := Option.isSome_iff_exists.mp hopen.symm
      obtain ⟨l', hl, rfl⟩ := literal_of_start hk
      rw [hk, Mode.start?, Option.map_some, relocate_moved (h.opened l l' hs hl)]

theorem comment_tracked (m : Mark) : (t.place m).comment = (s.place m).comment := by
  rw [comment_place, comment_place, (Prod.mk.inj (outline_of_agree h.agree)).2]

theorem template_tracked (hletter : cls = .callable ∨ endsInLetter old = endsInLetter new)
    (m : Mark) : (t.place m).template = (s.place m).template ∧
      (t.place m).hole = (s.place m).hole := by
  have hbare : s.bare = t.bare := by
    rcases hletter with rfl | hletter
    · exact h.agree
    · exact h.bare hletter
  exact place_bare (Prod.mk.inj hbare).1.symm m

end Answers

/-- A pass leaves every byte in the literal and in the comment where it was, at the offset it has
moved to. It leaves it in its template and hole as well, except where a structural word makes way
for one that differs from it in making templates. -/
theorem index_relocated (o : Options) (cls : WordClass) {old new : String}
    (hold : isWord old.toList = true) (hnew : isWord new.toList = true) (source : String) :
    (∀ p, (relocate o cls old.toList new.toList source.toList p : ℤ) =
      p + replacedBefore o cls old.toList source.toList p *
        ((width new.toList : ℤ) - width old.toList)) ∧
    ∀ p, (∀ pos ∈ replacedOffsets o cls old.toList source.toList,
        ¬(pos < p ∧ p < pos + width old.toList)) →
      let p' := relocate o cls old.toList new.toList source.toList p
      let out := Index.ofText (replaceAs cls source old new o)
      out.stringStart? p' = ((Index.ofText source).stringStart? p).map
          (relocate o cls old.toList new.toList source.toList) ∧
        out.inComment p' = (Index.ofText source).inComment p ∧
        (cls = .callable ∨ endsInLetter old.toList = endsInLetter new.toList →
          out.inTemplate p' = (Index.ofText source).inTemplate p ∧
          out.inHole p' = (Index.ofText source).inHole p) := by
  refine ⟨relocate_eq o cls hold hnew source, fun p hfree => ?_⟩
  intro p' out
  have hout := toList_replaceAs cls source old new o
  simp only [Index.stringStart?, Index.inComment, Index.inTemplate, Index.inHole]
  rcases Nat.lt_or_ge p (width source.toList) with hp | hp
  · obtain ⟨v, hv, v', hv', hmatch, i, hi, j, hj, rfl, hmoved⟩ :=
      visit_relocated o cls hold hnew source hp hfree
    rw [← hout] at hv'
    have hmark : v'.mark = v.mark := by
      have hnil : rename o cls (swap old.toList new.toList) v = [] ↔ v.block = [] :=
        rename_eq_nil (swap_keepsWords hold hnew) o (visit_block hv)
      simp only [Visit.mark, hmatch.block, hmatch.after, hnil]
    have hplace : out.place p' = v'.state.place v.mark := by
      rw [← hmark, ← place_content hv' hj, ← relocate_moved hmoved]
    rw [hplace, place_content hv hi]
    refine ⟨?_, comment_tracked hmatch.state v.mark, fun hletter => ?_⟩
    · rw [start_place, start_place, start_tracked hmatch.state]
    · exact template_tracked hmatch.state hletter v.mark
  · have hp' : width (replaceAs cls source old new o).toList ≤ p' := by
      have hends : p' = _ := relocate_moved (moved_past o cls hold source hp)
      rw [hout]
      omega
    rw [place_past hp, place_past hp']
    exact ⟨rfl, rfl, fun _ => ⟨rfl, rfl⟩⟩

/-- Of the words in the literal one stands behind a backslash and one in a hole; the word in the
comment stays, and the quote of the other kind there is still in the comment. -/
theorem index_relocated_hole : isWord "e".toList = true ∧ isWord "and".toList = true ∧
    endsInLetter "e".toList = endsInLetter "and".toList ∧
    replacedOffsets { avoidStrings := false } .structural "e".toList
      "f\"\\e{e}\" e # e'".toList = [3, 5, 9] ∧
    relocate { avoidStrings := false } .structural "e".toList "and".toList
      "f\"\\e{e}\" e # e'".toList 5 = 7 ∧
    (Index.ofText (replaceAs .structural "f\"\\e{e}\" e # e'" "e" "and"
      { avoidStrings := false })).stringStart? 7 = some 1 ∧
    (Index.ofText (replaceAs .structural "f\"\\e{e}\" e # e'" "e" "and"
      { avoidStrings := false })).inHole 7 = true ∧
    (Index.ofText (replaceAs .structural "f\"\\e{e}\" e # e'" "e" "and"
      { avoidStrings := false })).inComment 20 = true := by
  have hold : isWord "e".toList = true := by decide
  have hnew : isWord "and".toList = true := by decide
  have hletter : endsInLetter "e".toList = endsInLetter "and".toList := by decide
  have hoffsets : replacedOffsets { avoidStrings := false } .structural "e".toList
      "f\"\\e{e}\" e # e'".toList = [3, 5, 9] := by
    rw [replacedOffsets_visits hold]
    decide
  have hgoes (p : Nat) : relocate { avoidStrings := false } .structural "e".toList "and".toList
      "f\"\\e{e}\" e # e'".toList p =
        p + [3, 5, 9].countP (· + 1 ≤ p) * 3 - [3, 5, 9].countP (· + 1 ≤ p) * 1 := by
    rw [relocate, replacedBefore, hoffsets]
    rfl
  obtain ⟨-, hplaces⟩ := index_relocated { avoidStrings := false } .structural hold hnew
    "f\"\\e{e}\" e # e'"
  obtain ⟨hstart, -, htemplate⟩ := hplaces 5 (by rw [hoffsets]; decide)
  obtain ⟨-, hcomment, -⟩ := hplaces 14 (by rw [hoffsets]; decide)
  have hquote : (Index.ofText "f\"\\e{e}\" e # e'").stringStart? 5 = some 1 := by decide
  rw [hgoes] at hstart htemplate hcomment
  rw [hquote, Option.map_some, hgoes] at hstart
  refine ⟨hold, hnew, hletter, hoffsets, hgoes 5, hstart, ?_, ?_⟩
  · exact (htemplate (.inr hletter)).2.trans (by decide)
  · exact hcomment.trans (by decide)

end Calque
