import Calque.Proofs.Scan
import Calque.Proofs.Search
import Calque.Substitution.Chain

namespace Calque

open Lexical

/-- A block in its place: the state before it and the character after it. -/
structure Visit where
  state : State
  block : List Char
  after : Option Char

namespace Runs

def visits (s : State) : Runs → List Visit
  | .last w => [⟨s, w, none⟩]
  | .next w c rest => ⟨s, w, some c⟩ :: rest.visits (s.run (marks (w ++ [c])))

def replace (f : Visit → List Char) (s : State) : Runs → Runs
  | .last w => .last (f ⟨s, w, none⟩)
  | .next w c rest =>
    .next (f ⟨s, w, some c⟩) c (rest.replace f (s.run (marks (w ++ [c]))))

theorem map_block_visits (s : State) (rs : Runs) : (rs.visits s).map Visit.block = rs.blocks := by
  induction rs generalizing s with
  | last w => rfl
  | next w c rest ih => rw [visits, List.map_cons, ih, blocks]

theorem replace_congr {f g : Visit → List Char} {s : State} {rs : Runs}
    (h : ∀ v ∈ rs.visits s, f v = g v) : rs.replace f s = rs.replace g s := by
  induction rs generalizing s with
  | last w => simpa [replace, visits] using h
  | next w c rest ih =>
      rw [replace, replace, h _ (List.mem_cons_self ..),
        ih fun v hv => h v (List.mem_cons_of_mem _ hv)]

theorem mem_visits {s : State} {rs : Runs} (h : rs.Proper) {v : Visit} (hv : v ∈ rs.visits s) :
    (∀ d ∈ v.block, isWordChar d = true) ∧ isWordChar? v.after = false ∧
      ∃ pre post, rs.text = pre ++ (v.block ++ post) ∧
        v.state = s.run (marks pre) ∧ v.after = post.head? := by
  induction rs generalizing s with
  | last w =>
      rw [visits, List.mem_singleton] at hv
      subst hv
      exact ⟨h, rfl, [], [], by simp, rfl, rfl⟩
  | next w c rest ih =>
      rw [visits, List.mem_cons] at hv
      rcases hv with rfl | hv
      · exact ⟨h.1, h.2.1, [], c :: rest.text, rfl, rfl, rfl⟩
      · obtain ⟨hw, ha, pre, post, ht, hs, hp⟩ := ih h.2.2 hv
        refine ⟨hw, ha, w ++ c :: pre, post, by simp [ht], ?_, hp⟩
        rw [hs, ← State.run_append, ← marks_append]
        simp

theorem replace_eq_self_iff {f : Visit → List Char} {s : State} {rs : Runs} :
    rs.replace f s = rs ↔ ∀ v ∈ rs.visits s, f v = v.block := by
  induction rs generalizing s with
  | last w => simp [replace, visits]
  | next w c rest ih => simp [replace, visits, ih]

theorem replace_self (s : State) (rs : Runs) : rs.replace Visit.block s = rs :=
  replace_eq_self_iff.mpr fun _ _ => rfl

/-- A replacement in the text that another one leaves, put back to the places of the first text. It
may look at the scan as far as `I` tells, and `I` relates the scans of the two texts. -/
theorem replace_comp {I : State → State → Prop} {f g : Visit → List Char}
    (hg : ∀ {s t}, I s t → ∀ w after, g ⟨t, w, after⟩ = g ⟨s, w, after⟩) {rs : Runs} {s t : State}
    (hst : I s t)
    (hstep : ∀ v ∈ rs.visits s, ∀ c, v.after = some c → ∀ t, I v.state t →
      I (v.state.run (marks (v.block ++ [c]))) (t.run (marks (f v ++ [c])))) :
    (rs.replace f s).replace g t = rs.replace (fun v => g { v with block := f v }) s := by
  induction rs generalizing s t with
  | last w => rw [replace, replace, replace, hg hst]
  | next w c rest ih =>
      have hnext := hstep ⟨s, w, some c⟩ (List.mem_cons_self ..) c rfl t hst
      rw [replace, replace, replace, hg hst,
        ih hnext fun v hv => hstep v (List.mem_cons_of_mem _ hv)]

end Runs

structure KeepsWords (r : List Char → List Char) : Prop where
  nil : r [] = []
  word : ∀ w, isWord w = true → isWord (r w) = true

theorem KeepsWords.block {r : List Char → List Char} (h : KeepsWords r) {w : List Char}
    (hw : ∀ d ∈ w, isWordChar d = true) : ∀ d ∈ r w, isWordChar d = true := by
  cases w with
  | nil => simp [h.nil]
  | cons c w => exact (isWord_iff.mp (h.word _ (isWord_iff.mpr ⟨by simp, hw⟩))).2

theorem KeepsWords.ne_nil {r : List Char → List Char} (h : KeepsWords r) {w : List Char}
    (hw : ∀ d ∈ w, isWordChar d = true) (hne : w ≠ []) : r w ≠ [] :=
  (isWord_iff.mp (h.word w (isWord_iff.mpr ⟨hne, hw⟩))).1

theorem KeepsWords.comp {r r' : List Char → List Char} (h : KeepsWords r) (h' : KeepsWords r') :
    KeepsWords (r' ∘ r) :=
  ⟨by rw [Function.comp_apply, h.nil, h'.nil], fun w hw => h'.word _ (h.word w hw)⟩

theorem keepsWords_id : KeepsWords id := ⟨rfl, fun _ h => h⟩

def Visit.exposed (o : Options) (cls : WordClass) (v : Visit) : Bool :=
  cls.fits none v.after && (o.protects cls (v.state.place .plain)).isNone

def rename (o : Options) (cls : WordClass) (r : List Char → List Char) (v : Visit) : List Char :=
  if v.exposed o cls then r v.block else v.block

/-- Two states that expose the same blocks to a class, now and after the same bytes. -/
def Agree (cls : WordClass) (s t : State) : Prop :=
  match cls with
  | .structural => s.outline = t.outline
  | .callable => s.bare = t.bare

variable {o : Options} {cls : WordClass} {r : List Char → List Char}

theorem agree_refl (cls : WordClass) (s : State) : Agree cls s s := by
  cases cls <;> rfl

theorem agree_of_bare {s t : State} (h : s.bare = t.bare) (cls : WordClass) : Agree cls s t := by
  cases cls with
  | structural => exact outline_of_bare h
  | callable => exact h

theorem outline_of_agree {s t : State} (h : Agree cls s t) : s.outline = t.outline := by
  cases cls with
  | structural => exact h
  | callable => exact outline_of_bare h

theorem protects_congr {s t : State} (h : Agree cls s t) (o : Options) :
    o.protects cls (s.place .plain) = o.protects cls (t.place .plain) := by
  rcases s with ⟨a, mode, line⟩
  rcases t with ⟨b, mode', line'⟩
  cases cls with
  | structural =>
      obtain ⟨hm, rfl⟩ := Prod.mk.inj h
      cases mode <;> cases mode' <;>
        simp_all [Mode.outline, State.place, Options.protects, Place.inString]
  | callable =>
      obtain ⟨hm, rfl⟩ := Prod.mk.inj h
      cases mode <;> cases mode' <;>
        simp_all [Mode.bare, State.place, Options.protects, Place.inString, TemplateScope.live]

theorem protects_structural (o : Options) (p : Place) : (o.protects .structural p).isNone =
    !(o.avoidStrings && p.inString || o.avoidComments && p.comment) := by
  rw [Options.protects]
  cases o.avoidStrings && p.inString <;> cases o.avoidComments && p.comment <;> rfl

theorem protects_callable (o : Options) (p : Place) : (o.protects .callable p).isNone =
    !(o.avoidComments && p.comment || o.avoidStrings && p.inString && !o.templateScope.live p) := by
  rw [Options.protects]
  cases o.avoidComments && p.comment <;>
    cases o.avoidStrings && p.inString && !o.templateScope.live p <;> rfl

theorem exposed_congr {s t : State} (h : Agree cls s t) (o : Options) (w v : List Char)
    (after : Option Char) :
    (⟨s, w, after⟩ : Visit).exposed o cls = (⟨t, v, after⟩ : Visit).exposed o cls := by
  simp only [Visit.exposed, protects_congr h]

theorem agree_run {s t : State} (h : Agree cls s t) (ms : List Mark) :
    Agree cls (s.run ms) (t.run ms) := by
  cases cls with
  | structural => exact outline_run h ms
  | callable => exact bare_run h ms

theorem agree_words {s t : State} (h : Agree cls s t) {w v : List Char}
    (hw : ∀ d ∈ w, isWordChar d = true) (hv : ∀ d ∈ v, isWordChar d = true) (hne : w ≠ [])
    (hvn : v ≠ []) {c : Char} (hc : cls.fits none (some c) = true) :
    Agree cls (s.run (marks (w ++ [c]))) (t.run (marks (v ++ [c]))) := by
  cases cls with
  | structural =>
      rw [marks_append, marks_append, State.run_append, State.run_append]
      exact outline_run (outline_words hw hv hne hvn h) _
  | callable =>
      have hc : c = '(' := by simpa [WordClass.fits, isWordChar?_none] using hc
      subst hc
      exact bare_words hw hv h

theorem agree_rename (hr : KeepsWords r) (o : Options) {s t : State} (h : Agree cls s t)
    {w : List Char} (hw : ∀ d ∈ w, isWordChar d = true) (c : Char) :
    Agree cls (s.run (marks (w ++ [c])))
      (t.run (marks (rename o cls r ⟨s, w, some c⟩ ++ [c]))) := by
  unfold rename
  split
  · rename_i he
    by_cases hne : w = []
    · subst hne
      rw [hr.nil]
      exact agree_run h _
    · exact agree_words h hw (hr.block hw) hne (hr.ne_nil hw hne) (Bool.and_eq_true_iff.mp he).1
  · exact agree_run h _

theorem agree_visit (hr : KeepsWords r) (o : Options) {v : Visit}
    (hw : ∀ d ∈ v.block, isWordChar d = true) {c : Char} (hc : v.after = some c) {t : State}
    (h : Agree cls v.state t) : Agree cls (v.state.run (marks (v.block ++ [c])))
      (t.run (marks (rename o cls r v ++ [c]))) := by
  rcases v with ⟨s, w, after⟩
  subst hc
  exact agree_rename hr o h hw c

theorem agree_text (hr : KeepsWords r) (o : Options) {rs : Runs} (h : rs.Proper) {s t : State}
    (hst : Agree cls s t) : Agree cls (s.run (marks rs.text))
      (t.run (marks (rs.replace (rename o cls r) s).text)) := by
  induction rs generalizing s t with
  | last w =>
      simp only [Runs.replace, Runs.text_last, rename]
      split
      · rename_i he
        by_cases hne : w = []
        · subst hne
          rw [hr.nil]
          exact hst
        · cases cls with
          | structural => exact outline_words h (hr.block h) hne (hr.ne_nil h hne) hst
          | callable => cases (Bool.and_eq_true_iff.mp he).1
      · exact agree_run hst _
  | next w c rest ih =>
      have hrest := ih h.2.2 (agree_rename hr o hst h.1 c)
      rw [← State.run_append, ← State.run_append, ← marks_append, ← marks_append] at hrest
      simpa [Runs.replace] using hrest

theorem rename_block (hr : KeepsWords r) (o : Options) {v : Visit}
    (hw : ∀ d ∈ v.block, isWordChar d = true) : ∀ d ∈ rename o cls r v, isWordChar d = true := by
  unfold rename
  split
  · exact hr.block hw
  · exact hw

theorem rename_eq_nil (hr : KeepsWords r) (o : Options) {v : Visit}
    (hw : ∀ d ∈ v.block, isWordChar d = true) : rename o cls r v = [] ↔ v.block = [] := by
  unfold rename
  split
  · refine ⟨fun h => ?_, fun h => by rw [h, hr.nil]⟩
    by_cases hne : v.block = []
    · exact hne
    · exact absurd h (hr.ne_nil hw hne)
  · rfl

theorem replace_proper (hr : KeepsWords r) (o : Options) {rs : Runs} (h : rs.Proper) (s : State) :
    (rs.replace (rename o cls r) s).Proper := by
  induction rs generalizing s with
  | last w => exact rename_block hr o h
  | next w c rest ih => exact ⟨rename_block hr o h.1, h.2.1, ih h.2.2 _⟩

theorem rename_congr {s t : State} (h : Agree cls s t) (o : Options) (w : List Char)
    (after : Option Char) : rename o cls r ⟨t, w, after⟩ = rename o cls r ⟨s, w, after⟩ := by
  simp only [rename, exposed_congr h o w w]

theorem rename_rename (r' : List Char → List Char) (v : Visit) :
    rename o cls r' { v with block := rename o cls r v } = rename o cls (r' ∘ r) v := by
  have he : ({ v with block := rename o cls r v } : Visit).exposed o cls = v.exposed o cls := rfl
  rw [rename, he]
  cases hv : v.exposed o cls <;> simp [rename, hv]

/-- A second phase finds exposed what the first one did, whatever was replaced there. -/
theorem replace_replace (hr : KeepsWords r) (r' : List Char → List Char) {rs : Runs}
    (h : rs.Proper) (s : State) :
    (rs.replace (rename o cls r) s).replace (rename o cls r') s =
      rs.replace (rename o cls (r' ∘ r)) s := by
  rw [Runs.replace_comp (fun h => rename_congr h o) (agree_refl cls s)]
  · exact Runs.replace_congr fun v _ => rename_rename r' v
  · intro v hv c hc t hst
    exact agree_visit hr o (Runs.mem_visits h hv).1 hc hst

/-- All exposed blocks of a text renamed at once, when the scan of the text begins in `s`. -/
def phase (o : Options) (cls : WordClass) (r : List Char → List Char) (s : State)
    (text : List Char) : List Char :=
  ((Runs.ofText text).replace (rename o cls r) s).text

theorem ofText_phase (hr : KeepsWords r) (s : State) (text : List Char) :
    Runs.ofText (phase o cls r s text) = (Runs.ofText text).replace (rename o cls r) s :=
  Runs.ofText_text (replace_proper hr o (Runs.ofText_proper text) s)

theorem phase_phase (hr : KeepsWords r) (r' : List Char → List Char) (s : State)
    (text : List Char) :
    phase o cls r' s (phase o cls r s text) = phase o cls (r' ∘ r) s text := by
  rw [phase, ofText_phase hr, replace_replace hr r' (Runs.ofText_proper text), ← phase]

theorem phase_congr {s t : State} (h : Agree cls s t) (text : List Char) :
    phase o cls r s text = phase o cls r t text := by
  have hreplace (rs : Runs) :
      rs.replace (rename o cls r) s = rs.replace (rename o cls r) t := by
    induction rs generalizing s t with
    | last w => rw [Runs.replace, Runs.replace, rename_congr h]
    | next w c rest ih => rw [Runs.replace, Runs.replace, rename_congr h, ih (agree_run h _)]
  rw [phase, phase, hreplace]

theorem agree_scans (hr : KeepsWords r) (o : Options) {s t : State} (hst : Agree cls s t)
    (text : List Char) :
    Agree cls (s.run (marks text)) (t.run (marks (phase o cls r s text))) := by
  have h := agree_text hr o (Runs.ofText_proper text) hst
  rwa [Runs.text_ofText] at h

theorem agree_phase (hr : KeepsWords r) (o : Options) (s : State) (text : List Char) :
    Agree cls (s.run (marks text)) (s.run (marks (phase o cls r s text))) :=
  agree_scans hr o (agree_refl cls s) text

theorem rename_eq_block_iff {v : Visit} :
    rename o cls r v = v.block ↔ (v.exposed o cls = true → r v.block = v.block) := by
  cases hv : v.exposed o cls <;> simp [rename, hv]

theorem phase_eq_self {s : State} {text : List Char}
    (h : ∀ v ∈ (Runs.ofText text).visits s, v.exposed o cls = true → r v.block = v.block) :
    phase o cls r s text = text := by
  rw [phase, Runs.replace_eq_self_iff.mpr fun v hv => rename_eq_block_iff.mpr (h v hv),
    Runs.text_ofText]

theorem rename_of_phase (hr : KeepsWords r) {s : State} {text : List Char}
    (h : phase o cls r s text = text) :
    ∀ v ∈ (Runs.ofText text).visits s, rename o cls r v = v.block := by
  apply Runs.replace_eq_self_iff.mp
  rw [← ofText_phase hr, h]

/-- A phase works on both sides of a character that is neither part of a word nor makes a call. -/
theorem phase_append (s : State) (text : List Char) {c : Char} (hc : isWordChar c = false)
    (hp : c ≠ '(') (rest : List Char) :
    phase o cls r s (text ++ c :: rest) =
      phase o cls r s text ++ c :: phase o cls r (s.run (marks (text ++ [c]))) rest := by
  have hend (s : State) (w : List Char) :
      rename o cls r ⟨s, w, some c⟩ = rename o cls r ⟨s, w, none⟩ := by
    have hfits : cls.fits none (some c) = cls.fits none none := by
      cases cls <;> simp [WordClass.fits, isWordChar?_none, isWordChar?_some, hc, hp]
    have he : (⟨s, w, some c⟩ : Visit).exposed o cls = (⟨s, w, none⟩ : Visit).exposed o cls := by
      rw [Visit.exposed, Visit.exposed, hfits]
    rw [rename, rename, he]
  have hjoin (rs after : Runs) : (rs.join c after).replace (rename o cls r) s =
      (rs.replace (rename o cls r) s).join c
        (after.replace (rename o cls r) (s.run (marks (rs.text ++ [c])))) := by
    induction rs generalizing s with
    | last w => rw [Runs.join, Runs.replace, Runs.replace, Runs.join, hend, Runs.text_last]
    | next w d rest ih =>
        rw [Runs.join, Runs.replace, Runs.replace, Runs.join, ih, ← State.run_append,
          ← marks_append]
        simp
  rw [phase, Runs.ofText_append text hc, hjoin, Runs.text_join, Runs.text_ofText, ← phase, ← phase]

theorem phase_word (s : State) {w : List Char} (hw : ∀ d ∈ w, isWordChar d = true) :
    phase o cls r s w = rename o cls r ⟨s, w, none⟩ := by
  rw [phase, Runs.ofText_last hw]
  rfl

theorem phase_call (hr : r [] = []) (s : State) {w : List Char}
    (hw : ∀ d ∈ w, isWordChar d = true) :
    phase o cls r s (w ++ ['(']) = rename o cls r ⟨s, w, some '('⟩ ++ ['('] := by
  rw [phase, Runs.ofText_next hw paren_not_word, Runs.replace, Runs.text_next]
  simp [Runs.ofText, Runs.replace, rename, hr]

theorem phase_id (s : State) (text : List Char) : phase o cls id s text = text := by
  have h : rename o cls id = Visit.block := by
    funext v
    simp [rename]
  rw [phase, h, Runs.replace_self, Runs.text_ofText]

end Calque
