import Calque.Proofs.Commuting
import Calque.Proofs.Openings
import Calque.Proofs.Skeleton

namespace Calque

open Lexical

namespace Lexical

def Mode.marked : Mode → Bool
  | .code afterLetter => afterLetter
  | .literal l => l.template

/-- The scan `s` finds the literals that the scan `t` finds, and among its templates are those of
`t` with their holes. -/
structure Follows (t s : State) : Prop where
  outline : t.outline = s.outline
  bare : t.mode.marked = true → t.mode.bare = s.mode.bare

theorem follows_refl (s : State) : Follows s s := ⟨rfl, fun _ => rfl⟩

theorem unmarked_literal {l : Literal} (h : l.template = false) (m : Mark) :
    (l.step m).marked = false := by
  cases hs : l.step m with
  | literal l' => rw [Mode.marked, (kept_step hs).2, h]
  | code a =>
      obtain ⟨l', -, -, hr | hr⟩ := step_literal l m
      · exact letter_read l' m (hr.symm.trans hs)
      · cases hr.symm.trans hs

theorem code_outline {mode : Mode} (h : mode.outline = none) : ∃ a, mode = .code a := by
  cases mode with
  | code a => exact ⟨a, rfl⟩
  | literal l => cases h

section Modes

variable {mode mode' : Mode} (ho : mode.outline = mode'.outline)
  (hb : mode.marked = true → mode.bare = mode'.bare)
include ho hb

theorem marked_step (i j : Nat) {m : Mark} (hm : (mode.step i m).marked = true) :
    (mode.step i m).bare = (mode'.step j m).bare := by
  by_cases hmarked : mode.marked = true
  · exact bare_modeStep (hb hmarked) i j m
  · rw [Bool.not_eq_true] at hmarked
    cases mode with
    | literal l =>
        have hunmarked := unmarked_literal hmarked m
        rw [← Mode.step, hm] at hunmarked
        cases hunmarked
    | code a =>
        cases hmarked
        obtain ⟨b, rfl⟩ := code_outline ho.symm
        -- Only the letter marks code that was not marked before.
        cases m <;> first | rfl | cases hm

theorem marked_afterWord {a b : Bool} (hab : a = true → b = true)
    (hm : (mode.afterWord a).marked = true) :
    (mode.afterWord a).bare = (mode'.afterWord b).bare := by
  cases mode with
  | literal l =>
      rw [bare_afterWord, bare_afterWord, ← hb hm]
      rfl
  | code letter =>
      obtain ⟨letter', rfl⟩ := code_outline ho.symm
      have ha : a = true := hm
      rw [Mode.afterWord, Mode.afterWord, ha, hab ha]

end Modes

theorem follows_step {t s : State} (h : Follows t s) (m : Mark) :
    Follows (t.step m) (s.step m) :=
  ⟨outline_step h.outline m, marked_step (Prod.mk.inj h.outline).1 h.bare _ _⟩

theorem follows_run {t s : State} (h : Follows t s) (ms : List Mark) :
    Follows (t.run ms) (s.run ms) := by
  induction ms generalizing t s with
  | nil => exact h
  | cons m ms ih => exact ih (follows_step h m)

theorem follows_words {w v : List Char} (hw : ∀ d ∈ w, isWordChar d = true)
    (hv : ∀ d ∈ v, isWordChar d = true) (hwn : w ≠ []) (hvn : v ≠ [])
    (hletter : endsInLetter w = true → endsInLetter v = true) {t s : State} (h : Follows t s) :
    Follows (t.run (marks w)) (s.run (marks v)) := by
  refine ⟨outline_words hw hv hwn hvn h.outline, ?_⟩
  rw [run_word hw hwn, run_word hv hvn]
  exact marked_afterWord (Prod.mk.inj h.outline).1 h.bare hletter

theorem place_bare {t s : State} (h : t.mode.bare = s.mode.bare) (m : Mark) :
    (t.place m).template = (s.place m).template ∧ (t.place m).hole = (s.place m).hole := by
  rcases t with ⟨a, mode, line⟩
  rcases s with ⟨b, mode', line'⟩
  cases mode <;> cases mode' <;> simp_all [Mode.bare, State.place]

end Lexical

/-- The options `o'` protect all that the options `o` protect. -/
structure Options.Stricter (o' o : Options) : Prop where
  strings : o.avoidStrings = true → o'.avoidStrings = true
  comments : o.avoidComments = true → o'.avoidComments = true
  holes : o.templateScope = .holesOnly → o'.templateScope = .holesOnly

section Exposed

variable {o' o : Options} (ho : o'.Stricter o) {t s : State} (h : Follows t s)
include ho h

theorem live_stricter (hlive : o'.templateScope.live (t.place .plain) = true) :
    o.templateScope.live (s.place .plain) = true := by
  have htemplate : (t.place .plain).template = true := by
    cases hscope : o'.templateScope <;> simp_all [TemplateScope.live]
  have hmarked : t.mode.marked = true := by
    cases hmode : t.mode <;> simp_all [State.place, Mode.marked]
  obtain ⟨hsame, hhole⟩ := place_bare (h.bare hmarked) .plain
  cases hscope : o.templateScope with
  | wholeLiteral => rw [TemplateScope.live, ← hsame, htemplate]
  | holesOnly =>
      rw [ho.holes hscope] at hlive
      rw [TemplateScope.live, ← hsame, ← hhole]
      exact hlive

theorem exposed_stricter {cls : WordClass} {w w' : List Char} {after : Option Char}
    (he : (⟨t, w', after⟩ : Visit).exposed o' cls = true) :
    (⟨s, w, after⟩ : Visit).exposed o cls = true := by
  obtain ⟨hmode, hline⟩ := Prod.mk.inj h.outline
  have hstring : (t.place .plain).inString = (s.place .plain).inString := by
    rw [inString_place, inString_place, hmode]
  have hcomment : (t.place .plain).comment = (s.place .plain).comment := by
    rw [comment_place, comment_place, hline]
  rw [Visit.exposed, Bool.and_eq_true] at he ⊢
  refine ⟨he.1, ?_⟩
  have he := he.2
  have spared {avoid avoid' inside : Bool} (himp : avoid = true → avoid' = true)
      (hspared : (avoid' && inside) = false) : (avoid && inside) = false := by
    cases avoid with
    | false => rfl
    | true => rwa [himp rfl] at hspared
  cases cls with
  | structural =>
      rw [protects_structural, hstring, hcomment, Bool.not_eq_true', Bool.or_eq_false_iff] at he
      rw [protects_structural, Bool.not_eq_true', Bool.or_eq_false_iff]
      exact ⟨spared ho.strings he.1, spared ho.comments he.2⟩
  | callable =>
      rw [protects_callable, hstring, hcomment, Bool.not_eq_true', Bool.or_eq_false_iff] at he
      rw [protects_callable, Bool.not_eq_true', Bool.or_eq_false_iff]
      refine ⟨spared ho.comments he.1, ?_⟩
      cases hs : o.templateScope.live (s.place .plain) with
      | true => simp
      | false =>
          have ht : o'.templateScope.live (t.place .plain) = false := by
            by_contra hlive
            rw [Bool.not_eq_false] at hlive
            rw [live_stricter ho h hlive] at hs
            cases hs
          have he := he.2
          rw [ht, Bool.not_false, Bool.and_true] at he
          rw [Bool.not_false, Bool.and_true]
          exact spared ho.strings he

end Exposed

structure Separate (r r' : List Char → List Char) : Prop where
  read : ∀ w, r w ≠ w → r' w = w
  made : ∀ w, r w ≠ w → r' (r w) = r w

def Runs.translate (o : Options) (r r' : List Char → List Char) (s t : State) (rs : Runs) : Runs :=
  (rs.replace (rename o .structural r) s).replace (rename o .callable r') t

section Phases

variable {o' o : Options} (ho : o'.Stricter o) {r r' : List Char → List Char}

include ho in
theorem rename_stricter (v : Visit) : rename o' .structural r v = v.block ∨
    rename o' .structural r v = r v.block ∧ rename o .structural r v = r v.block := by
  cases he : v.exposed o' .structural with
  | false => exact .inl (by rw [rename, he]; rfl)
  | true =>
      have he' : v.exposed o .structural = true := exposed_stricter ho (follows_refl v.state) he
      exact .inr ⟨by rw [rename, he, if_pos rfl], by rw [rename, he', if_pos rfl]⟩

variable (hr : KeepsWords r) (hletter : ∀ w, r w ≠ w → endsInLetter w = false)

include ho hr hletter in
theorem follows_rename {v : Visit} (hw : ∀ d ∈ v.block, isWordChar d = true) {t s : State}
    (h : Follows t s) (c : Char) : Follows (t.run (marks (rename o' .structural r v ++ [c])))
      (s.run (marks (rename o .structural r v ++ [c]))) := by
  rw [marks_append, marks_append, State.run_append, State.run_append]
  apply follows_run
  have hnil (o : Options) : rename o .structural r v = [] ↔ v.block = [] := rename_eq_nil hr o hw
  by_cases hne : v.block = []
  · rw [(hnil o').mpr hne, (hnil o).mpr hne]
    exact h
  · have hkeeps (o : Options) : ∀ d ∈ rename o .structural r v, isWordChar d = true :=
      rename_block hr o hw
    refine follows_words (hkeeps o') (hkeeps o) (mt (hnil o').mp hne) (mt (hnil o).mp hne) ?_ h
    rcases rename_stricter ho v with hstay | ⟨hmoved', hmoved⟩
    · -- A word that the weaker options alone replace does not end in the letter.
      rw [hstay]
      intro hl
      have hfixed : r v.block = v.block := by
        by_contra hmoves
        rw [hletter _ hmoves] at hl
        cases hl
      rwa [rename_eq_block_iff.mpr fun _ => hfixed]
    · rw [hmoved', hmoved]
      exact id

include ho in
/-- A block that the stricter run changes becomes the same in the other one. -/
theorem block_stricter (hsep : Separate r r') (v : Visit) {t s : State} (h : Follows t s)
    (hdiff : rename o' .callable r' ⟨t, rename o' .structural r v, v.after⟩ ≠ v.block) :
    rename o .callable r' ⟨s, rename o .structural r v, v.after⟩ =
      rename o' .callable r' ⟨t, rename o' .structural r v, v.after⟩ := by
  by_cases hfixed : r v.block = v.block
  · have hstay (o : Options) : rename o .structural r v = v.block :=
      rename_eq_block_iff.mpr fun _ => hfixed
    rw [hstay] at hdiff
    have he : (⟨t, v.block, v.after⟩ : Visit).exposed o' .callable = true := by
      by_contra he
      exact hdiff (if_neg he)
    have he' : (⟨s, v.block, v.after⟩ : Visit).exposed o .callable = true :=
      exposed_stricter ho h he
    rw [hstay, hstay, rename, rename, he, he', if_pos rfl]
  · have hkeep (o : Options) (s : State) {w : List Char} (hw : r' w = w) :
        rename o .callable r' ⟨s, w, v.after⟩ = w :=
      rename_eq_block_iff.mpr fun _ => hw
    rcases rename_stricter ho v with hstay | ⟨hmoved', hmoved⟩
    · rw [hstay, hkeep o' t (hsep.read _ hfixed)] at hdiff
      exact absurd rfl hdiff
    · rw [hmoved', hmoved, hkeep o s (hsep.made _ hfixed), hkeep o' t (hsep.made _ hfixed)]

include ho hr hletter in
theorem blocks_stricter (hsep : Separate r r') {rs : Runs} (h : rs.Proper) (u : State)
    {t s : State} (hts : Follows t s) (j : Nat)
    (hdiff : (rs.translate o' r r' u t).blocks[j]? ≠ rs.blocks[j]?) :
    (rs.translate o r r' u s).blocks[j]? = (rs.translate o' r r' u t).blocks[j]? := by
  induction rs generalizing u t s j with
  | last w =>
      cases j with
      | zero =>
          refine congrArg some (block_stricter ho hsep ⟨u, w, none⟩ hts fun he => hdiff ?_)
          exact congrArg some he
      | succ j => rfl
  | next w c rest ih =>
      cases j with
      | zero =>
          refine congrArg some (block_stricter ho hsep ⟨u, w, some c⟩ hts fun he => hdiff ?_)
          exact congrArg some he
      | succ j => exact ih h.2.2 _ (follows_rename ho hr hletter h.1 hts c) j hdiff

end Phases

theorem chain_moved {ps : List WordPair} {w : List Char} (h : chain ps w ≠ w) :
    ∃ p ∈ ps, p.dialect.toList = w := by
  by_contra hw
  exact h (chain_absent fun p hp he => hw ⟨p, hp, he⟩)

namespace Dictionary

variable {d : Dictionary}

theorem translate_toHost (d : Dictionary) (o : Options) (source : String) :
    Runs.ofText (d.toHost o source).toList = (Runs.ofText source.toList).translate o
      (chain d.structural) (chain d.callable) .start .start := by
  rw [toHost_phases, ofText_phase (chain_keepsWords d.callable_words),
    ofText_phase (chain_keepsWords d.structural_words)]
  rfl

theorem Separated.separate (h : d.Separated) :
    Separate (chain d.structural) (chain d.callable) := by
  have hunread {w : List Char} (hmoved : chain d.structural w ≠ w) :
      ∀ q ∈ d.callable, q.dialect.toList ≠ w := by
    obtain ⟨p, hp, rfl⟩ := chain_moved hmoved
    intro q hq he
    exact (h.apart.2 q hq p hp).1 (String.toList_inj.mp he)
  constructor
  · intro w hmoved
    exact chain_absent (hunread hmoved)
  · intro w hmoved
    exact chain_absent (chain_unread h.apart.2 (hunread hmoved))

/-- Options that protect more do not make more of a run: whatever happens to it under them happens
to it under the weaker ones, too. -/
theorem run_stricter (h : d.Separated)
    (hletter : ∀ p ∈ d.structural, endsInLetter p.dialect.toList = false) {o' o : Options}
    (ho : o'.Stricter o) (source : String) (k : Nat)
    (hdiff : (runsOf (d.toHost o' source))[k]? ≠ (runsOf source)[k]?) :
    (runsOf (d.toHost o source))[k]? = (runsOf (d.toHost o' source))[k]? := by
  have hmoved (w : List Char) (hw : chain d.structural w ≠ w) : endsInLetter w = false := by
    obtain ⟨p, hp, rfl⟩ := chain_moved hw
    exact hletter p hp
  obtain ⟨j, hsource, htarget⟩ := run_block_toHost d source k
  rw [htarget, hsource, translate_toHost] at hdiff
  rw [htarget, htarget, translate_toHost, translate_toHost]
  exact blocks_stricter ho (chain_keepsWords d.structural_words) hmoved h.separate
    (Runs.ofText_proper _) .start (follows_refl .start) j hdiff

/-- The comment keeps its word under the stricter options only, and under the weaker ones the
literal after it is a template. Both runs replace the word at the end. -/
theorem run_stricter_builtin : builtin.Separated ∧
    (∀ p ∈ builtin.structural, endsInLetter p.dialect.toList = false) ∧
    ({ } : Options).Stricter { avoidComments := false } ∧
    (runsOf (builtin.toHost { } "# se\"\nsoma(1)\" e"))[3]? = some "and".toList ∧
    (runsOf "# se\"\nsoma(1)\" e")[3]? = some "e".toList ∧
    (runsOf (builtin.toHost { avoidComments := false } "# se\"\nsoma(1)\" e"))[3]? =
      some "and".toList := by
  have hletter : ∀ p ∈ builtin.structural, endsInLetter p.dialect.toList = false := by decide
  have ho : ({ } : Options).Stricter { avoidComments := false } :=
    ⟨id, fun _ => rfl, fun h => by cases h⟩
  have hrun : (runsOf (builtin.toHost { } "# se\"\nsoma(1)\" e"))[3]? = some "and".toList := by
    rw [runsOf, toHost_phases]
    decide
  have hsource : (runsOf "# se\"\nsoma(1)\" e")[3]? = some "e".toList := by decide
  refine ⟨builtin_separated, hletter, ho, hrun, hsource, ?_⟩
  rw [run_stricter builtin_separated hletter ho _ 3, hrun]
  rw [hrun, hsource]
  decide

end Dictionary

end Calque
