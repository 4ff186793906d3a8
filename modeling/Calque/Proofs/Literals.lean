import Calque.Proofs.Passes
import Calque.Proofs.Queries
import Calque.Proofs.Spans

namespace Calque

open Lexical

theorem exposed_literal {v : Visit} {l : Literal} (h : v.state.mode = .literal l) :
    v.exposed { } .structural = false := by
  simp [Visit.exposed, protects_structural, State.place, h, Place.inString]

theorem exposed_word {v : Visit} (h : v.start? = none) (ha : isWordChar? v.after = false) :
    v.exposed { } .structural = !(v.state.place .plain).comment := by
  cases hm : v.state.mode with
  | code a =>
      simp [Visit.exposed, protects_structural, WordClass.fits, isWordChar?_none, ha, State.place,
        hm, Place.inString]
  | literal l =>
      rw [Visit.start?, hm] at h
      cases h

theorem exposed_call {v : Visit} {l : Literal} (h : v.state.mode = .literal l) :
    v.exposed { } .callable = true ↔
      v.after = some '(' ∧ (v.state.place .plain).comment = false ∧ l.template = true := by
  simp [Visit.exposed, protects_callable, WordClass.fits, isWordChar?_none, State.place, h,
    Place.inString, TemplateScope.live]

/-- Two scans side by side, before and after a replacement by `f`: the literals open in them were
opened behind one visit, whose block may have been replaced. -/
structure Alongside (vs : List Visit) (f : Visit → List Char) (s t : State) : Prop where
  agree : Agree .structural s t
  source : s.mode ≠ .code true
  target : t.mode ≠ .code true
  opened : ∀ l l', s.mode = .literal l → t.mode = .literal l' → ∃ u ∈ vs,
    u.start? = none ∧ u.state.offset + width u.block = l.start ∧
      l.template = endsInLetter u.block ∧ l'.template = endsInLetter (f u)

theorem alongside_step {vs : List Visit} {f : Visit → List Char} {v : Visit} {t : State} {c : Char}
    (hv : v ∈ vs) (hw : ∀ d ∈ v.block, isWordChar d = true) (hf : ∀ d ∈ f v, isWordChar d = true)
    (hc : isWordChar c = false) (h : Alongside vs f v.state t)
    (hagree : Agree .structural (v.state.run (marks (v.block ++ [c])))
      (t.run (marks (f v ++ [c])))) :
    Alongside vs f (v.state.run (marks (v.block ++ [c]))) (t.run (marks (f v ++ [c]))) := by
  refine ⟨hagree, letter_gap hc, letter_gap hc, fun l l' hl hl' => ?_⟩
  have hopen : v.state.mode.start?.isSome = t.mode.start?.isSome := by
    rw [start_outline, start_outline, (Prod.mk.inj h.agree).1]
  rcases opened_block hw hc h.source hl with
      ⟨l₀, hl₀, hstart, htemplate⟩ | ⟨hnone, hstart, htemplate⟩ <;>
    rcases opened_block hf hc h.target hl' with ⟨l₁, hl₁, -, htemplate'⟩ | ⟨hnone', -, htemplate'⟩
  · rw [hstart, htemplate, htemplate']
    exact h.opened l₀ l₁ hl₀ hl₁
  · rw [hl₀, hnone'] at hopen
    cases hopen
  · rw [hnone, hl₁] at hopen
    cases hopen
  · exact ⟨v, hv, hnone, hstart.symm, htemplate, htemplate'⟩

section Phases

variable {r : List Char → List Char} (hr : KeepsWords r) (text : List Char)
include hr

theorem visits_structural :
    List.Forall₂ (Visit.Matches
        (Alongside ((Runs.ofText text).visits .start) (rename { } .structural r))
        (rename { } .structural r))
      ((Runs.ofText text).visits .start)
      ((Runs.ofText (phase { } .structural r .start text)).visits .start) := by
  rw [ofText_phase hr]
  refine visits_replace ⟨rfl, by simp [State.start], by simp [State.start], ?_⟩ ?_
  · intro l l' hl
    cases hl
  · intro v hv c ha t h
    obtain ⟨hw, hc, -⟩ := Runs.mem_visits (Runs.ofText_proper text) hv
    rw [ha] at hc
    exact alongside_step hv hw (rename_block hr { } hw) hc h (agree_visit hr { } hw ha h.agree)

theorem visits_callable :
    List.Forall₂ (Visit.Matches (Agree .callable) (rename { } .callable r))
      ((Runs.ofText text).visits .start)
      ((Runs.ofText (phase { } .callable r .start text)).visits .start) := by
  rw [ofText_phase hr]
  refine visits_replace (agree_refl .callable _) fun v hv c ha t hagree => ?_
  have hw := (Runs.mem_visits (Runs.ofText_proper text) hv).1
  exact agree_visit hr { } hw ha hagree

end Phases

theorem bytes_inj {a b : List Char} : bytes a = bytes b ↔ a = b := by
  refine ⟨fun h => ?_, fun h => by rw [h]⟩
  have hencode : a.utf8Encode = b.utf8Encode := congrArg List.toByteArray h
  rw [← String.toByteArray_ofList, ← String.toByteArray_ofList, String.toByteArray_inj] at hencode
  simpa using congrArg String.toList hencode

theorem forall₂_comp {α β γ : Type} {R : α → β → Prop} {S : β → γ → Prop} {as : List α}
    {bs : List β} {cs : List γ} (h : List.Forall₂ R as bs) (h' : List.Forall₂ S bs cs) :
    List.Forall₂ (fun a c => ∃ b, R a b ∧ S b c) as cs := by
  induction h generalizing cs with
  | nil =>
      cases h'
      exact .nil
  | cons hab h ih =>
      cases h' with
      | cons hbc h' => exact .cons ⟨_, hab, hbc⟩ (ih h')

theorem text_iff {M : Prop} {C : Visit → Prop} {vs vs' : List Visit}
    (h : List.Forall₂ (fun v v' => (∀ d ∈ v.block, isWordChar d = true) ∧
      (∀ d ∈ v'.block, isWordChar d = true) ∧ isWordChar? v.after = false ∧ v'.after = v.after ∧
        (C v → v.after ≠ none) ∧ (v'.block = v.block ↔ ¬(M ∧ C v))) vs vs') :
    vs'.flatMap Visit.text = vs.flatMap Visit.text ↔ ¬(M ∧ ∃ v ∈ vs, C v) := by
  induction h with
  | nil => simp
  | cons hv h ih =>
      rename_i v v' vs vs'
      obtain ⟨hw, hw', hgap, hafter, hcall, hblock⟩ := hv
      have hcons : v'.text ++ vs'.flatMap Visit.text = v.text ++ vs.flatMap Visit.text ↔
          v'.block = v.block ∧ vs'.flatMap Visit.text = vs.flatMap Visit.text := by
        rw [Visit.text, Visit.text, hafter]
        cases ha : v.after with
        | none =>
            have hsame : v'.block = v.block := hblock.mpr fun hc => hcall hc.2 ha
            simp [hsame]
        | some c =>
            rw [ha] at hgap
            simpa using Runs.block_inj hw' hw hgap
      rw [List.flatMap_cons, List.flatMap_cons, hcons, ih, hblock]
      simp only [List.mem_cons, exists_eq_or_imp]
      rw [← not_or, ← and_or_left]

namespace Dictionary

variable {d : Dictionary}

/-- A structural word stands right before the offset, and its host word makes a template of a
literal there. -/
def MakesTemplate (d : Dictionary) (source : String) (q : Nat) : Prop :=
  ∃ p ∈ d.structural, endsInLetter p.host.toList = true ∧
    ∃ pos ∈ candidates .structural p.dialect.toList source.toList,
      pos + width p.dialect.toList = q ∧ insideComment source pos = false

def CallsIn (d : Dictionary) (source : String) (s : Span (UInt8 × Nat)) : Prop :=
  ∃ p ∈ d.callable, ∃ pos ∈ candidates .callable p.dialect.toList source.toList,
    pos ∈ s.offsets ∧ insideComment source pos = false

def CallsAt (d : Dictionary) (v : Visit) : Prop :=
  v.after = some '(' ∧ (v.state.place .plain).comment = false ∧
    ∃ p ∈ d.callable, p.dialect.toList = v.block

theorem host_ne (h : d.Separated) {p : WordPair} (hp : p ∈ d.callable) :
    p.host.toList ≠ p.dialect.toList :=
  fun he => h.unread.2 p hp p hp (String.toList_inj.mp he)

theorem chain_callable_iff (h : d.Separated) {w : List Char} :
    chain d.callable w ≠ w ↔ ∃ p ∈ d.callable, p.dialect.toList = w := by
  constructor
  · intro hw
    by_contra hno
    exact hw (chain_absent fun p hp he => hno ⟨p, hp, he⟩)
  · rintro ⟨p, hp, rfl⟩
    rw [chain_dialect h.unchained.2 d.dialects_nodup.2 hp]
    exact host_ne h hp

section Visits

variable {source : String} {u : Visit} (hu : u ∈ (Runs.ofText source.toList).visits .start)

include hu in
theorem makesTemplate_iff (h : d.Separated) (hnone : u.start? = none)
    (hplain : endsInLetter u.block = false) :
    endsInLetter (rename { } .structural (chain d.structural) u) = true ↔
      d.MakesTemplate source (u.state.offset + width u.block) := by
  have hexposed := exposed_word hnone (visit_after hu)
  constructor
  · intro hletter
    have he : u.exposed { } .structural = true := by
      by_contra he
      rw [rename, if_neg he, hplain] at hletter
      cases hletter
    rw [rename, if_pos he] at hletter
    obtain ⟨p, hp, hblock⟩ : ∃ p ∈ d.structural, p.dialect.toList = u.block := by
      by_contra hno
      rw [chain_absent fun p hp he => hno ⟨p, hp, he⟩, hplain] at hletter
      cases hletter
    rw [← hblock, chain_dialect h.unchained.1 d.dialects_nodup.1 hp] at hletter
    have hword := (d.structural_words p hp).1
    have hne : u.block ≠ [] := hblock ▸ (isWord_iff.mp hword).1
    refine ⟨p, hp, hletter, u.state.offset, (mem_candidates _ hword).mpr ?_, by rw [hblock], ?_⟩
    · exact ⟨u, hu, hblock.symm, (Bool.and_eq_true_iff.mp he).1, rfl⟩
    · rw [insideComment_visit hu hne]
      simpa [hexposed] using he
  · rintro ⟨p, hp, hletter, pos, hpos, hend, hcomment⟩
    have hword := (d.structural_words p hp).1
    obtain ⟨v, hv, hblock, -, rfl⟩ := (mem_candidates _ hword).mp hpos
    have hsame : u = v := visits_end hu hv (by rw [hblock, hend])
    subst hsame
    have hne : u.block ≠ [] := hblock ▸ (isWord_iff.mp hword).1
    have he : u.exposed { } .structural = true := by
      rw [hexposed, ← insideComment_visit hu hne, hcomment]
      rfl
    rw [rename, if_pos he, hblock, chain_dialect h.unchained.1 d.dialects_nodup.1 hp, hletter]

include hu in
theorem templateQuote_visit {l : Literal} (hl : u.state.mode = .literal l) :
    templateQuote source l.start = l.template := by
  obtain ⟨pre, post, ht, -, hs, -⟩ := visit_offset hu
  have hpre : (marks source.toList).take (marks pre).length = marks pre := by
    rw [ht, marks_append, List.take_left]
  rw [hs, ← hpre] at hl
  exact templateQuote_opened hl

/-- In a literal that was no template a block stays as it is, unless a structural word made a
template of it and the block is called. -/
theorem block_iff (h : d.Separated) {v v₁ v₂ : Visit} {l : Literal}
    (hl : v.state.mode = .literal l) (hplain : l.template = false)
    (h₁ : v.Matches (Alongside ((Runs.ofText source.toList).visits .start)
      (rename { } .structural (chain d.structural)))
      (rename { } .structural (chain d.structural)) v₁)
    (h₂ : v₁.Matches (Agree .callable) (rename { } .callable (chain d.callable)) v₂) :
    v₂.block = v.block ↔ ¬(d.MakesTemplate source l.start ∧ d.CallsAt v) := by
  obtain ⟨hscan, hblock₁, hafter₁⟩ := h₁
  obtain ⟨hmode, hline⟩ := Prod.mk.inj hscan.agree
  obtain ⟨l₁, hl₁⟩ : ∃ l₁, v₁.state.mode = .literal l₁ := by
    cases hm : v₁.state.mode with
    | code a => simp [hm, hl, Mode.outline] at hmode
    | literal l₁ => exact ⟨l₁, rfl⟩
  obtain ⟨u, hu, hnone, hend, htemplate, htemplate₁⟩ := hscan.opened l l₁ hl hl₁
  have hmakes : l₁.template = true ↔ d.MakesTemplate source l.start := by
    rw [htemplate₁, makesTemplate_iff hu h hnone (by rw [← htemplate, hplain]), hend]
  have hcomment : (v₁.state.place .plain).comment = (v.state.place .plain).comment := by
    rw [comment_place, comment_place, ← hline]
  have hsame : v₁.block = v.block := by
    rw [hblock₁, rename, if_neg]
    simp [exposed_literal hl]
  have hcalls : d.CallsAt v ↔ v₁.after = some '(' ∧ (v₁.state.place .plain).comment = false ∧
      chain d.callable v.block ≠ v.block := by
    rw [CallsAt, hafter₁, hcomment, chain_callable_iff h]
  rw [hcalls, ← hmakes, h₂.block, rename, hsame]
  by_cases he : v₁.exposed { } .callable = true
  · obtain ⟨hafter, hc, ht⟩ := (exposed_call hl₁).mp he
    simp [he, hafter, hc, ht]
  · rw [if_neg he]
    refine iff_of_true rfl fun hall => he ((exposed_call hl₁).mpr ?_)
    exact ⟨hall.2.1, hall.2.2.1, hall.1⟩

theorem callsIn_iff {s : Span Visit} (hs : s ∈ spans Visit.start? (stops source)) :
    d.CallsIn source ⟨s.start, s.items.flatMap Visit.content⟩ ↔ ∃ v ∈ s.items, d.CallsAt v := by
  constructor
  · rintro ⟨p, hp, pos, hpos, hoffset, hcomment⟩
    have hword := (d.callable_words p hp).1
    obtain ⟨v, hv, hblock, hfits, rfl⟩ := (mem_candidates _ hword).mp hpos
    have hne : v.block ≠ [] := hblock ▸ (isWord_iff.mp hword).1
    obtain ⟨i, hi, hio⟩ := List.mem_map.mp hoffset
    obtain ⟨u, hu, hiu⟩ := List.mem_flatMap.mp hi
    have hrange := mem_content hiu
    rw [hio] at hrange
    have hvu : v = u := by
      rcases visits_apart hv (mem_stops (mem_spans hs u hu).1) with he | ⟨ha, hle⟩ | ⟨ha, hle⟩
      · exact he
      · have hlt := width_text ha
        omega
      · omega
    subst hvu
    refine ⟨v, hu, ?_, ?_, p, hp, hblock.symm⟩
    · simpa [WordClass.fits, isWordChar?_none] using hfits
    · rw [← insideComment_visit hv hne, hcomment]
  · rintro ⟨v, hvs, hafter, hcomment, p, hp, hblock⟩
    have hword := (d.callable_words p hp).1
    have hv := mem_stops (mem_spans hs v hvs).1
    have hne : v.block ≠ [] := hblock ▸ (isWord_iff.mp hword).1
    obtain ⟨b, hb⟩ := start_mem_content (v := v) (by simp [Visit.text, hafter])
    refine ⟨p, hp, v.state.offset, (mem_candidates _ hword).mpr ?_, ?_, ?_⟩
    · exact ⟨v, hv, hblock.symm, by simp [WordClass.fits, isWordChar?_none, hafter], rfl⟩
    · exact List.mem_map.mpr ⟨_, List.mem_flatMap.mpr ⟨v, hvs, hb⟩, rfl⟩
    · rw [insideComment_visit hv hne, hcomment]

end Visits

def Moves (d : Dictionary) (source : String) (v v₂ : Visit) : Prop :=
  v ∈ (Runs.ofText source.toList).visits .start ∧ ∃ v₁ : Visit,
    v.Matches (Alongside ((Runs.ofText source.toList).visits .start)
      (rename { } .structural (chain d.structural)))
      (rename { } .structural (chain d.structural)) v₁ ∧
    v₁.Matches (Agree .callable) (rename { } .callable (chain d.callable)) v₂

theorem moves_words {source : String} {v v₂ : Visit} (h : d.Moves source v v₂) :
    (∀ c ∈ v₂.block, isWordChar c = true) ∧ (v₂.block = [] ↔ v.block = []) := by
  obtain ⟨hv, v₁, h₁, h₂⟩ := h
  have hr := chain_keepsWords d.structural_words
  have hr' := chain_keepsWords d.callable_words
  have hw := visit_block hv
  have hw₁ : ∀ c ∈ v₁.block, isWordChar c = true := by
    rw [h₁.block]
    exact rename_block hr { } hw
  rw [h₂.block, rename_eq_nil hr' { } hw₁, h₁.block, rename_eq_nil hr { } hw]
  exact ⟨rename_block hr' { } hw₁, Iff.rfl⟩

theorem moves_start {source : String} {v v₂ : Visit} (h : d.Moves source v v₂) :
    v.start?.isSome = v₂.start?.isSome := by
  obtain ⟨-, v₁, h₁, h₂⟩ := h
  have h₁ := (Prod.mk.inj h₁.state.agree).1
  have h₂ := (Prod.mk.inj (outline_of_bare h₂.state)).1
  rw [Visit.start?, Visit.start?, start_outline, start_outline, h₁, h₂]

theorem visits_toHost (d : Dictionary) (source : String) :
    List.Forall₂ (d.Moves source) (stops source) (stops (d.toHost { } source)) := by
  have hvisits : List.Forall₂ (d.Moves source) ((Runs.ofText source.toList).visits .start)
      ((Runs.ofText (d.toHost { } source).toList).visits .start) := by
    rw [toHost_phases]
    exact (List.forall₂_and_left _ _).mpr ⟨fun v hv => hv, forall₂_comp
      (visits_structural (chain_keepsWords d.structural_words) source.toList)
      (visits_callable (chain_keepsWords d.callable_words) _)⟩
  refine List.rel_filter (fun v v₂ hm => ?_) hvisits
  have hblock := (moves_words hm).2
  obtain ⟨-, v₁, h₁, h₂⟩ := hm
  simp [Visit.text, hblock, h₂.after, h₁.after]

theorem spans_toHost (d : Dictionary) (source : String) :
    List.Forall₂ (fun s t => List.Forall₂ (d.Moves source) s.items t.items)
      (spans Visit.start? (stops source)) (spans Visit.start? (stops (d.toHost { } source))) := by
  have hsteady (text : String) : Steady Visit.start? (stops text) :=
    start_steady (by simp [State.start]) (Runs.ofText_proper text.toList)
  have hstart : ∀ v v₂, d.Moves source v v₂ → v.start?.isSome = v₂.start?.isSome :=
    fun v v₂ => moves_start
  exact spans_forall₂ hstart (visits_toHost d source) (hsteady _) (hsteady _)

theorem literals_toHost (h : d.Separated) (source : String) :
    List.Forall₂ (fun s t : Span (UInt8 × Nat) => templateQuote source s.start = false →
        (t.bytes = s.bytes ↔ ¬(d.MakesTemplate source s.start ∧ d.CallsIn source s)))
      (literals source) (literals (d.toHost { } source)) := by
  rw [literals_visits, literals_visits, List.forall₂_map_left_iff, List.forall₂_map_right_iff]
  have hspans := (List.forall₂_and_left _ _).mpr
    ⟨fun s (hs : s ∈ spans Visit.start? (stops source)) => hs, spans_toHost d source⟩
  refine hspans.imp fun s t hst hquote => ?_
  obtain ⟨hs, hmoves⟩ := hst
  have hitems := (List.forall₂_and_left _ _).mpr ⟨fun v (hv : v ∈ s.items) => hv, hmoves⟩
  simp only [Span.bytes, bytes_content, bytes_inj, callsIn_iff hs]
  refine text_iff (hitems.imp fun v v₂ hv => ?_)
  obtain ⟨hv, hm⟩ := hv
  have hstart := (mem_spans hs v hv).2
  have hwords := (moves_words hm).1
  obtain ⟨hv, v₁, h₁, h₂⟩ := hm
  refine ⟨visit_block hv, hwords, visit_after hv, h₂.after.trans h₁.after, ?_, ?_⟩
  · intro hcall
    rw [hcall.1]
    simp
  · cases hl : v.state.mode with
    | code a =>
        rw [Visit.start?, hl] at hstart
        cases hstart
    | literal l =>
        rw [Visit.start?, hl] at hstart
        have hl₀ : l.start = s.start := Option.some.inj hstart
        rw [← hl₀] at hquote ⊢
        rw [templateQuote_visit hv hl] at hquote
        exact block_iff h hl hquote h₁ h₂

/-- Translation keeps the number of literals. A literal that is no template keeps its bytes, unless
a structural word right before it is replaced by one that makes a template of it and there is a call
in it. -/
theorem builtin_literals (source : String) :
    (literals (builtin.toHost { } source)).length = (literals source).length ∧
      ∀ (k : Nat) (s t : Span (UInt8 × Nat)), (literals source)[k]? = some s →
        (literals (builtin.toHost { } source))[k]? = some t →
        templateQuote source s.start = false →
        (t.bytes = s.bytes ↔
          ¬(builtin.MakesTemplate source s.start ∧ builtin.CallsIn source s)) := by
  have h := literals_toHost builtin_separated source
  refine ⟨h.length_eq.symm, fun k s t hs ht => ?_⟩
  obtain ⟨hk, rfl⟩ := List.getElem?_eq_some_iff.mp hs
  obtain ⟨hk', rfl⟩ := List.getElem?_eq_some_iff.mp ht
  exact h.get hk hk'

/-- The word for a condition makes a template of the literal, and the call in it is replaced. -/
theorem literal_changed : ¬ ∀ (source : String) (k : Nat) (s t : Span (UInt8 × Nat)),
    (literals source)[k]? = some s → (literals (builtin.toHost { } source))[k]? = some t →
    templateQuote source s.start = false → t.bytes = s.bytes := by
  intro h
  have htarget : builtin.toHost { } "se\"imprimir(x)\"" = "if\"print(x)\"" := by
    rw [← String.toList_inj, toHost_phases]
    decide
  have hsame := h "se\"imprimir(x)\"" 0
  rw [htarget] at hsame
  have hbytes := hsame _ _ (List.getElem?_eq_getElem (by decide))
    (List.getElem?_eq_getElem (by decide)) (by decide)
  revert hbytes
  decide

end Dictionary

end Calque
