import Calque.Dictionary.Builtin
import Calque.Proofs.Places
import Mathlib.Data.List.Nodup

namespace Calque

open Lexical

variable {o : Options} {cls : WordClass} {old : List Char}

def swap (old new w : List Char) : List Char := if w = old then new else w

theorem swap_keepsWords {new : List Char} (hold : isWord old = true) (hnew : isWord new = true) :
    KeepsWords (swap old new) := by
  refine ⟨?_, fun w hw => ?_⟩
  · rw [swap, if_neg]
    exact fun h => (isWord_iff.mp hold).1 h.symm
  · unfold swap
    split
    · exact hnew
    · exact hw

section Settle

variable (verdict : Nat → Option Reason) (new : List Char)

theorem text_settle_other (w : List Char) (pos : Nat) (ps : List Piece) :
    (settle verdict old new pos (w.map .other ++ ps)).text =
      w ++ (settle verdict old new (pos + width w) ps).text := by
  induction w generalizing pos with
  | nil => rfl
  | cons c w ih =>
      rw [List.map_cons, List.cons_append, settle, ih, width_cons, Nat.add_assoc]
      rfl

theorem text_settle_found (pos : Nat) (ps : List Piece) :
    (settle verdict old new pos (.found :: ps)).text =
      (if (verdict pos).isNone then new else old) ++
        (settle verdict old new (pos + width old) ps).text := by
  rw [settle]
  cases verdict pos <;> rfl

theorem text_settle_block (hne : old ≠ []) (v : Visit) {pos : Nat}
    (hv : v.block ≠ [] → verdict pos = o.protects cls (v.state.place .plain)) (ps : List Piece) :
    (settle verdict old new pos (blockPieces cls old none v.after v.block ++ ps)).text =
      rename o cls (swap old new) v ++
        (settle verdict old new (pos + width v.block) ps).text := by
  by_cases hb : v.block = old ∧ cls.fits none v.after = true
  · obtain ⟨hb, hf⟩ := hb
    have hp := hv (hb ▸ hne)
    rw [blockPieces, if_pos ⟨hb, hf⟩, List.singleton_append, text_settle_found, hp, hb]
    simp only [rename, Visit.exposed, hf, Bool.true_and, swap, hb, if_true]
  · rw [blockPieces, if_neg hb, text_settle_other]
    congr 1
    by_cases hw : v.block = old
    · have hf : cls.fits none v.after = false := by simpa [hw] using hb
      simp [rename, Visit.exposed, hf]
    · simp [rename, swap, hw]

end Settle

theorem text_settle (o : Options) (cls : WordClass) (hold : isWord old = true) (new : List Char)
    {rs : Runs} (h : rs.Proper) (before : List Char) :
    (settle (fun pos => o.protects cls ((Index.ofChars (before ++ rs.text)).place pos)) old new
        (width before) (rs.pieces cls old)).text =
      (rs.replace (rename o cls (swap old new)) (State.start.run (marks before))).text := by
  have hne := (isWord_iff.mp hold).1
  induction rs generalizing before with
  | last w =>
      have hv : w ≠ [] → o.protects cls ((Index.ofChars (before ++ w)).place (width before)) =
          o.protects cls ((State.start.run (marks before)).place .plain) := by
        intro hw
        rw [← place_word before h hw [], List.append_nil]
      have hb := text_settle_block
        (fun pos => o.protects cls ((Index.ofChars (before ++ w)).place pos)) new hne
        ⟨State.start.run (marks before), w, none⟩ hv []
      rw [List.append_nil, settle, List.append_nil] at hb
      exact hb
  | next w c rest ih =>
      have hv : w ≠ [] →
          o.protects cls ((Index.ofChars (before ++ (w ++ c :: rest.text))).place (width before)) =
            o.protects cls ((State.start.run (marks before)).place .plain) := by
        intro hw
        rw [← place_word before h.1 hw (c :: rest.text)]
      have hb := text_settle_block
        (fun pos => o.protects cls ((Index.ofChars (before ++ (w ++ c :: rest.text))).place pos))
        new hne ⟨State.start.run (marks before), w, some c⟩ hv (.other c :: rest.pieces cls old)
      have hrest := ih h.2.2 (before ++ (w ++ [c]))
      simp only [List.append_assoc, List.cons_append, List.nil_append, width_append, width_cons,
        width_nil, Nat.add_zero] at hrest
      rw [Runs.text_next, Runs.pieces, hb, settle, Runs.replace, Runs.text_next, ← State.run_append,
        ← marks_append, ← hrest]
      simp [Nat.add_assoc]

theorem text_substitute (o : Options) (cls : WordClass) (hold : isWord old = true)
    (new text : List Char) :
    (substitute o cls old new text).text = phase o cls (swap old new) State.start text := by
  have h := text_settle o cls hold new (Runs.ofText_proper text) []
  rw [← pieces_text hold cls (Runs.ofText_proper text), Runs.text_ofText] at h
  exact h

def chain (ps : List WordPair) (w : List Char) : List Char :=
  ps.foldl (fun w p => swap p.dialect.toList p.host.toList w) w

theorem chain_cons (p : WordPair) (ps : List WordPair) :
    chain (p :: ps) = chain ps ∘ swap p.dialect.toList p.host.toList := rfl

def AllWords (ps : List WordPair) : Prop :=
  ∀ p ∈ ps, isWord p.dialect.toList = true ∧ isWord p.host.toList = true

theorem chain_keepsWords {ps : List WordPair} (h : AllWords ps) : KeepsWords (chain ps) := by
  induction ps with
  | nil => exact keepsWords_id
  | cons p ps ih =>
      rw [chain_cons]
      exact (swap_keepsWords (h p (by simp)).1 (h p (by simp)).2).comp
        (ih fun q hq => h q (by simp [hq]))

theorem substituteAll_pairs (o : Options) (cls : WordClass) {ps : List WordPair} (h : AllWords ps)
    (text : List Char) :
    substituteAll o (ps.map (⟨cls, ·⟩)) text = phase o cls (chain ps) State.start text := by
  induction ps generalizing text with
  | nil => exact (phase_id _ _).symm
  | cons p ps ih =>
      have hp := h p (by simp)
      have hs : substituteAll o ((p :: ps).map (⟨cls, ·⟩)) text =
          substituteAll o (ps.map (⟨cls, ·⟩))
            (substitute o cls p.dialect.toList p.host.toList text).text := rfl
      rw [hs, ih fun q hq => h q (by simp [hq]), text_substitute o cls hp.1,
        phase_phase (swap_keepsWords hp.1 hp.2), chain_cons]

theorem chain_absent {ps : List WordPair} {w : List Char} (h : ∀ p ∈ ps, p.dialect.toList ≠ w) :
    chain ps w = w := by
  induction ps with
  | nil => rfl
  | cons p ps ih =>
      rw [chain_cons, Function.comp_apply, swap, if_neg (h p (by simp)).symm]
      exact ih fun q hq => h q (by simp [hq])

theorem chain_mem (ps : List WordPair) (w : List Char) :
    chain ps w = w ∨ ∃ p ∈ ps, chain ps w = p.host.toList := by
  induction ps generalizing w with
  | nil => exact .inl rfl
  | cons p ps ih =>
      rw [chain_cons, Function.comp_apply, swap]
      split
      · rcases ih p.host.toList with h | ⟨q, hq, h⟩
        · exact .inr ⟨p, by simp, h⟩
        · exact .inr ⟨q, by simp [hq], h⟩
      · rcases ih w with h | ⟨q, hq, h⟩
        · exact .inl h
        · exact .inr ⟨q, by simp [hq], h⟩

def hostOf? (ps : List WordPair) (w : List Char) : Option (List Char) :=
  (ps.find? fun p => p.dialect.toList = w).map (·.host.toList)

def Unchained (ps : List WordPair) : Prop := ∀ p ∈ ps, ∀ q ∈ ps, p ≠ q → p.host ≠ q.dialect

def Unread (ps : List WordPair) : Prop := ∀ p ∈ ps, ∀ q ∈ ps, p.host ≠ q.dialect

theorem Unread.unchained {ps : List WordPair} (h : Unread ps) : Unchained ps :=
  fun p hp q hq _ => h p hp q hq

theorem chain_unchained {ps : List WordPair} (hc : Unchained ps)
    (hn : (ps.map (·.dialect)).Nodup) (w : List Char) : chain ps w = (hostOf? ps w).getD w := by
  induction ps with
  | nil => rfl
  | cons p ps ih =>
      rw [List.map_cons, List.nodup_cons] at hn
      have hps : Unchained ps := fun q hq q' hq' => hc q (by simp [hq]) q' (by simp [hq'])
      rw [chain_cons, Function.comp_apply, swap, hostOf?, List.find?_cons]
      by_cases hw : w = p.dialect.toList
      · subst hw
        have habsent : ∀ q ∈ ps, q.dialect.toList ≠ p.host.toList := by
          intro q hq he
          have hpq : p ≠ q := fun h => hn.1 (h ▸ List.mem_map_of_mem hq)
          exact hc p (by simp) q (by simp [hq]) hpq (String.toList_inj.mp he).symm
        simp [chain_absent habsent]
      · simp only [if_neg hw, Ne.symm hw, decide_false]
        exact ih hps hn.2

theorem eq_of_dialect {ps : List WordPair} (hn : (ps.map (·.dialect)).Nodup) {p q : WordPair}
    (hp : p ∈ ps) (hq : q ∈ ps) (h : p.dialect.toList = q.dialect.toList) : p = q :=
  List.inj_on_of_nodup_map hn hp hq (String.toList_inj.mp h)

theorem hostOf?_eq_some {ps : List WordPair} (hn : (ps.map (·.dialect)).Nodup) {p : WordPair}
    (hp : p ∈ ps) : hostOf? ps p.dialect.toList = some p.host.toList := by
  cases hf : ps.find? fun q => q.dialect.toList = p.dialect.toList with
  | none => exact absurd (List.find?_eq_none.mp hf p hp) (by simp)
  | some q =>
      have hq : q.dialect.toList = p.dialect.toList := by simpa using List.find?_some hf
      rw [hostOf?, hf, eq_of_dialect hn (List.mem_of_find?_eq_some hf) hp hq]
      rfl

theorem hostOf?_eq_none {ps : List WordPair} {w : List Char}
    (h : ∀ p ∈ ps, p.dialect.toList ≠ w) : hostOf? ps w = none := by
  rw [hostOf?, List.find?_eq_none.mpr (by simpa using h)]
  rfl

theorem chain_dialect {ps : List WordPair} (hc : Unchained ps) (hn : (ps.map (·.dialect)).Nodup)
    {p : WordPair} (hp : p ∈ ps) : chain ps p.dialect.toList = p.host.toList := by
  rw [chain_unchained hc hn, hostOf?_eq_some hn hp]
  rfl

theorem exposed_start (w : List Char) :
    (⟨.start, w, none⟩ : Visit).exposed { } .structural = true ∧
      (⟨.start, w, some '('⟩ : Visit).exposed { } .structural = true ∧
      (⟨.start, w, none⟩ : Visit).exposed { } .callable = false ∧
      (⟨.start, w, some '('⟩ : Visit).exposed { } .callable = true := by
  exact ⟨rfl, rfl, rfl, rfl⟩

namespace Dictionary

theorem Sound.allWords {ps : List WordPair} (h : Sound ps) : AllWords ps :=
  fun p hp => ⟨h.dialect_isWord p hp, h.host_isWord p hp⟩

theorem Sound.sides {ps qs : List WordPair} (h : Sound (ps ++ qs)) : Sound ps ∧ Sound qs := by
  obtain ⟨hdialect, hhost, hdialects, hhosts⟩ := h
  rw [List.forall_mem_append] at hdialect hhost
  rw [List.map_append, List.nodup_append] at hdialects hhosts
  exact ⟨⟨hdialect.1, hhost.1, hdialects.1, hhosts.1⟩,
    ⟨hdialect.2, hhost.2, hdialects.2.1, hhosts.2.1⟩⟩

theorem Sound.apart {ps qs : List WordPair} (h : Sound (ps ++ qs)) :
    ∀ p ∈ ps, ∀ q ∈ qs, p.dialect ≠ q.dialect ∧ p.host ≠ q.host := by
  have hdialects := h.dialect_nodup
  have hhosts := h.host_nodup
  rw [List.map_append, List.nodup_append] at hdialects hhosts
  intro p hp q hq
  exact ⟨hdialects.2.2 _ (List.mem_map_of_mem hp) _ (List.mem_map_of_mem hq),
    hhosts.2.2 _ (List.mem_map_of_mem hp) _ (List.mem_map_of_mem hq)⟩

theorem structural_words (d : Dictionary) : AllWords d.structural := d.sound.sides.1.allWords

theorem callable_words (d : Dictionary) : AllWords d.callable := d.sound.sides.2.allWords

theorem dialects_nodup (d : Dictionary) :
    (d.structural.map (·.dialect)).Nodup ∧ (d.callable.map (·.dialect)).Nodup :=
  ⟨d.sound.sides.1.dialect_nodup, d.sound.sides.2.dialect_nodup⟩

theorem hosts_nodup (d : Dictionary) :
    (d.structural.map (·.host)).Nodup ∧ (d.callable.map (·.host)).Nodup :=
  ⟨d.sound.sides.1.host_nodup, d.sound.sides.2.host_nodup⟩

/-- No host word is also a dialect word. -/
def Separated (d : Dictionary) : Prop :=
  ∀ p ∈ d.structural ++ d.callable, ∀ q ∈ d.structural ++ d.callable, p.host ≠ q.dialect

instance (d : Dictionary) : Decidable d.Separated :=
  inferInstanceAs (Decidable (∀ p ∈ d.structural ++ d.callable, ∀ q ∈ d.structural ++ d.callable,
    p.host ≠ q.dialect))

theorem Separated.unread {d : Dictionary} (h : d.Separated) :
    Unread d.structural ∧ Unread d.callable :=
  ⟨fun p hp q hq => h p (List.mem_append_left _ hp) q (List.mem_append_left _ hq),
    fun p hp q hq => h p (List.mem_append_right _ hp) q (List.mem_append_right _ hq)⟩

theorem Separated.unchained {d : Dictionary} (h : d.Separated) :
    Unchained d.structural ∧ Unchained d.callable :=
  ⟨h.unread.1.unchained, h.unread.2.unchained⟩

theorem builtin_separated : builtin.Separated := by decide

/-- All passes of a dictionary are two phases: the structural words of a text are renamed at once,
and then the callable words of what that leaves. -/
theorem toHost_phases (d : Dictionary) (o : Options) (source : String) :
    (d.toHost o source).toList = phase o .callable (chain d.callable) State.start
      (phase o .structural (chain d.structural) State.start source.toList) := by
  rw [toHost, String.toList_ofList, entries, substituteAll, List.foldl_append, ← substituteAll,
    ← substituteAll, substituteAll_pairs o .structural d.structural_words,
    substituteAll_pairs o .callable d.callable_words]

theorem toHost_word (d : Dictionary) {w : String} (hw : isWord w.toList = true) :
    (d.toHost { } w).toList = chain d.structural w.toList := by
  have hw := (isWord_iff.mp hw).2
  have hs := (chain_keepsWords d.structural_words).block hw
  rw [toHost_phases, phase_word _ hw, rename, (exposed_start _).1, if_pos rfl, phase_word _ hs,
    rename, (exposed_start _).2.2.1]
  rfl

theorem toHost_call (d : Dictionary) {w : String} (hw : isWord w.toList = true) :
    (d.toHost { } (w ++ "(")).toList =
      chain d.callable (chain d.structural w.toList) ++ ['('] := by
  have hw := (isWord_iff.mp hw).2
  have hs := chain_keepsWords d.structural_words
  have hc := chain_keepsWords d.callable_words
  have hlist : (w ++ "(").toList = w.toList ++ ['('] := String.toList_append
  rw [toHost_phases, hlist, phase_call hs.nil _ hw, rename, (exposed_start _).2.1, if_pos rfl,
    phase_call hc.nil _ (hs.block hw), rename, (exposed_start _).2.2.2, if_pos rfl]

end Dictionary

end Calque
