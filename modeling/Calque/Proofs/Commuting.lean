import Calque.Proofs.Passes

namespace Calque

open Lexical

variable {o : Options} {cls cls' : WordClass} {r r' : List Char → List Char}

/-- The scan goes on after a renamed block as it would have done. -/
def Unnoticed (o : Options) (cls : WordClass) (r : List Char → List Char) : Prop :=
  ∀ v : Visit, (∀ d ∈ v.block, isWordChar d = true) → ∀ c, v.after = some c →
    ∀ t : State, v.state.bare = t.bare →
      (v.state.run (marks (v.block ++ [c]))).bare = (t.run (marks (rename o cls r v ++ [c]))).bare

def KeepsLetter (r : List Char → List Char) : Prop := ∀ w, endsInLetter (r w) = endsInLetter w

theorem unnoticed_callable (hr : KeepsWords r) (o : Options) : Unnoticed o .callable r := by
  intro v hw c hc t hst
  have hst : Agree .callable v.state t := hst
  exact agree_visit hr o hw hc hst

theorem unnoticed_structural (hr : KeepsWords r) (hl : KeepsLetter r) (o : Options) :
    Unnoticed o .structural r := by
  rintro ⟨s, w, _⟩ hw c rfl t hst
  rw [marks_append, marks_append, State.run_append, State.run_append]
  apply bare_run
  unfold rename
  split
  · by_cases hne : w = []
    · subst hne
      rw [hr.nil]
      exact hst
    · exact bare_letters hw (hr.block hw) hne (hr.ne_nil hw hne) (hl w).symm hst
  · exact bare_run hst _

theorem rename_comm (hc : ∀ w, r (r' w) = r' (r w)) (v : Visit) :
    rename o cls r { v with block := rename o cls' r' v } =
      rename o cls' r' { v with block := rename o cls r v } := by
  have he (w : List Char) (k : WordClass) :
      ({ v with block := w } : Visit).exposed o k = v.exposed o k := rfl
  simp only [rename, he]
  cases v.exposed o cls <;> cases v.exposed o cls' <;> simp [hc]

/-- A phase in the text that another one leaves finds its blocks where they were. -/
theorem phase_after (hr : KeepsWords r) (h : Unnoticed o cls r) (cls' : WordClass)
    (r' : List Char → List Char) (s : State) (text : List Char) :
    phase o cls' r' s (phase o cls r s text) = ((Runs.ofText text).replace
      (fun v => rename o cls' r' { v with block := rename o cls r v }) s).text := by
  have hrename {s t : State} (hst : s.bare = t.bare) (w : List Char) (after : Option Char) :
      rename o cls' r' ⟨t, w, after⟩ = rename o cls' r' ⟨s, w, after⟩ :=
    rename_congr (agree_of_bare hst cls') o w after
  rw [phase, ofText_phase hr, Runs.replace_comp hrename rfl]
  exact fun v hv => h v (Runs.mem_visits (Runs.ofText_proper text) hv).1

section Commute

variable (hr : KeepsWords r) (hr' : KeepsWords r') (h' : Unnoticed o cls' r')
  (hc : ∀ w, r (r' w) = r' (r w)) (s : State) (text : List Char)
include hr hr' h' hc

theorem phase_comm (h : Unnoticed o cls r) :
    phase o cls r s (phase o cls' r' s text) = phase o cls' r' s (phase o cls r s text) := by
  rw [phase_after hr' h', phase_after hr h]
  exact congrArg Runs.text (Runs.replace_congr fun v _ => rename_comm hc v)

/-- What a phase leaves as it is, it leaves so after an unnoticed renaming, too. -/
theorem phase_settled (hsame : phase o cls r s text = text) :
    phase o cls r s (phase o cls' r' s text) = phase o cls' r' s text := by
  rw [phase_after hr' h', phase]
  refine congrArg Runs.text (Runs.replace_congr fun v hv => ?_)
  rw [rename_comm hc, rename_of_phase hr hsame v hv]

end Commute

/-- No pair of `ps` reads a word that one of `qs` reads or makes. -/
def Apart (ps qs : List WordPair) : Prop :=
  ∀ p ∈ ps, ∀ q ∈ qs, p.dialect ≠ q.dialect ∧ p.dialect ≠ q.host

theorem chain_unread {ps qs : List WordPair} (h : Apart qs ps) {w : List Char}
    (hw : ∀ q ∈ qs, q.dialect.toList ≠ w) : ∀ q ∈ qs, q.dialect.toList ≠ chain ps w := by
  intro q hq
  rcases chain_mem ps w with hsame | ⟨p, hp, hhost⟩
  · rw [hsame]
    exact hw q hq
  · rw [hhost]
    exact fun he => (h q hq p hp).2 (String.toList_inj.mp he)

theorem chain_comm {ps qs : List WordPair} (h : Apart ps qs) (h' : Apart qs ps) (w : List Char) :
    chain ps (chain qs w) = chain qs (chain ps w) := by
  -- Of the two lists one reads the word at most, and the other does not read what it makes of it.
  by_cases hw : ∃ p ∈ ps, p.dialect.toList = w
  · obtain ⟨p, hp, rfl⟩ := hw
    have hqs : ∀ q ∈ qs, q.dialect.toList ≠ p.dialect.toList := fun q hq he =>
      (h' q hq p hp).1 (String.toList_inj.mp he)
    rw [chain_absent hqs, chain_absent (chain_unread h' hqs)]
  · have hps : ∀ p ∈ ps, p.dialect.toList ≠ w := fun p hp he => hw ⟨p, hp, he⟩
    rw [chain_absent hps, chain_absent (chain_unread h hps)]

theorem chain_chain {ps : List WordPair} (h : Unread ps) (w : List Char) :
    chain ps (chain ps w) = chain ps w := by
  rcases chain_mem ps w with hsame | ⟨p, hp, hhost⟩
  · rw [hsame, hsame]
  · rw [hhost]
    exact chain_absent fun q hq he => h p hp q hq (String.toList_inj.mp he).symm

theorem chain_keepsLetter {ps : List WordPair}
    (h : ∀ p ∈ ps, endsInLetter p.dialect.toList = endsInLetter p.host.toList) :
    KeepsLetter (chain ps) := by
  intro w
  induction ps generalizing w with
  | nil => rfl
  | cons p ps ih =>
      rw [chain_cons, Function.comp_apply, ih (fun q hq => h q (by simp [hq])), swap]
      split
      · subst_vars
        exact (h p (by simp)).symm
      · rfl

namespace Dictionary

theorem Separated.apart {d : Dictionary} (h : d.Separated) :
    Apart d.structural d.callable ∧ Apart d.callable d.structural := by
  constructor
  · intro p hp q hq
    exact ⟨(d.sound.apart p hp q hq).1,
      (h q (List.mem_append_right _ hq) p (List.mem_append_left _ hp)).symm⟩
  · intro q hq p hp
    exact ⟨(d.sound.apart p hp q hq).1.symm,
      (h p (List.mem_append_left _ hp) q (List.mem_append_right _ hq)).symm⟩

end Dictionary

end Calque
