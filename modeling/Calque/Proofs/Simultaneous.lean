import Calque.Proofs.Passes

namespace Calque

open Lexical

/-- The text with every run replaced at once by what `f` makes of its offset, of the run and of the
character after it. -/
def Runs.rewriteAt (f : Nat → List Char → Option Char → List Char) (pos : Nat) : Runs → List Char
  | .last w => f pos w none
  | .next w c rest => f pos w (some c) ++ c :: rest.rewriteAt f (pos + width w + c.utf8Size)

def guardsWord (o : Options) (text : String) (pos : Nat) : Bool :=
  o.avoidStrings && insideString text pos || o.avoidComments && insideComment text pos

/-- A literal guards a call unless it is a template or, for holes only, a template around a hole. -/
def guardsCall (o : Options) (text : String) (pos : Nat) : Bool :=
  let index := Index.ofText text
  let live := match o.templateScope with
    | .wholeLiteral => index.inTemplate pos
    | .holesOnly => index.inTemplate pos && index.inHole pos
  o.avoidComments && insideComment text pos || o.avoidStrings && insideString text pos && !live

theorem rewriteAt_eq {f : Nat → List Char → Option Char → List Char} {g : Visit → List Char}
    {s : State} {rs : Runs} (h : ∀ v ∈ rs.visits s, g v = f v.state.offset v.block v.after) :
    (rs.replace g s).text = rs.rewriteAt f s.offset := by
  induction rs generalizing s with
  | last w => exact h ⟨s, w, none⟩ (by simp [Runs.visits])
  | next w c rest ih =>
      have hoff : (s.run (marks (w ++ [c]))).offset = s.offset + width w + c.utf8Size := by
        simp [State.offset_run, Nat.add_assoc]
      rw [Runs.replace, Runs.text_next, Runs.rewriteAt, ← hoff,
        ih fun v hv => h v (List.mem_cons_of_mem _ hv), h ⟨s, w, some c⟩ (List.mem_cons_self ..)]

section Visits

variable {text : String} {v : Visit} (hv : v ∈ (Runs.ofText text.toList).visits State.start)
  (hne : v.block ≠ []) (o : Options)
include hv hne

theorem exposed_structural :
    v.exposed o .structural = !guardsWord o text v.state.offset := by
  have hfits : WordClass.structural.fits none v.after = true := by
    simp [WordClass.fits, isWordChar?_none, visit_after hv]
  rw [Visit.exposed, hfits, protects_structural, Bool.true_and, guardsWord,
    insideString_visit hv hne, insideComment_visit hv hne]

theorem exposed_callable :
    v.exposed o .callable =
      (decide (v.after = some '(') && !guardsCall o text v.state.offset) := by
  have hfits : WordClass.callable.fits none v.after = decide (v.after = some '(') := by
    simp [WordClass.fits, isWordChar?_none, beq_eq_decide]
  rw [Visit.exposed, hfits, protects_callable, guardsCall, insideString_visit hv hne,
    insideComment_visit hv hne, Index.inTemplate, Index.inHole, place_visit hv hne]
  cases o.templateScope <;> rfl

end Visits

namespace Dictionary

def structuralPhase (d : Dictionary) (o : Options) (source : String) : String :=
  let host (pos : Nat) (w : List Char) (_ : Option Char) :=
    if guardsWord o source pos then w else (hostOf? d.structural w).getD w
  .ofList ((Runs.ofText source.toList).rewriteAt host 0)

def callablePhase (d : Dictionary) (o : Options) (text : String) : String :=
  let host (pos : Nat) (w : List Char) (after : Option Char) :=
    if after = some '(' ∧ guardsCall o text pos = false then (hostOf? d.callable w).getD w else w
  .ofList ((Runs.ofText text.toList).rewriteAt host 0)

theorem toList_structuralPhase {d : Dictionary} (h : Unchained d.structural) (o : Options)
    (source : String) : (d.structuralPhase o source).toList =
      phase o .structural (chain d.structural) State.start source.toList := by
  rw [structuralPhase, String.toList_ofList, phase]
  refine (rewriteAt_eq (s := State.start) fun v hv => ?_).symm
  rw [← chain_unchained h d.dialects_nodup.1, rename]
  by_cases hne : v.block = []
  · rw [hne, (chain_keepsWords d.structural_words).nil, ite_self, ite_self]
  · rw [exposed_structural hv hne]
    cases guardsWord o source v.state.offset <;> rfl

theorem toList_callablePhase {d : Dictionary} (h : Unchained d.callable) (o : Options)
    (text : String) : (d.callablePhase o text).toList =
      phase o .callable (chain d.callable) State.start text.toList := by
  rw [callablePhase, String.toList_ofList, phase]
  refine (rewriteAt_eq (s := State.start) fun v hv => ?_).symm
  rw [← chain_unchained h d.dialects_nodup.2, rename]
  by_cases hne : v.block = []
  · rw [hne, (chain_keepsWords d.callable_words).nil, ite_self, ite_self]
  · simp only [exposed_callable hv hne, Bool.and_eq_true, decide_eq_true_eq, Bool.not_eq_true']

/-- Pass by pass is all at once: the structural words first, and then the callable words of what
that leaves. -/
theorem toHost_eq_callablePhase (d : Dictionary) (h : d.Separated) (o : Options) (source : String) :
    d.toHost o source = d.callablePhase o (d.structuralPhase o source) := by
  rw [← String.toList_inj, toHost_phases, toList_callablePhase h.unchained.2,
    toList_structuralPhase h.unchained.1]

/-- The first phase makes a template of the string, so the second one replaces a call in it. -/
theorem toHost_eq_callablePhase_builtin :
    builtin.Separated ∧ builtin.toHost { } "se\"soma(1)\" # e" =
      builtin.callablePhase { } (builtin.structuralPhase { } "se\"soma(1)\" # e") :=
  ⟨builtin_separated, toHost_eq_callablePhase builtin builtin_separated { } _⟩

end Dictionary

end Calque
