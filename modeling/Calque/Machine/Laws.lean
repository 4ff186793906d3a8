import Calque.Machine.Basic

namespace Calque.Machine

/-- How the files in the states of a machine are looked at. Nodes may be of any kinds, links among
them, and which place a path leads to is up to the state. -/
structure View (σ Draft : Type) where
  Place : Type
  Node : Type
  node? : σ → Place → Option Node
  leads : σ → Path → Place → Prop
  directory : Node → Prop
  /-- A plain file with this content. -/
  file : List UInt8 → Node → Prop
  /-- Where a draft stands. -/
  home : Draft → Place

namespace View

variable {σ Draft : Type} (view : View σ Draft)

/-- Every place that is not one of `touched` has the node it had, and the paths that led to it still
do. -/
def Spares (touched : view.Place → Prop) (s s' : σ) : Prop :=
  ∀ place, ¬touched place → view.node? s' place = view.node? s place ∧
    ∀ q, view.leads s q place → view.leads s' q place

def Untouched (s s' : σ) : Prop := view.Spares (fun _ => False) s s'

def Holds (s : σ) (place : view.Place) (content : List UInt8) : Prop :=
  ∃ node, view.node? s place = some node ∧ view.file content node

def IsDirectory (s : σ) (place : view.Place) : Prop :=
  ∃ node, view.node? s place = some node ∧ view.directory node

def Drafts (draft : Draft) (s s' : σ) : Prop :=
  (∃ content, view.Holds s' (view.home draft) content) ∧
    view.Spares (· = view.home draft) s s'

end View

variable {σ Draft : Type}

/-- Each step of a machine does its work or fails. A step that fails may leave the draft it works on
with any content and changes nothing else; the move of a draft is one step, and a draft that is
discarded is gone. -/
structure Laws (machine : Machine (StateM σ) Draft) (view : View σ Draft) : Prop where
  isDirectory : ∀ p s s' answer, machine.isDirectory p s = (answer, s') → view.Untouched s s'
  makeDirectory : ∀ p s s', machine.makeDirectory p s = (.ok (), s') →
    ∃ place, view.node? s place = none ∧ view.IsDirectory s' place ∧ view.leads s' p place ∧
      view.Spares (· = place) s s'
  makeDirectory_error : ∀ p s s' fault, machine.makeDirectory p s = (.error fault, s') →
    view.Untouched s s'
  createDraft : ∀ p s s' draft, machine.createDraft p s = (.ok draft, s') →
    view.node? s (view.home draft) = none ∧ view.Holds s' (view.home draft) [] ∧
      view.Spares (· = view.home draft) s s'
  createDraft_error : ∀ p s s' fault, machine.createDraft p s = (.error fault, s') →
    view.Untouched s s'
  writeDraft : ∀ draft content bytes s s', view.Holds s (view.home draft) content →
    machine.writeDraft draft bytes s = (.ok (), s') →
      view.Holds s' (view.home draft) (content ++ bytes) ∧ view.Spares (· = view.home draft) s s'
  writeDraft_error : ∀ draft content bytes s s' fault, view.Holds s (view.home draft) content →
    machine.writeDraft draft bytes s = (.error fault, s') → view.Drafts draft s s'
  flushDraft : ∀ draft content s s', view.Holds s (view.home draft) content →
    machine.flushDraft draft s = (.ok (), s') →
      view.Holds s' (view.home draft) content ∧ view.Spares (· = view.home draft) s s'
  flushDraft_error : ∀ draft content s s' fault, view.Holds s (view.home draft) content →
    machine.flushDraft draft s = (.error fault, s') → view.Drafts draft s s'
  /-- A path on the way through what the draft replaces may lead elsewhere, so only the nodes are
  spared. -/
  persist : ∀ draft content p s s', view.Holds s (view.home draft) content →
    machine.persist draft p s = (.ok (), s') →
      ∃ goal, ¬view.IsDirectory s goal ∧ view.leads s' p goal ∧ view.Holds s' goal content ∧
        (goal ≠ view.home draft → view.node? s' (view.home draft) = none) ∧
        ∀ place, place ≠ goal → place ≠ view.home draft →
          view.node? s' place = view.node? s place
  persist_error : ∀ draft content p s s' fault, view.Holds s (view.home draft) content →
    machine.persist draft p s = (.error fault, s') → view.Drafts draft s s'
  discard : ∀ draft content s, view.Holds s (view.home draft) content →
    view.node? (machine.discard draft s).2 (view.home draft) = none ∧
      view.Spares (· = view.home draft) s (machine.discard draft s).2

end Calque.Machine
