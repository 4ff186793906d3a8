import Calque.Machine.Files
import Calque.Proofs.FileTrees

namespace Calque.Machine

open FileTree

section Triples

variable {σ α β : Type} {s : σ}

/-- From the state `s` on, `x` ends with a result and in a state that satisfy `post`. -/
def Yields (x : StateM σ α) (s : σ) (post : α → σ → Prop) : Prop := post (x s).1 (x s).2

theorem run_bind (x : StateM σ α) (f : α → StateM σ β) (s : σ) :
    (x >>= f) s = f (x s).1 (x s).2 := rfl

theorem Yields.mono {x : StateM σ α} {post post' : α → σ → Prop} (h : Yields x s post)
    (himp : ∀ a s', post a s' → post' a s') : Yields x s post' :=
  himp _ _ h

end Triples

namespace View

variable {σ Draft : Type} {view : View σ Draft} {s s' s'' : σ} {ps qs : List Path}

/-- All that happens between two states is that directories are made for the paths `ps`. -/
structure Grows (view : View σ Draft) (ps : List Path) (s s' : σ) : Prop where
  made : ∀ place, view.node? s' place = view.node? s place ∨
    view.node? s place = none ∧ view.IsDirectory s' place ∧ ∃ q ∈ ps, view.leads s' q place
  leads : ∀ q place, view.leads s q place → view.node? s place ≠ none → view.leads s' q place

theorem Grows.refl (ps : List Path) (s : σ) : view.Grows ps s s :=
  ⟨fun _ => .inl rfl, fun _ _ h _ => h⟩

theorem Grows.keeps (h : view.Grows ps s s') {place : view.Place} {node : view.Node}
    (hnode : view.node? s place = some node) : view.node? s' place = some node := by
  rcases h.made place with he | ⟨hnone, -⟩
  · rw [he, hnode]
  · rw [hnone] at hnode
    cases hnode

theorem Grows.mono (h : view.Grows ps s s') (hps : ps ⊆ qs) : view.Grows qs s s' := by
  refine ⟨fun place => (h.made place).imp_right ?_, h.leads⟩
  rintro ⟨hnone, hdirectory, q, hq, hleads⟩
  exact ⟨hnone, hdirectory, q, hps hq, hleads⟩

theorem Grows.trans (h : view.Grows ps s s') (h' : view.Grows ps s' s'') :
    view.Grows ps s s'' := by
  refine ⟨fun place => ?_, fun q place hleads hthere => ?_⟩
  · rcases h.made place with he | ⟨hnone, ⟨node, hnode, hdirectory⟩, q, hq, hleads⟩
    · rcases h'.made place with he' | ⟨hnone, hmade⟩
      · exact .inl (he'.trans he)
      · exact .inr ⟨he ▸ hnone, hmade⟩
    · have hthere : view.node? s' place ≠ none := by simp [hnode]
      exact .inr ⟨hnone, ⟨node, h'.keeps hnode, hdirectory⟩, q, hq, h'.leads q place hleads hthere⟩
  · obtain ⟨node, hnode⟩ := Option.ne_none_iff_exists'.mp hthere
    exact h'.leads q place (h.leads q place hleads hthere) (by simp [h.keeps hnode])

theorem Spares.trans {touched : view.Place → Prop} (h : view.Spares touched s s')
    (h' : view.Spares touched s' s'') : view.Spares touched s s'' := by
  intro place hplace
  obtain ⟨hnode, hleads⟩ := h place hplace
  obtain ⟨hnode', hleads'⟩ := h' place hplace
  exact ⟨hnode'.trans hnode, fun q hq => hleads' q (hleads q hq)⟩

end View

section Steps

variable {σ Draft : Type} {machine : Machine (StateM σ) Draft} {view : View σ Draft}
  (laws : Laws machine view)
include laws

end Steps

section Page

end Page

section Success

variable {w : World} {p : Path} {dir goal : Location}
  (execute : Command → StateM World (Except Fault Exit))

theorem makeDirectories_of_find (hparent : w.tree.find w.current p.parent = .ok (dir, .directory)) :
    (World.machine execute).makeDirectories p.parent.upward w = (.ok (), w) := by
  obtain ⟨up, hup⟩ := p.upward_parent
  have hmake : (World.machine execute).makeDirectory p.parent w = (.error .alreadyExists, w) := by
    simp only [World.machine, World.change, makeDirectory_of_find hparent]
  have hask : (World.machine execute).isDirectory p.parent w = (true, w) := by
    simp only [World.machine, hparent]
  rw [hup, makeDirectories, run_bind, hmake]
  simp only [run_bind, hask]
  rfl

/-- A draft that stands where nothing was is brought to its path. -/
theorem finish_eq_ok {draft : Location} (content : List UInt8) (hnamed : draft ≠ [])
    (hfresh : w.tree.node? draft = none) (hplace : w.tree.place w.current p .busy = .ok goal)
    (hslashed : p.slashed = false) (hgoal : w.tree.node? goal ≠ some .directory) :
    ∃ tree, (World.machine execute).finish draft p content
        { w with tree := w.tree.put draft (.file [] false) } = (.ok (), { w with tree }) ∧
      tree.find w.current p = .ok (goal, .file content false) := by
  have hnone : w.tree.node? draft ≠ some .directory := by simp [hfresh]
  have hempty : (w.tree.put draft (.file [] false)).node? draft = some (.file [] false) :=
    node?_put_self hnamed
  obtain ⟨tree, htree⟩ : ∃ tree, (w.tree.put draft (.file [] false)).put draft
      (.file content false) = tree := ⟨_, rfl⟩
  have happend : (w.tree.put draft (.file [] false)).append draft content = tree :=
    (append_file hempty content).trans htree
  have hdraft : tree.node? draft = some (.file content false) := by
    rw [← htree]
    exact node?_put_self hnamed
  have hwritten : tree.node? draft ≠ some .directory := by simp [hdraft]
  have hkeeps (loc : Location) (hdirectory : w.tree.node? loc = some .directory) :
      tree.node? loc = some .directory := by
    rw [← htree]
    exact directory_put (by simp [hempty]) (directory_put hnone hdirectory)
  have hfile : tree.node? goal ≠ some .directory := by
    by_cases hloc : goal = draft
    · rwa [hloc]
    · rwa [← htree, node?_put_of_ne hloc, node?_put_of_ne hloc]
  have hrename := rename_of_place (place_mono hplace hkeeps) hslashed hfile hdraft
  refine ⟨(tree.erase draft).put goal (.file content false), ?_, ?_⟩
  · have hpersist : (World.machine execute).persist draft p { w with tree } =
        (.ok (), { w with tree := (tree.erase draft).put goal (.file content false) }) := by
      simp only [World.machine, World.change, hrename]
    have hwrite : (World.machine execute).writeDraft draft content
        { w with tree := w.tree.put draft (.file [] false) } = (.ok (), { w with tree }) := by
      simp only [World.machine, World.change, happend]
    rw [finish, run_bind, hwrite]
    exact hpersist
  · refine find_file hplace (fun loc hdirectory => ?_) hslashed
      (node?_put_self (ne_nil_of_place hplace))
    exact directory_move hwritten hfile (hkeeps loc hdirectory)

/-- Without mishaps a file is written: its directory has to be there, and the path may not lead to a
directory. -/
theorem writeAtomically_eq_ok (hparent : w.tree.find w.current p.parent = .ok (dir, .directory))
    (hplace : w.tree.place w.current p .busy = .ok goal) (hslashed : p.slashed = false)
    (hgoal : w.tree.node? goal ≠ some .directory) (text : String) :
    ∃ tree, (World.machine execute).writeAtomically p text w = (.ok (), { w with tree }) ∧
      tree.readFile w.current p = .ok (bytes text.toList) := by
  obtain ⟨draft, made, hmade⟩ := createDraft_of_find hparent
  obtain ⟨hnamed, hfresh, rfl⟩ := createDraft_cases hmade
  have hcreate : (World.machine execute).createDraft p.parent w =
      (.ok draft, { w with tree := w.tree.put draft (.file [] false) }) := by
    simp only [World.machine, hmade]
  obtain ⟨tree, hfinish, hfind⟩ := finish_eq_ok execute (bytes text.toList) hnamed hfresh hplace
    hslashed hgoal
  refine ⟨tree, ?_, ?_⟩
  · rw [writeAtomically, run_bind, makeDirectories_of_find execute hparent]
    simp only [run_bind, hcreate, hfinish]
    rfl
  · rw [FileTree.readFile, hfind]
    rfl

end Success

end Calque.Machine
