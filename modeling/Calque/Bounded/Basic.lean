import Calque.Text.Slice
import Mathlib.Algebra.Group.Nat.Defs
import Mathlib.Data.PFun

namespace Calque

inductive Bounded.Fault
  /-- A place past the end of an array. -/
  | index
  /-- A part whose ends are out of order, past the end, or in the middle of a character. -/
  | slice
  /-- A sum past the largest number. -/
  | overflow
  /-- A difference below zero. -/
  | underflow
  deriving DecidableEq, Repr

/-- A result, or a fault, or nothing at all if the computation does not end. -/
abbrev Bounded (α : Type) := ExceptT Bounded.Fault Part α

namespace Bounded

variable {α σ : Type}

def add (a b : Nat) : Bounded Nat :=
  if a + b < 2 ^ 64 then pure (a + b) else throw .overflow

def sub (a b : Nat) : Bounded Nat :=
  if b ≤ a then pure (a - b) else throw .underflow

def read (xs : List α) (i : Nat) : Bounded α :=
  match xs[i]? with
  | some x => pure x
  | none => throw .index

def write (xs : List α) (i : Nat) (x : α) : Bounded (List α) :=
  if i < xs.length then pure (xs.set i x) else throw .index

def window (xs : List α) (start stop : Nat) : Bounded (List α) :=
  if start ≤ stop ∧ stop ≤ xs.length then pure ((xs.take stop).drop start) else throw .slice

def boundary (text : List Char) (pos : Nat) : Bool := width (takeBytes pos text) = pos

def cut (text : List Char) (start stop : Nat) : Bounded (List Char) :=
  if start ≤ stop ∧ boundary text start ∧ boundary text stop then pure (slice start stop text)
  else throw .slice

def filter (p : α → Bounded Bool) : List α → Bounded (List α)
  | [] => pure []
  | x :: xs => do
    let holds ← p x
    let rest ← filter p xs
    return if holds then x :: rest else rest

def round (goes : σ → Bool) (body : σ → Bounded σ) (s : σ) : Part (Except Fault σ ⊕ σ) :=
  if goes s then
    (body s).run.map fun
      | .ok s' => .inr s'
      | .error fault => .inl (.error fault)
  else
    pure (.inl (.ok s))

def loop (goes : σ → Bool) (body : σ → Bounded σ) (s : σ) : Bounded σ :=
  .mk (PFun.fix (round goes body) s)

theorem add_eq {a b : Nat} (h : a + b < 2 ^ 64) : add a b = pure (a + b) := if_pos h

theorem sub_eq {a b : Nat} (h : b ≤ a) : sub a b = pure (a - b) := if_pos h

theorem read_eq {xs : List α} {i : Nat} {x : α} (h : xs[i]? = some x) : read xs i = pure x := by
  rw [read, h]

theorem write_eq {xs : List α} {i : Nat} (h : i < xs.length) (x : α) :
    write xs i x = pure (xs.set i x) := if_pos h

theorem window_eq {xs : List α} {start stop : Nat} (h : start ≤ stop) (hstop : stop ≤ xs.length) :
    window xs start stop = pure ((xs.take stop).drop start) := if_pos ⟨h, hstop⟩

theorem cut_eq {text : List Char} {start stop : Nat} (h : start ≤ stop)
    (hstart : boundary text start = true) (hstop : boundary text stop = true) :
    cut text start stop = pure (slice start stop text) := if_pos ⟨h, hstart, hstop⟩

theorem boundary_append (a b : List Char) : boundary (a ++ b) (width a) = true := by
  rw [boundary, takeBytes_append, decide_eq_true rfl]

theorem filter_eq {p : α → Bounded Bool} {q : α → Bool} {xs : List α}
    (h : ∀ x ∈ xs, p x = pure (q x)) : filter p xs = pure (xs.filter q) := by
  induction xs with
  | nil => rfl
  | cons x xs ih =>
      rw [filter, h x (by simp), pure_bind, ih fun y hy => h y (by simp [hy]), pure_bind,
        List.filter_cons]

theorem loop_stop {goes : σ → Bool} (body : σ → Bounded σ) {s : σ} (h : goes s = false) :
    loop goes body s = pure s := by
  have hround : Sum.inl (.ok s) ∈ round goes body s := by
    rw [round, if_neg (by simp [h])]
    exact Part.mem_some _
  exact Part.eq_some_iff.mpr (PFun.fix_stop hround)

theorem loop_round {goes : σ → Bool} {body : σ → Bounded σ} {s s' : σ} (h : goes s = true)
    (hbody : body s = pure s') : loop goes body s = loop goes body s' := by
  have hround : Sum.inr s' ∈ round goes body s := by
    rw [round, if_pos h, hbody]
    exact Part.mem_map _ (Part.mem_some _)
  exact congrArg ExceptT.mk (PFun.fix_fwd_eq hround)

/-- A loop ends if every round keeps the invariant and leaves less to do. -/
theorem loop_ends {goes : σ → Bool} {body : σ → Bounded σ} (Inv : σ → Prop) (rest : σ → Nat)
    (hbody : ∀ s, Inv s → goes s = true → ∃ s', body s = pure s' ∧ Inv s' ∧ rest s' < rest s)
    {s : σ} (hs : Inv s) : ∃ s', loop goes body s = pure s' ∧ Inv s' ∧ goes s' = false := by
  induction hn : rest s using Nat.strongRecOn generalizing s with
  | ind n ih =>
      cases hg : goes s with
      | false => exact ⟨s, loop_stop body hg, hs, hg⟩
      | true =>
          obtain ⟨s', hb, hs', hlt⟩ := hbody s hs hg
          rw [loop_round hg hb]
          exact ih _ (hn ▸ hlt) hs' rfl

/-- A walk over an array has a result if every step has. -/
theorem foldlM_eq {f : σ → α → Bounded σ} (state : Nat → σ) {xs : List α}
    (h : ∀ k x, xs[k]? = some x → f (state k) x = pure (state (k + 1))) :
    xs.foldlM f (state 0) = pure (state xs.length) := by
  induction xs generalizing state with
  | nil => rfl
  | cons x xs ih =>
      rw [List.foldlM_cons, h 0 x rfl, pure_bind, List.length_cons]
      exact ih (fun k => state (k + 1)) fun k y hy => h (k + 1) y hy

end Bounded

end Calque
