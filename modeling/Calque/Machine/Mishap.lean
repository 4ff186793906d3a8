import Calque.Machine.World

namespace Calque.Machine

structure Mishap where
  fault : Fault
  /-- The number of bytes that come through where the step is a write. -/
  written : Nat

structure Course where
  world : World
  steps : Nat

def steady {α : Type} (step : StateM World α) : StateM Course α := fun c =>
  let done := step c.world
  (done.1, ⟨done.2, c.steps + 1⟩)

def attempt {α : Type} (mishaps : Nat → Option Mishap) (step : StateM World α)
    (spoil : Mishap → StateM World α) : StateM Course α := fun c =>
  match mishaps c.steps with
  | none => steady step c
  | some mishap => steady (spoil mishap) c

def refuse {α : Type} (mishap : Mishap) : StateM World (Except Fault α) :=
  pure (.error mishap.fault)

end Calque.Machine
