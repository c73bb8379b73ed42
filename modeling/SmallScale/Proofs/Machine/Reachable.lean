import SmallScale.Machine.Run
import SmallScale.Proofs.Machine.Shape
import SmallScale.Proofs.Program.Loading

namespace SmallScale
namespace Machine

/-!
# Machines that can be reached

A machine is worked with from outside by loading programs, writing words,
executing cycles and clearing.  The machines that a new one can be turned into
in this way are the reachable ones.  They keep their model and are in shape:
whatever an operation does to a machine, it is refused or it keeps the widths.
-/

/-- What can be done with a machine from outside. -/
inductive Operation where
  | load (source : String)
  | setWord (address : Nat) (w : Word)
  | step
  | run (limit : Nat)
  | clearStore
  | clearRegisters

/-- The machine after an operation.  A refused one changes nothing. -/
def perform (machine : Machine) : Operation → Machine
  | .load source =>
      match machine.load source with
      | .ok after => after
      | .error _ => machine
  | .setWord address w =>
      match machine.store.set address w with
      | .ok store => machine.withStore store
      | .error _ => machine
  | .step => machine.step.1
  | .run limit => (machine.runToHalt limit).1
  | .clearStore => machine.clearStore
  | .clearRegisters => machine.clearRegisters

/-- The machines that operations make from a new one. -/
inductive Reachable (model : Model) : Machine → Prop where
  | initial : Reachable model (initial model)
  | after {machine : Machine} (reached : Reachable model machine) (operation : Operation) :
      Reachable model (machine.perform operation)

/-! ## Runs -/

/-- A run keeps what cycles and the control surface keep. -/
theorem continueRun_keeps (kept : Machine → Prop)
    (keptByStep : ∀ machine, kept machine → kept machine.step.1)
    (keptByAct : ∀ machine action, kept machine → kept (machine.act action)) (limit count : Nat)
    {machine : Machine} (keeps : kept machine) : kept (continueRun limit count machine).1 := by
  induction limit generalizing count machine with
  | zero => exact keeps
  | succ rest ih =>
      have stepped := keptByStep machine keeps
      unfold continueRun
      split
      · cases result : machine.step with
        | mk after outcome =>
            rw [result] at stepped
            cases outcome with
            | error e => exact keptByAct after _ stepped
            | ok executed => exact ih (count + 1) stepped
      · exact keeps

theorem runToHalt_keeps (kept : Machine → Prop)
    (keptByStep : ∀ machine, kept machine → kept machine.step.1)
    (keptByAct : ∀ machine action, kept machine → kept (machine.act action)) (limit : Nat)
    {machine : Machine} (keeps : kept machine) : kept (machine.runToHalt limit).1 :=
  continueRun_keeps kept keptByStep keptByAct limit 0 (keptByAct _ _ (keptByAct _ _ keeps))

/-! ## Operations -/

variable {model : Model} {machine : Machine}

theorem model_perform (machine : Machine) (operation : Operation) :
    (machine.perform operation).model = machine.model := by
  cases operation with
  | load source =>
      simp only [perform, load]
      cases Program.load machine.model source machine.store <;> rfl
  | setWord address w =>
      simp only [perform]
      cases machine.store.set address w <;> rfl
  | step => exact machine.model_step
  | run limit =>
      apply runToHalt_keeps fun other => other.model = machine.model
      · intro other same
        exact (model_step other).trans same
      · intro other action same
        exact same
      · rfl
  | clearStore => rfl
  | clearRegisters => rfl

theorem Shaped.perform (shaped : machine.Shaped) (operation : Operation) :
    (machine.perform operation).Shaped := by
  cases operation with
  | load source =>
      simp only [Machine.perform, Machine.load]
      cases loaded : Program.load machine.model source machine.store with
      | error e => exact shaped
      | ok image =>
          have inShape := Program.shaped_of_load loaded
          rw [shaped.store.wordCount_eq] at inShape
          exact shaped.withStore inShape
  | setWord address w =>
      simp only [Machine.perform]
      cases replaced : machine.store.set address w with
      | error e => exact shaped
      | ok store => exact shaped.withStore (shaped.store.set replaced)
  | step => exact shaped.step
  | run limit =>
      apply runToHalt_keeps Shaped
      · intro other otherShaped
        exact otherShaped.step
      · intro other action otherShaped
        exact otherShaped.act action
      · exact shaped
  | clearStore => exact shaped.clearStore
  | clearRegisters => exact shaped.clearRegisters

namespace Reachable

theorem model_eq (reached : Reachable model machine) : machine.model = model := by
  induction reached with
  | initial => rfl
  | after reached operation ih => exact (model_perform _ operation).trans ih

theorem shaped (reached : Reachable model machine) : machine.Shaped := by
  induction reached with
  | initial => exact shaped_initial model
  | after reached operation ih => exact ih.perform operation

end Reachable

end Machine
end SmallScale
