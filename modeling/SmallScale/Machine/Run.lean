import SmallScale.Machine

namespace SmallScale
namespace Machine

/-!
# Bounded runs

A run executes cycles until the machine stops itself, a cycle fails, or a given
number of cycles is done.  A traced run also keeps a row for every executed
instruction; it leaves the run flag set when a cycle fails.
-/

/-- Execute at most `limit` cycles while the run flag is set and nobody asks for
the end.  `count` cycles are done already; a failing cycle clears the flag. -/
def continueRun (limit count : Nat) (machine : Machine) : Machine × Except MachineError Nat :=
  match limit with
  | 0 => (machine, .ok count)
  | rest + 1 =>
      if machine.controls.running && !machine.controls.cancelled then
        match machine.step with
        | (after, .error e) => (after.act (.setRunning false), .error e)
        | (after, .ok _) => continueRun rest (count + 1) after
      else (machine, .ok count)

/-- Run to the halt, for at most `limit` cycles.  The number of cycles is
returned.  A request to end some earlier run is dropped. -/
def runToHalt (machine : Machine) (limit : Nat) : Machine × Except MachineError Nat :=
  continueRun limit 0 ((machine.act .withdrawCancel).act (.setRunning true))

/-- An executed instruction with the registers after it. -/
structure TraceRow where
  executed : Executed
  registers : Registers

/-- A traced run: the machine after it, a row for every executed instruction, and
the failure that ended it, if one did. -/
structure Trace where
  machine : Machine
  rows : List TraceRow
  failure : Option MachineError

/-- Execute at most `limit` cycles while the run flag is set.  The rows of the
cycles before, latest first, come in front of those added here. -/
def continueTrace (limit : Nat) (before : List TraceRow) (machine : Machine) : Trace :=
  match limit with
  | 0 => ⟨machine, before.reverse, none⟩
  | rest + 1 =>
      if machine.controls.running then
        match machine.step with
        | (after, .error e) => ⟨after, before.reverse, some e⟩
        | (after, .ok executed) =>
            continueTrace rest (⟨executed, after.registers⟩ :: before) after
      else ⟨machine, before.reverse, none⟩

/-- Run to the halt, for at most `limit` cycles, and keep a row for each. -/
def trace (machine : Machine) (limit : Nat) : Trace :=
  continueTrace limit [] (machine.act (.setRunning true))

end Machine
end SmallScale
