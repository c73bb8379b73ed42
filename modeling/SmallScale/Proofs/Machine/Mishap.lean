import SmallScale.Proofs.Instruction.Canonical
import SmallScale.Proofs.Machine.Shape

namespace SmallScale
namespace Machine

/-!
# What a cycle can fail with

A cycle of a machine fails for one of five reasons, each with its own error.  The
machine need not be in shape: its registers may be of any width, its store may have
any number of words, and these may be of any width as well.  Nothing but the parts
that a cycle looks at decides whether it fails.
-/

/-- Why a cycle of any machine fails.  Of the widths that may disagree only those of
the accumulator and the store are compared. -/
inductive Mishap (machine : Machine) : MachineError → Prop where
  /-- The store ends before the fetch address. -/
  | unfetched (past : machine.store.wordCount ≤ machine.fetchAddress) :
      Mishap machine (.store (.addressOutOfRange machine.fetchAddress machine.store.wordCount))
  /-- The fetched word ends before one of the two fields does. -/
  | truncated {w : Word} (fetched : machine.store.get machine.fetchAddress = .ok w)
      (short : w.length < machine.model.neededBits) :
      Mishap machine (.decode (.truncated w.length machine.model.neededBits))
  /-- The opcode field holds a pattern that has no row. -/
  | undeclared {w : Word} (fetched : machine.store.get machine.fetchAddress = .ok w)
      (wide : machine.model.neededBits ≤ w.length)
      (noRow : ∀ m, ⟨machine.model.opcodeField w, m⟩ ∉ machine.model.opcodes) :
      Mishap machine (.decode (.unknownOpcode (machine.model.opcodeField w)))
  /-- The accumulator is to be stored among words of another width. -/
  | misfit {w : Word} {i : Instruction}
      (fetched : machine.store.get machine.fetchAddress = .ok w)
      (decoded : machine.model.decode w = .ok i) (stores : i.mnemonic = .sto)
      (narrow : machine.registers.accumulator.length ≠ machine.store.wordLength) :
      Mishap machine
        (.store (.widthMismatch machine.store.wordLength machine.registers.accumulator.length))
  /-- The store ends before the operand of an instruction that uses it. -/
  | outside {w : Word} {i : Instruction}
      (fetched : machine.store.get machine.fetchAddress = .ok w)
      (decoded : machine.model.decode w = .ok i) (uses : i.mnemonic.usesStore = true)
      (fits : i.mnemonic = .sto →
        machine.registers.accumulator.length = machine.store.wordLength)
      (past : machine.store.wordCount ≤ i.operand) :
      Mishap machine (.store (.addressOutOfRange i.operand machine.store.wordCount))

variable {machine : Machine} {e : MachineError}

theorem step_of_unfetched (past : machine.store.wordCount ≤ machine.fetchAddress) :
    machine.step = (machine.advanced,
      .error (.store (.addressOutOfRange machine.fetchAddress machine.store.wordCount))) := by
  have missing : machine.advanced.operandWord machine.fetchAddress =
      .error (.store (.addressOutOfRange machine.fetchAddress machine.store.wordCount)) := by
    have absent : machine.advanced.store.get machine.fetchAddress = _ := Store.get_of_le past
    rw [operandWord, absent]
    rfl
  simp only [step, executeAt, instructionAt, missing]

theorem step_of_mishap (mishap : machine.Mishap e) : machine.step = (machine.advanced, .error e) := by
  cases mishap with
  | unfetched past => exact step_of_unfetched past
  | truncated fetched short =>
      exact step_of_decode_error fetched (Model.decode_eq_truncated_iff.mpr ⟨short, rfl, rfl⟩)
  | undeclared fetched wide noRow =>
      exact step_of_decode_error fetched
        (Model.decode_eq_unknownOpcode_iff.mpr ⟨wide, rfl, noRow⟩)
  | @misfit w i fetched decoded stores narrow =>
      apply step_of_execute_error fetched decoded
      have refused : machine.advanced.store.set i.operand machine.advanced.registers.accumulator =
          .error (.widthMismatch machine.store.wordLength machine.registers.accumulator.length) :=
        if_pos narrow
      simp only [execute, stores, refused, mapError_error, Except.map]
  | outside fetched decoded uses fits past =>
      exact step_of_execute_error fetched decoded (execute_of_le uses past fits)

theorem exists_step_of_no_mishap (sound : ∀ e, ¬ machine.Mishap e) :
    ∃ after executed, machine.step = (after, .ok executed) := by
  have reaches : machine.fetchAddress < machine.store.wordCount :=
    Nat.lt_of_not_le fun past => sound _ (.unfetched past)
  rcases Store.exists_get_of_lt reaches with ⟨w, fetched⟩
  have wide : machine.model.neededBits ≤ w.length :=
    Nat.le_of_not_lt fun short => sound _ (.truncated fetched short)
  cases declared : machine.model.mnemonicOf? (machine.model.opcodeField w) with
  | none =>
      exact (sound _ (.undeclared fetched wide (Model.mnemonicOf?_eq_none_iff.mp declared))).elim
  | some m =>
      have row := Model.mnemonicOf?_eq_some_iff.mp declared
      have decoded := Model.decode_of_row wide row
      have fits : m = .sto →
          machine.registers.accumulator.length = machine.store.wordLength := by
        intro stores
        by_contra narrow
        exact sound _ (.misfit fetched decoded stores narrow)
      have inside : m.usesStore = true →
          (machine.model.addressField w).unsigned < machine.store.wordCount := by
        intro uses
        exact Nat.lt_of_not_le fun past => sound _ (.outside fetched decoded uses fits past)
      have affects : ∃ done, Effect machine.advanced
          ⟨m, (machine.model.addressField w).unsigned⟩ done := by
        apply exists_effect_of_access
        · exact Model.ne_num_of_row row
        · exact inside
        · exact fits
      rcases affects with ⟨done, effect⟩
      exact ⟨_, _, step_eq_ok_iff.mpr ⟨w, _, done, fetched, decoded, effect, rfl, rfl⟩⟩

/-- A cycle fails exactly on a mishap, and with that mishap. -/
theorem step_error_iff (machine : Machine) (e : MachineError) :
    machine.step.2 = .error e ↔ machine.Mishap e := by
  constructor
  · intro failed
    by_cases sound : ∀ e, ¬ machine.Mishap e
    · rcases exists_step_of_no_mishap sound with ⟨after, executed, stepped⟩
      rw [stepped] at failed
      cases failed
    · rcases not_forall_not.mp sound with ⟨other, mishap⟩
      rw [step_of_mishap mishap] at failed
      cases failed
      exact mishap
  · intro mishap
    rw [step_of_mishap mishap]

end Machine
end SmallScale
