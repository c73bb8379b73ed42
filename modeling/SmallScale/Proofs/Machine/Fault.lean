import SmallScale.Proofs.Machine.ControlAddress
import SmallScale.Proofs.Machine.History
import SmallScale.Proofs.Machine.Mishap

namespace SmallScale

/-!
# Faults

A cycle of a machine in shape fails for two reasons only.  The word at the fetch
address holds a pattern that the opcode table does not have, or it holds an
instruction that uses the store, with an operand past the last word.  Which of
the two it is, and with what message, is settled by the fetched word alone.

The other errors are there for words and stores that a machine in shape never
has: a word that ends before its fields do, a word of another width, a row for
`NUM`.  With a row for every pattern and a word for every operand no cycle fails,
whatever the store holds and whatever happens to the machine in between.
-/

namespace Model

/-- Every pattern has a row and every operand an address of the store. -/
structure Total (model : Model) : Prop where
  declared : ∀ pattern : Word, pattern.length = model.opcode.length →
    ∃ m, ⟨pattern, m⟩ ∈ model.opcodes
  roomy : 2 ^ model.address.length ≤ model.wordCount

end Model

namespace Machine

/-- What a cycle fails with, read off the word at the fetch address. -/
inductive Faults (machine : Machine) : MachineError → Prop where
  /-- The opcode field holds a pattern that has no row. -/
  | undeclared {w : Word} (fetched : machine.store.get machine.fetchAddress = .ok w)
      (noRow : ∀ m, ⟨machine.model.opcodeField w, m⟩ ∉ machine.model.opcodes) :
      Faults machine (.decode (.unknownOpcode (machine.model.opcodeField w)))
  /-- An instruction that uses the store has an operand past the last word. -/
  | outside {w : Word} {m : Mnemonic} (fetched : machine.store.get machine.fetchAddress = .ok w)
      (row : ⟨machine.model.opcodeField w, m⟩ ∈ machine.model.opcodes)
      (uses : m.usesStore = true)
      (past : machine.model.wordCount ≤ (machine.model.addressField w).unsigned) :
      Faults machine
        (.store (.addressOutOfRange (machine.model.addressField w).unsigned
          machine.model.wordCount))

variable {model : Model} {machine : Machine} {w : Word} {e : MachineError}

/-! ## The fetched word -/

theorem Shaped.neededBits_le (shaped : machine.Shaped) {address : Nat}
    (stored : machine.store.get address = .ok w) : machine.model.neededBits ≤ w.length :=
  shaped.store.length_of_get stored ▸ machine.model.neededBits_le

theorem Shaped.length_opcodeField (shaped : machine.Shaped) {address : Nat}
    (stored : machine.store.get address = .ok w) :
    (machine.model.opcodeField w).length = machine.model.opcode.length :=
  Word.length_extract (shaped.store.length_of_get stored ▸ machine.model.opcode_inside)

/-! ## Faults of cycles -/

/-- Of the reasons for which a cycle of any machine fails, those two are left where
the machine is in shape. -/
theorem Shaped.mishap_iff (shaped : machine.Shaped) : machine.Mishap e ↔ machine.Faults e := by
  have sameCount := shaped.store.wordCount_eq
  have sameWidth : machine.registers.accumulator.length = machine.store.wordLength :=
    shaped.accumulator_length.trans shaped.store.wordLength_eq.symm
  constructor
  · intro mishap
    cases mishap with
    | unfetched past =>
        rw [sameCount] at past
        exact (Nat.not_le_of_lt machine.fetchAddress_lt past).elim
    | truncated fetched short =>
        exact (Nat.not_lt_of_le (shaped.neededBits_le fetched) short).elim
    | undeclared fetched wide noRow => exact .undeclared fetched noRow
    | misfit fetched decoded stores narrow => exact (narrow sameWidth).elim
    | outside fetched decoded uses fits past =>
        rcases Model.decode_eq_ok_iff.mp decoded with ⟨_, row, operandRead⟩
        rw [sameCount, operandRead] at past ⊢
        exact .outside fetched row uses past
  · intro fault
    cases fault with
    | undeclared fetched noRow => exact .undeclared fetched (shaped.neededBits_le fetched) noRow
    | outside fetched row uses past =>
        have decoded := Model.decode_of_row (shaped.neededBits_le fetched) row
        rw [← sameCount] at past ⊢
        exact .outside fetched decoded uses (fun _ => sameWidth) past

/-- A cycle of a machine in shape fails exactly on a fault, and with that fault. -/
theorem Shaped.step_error_iff (shaped : machine.Shaped) (e : MachineError) :
    machine.step.2 = .error e ↔ machine.Faults e :=
  (machine.step_error_iff e).trans shaped.mishap_iff

/-! ## Machines that never fail -/

theorem not_faults_of_total (total : machine.model.Total) (shaped : machine.Shaped) :
    ¬ machine.Faults e := by
  intro fault
  cases fault with
  | undeclared fetched noRow =>
      rcases total.declared _ (shaped.length_opcodeField fetched) with ⟨m, row⟩
      exact noRow m row
  | outside fetched row uses past =>
      have small := Model.unsigned_addressField_lt (shaped.neededBits_le fetched)
      exact Nat.not_lt_of_le past (Nat.lt_of_lt_of_le small total.roomy)

theorem exists_executed_of_total (total : machine.model.Total) (shaped : machine.Shaped) :
    ∃ executed, machine.step.2 = .ok executed := by
  have sound : ∀ e, ¬ machine.Mishap e := by
    intro e mishap
    exact not_faults_of_total total shaped (shaped.mishap_iff.mp mishap)
  rcases exists_step_of_no_mishap sound with ⟨after, executed, stepped⟩
  exact ⟨executed, by rw [stepped]⟩

/-! ## Outcomes of everything that happens

What holds of the outcome of a cycle of any machine in shape holds of every
outcome of a run, of an activity and of a history, because machines stay in shape
between the cycles.
-/

section

variable {good : Outcome → Prop}
  (steps : ∀ machine : Machine, machine.model = model → machine.Shaped → good machine.step.2)

include steps

theorem runOutcomes_all (limit : Nat) (same : machine.model = model) (shaped : machine.Shaped) :
    ∀ outcome ∈ runOutcomes limit machine, good outcome := by
  induction limit generalizing machine with
  | zero => exact List.forall_mem_nil _
  | succ rest ih =>
      have first := steps machine same shaped
      have nextSame := machine.model_step.trans same
      have nextShaped := shaped.step
      unfold runOutcomes
      split
      · cases result : machine.step with
        | mk after outcome =>
            rw [result] at first nextSame nextShaped
            cases outcome with
            | error e => exact List.forall_mem_singleton.mpr first
            | ok executed => exact List.forall_mem_cons.mpr ⟨first, ih nextSame nextShaped⟩
      · exact List.forall_mem_nil _

theorem loopOutcomes_all (schedule : List (List ControlAction)) {loop : ControlLoop}
    (same : loop.machine.model = model) (shaped : loop.machine.Shaped) :
    ∀ outcome ∈ loop.outcomes schedule, good outcome := by
  induction schedule generalizing loop with
  | nil => exact List.forall_mem_nil _
  | cons actions later ih =>
      have disturbed := progress_interfere loop actions
      have accessed := progress_advance (actions.foldl ControlLoop.interfere loop)
      have now := steps _ (disturbed.model_eq.trans same) (disturbed.shaped shaped)
      refine List.forall_mem_append.mpr ⟨?_, ?_⟩
      · intro outcome member
        rw [Option.mem_toList, ControlLoop.outcome?] at member
        split at member
        · cases member
          exact now
        · cases member
      · apply ih
        · exact accessed.model_eq.trans (disturbed.model_eq.trans same)
        · exact accessed.shaped (disturbed.shaped shaped)

theorem outcomes_all (activity : Activity) (same : machine.model = model)
    (shaped : machine.Shaped) : ∀ outcome ∈ machine.outcomes activity, good outcome := by
  cases activity with
  | operation operation =>
      cases operation with
      | step => exact List.forall_mem_singleton.mpr (steps machine same shaped)
      | run limit => exact runOutcomes_all steps limit same ((shaped.act _).act _)
      | load source => exact List.forall_mem_nil _
      | setWord address w => exact List.forall_mem_nil _
      | clearStore => exact List.forall_mem_nil _
      | clearRegisters => exact List.forall_mem_nil _
  | control action => exact List.forall_mem_nil _
  | takeRequest => exact List.forall_mem_nil _
  | loop schedule => exact loopOutcomes_all steps schedule same shaped

theorem allOutcomes_all (activities : List Activity) (same : machine.model = model)
    (shaped : machine.Shaped) : ∀ outcome ∈ machine.allOutcomes activities, good outcome := by
  induction activities generalizing machine with
  | nil => exact List.forall_mem_nil _
  | cons activity later ih =>
      have progress := progress_undergo machine activity
      refine List.forall_mem_append.mpr ⟨outcomes_all steps activity same shaped, ?_⟩
      exact ih (progress.model_eq.trans same) (progress.shaped shaped)

end

/-- A cycle of a reachable machine fails exactly if the word at the fetch address
has an opcode without a row or an operand past the store, and with the error that
names it.  The errors for malformed words never occur, nor does an operand of more
than 64 bits.  A model with a row for every pattern and a word for every operand
never fails: from no contents of the store and in no history. -/
theorem step_fails_exactly_on_faults (reached : Reachable model machine) :
    machine.fetchAddress = (machine.registers.controlValue + 1) % model.wordCount ∧
      (∀ e, machine.step.2 = .error e ↔ machine.Faults e) ∧
      (∀ e, machine.step.2 = .error e →
        (∀ m, e ≠ .notExecutable m) ∧ (∀ width needed, e ≠ .decode (.truncated width needed)) ∧
          ∀ expected found, e ≠ .store (.widthMismatch expected found)) ∧
      (∀ w i, machine.store.get machine.fetchAddress = .ok w → model.decode w = .ok i →
        i.operand < UInt64.size) ∧
      (model.Total → ∀ store, store.Shaped model.wordLength model.wordCount →
        ∀ activities, ∀ outcome ∈ (machine.withStore store).allOutcomes activities,
          ∃ executed, outcome = .ok executed) := by
  have sameModel := reached.model_eq
  subst sameModel
  have shaped := reached.shaped
  refine ⟨machine.fetchAddress_eq, shaped.step_error_iff, ?_, ?_, ?_⟩
  · intro e failed
    cases (shaped.step_error_iff e).mp failed with
    | undeclared => exact ⟨nofun, nofun, nofun⟩
    | outside => exact ⟨nofun, nofun, nofun⟩
  · intro w i fetched decoded
    rw [Model.operand_of_decode decoded]
    exact Word.unsigned_lt _
  · intro total store fits activities
    have storeShaped : (machine.withStore store).Shaped := shaped.withStore fits
    refine allOutcomes_all ?_ activities rfl storeShaped
    intro other same otherShaped
    exact exists_executed_of_total (same ▸ total) otherShaped

/-- The machine of 1948 has a row for each of the eight patterns and a word for
each of the 32 operands. -/
theorem total_smallScale : Model.smallScale.Total where
  declared := by
    rintro ⟨bits⟩ wide
    match bits, wide with
    | [first, second, third], _ =>
        have known : (Model.smallScale.mnemonicOf? ⟨[first, second, third]⟩).isSome := by
          revert first second third
          decide
        rcases Option.isSome_iff_exists.mp known with ⟨m, found⟩
        exact ⟨m, Model.mnemonicOf?_eq_some_iff.mp found⟩
  roomy := Nat.le_refl 32

/-- With a word in the way whose opcode has no row, the first cycle of a new machine
of five words is refused by name.  The machine of 1948 never fails. -/
theorem step_fails_exactly_on_faults_fiveWords :
    (∃ machine, Reachable fiveWords machine ∧ machine.fetchAddress = 1 ∧
      machine.Faults (.decode (.unknownOpcode ⟨[true]⟩))) ∧
      ∀ activities, ∀ outcome ∈ (initial .smallScale).allOutcomes activities,
        ∃ executed, outcome = .ok executed := by
  constructor
  · have start : Reachable fiveWords (initial fiveWords) := .initial
    have reached := start.after (.setWord 1 ⟨[false, true]⟩)
    have law := step_fails_exactly_on_faults reached
    exact ⟨_, reached, law.1, (law.2.1 _).mp rfl⟩
  · have law := step_fails_exactly_on_faults (.initial : Reachable .smallScale _)
    exact law.2.2.2.2 total_smallScale _ (Store.shaped_empty 32 32)

end Machine
end SmallScale
