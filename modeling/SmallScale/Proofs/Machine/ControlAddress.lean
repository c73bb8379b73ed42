import SmallScale.Proofs.Machine.Reachable

namespace SmallScale
namespace Machine

/-!
# The control instruction and the fetch address

A cycle fetches from the address after the control instruction and writes that
address back as the new control instruction.  The address is counted modulo the
number of words of the store, and what is written back is cut to the bits of a
word.  Both are the same number as long as every address fits a word.

A model may have more words than a word can address.  Then an address that does
not fit can be reached with any opcode that the model has, and a cycle there
leaves the control instruction somewhere else.
-/

/-- The cycle goes on to the next address: it is no jump and no skip that is
taken. -/
def GoesOn (machine : Machine) (executed : Executed) : Prop :=
  executed.mnemonic ≠ .jmp ∧ executed.mnemonic ≠ .jrp ∧
    ¬ (executed.mnemonic = .cmp ∧ machine.registers.accumulatorValue < 0)

/-- Cycles one after the other that succeed and go on to the next address. -/
inductive StraightRun : Machine → List Executed → Machine → Prop where
  | nil {machine : Machine} : StraightRun machine [] machine
  | cons {machine middle after : Machine} {executed : Executed} {others : List Executed}
      (stepped : machine.step = (middle, .ok executed)) (goesOn : machine.GoesOn executed)
      (rest : StraightRun middle others after) : StraightRun machine (executed :: others) after

/-- In a cycle that succeeds, the control instruction is advanced to the address
of the fetch.  Unless the instruction changes it, it stays there and the next
fetch is from the address after that, so a straight run visits one address after
the other. -/
structure ControlFollowsFetch (machine : Machine) : Prop where
  advanced_eq : ∀ after executed, machine.step = (after, .ok executed) →
    machine.advanced.registers.controlValue = executed.address
  goes_on : ∀ after executed, machine.step = (after, .ok executed) → machine.GoesOn executed →
    after.registers.controlValue = executed.address ∧
      after.fetchAddress = (executed.address + 1) % machine.model.wordCount
  straight : ∀ after visited, StraightRun machine visited after → ∀ (k : Nat) executed,
    visited[k]? = some executed →
      executed.address = (machine.fetchAddress + k) % machine.model.wordCount

variable {model : Model} {machine after : Machine} {executed : Executed}

/-! ## Stores that a word can address -/

theorem controlValue_advanced_of_le (shaped : machine.Shaped)
    (addressable : machine.model.wordCount ≤ 2 ^ machine.model.wordLength) :
    machine.advanced.registers.controlValue = machine.fetchAddress := by
  rw [shaped.controlValue_advanced]
  exact Nat.mod_eq_of_lt (Nat.lt_of_lt_of_le machine.fetchAddress_lt addressable)

theorem control_of_effect {i : Instruction} (effect : Effect machine i after)
    (noJump : i.mnemonic ≠ .jmp) (noRelativeJump : i.mnemonic ≠ .jrp)
    (noSkip : ¬ (i.mnemonic = .cmp ∧ machine.registers.accumulatorValue < 0)) :
    after.registers.control = machine.registers.control := by
  cases effect with
  | jmp stored => exact (noJump rfl).elim
  | jrp stored => exact (noRelativeJump rfl).elim
  | ldn stored => rfl
  | sto replaced => rfl
  | sub stored => rfl
  | skip negative => exact (noSkip ⟨rfl, negative⟩).elim
  | stay nonnegative => rfl
  | stp => rfl

theorem address_of_step (stepped : machine.step = (after, .ok executed)) :
    executed.address = machine.fetchAddress := by
  rcases step_eq_ok_iff.mp stepped with ⟨w, i, done, _, _, _, rfl, _⟩
  rfl

theorem control_of_step (stepped : machine.step = (after, .ok executed))
    (goesOn : machine.GoesOn executed) :
    after.registers.control = machine.advanced.registers.control := by
  rcases step_eq_ok_iff.mp stepped with ⟨w, i, done, _, _, effect, rfl, rfl⟩
  have kept : done.registers.control = machine.advanced.registers.control :=
    control_of_effect effect goesOn.1 goesOn.2.1 goesOn.2.2
  exact kept

theorem model_of_step (stepped : machine.step = (after, .ok executed)) :
    after.model = machine.model := by
  have kept := machine.model_step
  rwa [stepped] at kept

theorem Shaped.of_step (shaped : machine.Shaped) (stepped : machine.step = (after, .ok executed)) :
    after.Shaped := by
  have kept := shaped.step
  rwa [stepped] at kept

theorem fetchAddress_of_step (shaped : machine.Shaped)
    (addressable : machine.model.wordCount ≤ 2 ^ machine.model.wordLength)
    (stepped : machine.step = (after, .ok executed)) (goesOn : machine.GoesOn executed) :
    after.fetchAddress = (machine.fetchAddress + 1) % machine.model.wordCount := by
  rw [fetchAddress_eq, model_of_step stepped, Registers.controlValue,
    control_of_step stepped goesOn, ← controlValue_advanced_of_le shaped addressable]
  rfl

theorem address_of_straightRun {visited : List Executed} (run : StraightRun machine visited after)
    (shaped : machine.Shaped)
    (addressable : machine.model.wordCount ≤ 2 ^ machine.model.wordLength) (k : Nat)
    (atPlace : visited[k]? = some executed) :
    executed.address = (machine.fetchAddress + k) % machine.model.wordCount := by
  induction run generalizing k with
  | nil => cases atPlace
  | @cons machine middle after first others stepped goesOn rest ih =>
      cases k with
      | zero =>
          cases atPlace
          rw [address_of_step stepped, Nat.add_zero, Nat.mod_eq_of_lt machine.fetchAddress_lt]
      | succ k =>
          have sameModel := model_of_step stepped
          have next := fetchAddress_of_step shaped addressable stepped goesOn
          have address := ih (shaped.of_step stepped) (sameModel ▸ addressable) k atPlace
          rw [address, sameModel, next, Nat.mod_add_mod]
          congr 1
          omega

theorem controlFollowsFetch_of_le (shaped : machine.Shaped)
    (addressable : machine.model.wordCount ≤ 2 ^ machine.model.wordLength) :
    ControlFollowsFetch machine := by
  have advanced := controlValue_advanced_of_le shaped addressable
  refine ⟨?_, ?_, ?_⟩
  · intro after executed stepped
    rw [address_of_step stepped, advanced]
  · intro after executed stepped goesOn
    rw [address_of_step stepped]
    refine ⟨?_, fetchAddress_of_step shaped addressable stepped goesOn⟩
    rw [Registers.controlValue, control_of_step stepped goesOn]
    exact advanced
  · intro after visited run k executed atPlace
    exact address_of_straightRun run shaped addressable k atPlace

/-! ## Machines without instructions -/

theorem step_ne_ok_of_no_opcodes (noOpcodes : machine.model.opcodes = []) :
    machine.step ≠ (after, .ok executed) := by
  intro stepped
  rcases step_eq_ok_iff.mp stepped with ⟨w, i, done, _, decoded, _⟩
  unfold Model.decode Model.mnemonicOf? at decoded
  rw [noOpcodes] at decoded
  split at decoded <;> cases decoded

theorem controlFollowsFetch_of_no_opcodes (noOpcodes : machine.model.opcodes = []) :
    ControlFollowsFetch machine := by
  refine ⟨?_, ?_, ?_⟩
  · intro after executed stepped
    exact (step_ne_ok_of_no_opcodes noOpcodes stepped).elim
  · intro after executed stepped
    exact (step_ne_ok_of_no_opcodes noOpcodes stepped).elim
  · intro after visited run k executed atPlace
    cases run with
    | nil => cases atPlace
    | cons stepped => exact (step_ne_ok_of_no_opcodes noOpcodes stepped).elim

/-! ## Reaching every value of the control instruction -/

variable {pattern : Word} {m : Mnemonic}

/-- The word that an instruction with operand zero should find there so that it
leaves the control instruction alone. -/
def landing (machine : Machine) (m : Mnemonic) : Word :=
  if m = .jmp then machine.registers.control else Word.zero machine.model.wordLength

/-- An instruction with operand zero leaves the control instruction alone, unless
it is a skip that is taken. -/
theorem control_of_landing (shaped : machine.Shaped) (effect : Effect machine ⟨m, 0⟩ after)
    (stored : machine.store.get 0 = .ok (machine.landing m))
    (noSkip : m = .cmp → ¬ machine.registers.accumulatorValue < 0) :
    after.registers.control = machine.registers.control := by
  cases effect with
  | jmp found =>
      cases stored.symm.trans found
      rfl
  | jrp found =>
      cases stored.symm.trans found
      have still := Word.ofInt_signed shaped.control_le
      rw [shaped.control_length] at still
      have nothing : (machine.landing .jrp).signed = 0 :=
        Word.signed_zero machine.model.wordLength_le
      rw [nothing, Int.add_zero, still]
      rfl
  | ldn found => rfl
  | sto replaced => rfl
  | sub found => rfl
  | skip negative => exact (noSkip rfl negative).elim
  | stay nonnegative => rfl
  | stp => rfl

theorem accumulator_of_cmp {operand : Nat} (effect : Effect machine ⟨.cmp, operand⟩ after) :
    after.registers.accumulator = machine.registers.accumulator := by
  cases effect <;> rfl

/-- A written word is found at its address, and the others are as before. -/
theorem Shaped.perform_setWord (shaped : machine.Shaped) {address : Nat} {w : Word}
    (inside : address < machine.model.wordCount) (wide : w.length = machine.model.wordLength) :
    ∃ store, machine.perform (.setWord address w) = machine.withStore store ∧
      store.get address = .ok w ∧
      ∀ other, other ≠ address → store.get other = machine.store.get other := by
  have room : address < machine.store.wordCount := shaped.store.wordCount_eq ▸ inside
  have replaced := Store.set_eq_ok_iff.mpr ⟨wide.trans shaped.store.wordLength_eq.symm, room, rfl⟩
  refine ⟨{ machine.store with words := machine.store.words.set address w }, ?_, ?_, ?_⟩
  · simp only [Machine.perform, replaced]
  · rw [Store.get_eq_ok_iff]
    exact List.getElem?_set_self room
  · intro other apart
    simp only [Store.get, Store.wordCount, List.length_set, List.getElem?_set_ne apart.symm]

/-- A word made from a row of the table with operand zero is executed wherever it
is fetched. -/
theorem step_of_row (shaped : machine.Shaped) (declared : ⟨pattern, m⟩ ∈ machine.model.opcodes)
    (stored : machine.store.get machine.fetchAddress =
      .ok (machine.model.instructionWord 0 pattern)) :
    ∃ done, Effect machine.advanced ⟨m, 0⟩ done ∧
      machine.step = (done.recorded ⟨machine.fetchAddress, m, 0⟩,
        .ok ⟨machine.fetchAddress, m, 0⟩) := by
  have decoded : machine.model.decode (machine.model.instructionWord 0 pattern) = .ok ⟨m, 0⟩ :=
    Model.decode_instructionWord declared (Nat.two_pow_pos _)
  have inside : ¬ (m.usesStore = true ∧ machine.advanced.model.wordCount ≤ 0) := by
    rintro ⟨_, empty⟩
    exact Nat.not_lt_of_le empty machine.model.wordCount_pos
  have executable : m ≠ .num := Model.ne_num_of_row declared
  rcases exists_effect shaped.advanced (i := ⟨m, 0⟩) executable inside with ⟨done, effect⟩
  exact ⟨done, effect, step_eq_ok_iff.mpr ⟨_, _, done, stored, decoded, effect, rfl, rfl⟩⟩

theorem fetchAddress_of_control {k : Nat} (inside : k + 1 < machine.model.wordCount)
    (atPlace : machine.registers.controlValue = k) : machine.fetchAddress = k + 1 := by
  rw [fetchAddress_eq, atPlace, Nat.mod_eq_of_lt inside]

/-- Any word can be put at address zero and an instruction at any other address. -/
theorem exists_reachable_ready (reached : Reachable model machine)
    (declared : ⟨pattern, m⟩ ∈ model.opcodes) {k : Nat} (inside : k + 1 < model.wordCount)
    {w : Word} (wide : w.length = model.wordLength) :
    ∃ ready, Reachable model ready ∧ ready.registers = machine.registers ∧
      ready.store.get 0 = .ok w ∧
      ready.store.get (k + 1) = .ok (model.instructionWord 0 pattern) := by
  have sameModel := reached.model_eq
  subst sameModel
  rcases reached.shaped.perform_setWord machine.model.wordCount_pos wide with
    ⟨firstStore, isFirst, landed, _⟩
  have landedReached := reached.after (.setWord 0 w)
  rw [isFirst] at landedReached
  have wideRow : (machine.model.instructionWord 0 pattern).length = machine.model.wordLength :=
    Model.length_instructionWord (Model.length_of_row declared)
  rcases landedReached.shaped.perform_setWord inside wideRow with ⟨store, isSecond, placed, others⟩
  have ready := landedReached.after (.setWord (k + 1) (machine.model.instructionWord 0 pattern))
  rw [isSecond] at ready
  refine ⟨_, ready, rfl, ?_, placed⟩
  exact (others 0 (Nat.succ_ne_zero k).symm).trans landed

/-- The control instruction can be advanced by one with any opcode. -/
theorem exists_reachable_next (reached : Reachable model machine)
    (declared : ⟨pattern, m⟩ ∈ model.opcodes) {k : Nat}
    (atPlace : machine.registers.controlValue = k)
    (noSkip : m = .cmp → ¬ machine.registers.accumulatorValue < 0)
    (addressable : k + 1 < 2 ^ model.wordLength) (inside : k + 1 < model.wordCount) :
    ∃ next, Reachable model next ∧ next.registers.controlValue = k + 1 ∧
      (m = .cmp → ¬ next.registers.accumulatorValue < 0) := by
  -- The word at address zero lets the instruction stay where the fetch takes it.
  have wide : (machine.advanced.landing m).length = model.wordLength := by
    rw [← reached.model_eq]
    unfold landing
    split
    · exact reached.shaped.advanced.control_length
    · exact Word.length_zero _
  rcases exists_reachable_ready reached declared inside wide with
    ⟨ready, readyReached, sameRegisters, landed, placed⟩
  have sameModel := readyReached.model_eq
  have shaped := readyReached.shaped
  subst sameModel
  have address : ready.fetchAddress = k + 1 :=
    fetchAddress_of_control inside (by rw [sameRegisters, atPlace])
  rw [← address] at placed
  rcases step_of_row shaped declared placed with ⟨done, effect, stepped⟩
  have sameLanding : ready.advanced.landing m = machine.advanced.landing m := by
    simp only [landing, advanced, withRegisters, sameRegisters, reached.model_eq]
  have stays : m = .cmp → ¬ ready.advanced.registers.accumulatorValue < 0 := by
    intro isSkip
    have resting := noSkip isSkip
    rw [← sameRegisters] at resting
    exact resting
  have kept := control_of_landing shaped.advanced effect (by rw [sameLanding]; exact landed) stays
  have next := readyReached.after .step
  simp only [perform, stepped] at next
  refine ⟨_, next, ?_, ?_⟩
  · have value := shaped.controlValue_advanced
    rw [address, Nat.mod_eq_of_lt addressable] at value
    exact (congrArg Word.unsigned kept).trans value
  · rintro rfl negative
    apply stays rfl
    rw [Registers.accumulatorValue, ← accumulator_of_cmp effect]
    exact negative

theorem exists_reachable_at (declared : ⟨pattern, m⟩ ∈ model.opcodes)
    (wider : 2 ^ model.wordLength < model.wordCount) (k : Nat) (small : k < 2 ^ model.wordLength) :
    ∃ machine, Reachable model machine ∧ machine.registers.controlValue = k ∧
      (m = .cmp → ¬ machine.registers.accumulatorValue < 0) := by
  induction k with
  | zero =>
      refine ⟨_, .initial, Word.unsigned_zero model.wordLength, ?_⟩
      intro _
      have isZero : (initial model).registers.accumulatorValue = 0 :=
        Word.signed_zero model.wordLength_le
      rw [isZero]
      decide
  | succ k ih =>
      rcases ih (Nat.lt_of_succ_lt small) with ⟨machine, reached, atPlace, noSkip⟩
      exact exists_reachable_next reached declared atPlace noSkip small (Nat.lt_trans small wider)

/-- With more words than a word can address, some machine fetches from an address
that its control instruction cannot hold. -/
theorem exists_not_controlFollowsFetch (declared : ⟨pattern, m⟩ ∈ model.opcodes)
    (wider : 2 ^ model.wordLength < model.wordCount) :
    ∃ machine, Reachable model machine ∧ ¬ ControlFollowsFetch machine := by
  -- From the highest number of a word the fetch goes on to an address beyond it.
  have positive := Nat.two_pow_pos model.wordLength
  have last : 2 ^ model.wordLength - 1 + 1 = 2 ^ model.wordLength := by omega
  rcases exists_reachable_at declared wider (2 ^ model.wordLength - 1) (by omega) with
    ⟨machine, reached, atPlace, _⟩
  rcases exists_reachable_ready reached declared (last ▸ wider) (Word.length_zero _) with
    ⟨ready, readyReached, sameRegisters, _, placed⟩
  refine ⟨ready, readyReached, ?_⟩
  intro follows
  have sameModel := readyReached.model_eq
  subst sameModel
  have address : ready.fetchAddress = 2 ^ ready.model.wordLength - 1 + 1 :=
    fetchAddress_of_control (last ▸ wider) (by rw [sameRegisters, atPlace])
  rw [← address] at placed
  rcases step_of_row readyReached.shaped declared placed with ⟨done, _, stepped⟩
  have same : ready.advanced.registers.controlValue = ready.fetchAddress :=
    follows.advanced_eq _ _ stepped
  rw [readyReached.shaped.controlValue_advanced, address, last, Nat.mod_self] at same
  exact Nat.ne_of_lt positive same

/-- The control instruction follows the fetch in every machine that can be reached
exactly when a word can hold every address of the store, or when the model has no
instructions at all. -/
theorem controlFollowsFetch_iff (model : Model) :
    (∀ machine, Reachable model machine → ControlFollowsFetch machine) ↔
      model.wordCount ≤ 2 ^ model.wordLength ∨ model.opcodes = [] := by
  constructor
  · intro follows
    by_cases addressable : model.wordCount ≤ 2 ^ model.wordLength
    · exact Or.inl addressable
    · right
      cases rows : model.opcodes with
      | nil => rfl
      | cons row others =>
          have declared : ⟨row.pattern, row.mnemonic⟩ ∈ model.opcodes := rows ▸ List.mem_cons_self
          rcases exists_not_controlFollowsFetch declared (Nat.lt_of_not_le addressable) with
            ⟨machine, reached, parts⟩
          exact (parts (follows machine reached)).elim
  · rintro (addressable | noOpcodes) machine reached
    · have sameModel := reached.model_eq
      subst sameModel
      exact controlFollowsFetch_of_le reached.shaped addressable
    · rw [← reached.model_eq] at noOpcodes
      exact controlFollowsFetch_of_no_opcodes noOpcodes

/-- A machine of five words of two bits.  Its only instruction skips on a negative
accumulator, and clear words hold it. -/
def fiveWordsDescription : Description where
  wordLength := 2
  wordCount := 5
  address := ⟨0, 1⟩
  opcode := ⟨1, 1⟩
  typicalSpeed := Description.defaultSpeed
  opcodes := [⟨⟨[false]⟩, .cmp⟩]
  withOperand := Description.defaultWithOperand
  addressOperand := Description.defaultAddressOperand

/-- The model of five words of two bits. -/
def fiveWords : Model where
  toDescription := fiveWordsDescription
  valid := Description.valid_of_check rfl
  inNormalForm := by decide

/-- After three cycles of a new machine of five words the control instruction is
three.  The fourth cycle fetches a skip from address four that is not taken, but
the control instruction is zero before and after it. -/
theorem not_controlFollowsFetch_fiveWords :
    ∃ machine after, Reachable fiveWords machine ∧ machine.registers.controlValue = 3 ∧
      machine.step = (after, .ok ⟨4, .cmp, 0⟩) ∧ ¬ machine.registers.accumulatorValue < 0 ∧
      machine.advanced.registers.controlValue = 0 ∧ after.registers.controlValue = 0 ∧
      after.fetchAddress = 1 ∧ ¬ ControlFollowsFetch machine := by
  have start : Reachable fiveWords (initial fiveWords) := .initial
  have reached := ((start.after .step).after .step).after .step
  refine ⟨_, _, reached, by decide, rfl, by decide, by decide, by decide, by decide, ?_⟩
  intro follows
  cases follows.advanced_eq _ ⟨4, .cmp, 0⟩ rfl

end Machine
end SmallScale
