import SmallScale.Proofs.Machine.ControlAddress

namespace SmallScale
namespace Machine

/-!
# Relative jumps

A relative jump adds a number of the store to the control instruction.  The sum is
cut to the bits of a word, and the next fetch counts the address after it modulo the
number of words of the store.  So the two moduli are taken one after the other, and
the jump goes as many words on or back as the number says exactly when the second
one divides the first.

Where it does not, a jump back across the start of the store misses: two words back
from address one the control instruction is the highest number of a word, and the
fetch after it is not from address zero.
-/

/-- Both registers and all words of the store are as wide as the words of the model, and
the store has the number of words that the model asks for. -/
structure FullWidth (machine : Machine) : Prop where
  control_length : machine.registers.control.length = machine.model.wordLength
  accumulator_length : machine.registers.accumulator.length = machine.model.wordLength
  wordCount_eq : machine.store.wordCount = machine.model.wordCount
  length_of_mem : ∀ w ∈ machine.store.words, w.length = machine.model.wordLength

/-- From wherever a relative jump is fetched, the next fetch is as many words behind the
address after it as the number at its operand says, counted round the store. -/
def JumpsByOffset (model : Model) : Prop :=
  ∀ (machine after : Machine) (address operand : Nat) (offset : Word),
    machine.model = model → machine.FullWidth →
    machine.step = (after, .ok ⟨address, .jrp, operand⟩) →
    machine.store.get operand = .ok offset →
    (after.fetchAddress : Int) = (address + offset.signed + 1) % model.wordCount

variable {model : Model} {machine after : Machine} {address operand : Nat}
  {control offset pattern : Word}

theorem Shaped.fullWidth (shaped : machine.Shaped) : machine.FullWidth :=
  ⟨shaped.control_length, shaped.accumulator_length, shaped.store.wordCount_eq,
    shaped.store.length_of_mem⟩

/-! ## Where a relative jump goes -/

/-- The control instruction before the jump and the address it was fetched from differ by
a multiple of `2 ^ w`. -/
theorem signed_control_advanced_emod
    (wide : machine.registers.control.length = machine.model.wordLength) :
    machine.advanced.registers.control.signed % 2 ^ machine.model.wordLength =
      machine.fetchAddress % 2 ^ machine.model.wordLength := by
  have written : machine.advanced.registers.control =
      Word.ofInt machine.fetchAddress machine.model.wordLength := by
    rw [← wide]
    rfl
  have power : ((2 ^ machine.model.wordLength : Nat) : Int) = 2 ^ machine.model.wordLength :=
    Int.natCast_pow 2 machine.model.wordLength
  rw [written, Word.signed_ofInt _ machine.model.wordLength_le, ← power]
  exact Int.bmod_emod

/-- A relative jump is counted modulo `2 ^ w` first and modulo the number of words then. -/
theorem fetchAddress_of_jrp
    (wide : machine.registers.control.length = machine.model.wordLength)
    (stepped : machine.step = (after, .ok ⟨address, .jrp, operand⟩))
    (stored : machine.store.get operand = .ok offset) :
    (after.fetchAddress : Int) =
      ((address + offset.signed) % 2 ^ machine.model.wordLength + 1) %
        machine.model.wordCount := by
  rcases step_eq_ok_iff.mp stepped with ⟨w, i, done, _, _, effect, recordedAs, rfl⟩
  rcases i with ⟨m, s⟩
  have power : ((2 ^ machine.model.wordLength : Nat) : Int) = 2 ^ machine.model.wordLength :=
    Int.natCast_pow 2 machine.model.wordLength
  rw [Executed.mk.injEq] at recordedAs
  rcases recordedAs with ⟨rfl, rfl, rfl⟩
  cases effect with
  | @jrp _ found read =>
      have sameWord : found = offset := Except.ok.inj (read.symm.trans stored)
      subst sameWord
      have sum := Word.unsigned_ofInt
        (machine.advanced.registers.control.signed + found.signed) machine.model.wordLength_le
      rw [fetchAddress_eq, Int.natCast_emod, Int.natCast_add]
      refine congrArg (fun value : Int => (value + 1) % machine.model.wordCount) ?_
      calc ((Word.ofInt (machine.advanced.registers.control.signed + found.signed)
              machine.model.wordLength).unsigned : Int)
          = (machine.advanced.registers.control.signed + found.signed) %
              2 ^ machine.model.wordLength := sum.trans (by rw [power])
        _ = (machine.fetchAddress + found.signed) % 2 ^ machine.model.wordLength := by
            rw [← Int.emod_add_emod, signed_control_advanced_emod wide, Int.emod_add_emod]

theorem natCast_dvd_two_pow {count width : Nat} :
    (count : Int) ∣ 2 ^ width ↔ count ∣ 2 ^ width := by
  have power : ((2 ^ width : Nat) : Int) = 2 ^ width := Int.natCast_pow 2 width
  rw [← power]
  exact Int.natCast_dvd_natCast

theorem jumpsByOffset_of_dvd (divides : model.wordCount ∣ 2 ^ model.wordLength) :
    JumpsByOffset model := by
  rintro machine after address operand offset rfl wide stepped stored
  have divides' : (machine.model.wordCount : Int) ∣ 2 ^ machine.model.wordLength :=
    natCast_dvd_two_pow.mpr divides
  rw [fetchAddress_of_jrp wide.control_length stepped stored, ← Int.emod_add_emod,
    Int.emod_emod_of_dvd _ divides', Int.emod_add_emod]

/-! ## Machines that jump -/

/-- From every address that the control instruction can lead to, and with every number at
another address, some machine jumps. -/
theorem exists_jrp (declared : ⟨pattern, .jrp⟩ ∈ model.opcodes)
    (controlWide : control.length = model.wordLength)
    (leads : (control.unsigned + 1) % model.wordCount = address)
    (inside : operand < model.wordCount) (fits : operand < 2 ^ model.address.length)
    (apart : operand ≠ address) (offsetWide : offset.length = model.wordLength) :
    ∃ machine after : Machine, machine.model = model ∧ machine.Shaped ∧
      machine.store.get operand = .ok offset ∧
      machine.step = (after, .ok ⟨address, .jrp, operand⟩) := by
  let start := (initial model).withControl control
  have shaped : start.Shaped := (shaped_initial model).withControl controlWide
  rcases shaped.perform_setWord inside offsetWide with ⟨firstStore, isFirst, placed, _⟩
  have shapedFirst := shaped.perform (.setWord operand offset)
  rw [isFirst] at shapedFirst
  have addressInside : address < model.wordCount := leads ▸ Nat.mod_lt _ model.wordCount_pos
  have rowWide : (model.instructionWord operand pattern).length = model.wordLength :=
    Model.length_instructionWord (Model.length_of_row declared)
  rcases shapedFirst.perform_setWord addressInside rowWide with
    ⟨store, isSecond, fetched, others⟩
  have shapedSecond := shapedFirst.perform
    (.setWord address (model.instructionWord operand pattern))
  rw [isSecond] at shapedSecond
  have kept : store.get operand = .ok offset := (others operand apart).trans placed
  let ready := (start.withStore firstStore).withStore store
  have atAddress : ready.fetchAddress = address := ready.fetchAddress_eq.trans leads
  refine ⟨ready, _, rfl, shapedSecond, kept, step_eq_ok_iff.mpr
    ⟨model.instructionWord operand pattern, ⟨.jrp, operand⟩, _, ?_,
      Model.decode_instructionWord declared fits, .jrp kept, by rw [atAddress], rfl⟩⟩
  rw [atAddress]
  exact fetched

/-- Two bits hold minus two. -/
theorem signed_ofInt_minusTwo {width : Nat} (wide : 2 ≤ width) (short : width ≤ 64) :
    (Word.ofInt (-2) width).signed = -2 := by
  have two : 2 ^ 1 ≤ 2 ^ (width - 1) := Nat.pow_le_pow_right (by decide) (by omega)
  have half : ((2 ^ (width - 1) : Nat) : Int) = 2 ^ (width - 1) := Int.natCast_pow 2 (width - 1)
  apply Word.signed_ofInt_of_fits (by omega) short <;> omega

/-- One word back from zero is the highest number of a word. -/
theorem minusOne_emod_add_one (width : Nat) : (-1 : Int) % 2 ^ width + 1 = 2 ^ width := by
  have power : (0 : Int) < 2 ^ width := Int.pow_pos (by decide)
  have wrapped : (-1 : Int) % 2 ^ width = 2 ^ width - 1 := by
    rw [← Int.add_emod_right]
    apply Int.emod_eq_of_lt <;> omega
  rw [wrapped, Int.sub_add_cancel]

/-- Back from address one across the start of the store, the jump arrives only if the
moduli agree. -/
theorem dvd_of_jumpsByOffset (declared : ⟨pattern, .jrp⟩ ∈ model.opcodes)
    (jumps : JumpsByOffset model) : model.wordCount ∣ 2 ^ model.wordLength := by
  by_cases single : model.wordCount = 1
  · rw [single]
    exact Nat.one_dvd _
  · have positive := model.wordCount_pos
    have leads : ((Word.zero model.wordLength).unsigned + 1) % model.wordCount = 1 := by
      rw [Word.unsigned_zero]
      exact Nat.mod_eq_of_lt (by omega)
    rcases exists_jrp declared (Word.length_zero _) leads positive (Nat.two_pow_pos _) (by decide)
      (Word.length_ofInt (-2) _) with ⟨machine, after, rfl, shaped, stored, stepped⟩
    have minusTwo :=
      signed_ofInt_minusTwo machine.model.two_le_wordLength machine.model.wordLength_le
    have arrives := jumps machine after 1 0 _ rfl shaped.fullWidth stepped stored
    have back : ((1 : Nat) : Int) + -2 = -1 := by decide
    rw [fetchAddress_of_jrp shaped.control_length stepped stored, minusTwo, back,
      minusOne_emod_add_one] at arrives
    exact natCast_dvd_two_pow.mp (Int.dvd_of_emod_eq_zero (by simpa using arrives))

/-- Relative jumps of a machine are relative exactly when the number of words of its store
divides the number of values of a word.  On the machine of 1948 they are, and from every
address any number of 32 bits can be jumped by. -/
theorem jumpsByOffset_iff_dvd (model : Model)
    (declared : ∃ pattern, ⟨pattern, .jrp⟩ ∈ model.opcodes) :
    (model.wordCount ∣ 2 ^ model.wordLength ↔ JumpsByOffset model) ∧
      JumpsByOffset .smallScale ∧
      ∀ (address operand : Nat) (distance : Int), address < 32 → operand < 32 →
        operand ≠ address → -2 ^ 31 ≤ distance → distance < 2 ^ 31 →
        ∃ (machine after : Machine) (offset : Word), machine.model = .smallScale ∧ machine.FullWidth ∧
          machine.store.get operand = .ok offset ∧ offset.signed = distance ∧
          machine.step = (after, .ok ⟨address, .jrp, operand⟩) ∧
          (after.fetchAddress : Int) = (address + distance + 1) % 32 := by
  rcases declared with ⟨pattern, row⟩
  have relative : JumpsByOffset .smallScale := jumpsByOffset_of_dvd (by decide)
  refine ⟨⟨jumpsByOffset_of_dvd, dvd_of_jumpsByOffset row⟩, relative, ?_⟩
  intro address operand distance addressInside operandInside apart lower upper
  have leads : ((Word.ofNat (address + 31) 32).unsigned + 1) % 32 = address := by
    rw [Word.unsigned_ofNat _ (by decide)]
    omega
  have known : ⟨⟨[true, false, false]⟩, .jrp⟩ ∈ Model.smallScale.opcodes := by decide
  rcases exists_jrp known (Word.length_ofNat _ _) leads operandInside operandInside apart
    (Word.length_ofInt distance _) with ⟨machine, after, sameModel, shaped, stored, stepped⟩
  have read : (Word.ofInt distance 32).signed = distance :=
    Word.signed_ofInt_of_fits (by decide) (by decide) lower upper
  have arrives := relative machine after address operand _ sameModel shaped.fullWidth stepped stored
  exact ⟨machine, after, _, sameModel, shaped.fullWidth, stored, read, stepped, read ▸ arrives⟩

/-- Three words of four bits.  The only instruction is the relative jump. -/
def threeWordsDescription : Description where
  wordLength := 4
  wordCount := 3
  address := ⟨0, 2⟩
  opcode := ⟨2, 1⟩
  typicalSpeed := Description.defaultSpeed
  opcodes := [⟨⟨[false]⟩, .jrp⟩]
  withOperand := Description.defaultWithOperand
  addressOperand := Description.defaultAddressOperand

def threeWords : Model where
  toDescription := threeWordsDescription
  valid := Description.valid_of_check rfl
  inNormalForm := by decide

/-- Three does not divide sixteen, so not every jump of the machine of three words is
relative. -/
theorem jumpsByOffset_iff_dvd_threeWords :
    (∃ pattern, ⟨pattern, .jrp⟩ ∈ threeWords.opcodes) ∧ ¬ JumpsByOffset threeWords := by
  have declared : ∃ pattern, ⟨pattern, .jrp⟩ ∈ threeWords.opcodes := ⟨⟨[false]⟩, by decide⟩
  refine ⟨declared, fun jumps => ?_⟩
  exact absurd ((jumpsByOffset_iff_dvd threeWords declared).1.mpr jumps) (by decide)

end Machine
end SmallScale
