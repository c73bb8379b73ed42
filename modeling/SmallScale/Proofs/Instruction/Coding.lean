import SmallScale.Instruction
import SmallScale.Proofs.Model.Table
import SmallScale.Proofs.Word.Field
import SmallScale.Proofs.Word.Value

namespace SmallScale
namespace Model

/-!
# Encoded words

The two fields of an instruction word lie inside it and apart.  What is written
into one of them is read back whatever is in the other, so a word made from a
row of the opcode table and an operand that fits decodes to exactly the mnemonic
of the row and that operand.  A number that fits a word is read back as signed.
-/

theorem wordLength_le (model : Model) : model.wordLength ≤ 64 :=
  model.valid.wordLength_le

theorem wordCount_pos (model : Model) : 0 < model.wordCount :=
  model.valid.wordCount_pos

theorem address_inside (model : Model) :
    model.address.start + model.address.length ≤ model.wordLength :=
  model.valid.address_inside

theorem opcode_inside (model : Model) :
    model.opcode.start + model.opcode.length ≤ model.wordLength :=
  model.valid.opcode_inside

/-- Every word of the machine is wide enough for both fields. -/
theorem neededBits_le (model : Model) : model.neededBits ≤ model.wordLength :=
  Nat.max_le.mpr ⟨model.valid.opcode_inside, model.valid.address_inside⟩

theorem opcode_length_le (model : Model) : model.opcode.length ≤ 64 :=
  Nat.le_trans (Nat.le_trans (Nat.le_add_left _ _) model.opcode_inside) model.wordLength_le

/-- The fields have room beside each other. -/
theorem lengths_le (model : Model) :
    model.address.length + model.opcode.length ≤ model.wordLength := by
  have addressInside := model.address_inside
  have opcodeInside := model.opcode_inside
  have apart : model.opcode.start + model.opcode.length ≤ model.address.start ∨
      model.address.start + model.address.length ≤ model.opcode.start :=
    model.valid.fields_disjoint
  omega

/-- The opcode field leaves less than a full word to the address field. -/
theorem address_length_lt (model : Model) : model.address.length < 64 := by
  have room := model.lengths_le
  have opcodePositive := model.valid.opcode_pos
  have short := model.wordLength_le
  omega

theorem two_le_wordLength (model : Model) : 2 ≤ model.wordLength :=
  Nat.le_trans (Nat.add_le_add model.valid.address_pos model.valid.opcode_pos) model.lengths_le

/-! ## Decoding -/

theorem decode_of_row {model : Model} {w : Word} {m : Mnemonic}
    (wide : model.neededBits ≤ w.length) (declared : ⟨model.opcodeField w, m⟩ ∈ model.opcodes) :
    model.decode w = .ok ⟨m, (model.addressField w).unsigned⟩ := by
  rw [decode, if_neg (Nat.not_lt_of_le wide), mnemonicOf?_eq_some_iff.mpr declared]

theorem decode_of_undeclared {model : Model} {w : Word} (wide : model.neededBits ≤ w.length)
    (undeclared : model.mnemonicOf? (model.opcodeField w) = none) :
    model.decode w = .error (.unknownOpcode (model.opcodeField w)) := by
  rw [decode, if_neg (Nat.not_lt_of_le wide), undeclared]

theorem operand_of_decode {model : Model} {w : Word} {i : Instruction}
    (decoded : model.decode w = .ok i) : i.operand = (model.addressField w).unsigned := by
  unfold decode at decoded
  split at decoded
  · cases decoded
  · split at decoded <;> cases decoded
    rfl

/-! ## Fields of words that are wide enough -/

section

variable {model : Model} {w : Word}

theorem length_addressField (wide : model.neededBits ≤ w.length) :
    (model.addressField w).length = model.address.length :=
  Word.length_extract (Nat.le_trans (Nat.le_max_right _ _) wide)

theorem length_addressField_le (wide : model.neededBits ≤ w.length) :
    (model.addressField w).length ≤ 64 := by
  rw [length_addressField wide]
  exact Nat.le_of_lt model.address_length_lt

/-- What the address field holds fits the field. -/
theorem unsigned_addressField_lt (wide : model.neededBits ≤ w.length) :
    (model.addressField w).unsigned < 2 ^ model.address.length := by
  rw [← length_addressField wide]
  exact Word.unsigned_lt_two_pow (length_addressField_le wide)

end

/-! ## Encoding -/

section

variable {model : Model} {pattern : Word} {operand : Nat}

theorem operand_inside (model : Model) (operand : Nat) :
    model.address.start + (Word.ofNat operand model.address.length).length ≤
      (Word.zero model.wordLength).length := by
  rw [Word.length_ofNat, Word.length_zero]
  exact model.address_inside

theorem pattern_inside (wide : pattern.length = model.opcode.length) :
    model.opcode.start + pattern.length ≤
      ((Word.zero model.wordLength).overwrite model.address.start
        (Word.ofNat operand model.address.length)).length := by
  rw [Word.length_overwrite (operand_inside model operand), Word.length_zero, wide]
  exact model.opcode_inside

theorem length_instructionWord (wide : pattern.length = model.opcode.length) :
    (model.instructionWord operand pattern).length = model.wordLength := by
  rw [instructionWord, Word.length_overwrite (pattern_inside wide),
    Word.length_overwrite (operand_inside model operand), Word.length_zero]

theorem opcodeField_instructionWord (wide : pattern.length = model.opcode.length) :
    model.opcodeField (model.instructionWord operand pattern) = pattern := by
  rw [opcodeField, instructionWord, ← wide]
  exact Word.extract_overwrite_self (pattern_inside wide)

theorem addressField_instructionWord (wide : pattern.length = model.opcode.length) :
    model.addressField (model.instructionWord operand pattern) =
      Word.ofNat operand model.address.length := by
  have apart : model.address.start + model.address.length ≤ model.opcode.start ∨
      model.opcode.start + pattern.length ≤ model.address.start := by
    rw [wide]
    exact model.valid.fields_disjoint.symm
  rw [addressField, instructionWord, Word.extract_overwrite_of_apart (pattern_inside wide) apart]
  have written := Word.extract_overwrite_self (operand_inside model operand)
  rwa [Word.length_ofNat] at written

/-- A word made from a row of the table and an operand that fits decodes to
them. -/
theorem decode_instructionWord {m : Mnemonic} (declared : ⟨pattern, m⟩ ∈ model.opcodes)
    (fits : operand < 2 ^ model.address.length) :
    model.decode (model.instructionWord operand pattern) = .ok ⟨m, operand⟩ := by
  have wide := length_of_row declared
  rw [decode_of_row (m := m), addressField_instructionWord wide,
    Word.unsigned_ofNat operand (Nat.le_of_lt model.address_length_lt), Nat.mod_eq_of_lt fits]
  · rw [length_instructionWord wide]
    exact model.neededBits_le
  · rwa [opcodeField_instructionWord wide]

end

/-- An instruction has a word exactly when its mnemonic has a pattern and its
operand fits the address field. -/
theorem encode_eq_ok_iff {model : Model} {i : Instruction} {w : Word} :
    model.encode i = .ok w ↔
      ∃ pattern, model.patternOf? i.mnemonic = some pattern ∧
        i.operand < 2 ^ model.address.length ∧ model.instructionWord i.operand pattern = w := by
  rw [encode]
  cases canonical : model.patternOf? i.mnemonic with
  | none => simp
  | some pattern =>
      by_cases fits : i.operand < 2 ^ model.address.length
      · have accepted := (Word.fitsUnsigned_iff model.address_length_lt).mpr fits
        simp [accepted, fits]
      · have refused : ¬ Word.fitsUnsigned i.operand model.address.length = true := by
          rwa [Word.fitsUnsigned_iff model.address_length_lt]
        simp [refused, fits]

theorem length_of_encode {model : Model} {i : Instruction} {w : Word}
    (encoded : model.encode i = .ok w) : w.length = model.wordLength := by
  rcases encode_eq_ok_iff.mp encoded with ⟨pattern, canonical, _, rfl⟩
  exact length_instructionWord (length_of_patternOf? canonical)

/-- Decoding undoes encoding. -/
theorem decode_of_encode {model : Model} {i : Instruction} {w : Word}
    (encoded : model.encode i = .ok w) : model.decode w = .ok i := by
  rcases encode_eq_ok_iff.mp encoded with ⟨pattern, canonical, fits, rfl⟩
  exact decode_instructionWord (row_of_patternOf? canonical) fits

/-- A word that is not clear encodes an instruction exactly when the instruction
is encoded as it. -/
theorem exactInstruction?_eq_some_iff {model : Model} {w : Word} {i : Instruction} :
    model.exactInstruction? w = some i ↔ w.isZero = false ∧ model.encode i = .ok w := by
  unfold exactInstruction?
  constructor
  · intro exact
    split at exact
    · cases exact
    · rename_i notClear
      split at exact
      · cases exact
      · split at exact
        · cases exact
        · rename_i found _ canonical encoded
          split at exact
          · rename_i same
            cases exact
            exact ⟨Bool.eq_false_iff.mpr notClear, same ▸ encoded⟩
          · cases exact
  · rintro ⟨notClear, encoded⟩
    simp only [notClear, decode_of_encode encoded, encoded, Bool.false_eq_true, if_false, if_true]

/-- The instruction that a word encodes exactly is one of the model's. -/
theorem known_of_exactInstruction? {model : Model} {w : Word} {i : Instruction}
    (exact : model.exactInstruction? w = some i) :
    i.mnemonic ≠ .num ∧ model.knows i.mnemonic = true ∧ i.operand < 2 ^ model.address.length := by
  rcases exactInstruction?_eq_some_iff.mp exact with ⟨_, encoded⟩
  rcases encode_eq_ok_iff.mp encoded with ⟨pattern, canonical, fits, _⟩
  have declared := row_of_patternOf? canonical
  exact ⟨ne_num_of_row declared, knows_of_row declared, fits⟩

theorem encodeNumber_eq_ok_iff {model : Model} {value : Int} {w : Word} (lower : -2 ^ 63 ≤ value)
    (upper : value < 2 ^ 63) :
    model.encodeNumber value = .ok w ↔
      (-2 ^ (model.wordLength - 1) ≤ value ∧ value < 2 ^ (model.wordLength - 1)) ∧
        Word.ofInt value model.wordLength = w := by
  rw [← Word.fitsSigned_iff model.valid.wordLength_pos model.wordLength_le lower upper,
    encodeNumber]
  by_cases fits : Word.fitsSigned value model.wordLength = true
  · simp [fits]
  · simp [fits]

/-- A number that has a word is read back from it. -/
theorem signed_of_encodeNumber {model : Model} {value : Int} {w : Word} (lower : -2 ^ 63 ≤ value)
    (upper : value < 2 ^ 63) (encoded : model.encodeNumber value = .ok w) : w.signed = value := by
  rcases (encodeNumber_eq_ok_iff lower upper).mp encoded with ⟨⟨fromBelow, fromAbove⟩, rfl⟩
  exact Word.signed_ofInt_of_fits model.valid.wordLength_pos model.wordLength_le fromBelow fromAbove

end Model
end SmallScale
