import SmallScale.Proofs.Instruction.Coding

namespace SmallScale

/-!
# Canonical words

Many words decode to the same instruction: the bits outside the two fields do not
count, a word may be longer than those of the machine, and several patterns may mean
one mnemonic.  Exactly one of these words is the encoding.  It is described here
without the steps in which it is written, by its length, the contents of its fields
and the bits that are clear.  That leaves no bit open.
-/

/-- The position is one of the field's. -/
def BitField.Covers (field : BitField) (position : Nat) : Prop :=
  field.start ≤ position ∧ position < field.stop

namespace Model

/-- The pattern stands in the first row of the mnemonic. -/
def DeclaresFirst (model : Model) (m : Mnemonic) (pattern : Word) : Prop :=
  ∃ before after, model.opcodes = before ++ ⟨pattern, m⟩ :: after ∧
    ∀ row ∈ before, row.mnemonic ≠ m

/-- No bit outside the two fields is set. -/
def ClearOutside (model : Model) (w : Word) : Prop :=
  ∀ position : Nat, w.bits[position]? = some true →
    model.address.Covers position ∨ model.opcode.Covers position

/-- The word is as long as those of the machine, has these contents in its fields and
is clear elsewhere. -/
structure Composed (model : Model) (address pattern w : Word) : Prop where
  length_eq : w.length = model.wordLength
  addressField_eq : model.addressField w = address
  opcodeField_eq : model.opcodeField w = pattern
  clearOutside : model.ClearOutside w

variable {model : Model} {m : Mnemonic} {i : Instruction} {address pattern w other : Word}
  {operand : Nat}

/-! ## One word for the contents of both fields -/

/-- A field shows the bits at the positions that it covers. -/
theorem getElem?_of_covers {field : BitField} {position : Nat} (covered : field.Covers position)
    (w : Word) :
    (w.extract field.start field.length).bits[position - field.start]? = w.bits[position]? := by
  rcases covered with ⟨fromStart, toStop⟩
  have within : position - field.start < field.length := by
    rw [BitField.stop] at toStop
    omega
  rw [Word.getElem?_extract, if_pos within, Nat.add_sub_cancel' fromStart]

theorem getElem?_of_clearOutside (clear : model.ClearOutside w) {position : Nat}
    (inside : position < w.length) (notAddress : ¬ model.address.Covers position)
    (notOpcode : ¬ model.opcode.Covers position) : w.bits[position]? = some false := by
  have present : w.bits[position]? = some w.bits[position] := List.getElem?_eq_getElem inside
  cases bit : w.bits[position] with
  | false => rw [present, bit]
  | true =>
      rw [bit] at present
      rcases clear position present with covered | covered
      · exact (notAddress covered).elim
      · exact (notOpcode covered).elim

/-- Both fields and the clear rest determine the word. -/
theorem Composed.unique (first : Composed model address pattern w)
    (second : Composed model address pattern other) : w = other := by
  apply Word.ext_bits
  intro position
  by_cases inside : position < model.wordLength
  · by_cases inAddress : model.address.Covers position
    · have sameField : model.addressField w = model.addressField other :=
        first.addressField_eq.trans second.addressField_eq.symm
      rw [← getElem?_of_covers inAddress w, ← getElem?_of_covers inAddress other]
      exact congrArg (fun field => field.bits[position - model.address.start]?) sameField
    · by_cases inOpcode : model.opcode.Covers position
      · have sameField : model.opcodeField w = model.opcodeField other :=
          first.opcodeField_eq.trans second.opcodeField_eq.symm
        rw [← getElem?_of_covers inOpcode w, ← getElem?_of_covers inOpcode other]
        exact congrArg (fun field => field.bits[position - model.opcode.start]?) sameField
      · rw [getElem?_of_clearOutside first.clearOutside (first.length_eq ▸ inside) inAddress inOpcode,
          getElem?_of_clearOutside second.clearOutside (second.length_eq ▸ inside) inAddress inOpcode]
  · have behindFirst : w.length ≤ position := Nat.le_of_not_lt (first.length_eq ▸ inside)
    have behindSecond : other.length ≤ position := Nat.le_of_not_lt (second.length_eq ▸ inside)
    rw [List.getElem?_eq_none behindFirst, List.getElem?_eq_none behindSecond]

/-- A set bit of a word with a patch is one of the patch or was set before. -/
theorem set_of_overwrite {start position : Nat} {patch : Word}
    (inside : start + patch.length ≤ w.length)
    (set : (w.overwrite start patch).bits[position]? = some true) :
    (start ≤ position ∧ position < start + patch.length) ∨ w.bits[position]? = some true := by
  rw [Word.overwrite, Word.getElem?_splice inside] at set
  split at set
  · rename_i within
    exact .inl within
  · exact .inr set

theorem clearOutside_instructionWord (wide : pattern.length = model.opcode.length) :
    model.ClearOutside (model.instructionWord operand pattern) := by
  intro position set
  rcases set_of_overwrite (pattern_inside wide) set with ⟨fromStart, toStop⟩ | earlier
  · rw [wide] at toStop
    exact .inr ⟨fromStart, toStop⟩
  · rcases set_of_overwrite (operand_inside model operand) earlier with ⟨fromStart, toStop⟩ | blank
    · rw [Word.length_ofNat] at toStop
      exact .inl ⟨fromStart, toStop⟩
    · simp [Word.zero, List.getElem?_replicate] at blank

theorem composed_instructionWord (wide : pattern.length = model.opcode.length) :
    Composed model (Word.ofNat operand model.address.length) pattern
      (model.instructionWord operand pattern) where
  length_eq := length_instructionWord wide
  addressField_eq := addressField_instructionWord wide
  opcodeField_eq := opcodeField_instructionWord wide
  clearOutside := clearOutside_instructionWord wide

/-! ## First rows -/

theorem patternOf?_eq_some_iff : model.patternOf? m = some pattern ↔ model.DeclaresFirst m pattern := by
  rw [patternOf?, Option.map_eq_some_iff]
  constructor
  · rintro ⟨row, found, rfl⟩
    rcases List.find?_eq_some_iff_append.mp found with ⟨named, before, after, split, others⟩
    have same : row.mnemonic = m := beq_iff_eq.mp named
    subst same
    refine ⟨before, after, split, fun earlier member => ?_⟩
    simpa using others earlier member
  · rintro ⟨before, after, split, others⟩
    refine ⟨⟨pattern, m⟩, List.find?_eq_some_iff_append.mpr ⟨beq_self_eq_true m, before, after,
      split, fun earlier member => ?_⟩, rfl⟩
    simpa using others earlier member

/-- Where a mnemonic has a row, it has a first one. -/
theorem exists_declaresFirst (declared : ⟨pattern, m⟩ ∈ model.opcodes) :
    ∃ canonical, model.DeclaresFirst m canonical := by
  rcases exists_patternOf?_of_knows (knows_of_row declared) (ne_num_of_row declared) with
    ⟨canonical, found⟩
  exact ⟨canonical, patternOf?_eq_some_iff.mp found⟩

theorem DeclaresFirst.row (first : model.DeclaresFirst m pattern) :
    ⟨pattern, m⟩ ∈ model.opcodes :=
  row_of_patternOf? (patternOf?_eq_some_iff.mpr first)

/-- A mnemonic has one first row. -/
theorem DeclaresFirst.unique (first : model.DeclaresFirst m pattern)
    (second : model.DeclaresFirst m other) : pattern = other := by
  have found := patternOf?_eq_some_iff.mpr first
  rw [patternOf?_eq_some_iff.mpr second] at found
  exact (Option.some.inj found).symm

/-! ## Decoding and encoding -/

theorem decode_eq_ok_iff :
    model.decode w = .ok i ↔
      model.neededBits ≤ w.length ∧ ⟨model.opcodeField w, i.mnemonic⟩ ∈ model.opcodes ∧
        i.operand = (model.addressField w).unsigned := by
  constructor
  · intro decoded
    have operandRead := operand_of_decode decoded
    unfold decode at decoded
    split at decoded
    · cases decoded
    · rename_i notShort
      cases meant : model.mnemonicOf? (model.opcodeField w) with
      | none => rw [meant] at decoded; cases decoded
      | some found =>
          rw [meant] at decoded
          cases decoded
          exact ⟨Nat.le_of_not_lt notShort, mnemonicOf?_eq_some_iff.mp meant, operandRead⟩
  · rintro ⟨wide, declared, operandRead⟩
    rw [decode_of_row wide declared, ← operandRead]

theorem decode_eq_truncated_iff {width needed : Nat} :
    model.decode w = .error (.truncated width needed) ↔
      w.length < model.neededBits ∧ width = w.length ∧ needed = model.neededBits := by
  unfold decode
  split
  · rename_i short
    simp [short, eq_comm]
  · rename_i notShort
    simp only [notShort, false_and, iff_false]
    split <;> nofun

theorem decode_eq_unknownOpcode_iff :
    model.decode w = .error (.unknownOpcode pattern) ↔
      model.neededBits ≤ w.length ∧ pattern = model.opcodeField w ∧
        ∀ m, ⟨pattern, m⟩ ∉ model.opcodes := by
  constructor
  · intro failed
    unfold decode at failed
    split at failed
    · cases failed
    · rename_i notShort
      cases meant : model.mnemonicOf? (model.opcodeField w) with
      | none =>
          rw [meant] at failed
          cases failed
          exact ⟨Nat.le_of_not_lt notShort, rfl, mnemonicOf?_eq_none_iff.mp meant⟩
      | some found => rw [meant] at failed; cases failed
  · rintro ⟨wide, rfl, undeclared⟩
    exact decode_of_undeclared wide (mnemonicOf?_eq_none_iff.mpr undeclared)

/-- The contents of the address field are the operand on as many bits. -/
theorem ofNat_unsigned_addressField (wide : model.neededBits ≤ w.length) :
    Word.ofNat (model.addressField w).unsigned model.address.length = model.addressField w := by
  rw [← length_addressField wide]
  exact Word.ofNat_unsigned (length_addressField_le wide)

/-- A decoded instruction has a word: the one with the same address field and the
first pattern of the mnemonic. -/
theorem encode_of_decode (decoded : model.decode w = .ok i) :
    ∃ canonical, model.DeclaresFirst i.mnemonic canonical ∧
      model.encode i = .ok (model.instructionWord i.operand canonical) ∧
      Composed model (model.addressField w) canonical (model.instructionWord i.operand canonical) := by
  rcases decode_eq_ok_iff.mp decoded with ⟨wide, declared, operandRead⟩
  rcases exists_declaresFirst declared with ⟨canonical, first⟩
  have composed : Composed model (Word.ofNat i.operand model.address.length) canonical
      (model.instructionWord i.operand canonical) :=
    composed_instructionWord (length_of_row first.row)
  have fits : i.operand < 2 ^ model.address.length := operandRead ▸ unsigned_addressField_lt wide
  have sameField : Word.ofNat i.operand model.address.length = model.addressField w := by
    rw [operandRead]
    exact ofNat_unsigned_addressField wide
  rw [sameField] at composed
  exact ⟨canonical, first,
    encode_eq_ok_iff.mpr ⟨canonical, patternOf?_eq_some_iff.mpr first, fits, rfl⟩, composed⟩

/-- A decoded instruction is encoded as the very word exactly where the word has the
length of the machine's, is clear outside the fields and carries the first pattern. -/
theorem encode_eq_self_iff (decoded : model.decode w = .ok i) :
    model.encode i = .ok w ↔
      w.length = model.wordLength ∧ model.ClearOutside w ∧
        model.DeclaresFirst i.mnemonic (model.opcodeField w) := by
  rcases encode_of_decode decoded with ⟨canonical, first, encoded, composed⟩
  rw [encoded, Except.ok.injEq]
  constructor
  · intro same
    rw [same] at composed
    have isFirst : model.DeclaresFirst i.mnemonic (model.opcodeField w) := by
      rwa [composed.opcodeField_eq]
    exact ⟨composed.length_eq, composed.clearOutside, isFirst⟩
  · rintro ⟨sameLength, clear, isFirst⟩
    exact composed.unique ⟨sameLength, rfl, isFirst.unique first, clear⟩

/-! ## Both directions -/

/-- How the instructions of a machine and its words correspond. -/
structure CodesCanonically (model : Model) : Prop where
  encodes_iff : ∀ i, (∃ w, model.encode i = .ok w) ↔
    (∃ pattern, ⟨pattern, i.mnemonic⟩ ∈ model.opcodes) ∧ i.operand < 2 ^ model.address.length
  /-- Decoding undoes encoding, and what is encoded is clear outside the fields. -/
  encoded : ∀ i w, model.encode i = .ok w →
    w.length = model.wordLength ∧ model.decode w = .ok i ∧ model.ClearOutside w
  /-- Encoding what was decoded gives the word of the machine's length with the same
  address field and the first pattern of the mnemonic, and with nothing else set. -/
  decoded : ∀ w i, model.decode w = .ok i → ∃ pattern canonical,
    model.DeclaresFirst i.mnemonic pattern ∧ model.encode i = .ok canonical ∧
      ∀ other, Composed model (model.addressField w) pattern other ↔ other = canonical
  /-- It gives back the word itself only where this was such a word. -/
  fixed_iff : ∀ w i, model.decode w = .ok i → (model.encode i = .ok w ↔
    w.length = model.wordLength ∧ model.ClearOutside w ∧
      model.DeclaresFirst i.mnemonic (model.opcodeField w))
  truncated_iff : ∀ w width needed, model.decode w = .error (.truncated width needed) ↔
    (w.length < model.opcode.stop ∨ w.length < model.address.stop) ∧ width = w.length ∧
      needed = max model.opcode.stop model.address.stop
  unknownOpcode_iff : ∀ w pattern, model.decode w = .error (.unknownOpcode pattern) ↔
    (model.opcode.stop ≤ w.length ∧ model.address.stop ≤ w.length) ∧
      pattern = model.opcodeField w ∧ ∀ m, ⟨pattern, m⟩ ∉ model.opcodes

/-- On every machine encoding and decoding are inverse up to the canonical word. -/
theorem encoding_inverts_decoding (model : Model) : CodesCanonically model where
  encodes_iff := by
    intro i
    constructor
    · rintro ⟨w, encoded⟩
      rcases encode_eq_ok_iff.mp encoded with ⟨pattern, canonical, fits, _⟩
      exact ⟨⟨pattern, row_of_patternOf? canonical⟩, fits⟩
    · rintro ⟨⟨pattern, declared⟩, fits⟩
      rcases exists_declaresFirst declared with ⟨canonical, first⟩
      exact ⟨_, encode_eq_ok_iff.mpr ⟨canonical, patternOf?_eq_some_iff.mpr first, fits, rfl⟩⟩
  encoded := by
    intro i w encoded
    refine ⟨length_of_encode encoded, decode_of_encode encoded, ?_⟩
    rcases encode_eq_ok_iff.mp encoded with ⟨pattern, canonical, _, rfl⟩
    exact clearOutside_instructionWord (length_of_patternOf? canonical)
  decoded := by
    intro w i decoded
    rcases encode_of_decode decoded with ⟨pattern, first, encoded, composed⟩
    refine ⟨pattern, _, first, encoded, fun other => ⟨fun isComposed => ?_, ?_⟩⟩
    · exact isComposed.unique composed
    · rintro rfl
      exact composed
  fixed_iff := fun _ _ => encode_eq_self_iff
  truncated_iff := by
    intro w width needed
    have either : w.length < model.neededBits ↔
        w.length < model.opcode.stop ∨ w.length < model.address.stop := by
      rw [neededBits]
      omega
    rw [decode_eq_truncated_iff, either, neededBits]
  unknownOpcode_iff := by
    intro w pattern
    rw [decode_eq_unknownOpcode_iff, neededBits, Nat.max_le]

/-- On the machine of 1948 a word with the second pattern of `SUB` and a bit set
between the fields decodes to `SUB 3` and is encoded as another word. -/
theorem encoding_inverts_decoding_aliasedSubtraction :
    ∃ w canonical, Model.smallScale.decode w = .ok ⟨.sub, 3⟩ ∧
      Model.smallScale.encode ⟨.sub, 3⟩ = .ok canonical ∧ canonical ≠ w ∧
      Model.smallScale.decode canonical = .ok ⟨.sub, 3⟩ ∧ Model.smallScale.ClearOutside canonical := by
  let w : Word := Word.ofNat (3 + 2 ^ 7 + 2 ^ 13 + 2 ^ 15) 32
  have law := encoding_inverts_decoding .smallScale
  have decoded : Model.smallScale.decode w = .ok ⟨.sub, 3⟩ := by decide +kernel
  rcases law.decoded w ⟨.sub, 3⟩ decoded with ⟨pattern, canonical, _, encoded, _⟩
  rcases law.encoded _ _ encoded with ⟨_, decodedAgain, clear⟩
  refine ⟨w, canonical, decoded, encoded, ?_, decodedAgain, clear⟩
  rintro rfl
  exact absurd encoded (by decide +kernel)

end Model
end SmallScale
