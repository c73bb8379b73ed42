import SmallScale.Program.Assembly
import SmallScale.Proofs.Instruction.Coding
import SmallScale.Proofs.Program.Grammar
import SmallScale.Proofs.Text.Numeral

namespace SmallScale

namespace Mnemonic

theorem name_injective {first second : Mnemonic} (same : first.name.toList = second.name.toList) :
    first = second := by
  cases first <;> cases second <;> revert same <;> decide

theorem ofChars?_eq_some_iff {text : List Char} {m : Mnemonic} :
    ofChars? text = some m ↔ Text.capitals text = m.name.toList := by
  unfold ofChars?
  constructor
  · intro found
    have same := List.find?_some found
    exact (beq_iff_eq.mp same).symm
  · intro named
    cases found : all.find? fun m => m.name.toList == Text.capitals text with
    | none =>
        have absent := List.find?_eq_none.mp found m m.mem_all
        exact (absent (beq_iff_eq.mpr named.symm)).elim
    | some other =>
        have same : other.name.toList = Text.capitals text := by simpa using List.find?_some found
        rw [name_injective (same.trans named)]

end Mnemonic

namespace Program
namespace Assembly

/-!
# The grammar of assembly lines

What a line says depends on the model only in whether its mnemonic takes an
operand.  Whether the line is valid depends on three ranges as well: a number
must fit a signed word, any other operand the unsigned address field, and an
operand that is an address must be one of the store's.

The reader finds a fault exactly in the lines that are not valid.  The proof
goes through the line token by token, in the order of the reader.
-/

/-- The line has this mnemonic and this operand, which is zero if the mnemonic
takes none. -/
inductive Says (model : Model) (line : List Char) : Mnemonic → Int → Prop where
  | withOperand {address name token : List Char} {rest : List (List Char)} {m : Mnemonic}
      {value : Int} (tokens : Text.words line = address :: name :: token :: rest)
      (named : Text.capitals name = m.name.toList) (takes : model.takesOperand m = true)
      (spelt : Decimal.SpellsSigned token value) : Says model line m value
  | alone {address name : List Char} {rest : List (List Char)} {m : Mnemonic}
      (tokens : Text.words line = address :: name :: rest)
      (named : Text.capitals name = m.name.toList) (takes : model.takesOperand m = false) :
      Says model line m 0

/-- The operand is in all ranges that concern the mnemonic. -/
structure OperandFits (model : Model) (wordCount : Nat) (m : Mnemonic) (value : Int) : Prop where
  address : model.operandIsAddress m = true → 0 ≤ value ∧ value < wordCount
  number : m = .num → -2 ^ (model.wordLength - 1) ≤ value ∧ value < 2 ^ (model.wordLength - 1)
  field : m ≠ .num → 0 ≤ value ∧ value < 2 ^ model.address.length

/-- The line may stand at this address of a program for a store of `wordCount`
words. -/
structure Valid (model : Model) (wordCount address : Nat) (line : List Char) : Prop where
  addressed : ∃ first rest, Text.words line = first :: rest ∧ Decimal.SpellsUnsigned first address
  meaningful : ∃ m value, Says model line m value ∧ model.knows m = true ∧
    (model.takesOperand m = true → OperandFits model wordCount m value)
  room : address < wordCount

/-- The word that a line stands for. -/
def Means (model : Model) (line : List Char) (w : Word) : Prop :=
  ∃ m value, Says model line m value ∧ encode model m value = .ok w

/-- The grammar of assembly lines. -/
def grammar (model : Model) (wordCount : Nat) : Grammar where
  Valid := Valid model wordCount
  Means := Means model

variable {model : Model} {wordCount : Nat} {m : Mnemonic} {value : Int} {line name : List Char}

theorem mnemonic_eq_ok_iff :
    mnemonic model name = .ok m ↔ Text.capitals name = m.name.toList ∧ model.knows m = true := by
  have known : (Mnemonic.ofChars? name).filter model.knows = some m ↔
      Text.capitals name = m.name.toList ∧ model.knows m = true := by
    rw [Option.filter_eq_some_iff, Mnemonic.ofChars?_eq_some_iff]
  rw [← known, mnemonic]
  cases (Mnemonic.ofChars? name).filter model.knows <;> simp

theorem operand_eq_ok_iff {tokens : List (List Char)} :
    operand model wordCount m tokens = .ok value ↔
      ∃ token rest, tokens = token :: rest ∧ Decimal.SpellsSigned token value ∧
        (model.operandIsAddress m = true → 0 ≤ value ∧ value < wordCount) := by
  constructor
  · intro read
    cases tokens with
    | nil => cases read
    | cons token rest =>
        cases spelt : Decimal.readSigned? token with
        | none =>
            simp only [operand, spelt] at read
            cases read
        | some found =>
            simp only [operand, spelt] at read
            split at read
            · cases read
            · rename_i inside
              cases read
              refine ⟨token, rest, rfl, Decimal.readSigned?_eq_some_iff.mp spelt, ?_⟩
              intro isAddress
              simpa [isAddress] using inside
  · rintro ⟨token, rest, rfl, spelt, inside⟩
    simp only [operand, Decimal.readSigned?_eq_some_iff.mpr spelt]
    cases isAddress : model.operandIsAddress m with
    | false => rfl
    | true => simp [inside isAddress]

theorem encode_eq_ok_iff_of_ne {w : Word} (executable : m ≠ .num) :
    encode model m value = .ok w ↔ 0 ≤ value ∧ model.encode ⟨m, value.toNat⟩ = .ok w := by
  rw [encode, if_neg executable]
  by_cases negative : value < 0
  · simp [negative, Int.not_le.mpr negative]
  · simp [negative, Int.not_lt.mp negative]

/-- A known mnemonic has a word with an operand exactly when the operand fits
where the mnemonic puts it. -/
theorem exists_encode_iff (known : model.knows m = true) (lower : -2 ^ 63 ≤ value)
    (upper : value < 2 ^ 63) :
    (∃ w, encode model m value = .ok w) ↔
      (m = .num → -2 ^ (model.wordLength - 1) ≤ value ∧ value < 2 ^ (model.wordLength - 1)) ∧
        (m ≠ .num → 0 ≤ value ∧ value < 2 ^ model.address.length) := by
  by_cases isNumber : m = .num
  · subst isNumber
    simp [encode, Model.encodeNumber_eq_ok_iff lower upper]
  · rcases Model.exists_patternOf?_of_knows known isNumber with ⟨pattern, canonical⟩
    have power : ((2 ^ model.address.length : Nat) : Int) = 2 ^ model.address.length :=
      Int.natCast_pow 2 model.address.length
    simp only [encode_eq_ok_iff_of_ne isNumber, Model.encode_eq_ok_iff, canonical, isNumber,
      ne_eq, not_false_eq_true, false_implies, true_and, true_implies]
    constructor
    · rintro ⟨w, nonnegative, _, _, fits, _⟩
      omega
    · rintro ⟨nonnegative, fits⟩
      exact ⟨_, nonnegative, pattern, rfl, by omega, rfl⟩

/-- A mnemonic that takes no operand has a word with operand zero. -/
theorem exists_encode_zero (known : model.knows m = true) : ∃ w, encode model m 0 = .ok w := by
  rw [exists_encode_iff known (by decide) (by decide)]
  constructor
  · intro _
    exact ⟨Int.neg_nonpos_of_nonneg (Int.pow_nonneg (by decide)), Int.pow_pos (by decide)⟩
  · intro _
    exact ⟨Int.le_refl 0, Int.pow_pos (by decide)⟩

/-! ## The reader -/

theorem word_eq_ok_iff {tokens : List (List Char)} {w : Word} :
    word model wordCount tokens = .ok w ↔
      ∃ name rest m value, tokens = name :: rest ∧ mnemonic model name = .ok m ∧
        (if model.takesOperand m then operand model wordCount m rest else .ok 0) = .ok value ∧
        encode model m value = .ok w := by
  constructor
  · intro done
    cases tokens with
    | nil => cases done
    | cons name rest =>
        unfold word at done
        cases named : mnemonic model name with
        | error fault => simp [named] at done
        | ok m =>
            cases taken : if model.takesOperand m then operand model wordCount m rest else .ok 0 with
            | error fault => simp [named, taken] at done
            | ok value =>
                cases encoded : encode model m value with
                | error cause => simp [named, taken, encoded] at done
                | ok result =>
                    simp only [named, taken, encoded] at done
                    cases done
                    exact ⟨name, rest, m, value, rfl, named, taken, encoded⟩
  · rintro ⟨name, rest, m, value, rfl, named, taken, encoded⟩
    simp only [word, named, taken, encoded]

/-- The reader has a word for a line exactly when the line says something that
the machine knows and that has a word, where addresses must be in the store. -/
theorem read_word_eq_ok_iff {address : Nat} {w : Word} :
    (read model wordCount address line).word = .ok w ↔
      ∃ m value, Says model line m value ∧ model.knows m = true ∧
        (model.takesOperand m = true → model.operandIsAddress m = true →
          0 ≤ value ∧ value < wordCount) ∧
        encode model m value = .ok w := by
  have tail_eq (name : List Char) (rest : List (List Char)) :
      (Text.words line).tail = name :: rest ↔
        ∃ first, Text.words line = first :: name :: rest := by
    cases Text.words line <;> simp
  rw [read, word_eq_ok_iff]
  constructor
  · rintro ⟨name, rest, m, value, tokens, named, taken, encoded⟩
    rcases (tail_eq name rest).mp tokens with ⟨first, whole⟩
    rcases mnemonic_eq_ok_iff.mp named with ⟨capital, known⟩
    cases takes : model.takesOperand m with
    | true =>
        rw [takes, if_pos rfl, operand_eq_ok_iff] at taken
        rcases taken with ⟨token, others, rfl, spelt, inside⟩
        exact ⟨m, value, .withOperand whole capital takes spelt, known, fun _ => inside, encoded⟩
    | false =>
        rw [takes, if_neg (by decide)] at taken
        cases taken
        refine ⟨m, 0, .alone whole capital takes, known, ?_, encoded⟩
        intro impossible
        cases takes.symm.trans impossible
  · rintro ⟨m, value, said, known, inside, encoded⟩
    cases said with
    | withOperand tokens named takes spelt =>
        refine ⟨_, _, m, value, (tail_eq _ _).mpr ⟨_, tokens⟩,
          mnemonic_eq_ok_iff.mpr ⟨named, known⟩, ?_, encoded⟩
        rw [if_pos takes]
        exact operand_eq_ok_iff.mpr ⟨_, _, rfl, spelt, inside takes⟩
    | alone tokens named takes =>
        refine ⟨_, _, m, 0, (tail_eq _ _).mpr ⟨_, tokens⟩,
          mnemonic_eq_ok_iff.mpr ⟨named, known⟩, ?_, encoded⟩
        rw [takes]
        rfl

theorem addressFault_eq_none_iff {address : Nat} :
    (read model wordCount address line).addressFault = none ↔
      ∃ first rest, Text.words line = first :: rest ∧ Decimal.SpellsUnsigned first address := by
  have judged (found : List Char) :
      addressFault? address found = none ↔ Decimal.SpellsUnsigned found address := by
    rw [← Decimal.readUnsigned?_eq_some_iff]
    simp [addressFault?]
  rw [read, judged]
  cases tokens : Text.words line with
  | cons first rest => simp
  | nil =>
      constructor
      · intro spelt
        rw [List.headD_nil, ← Decimal.readUnsigned?_eq_some_iff] at spelt
        cases spelt
      · rintro ⟨first, rest, impossible, _⟩
        cases impossible

theorem Says.bounded (said : Says model line m value) : -2 ^ 63 ≤ value ∧ value < 2 ^ 63 := by
  cases said with
  | withOperand tokens named takes spelt => exact spelt.1
  | alone tokens named takes => decide

/-- A line says at most one thing. -/
theorem Says.unique {other : Mnemonic} {otherValue : Int} (said : Says model line m value)
    (saidToo : Says model line other otherValue) : m = other ∧ value = otherValue := by
  cases said with
  | withOperand tokens named takes spelt =>
      cases saidToo with
      | withOperand tokens' named' takes' spelt' =>
          cases tokens.symm.trans tokens'
          exact ⟨Mnemonic.name_injective (named.symm.trans named'), spelt.unique spelt'⟩
      | alone tokens' named' takes' =>
          cases tokens.symm.trans tokens'
          cases Mnemonic.name_injective (named.symm.trans named')
          cases takes.symm.trans takes'
  | alone tokens named takes =>
      cases saidToo with
      | withOperand tokens' named' takes' spelt' =>
          cases tokens.symm.trans tokens'
          cases Mnemonic.name_injective (named.symm.trans named')
          cases takes.symm.trans takes'
      | alone tokens' named' takes' =>
          cases tokens.symm.trans tokens'
          exact ⟨Mnemonic.name_injective (named.symm.trans named'), rfl⟩

/-- What a known mnemonic says has a word that the reader accepts exactly when
the operand, if there is one, fits. -/
theorem exists_word_iff (said : Says model line m value) (known : model.knows m = true) :
    ((model.takesOperand m = true → model.operandIsAddress m = true →
        0 ≤ value ∧ value < wordCount) ∧ ∃ w, encode model m value = .ok w) ↔
      (model.takesOperand m = true → OperandFits model wordCount m value) := by
  rcases said.bounded with ⟨lower, upper⟩
  constructor
  · rintro ⟨inside, encodable⟩ takes
    rcases (exists_encode_iff known lower upper).mp encodable with ⟨number, field⟩
    exact ⟨inside takes, number, field⟩
  · intro fits
    refine ⟨fun takes => (fits takes).address, ?_⟩
    cases said with
    | withOperand tokens named takes spelt =>
        exact (exists_encode_iff known lower upper).mpr ⟨(fits takes).number, (fits takes).field⟩
    | alone tokens named takes => exact exists_encode_zero known

/-- The grammar of assembly lines governs their reader. -/
theorem governs (model : Model) (wordCount : Nat) :
    (grammar model wordCount).Governs (read model wordCount) wordCount := by
  constructor
  · intro address line
    rw [faultsAt_eq_nil_iff, addressFault_eq_none_iff]
    constructor
    · rintro ⟨addressed, ⟨w, isWord⟩, room⟩
      rcases read_word_eq_ok_iff.mp isWord with ⟨m, value, said, known, inside, encoded⟩
      exact ⟨addressed, ⟨m, value, said, known, (exists_word_iff said known).mp
        ⟨inside, w, encoded⟩⟩, room⟩
    · rintro ⟨addressed, ⟨m, value, said, known, fits⟩, room⟩
      rcases (exists_word_iff said known).mpr fits with ⟨inside, w, encoded⟩
      exact ⟨addressed, ⟨w, read_word_eq_ok_iff.mpr ⟨m, value, said, known, inside, encoded⟩⟩,
        room⟩
  · intro address line w isWord
    rcases read_word_eq_ok_iff.mp isWord with ⟨m, value, said, _, _, encoded⟩
    exact ⟨m, value, said, encoded⟩

theorem length_of_means {w : Word} (means : Means model line w) : w.length = model.wordLength := by
  rcases means with ⟨m, value, said, encoded⟩
  by_cases isNumber : m = .num
  · subst isNumber
    rcases (Model.encodeNumber_eq_ok_iff said.bounded.1 said.bounded.2).mp encoded with ⟨_, rfl⟩
    exact Word.length_ofInt value model.wordLength
  · exact Model.length_of_encode ((encode_eq_ok_iff_of_ne isNumber).mp encoded).2

end Assembly
end Program
end SmallScale
