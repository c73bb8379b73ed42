import SmallScale.Proofs.Program.Assembly
import SmallScale.Proofs.Program.Written

namespace SmallScale

namespace Mnemonic

theorem isName_name (m : Mnemonic) : Program.isName m.name.toList = true := by
  cases m <;> decide

theorem capitals_name (m : Mnemonic) : Text.capitals m.name.toList = m.name.toList := by
  cases m <;> decide

theorem solid_name (m : Mnemonic) : Text.Solid m.name.toList := by
  have noBlanks : (m.name.toList.all fun c => !Text.isBlank c) = true := by cases m <;> decide
  refine ⟨by cases m <;> decide, ?_⟩
  intro c member
  simpa using List.all_eq_true.mp noBlanks c member

end Mnemonic

namespace Program
namespace Assembly

/-!
# Assembly lines as they are written

A line is written with its address, its mnemonic and a number behind it, with
single spaces between them.  Where the mnemonic takes no operand, a number that is
not negative may be left out.  Such a line is in the grammar and says what it was
written for, except that a number behind a mnemonic without an operand is ignored.
The pattern of assembly text is narrower than the grammar and has no place for the
sign of a negative number.
-/

/-- The forms of a line for a mnemonic and a number. -/
inductive Written (model : Model) (address : Nat) (m : Mnemonic) (value : Int) :
    List Char → Prop where
  | bare (takesNone : model.takesOperand m = false) (nonnegative : 0 ≤ value) :
      Written model address m value ((Decimal.padded 2 address).toList ++ ' ' :: m.name.toList)
  | withNumber :
      Written model address m value ((Decimal.padded 2 address).toList ++
        ' ' :: (m.name.toList ++ ' ' :: (Decimal.signedText value).toList))

variable {model : Model} {address : Nat} {m : Mnemonic} {value : Int} {text : List Char}

theorem words_bare (address : Nat) (m : Mnemonic) :
    Text.words ((Decimal.padded 2 address).toList ++ ' ' :: m.name.toList) =
      [(Decimal.padded 2 address).toList, m.name.toList] := by
  have solidAddress := Decimal.solid_of_isDigits (Decimal.spells_padded 2 address).1
  rw [solidAddress.words_append (by decide), m.solid_name.words_eq]

theorem words_withNumber (address : Nat) (m : Mnemonic) (value : Int) :
    Text.words ((Decimal.padded 2 address).toList ++
        ' ' :: (m.name.toList ++ ' ' :: (Decimal.signedText value).toList)) =
      [(Decimal.padded 2 address).toList, m.name.toList, (Decimal.signedText value).toList] := by
  have solidAddress := Decimal.solid_of_isDigits (Decimal.spells_padded 2 address).1
  rw [solidAddress.words_append (by decide), m.solid_name.words_append (by decide),
    (Decimal.solid_signedText value).words_eq]

namespace Written

variable (written : Written model address m value text)

include written

theorem not_mem {c : Char} (noDigit : Decimal.isDigit c = false) (noSign : c ≠ '-')
    (noBlank : c ≠ ' ') (noName : c ∉ m.name.toList) : c ∉ text := by
  have noAddress : c ∉ (Decimal.padded 2 address).toList :=
    Decimal.not_mem_of_isDigits (Decimal.spells_padded 2 address).1 noDigit
  have noNumber := Decimal.not_mem_signedText noDigit noSign value
  cases written with
  | bare => simp [noAddress, noBlank, noName]
  | withNumber => simp [noAddress, noBlank, noName, noNumber]

theorem colon_not_mem : ':' ∉ text :=
  written.not_mem (by decide) (by decide) (by decide) (by cases m <;> decide)

theorem plain : Plain text := by
  have noComment : ';' ∉ text :=
    written.not_mem (by decide) (by decide) (by decide) (by cases m <;> decide)
  have unbroken : '\n' ∉ text :=
    written.not_mem (by decide) (by decide) (by decide) (by cases m <;> decide)
  have solidAddress := Decimal.solid_of_isDigits (Decimal.spells_padded 2 address).1
  cases written with
  | bare => exact plain_of_solid [' '] solidAddress m.solid_name noComment unbroken
  | withNumber =>
      have regrouped : ' ' :: (m.name.toList ++ ' ' :: (Decimal.signedText value).toList) =
          (' ' :: (m.name.toList ++ [' '])) ++ (Decimal.signedText value).toList := by simp
      rw [regrouped] at noComment unbroken ⊢
      exact plain_of_solid _ solidAddress (Decimal.solid_signedText value) noComment unbroken

/-- A line shows the format of assembly text unless its number is negative. -/
theorem assemblyPattern_iff : AssemblyPattern text ↔ 0 ≤ value := by
  have isAddress := (Decimal.spells_padded 2 address).1
  cases written with
  | bare takesNone nonnegative =>
      exact iff_of_true (.bare isAddress m.isName_name) nonnegative
  | withNumber =>
      have pieces := splitWhere_space_eq_triple_iff.mpr
        ⟨rfl, Decimal.not_mem_of_isDigits isAddress (by decide),
          not_mem_of_isName m.isName_name (by decide),
          Decimal.not_mem_signedText (by decide) (by decide) value⟩
      rw [← looksLikeAssembly_iff, looksLikeAssembly, pieces, ← Decimal.isDigits_signedText_iff]
      simp [isAddress, m.isName_name]

/-- The first word of a line is its address. -/
theorem spellsUnsigned_address (addressable : address < 2 ^ 64) :
    ∃ first rest, Text.words text = first :: rest ∧ Decimal.SpellsUnsigned first address := by
  have spelt := Decimal.spells_padded 2 address
  cases written with
  | bare => exact ⟨_, _, words_bare address m, addressable, Or.inl spelt⟩
  | withNumber => exact ⟨_, _, words_withNumber address m value, addressable, Or.inl spelt⟩

/-- A line says the number it was written for if the mnemonic takes an operand. -/
theorem tells (lower : -2 ^ 63 ≤ value) (upper : value < 2 ^ 63) :
    Says model text m (if model.takesOperand m then value else 0) := by
  cases written with
  | bare takesNone nonnegative =>
      rw [takesNone]
      exact .alone (words_bare address m) m.capitals_name takesNone
  | withNumber =>
      have tokens := words_withNumber address m value
      cases takes : model.takesOperand m with
      | false => exact .alone tokens m.capitals_name takes
      | true =>
          exact .withOperand tokens m.capitals_name takes
            ⟨⟨lower, upper⟩, Decimal.spellsInteger_signedText value⟩

end Written

end Assembly
end Program
end SmallScale
