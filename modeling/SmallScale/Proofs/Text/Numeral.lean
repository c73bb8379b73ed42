import Mathlib.Algebra.Group.Int.Defs
import Mathlib.Algebra.Group.Nat.Defs
import SmallScale.Proofs.Text.Pieces
import SmallScale.Text.Decimal

namespace SmallScale
namespace Decimal

/-!
# Numerals

The readers of decimal numbers look for a sign first and judge the rest.  Here
the texts that spell a number are described without a reader: a nonempty run of
digits, perhaps behind a sign.  A reader answers with a number exactly when the
text spells it and it fits the 64-bit register that the reader fills.  What is
written for a number spells that number, however it is padded.
-/

/-- The text is a nonempty run of digits of this value. -/
def Spells (text : List Char) (value : Nat) : Prop :=
  isDigits text = true ∧ valueOf text = value

/-- The text spells an integer, perhaps with a sign in front. -/
inductive SpellsInteger : List Char → Int → Prop where
  | plain {digits : List Char} {value : Nat} (spelt : Spells digits value) :
      SpellsInteger digits value
  | plus {digits : List Char} {value : Nat} (spelt : Spells digits value) :
      SpellsInteger ('+' :: digits) value
  | minus {digits : List Char} {value : Nat} (spelt : Spells digits value) :
      SpellsInteger ('-' :: digits) (-value)

/-- The text spells an unsigned 64-bit number; a plus sign may stand in front. -/
def SpellsUnsigned (text : List Char) (value : Nat) : Prop :=
  value < 2 ^ 64 ∧ (Spells text value ∨ ∃ digits, text = '+' :: digits ∧ Spells digits value)

/-- The text spells a signed 64-bit number. -/
def SpellsSigned (text : List Char) (value : Int) : Prop :=
  (-2 ^ 63 ≤ value ∧ value < 2 ^ 63) ∧ SpellsInteger text value

theorem isBlank_eq_false_of_isDigit {c : Char} (digit : isDigit c = true) :
    Text.isBlank c = false := by
  simp only [isDigit, Bool.and_eq_true, decide_eq_true_eq] at digit
  simp only [Text.isBlank, Bool.or_eq_false_iff, Bool.and_eq_false_iff, decide_eq_false_iff_not,
    beq_eq_false_iff_ne]
  omega

theorem solid_of_isDigits {text : List Char} (allDigits : isDigits text = true) :
    Text.Solid text := by
  rw [isDigits, Bool.and_eq_true, List.all_eq_true] at allDigits
  refine ⟨?_, fun c member => isBlank_eq_false_of_isDigit (allDigits.2 c member)⟩
  rintro rfl
  cases allDigits.1

theorem not_mem_of_isDigits {text : List Char} {c : Char} (allDigits : isDigits text = true)
    (other : isDigit c = false) : c ∉ text := by
  intro member
  rw [isDigits, Bool.and_eq_true, List.all_eq_true] at allDigits
  rw [allDigits.2 c member] at other
  cases other

theorem read?_eq_some_iff {text : List Char} {value : Nat} :
    read? text = some value ↔ Spells text value := by
  unfold read? Spells
  by_cases allDigits : isDigits text = true
  · simp [allDigits]
  · simp [allDigits]

/-- A numeral without a sign starts with none. -/
theorem not_spells_of_sign {sign : Char} {rest : List Char} {value : Nat}
    (isSign : isDigit sign = false) : ¬ Spells (sign :: rest) value := by
  intro spelt
  have allDigits := spelt.1
  simp [isDigits, isSign] at allDigits

theorem readUnsigned?_eq_some_iff {text : List Char} {value : Nat} :
    readUnsigned? text = some value ↔ SpellsUnsigned text value := by
  unfold readUnsigned? SpellsUnsigned
  rw [Option.filter_eq_some_iff, decide_eq_true_eq, read?_eq_some_iff, and_comm]
  apply and_congr_right
  intro _
  split
  · rename_i rest
    constructor
    · intro spelt
      exact Or.inr ⟨rest, rfl, spelt⟩
    · rintro (unsigned | ⟨digits, same, spelt⟩)
      · exact (not_spells_of_sign (by decide) unsigned).elim
      · cases same
        exact spelt
  · rename_i noPlus
    constructor
    · exact Or.inl
    · rintro (spelt | ⟨digits, same, _⟩)
      · exact spelt
      · exact (noPlus digits same).elim

theorem solid_of_spellsUnsigned {text : List Char} {value : Nat}
    (spelt : SpellsUnsigned text value) : Text.Solid text := by
  rcases spelt.2 with plain | ⟨digits, rfl, signed⟩
  · exact solid_of_isDigits plain.1
  · refine ⟨List.cons_ne_nil _ _, List.forall_mem_cons.mpr ⟨by decide, ?_⟩⟩
    exact (solid_of_isDigits signed.1).isBlank_eq_false

theorem not_mem_of_spellsUnsigned {text : List Char} {value : Nat} {c : Char}
    (spelt : SpellsUnsigned text value) (noDigit : isDigit c = false) (noSign : c ≠ '+') :
    c ∉ text := by
  rcases spelt.2 with plain | ⟨digits, rfl, signed⟩
  · exact not_mem_of_isDigits plain.1 noDigit
  · simp [noSign, not_mem_of_isDigits signed.1 noDigit]

theorem readSigned?_eq_some_iff {text : List Char} {value : Int} :
    readSigned? text = some value ↔ SpellsSigned text value := by
  have lowest : Int64.minValue.toInt = -2 ^ 63 := by decide
  have highest : Int64.maxValue.toInt = 2 ^ 63 - 1 := by decide
  unfold readSigned? SpellsSigned
  rw [Option.filter_eq_some_iff, Bool.and_eq_true, decide_eq_true_eq, decide_eq_true_eq, lowest,
    highest, Int.le_sub_one_iff, and_comm]
  apply and_congr_right
  intro _
  constructor
  · intro reading
    split at reading
    · rcases Option.map_eq_some_iff.mp reading with ⟨_, cast, rfl⟩
      rcases Option.bind_eq_some_iff.mp cast with ⟨magnitude, spelt, same⟩
      cases same
      exact .minus (read?_eq_some_iff.mp spelt)
    · rcases Option.map_eq_some_iff.mp reading with ⟨magnitude, spelt, rfl⟩
      exact .plus (read?_eq_some_iff.mp spelt)
    · rcases Option.map_eq_some_iff.mp reading with ⟨magnitude, spelt, rfl⟩
      exact .plain (read?_eq_some_iff.mp spelt)
  · intro spelt
    cases spelt with
    | plus spelt => simp [read?_eq_some_iff.mpr spelt]
    | minus spelt => simp [read?_eq_some_iff.mpr spelt]
    | plain spelt =>
        split
        · exact (not_spells_of_sign (by decide) spelt).elim
        · exact (not_spells_of_sign (by decide) spelt).elim
        · simp [read?_eq_some_iff.mpr spelt]

/-- A text spells at most one integer. -/
theorem SpellsInteger.unique {text : List Char} {first second : Int}
    (spellsFirst : SpellsInteger text first) (spellsSecond : SpellsInteger text second) :
    first = second := by
  cases spellsFirst with
  | plain spelt =>
      cases spellsSecond with
      | plain spelt' => rw [← spelt.2, ← spelt'.2]
      | plus spelt' => exact (not_spells_of_sign (by decide) spelt).elim
      | minus spelt' => exact (not_spells_of_sign (by decide) spelt).elim
  | plus spelt =>
      cases spellsSecond with
      | plain spelt' => exact (not_spells_of_sign (by decide) spelt').elim
      | plus spelt' => rw [← spelt.2, ← spelt'.2]
  | minus spelt =>
      cases spellsSecond with
      | plain spelt' => exact (not_spells_of_sign (by decide) spelt').elim
      | minus spelt' => rw [← spelt.2, ← spelt'.2]

/-- A text spells at most one signed number. -/
theorem SpellsSigned.unique {text : List Char} {first second : Int}
    (spellsFirst : SpellsSigned text first) (spellsSecond : SpellsSigned text second) :
    first = second :=
  spellsFirst.2.unique spellsSecond.2

/-! ## Written numbers -/

/-- Zeros in front do not change the number. -/
theorem Spells.padded {text : List Char} {value : Nat} (spelt : Spells text value) (count : Nat) :
    Spells (List.replicate count '0' ++ text) value := by
  induction count with
  | zero => exact spelt
  | succ count ih =>
      rcases ih with ⟨allDigits, sameValue⟩
      rw [isDigits, Bool.and_eq_true] at allDigits
      exact ⟨allDigits.2, sameValue⟩

theorem digit_small : ∀ n < 10, isDigit (digit n) = true ∧ (digit n).toNat - 48 = n := by
  decide

/-- One more digit behind a numeral. -/
theorem Spells.snoc {text : List Char} {value n : Nat} (spelt : Spells text value)
    (small : n < 10) : Spells (text ++ [digit n]) (10 * value + n) := by
  rcases spelt with ⟨allDigits, rfl⟩
  rcases digit_small n small with ⟨isDigit, sameValue⟩
  constructor
  · rw [isDigits, Bool.and_eq_true] at allDigits ⊢
    simp [allDigits.2, isDigit]
  · rw [valueOf, List.foldl_append, List.foldl_cons, List.foldl_nil, sameValue]
    rfl

theorem spells_digit {n : Nat} (small : n < 10) : Spells [digit n] n := by
  rcases digit_small n small with ⟨isDigit, sameValue⟩
  constructor
  · simp [isDigits, isDigit]
  · simp [valueOf, sameValue]

/-- The digits that are written for a number spell it. -/
theorem spells_digits (n : Nat) : Spells (digits n) n := by
  induction n using digits.induct with
  | case1 n small =>
      rw [digits, if_pos small]
      exact spells_digit small
  | case2 n large ih =>
      rw [digits, if_neg large]
      have longer := ih.snoc (Nat.mod_lt n (by decide : 0 < 10))
      rwa [Nat.div_add_mod] at longer

theorem spells_padded (width n : Nat) : Spells (padded width n).toList n := by
  rw [Decimal.padded, String.toList_ofList]
  exact (spells_digits n).padded _

theorem spellsInteger_signedText (value : Int) : SpellsInteger (signedText value).toList value := by
  have magnitude : Spells (text value.natAbs).toList value.natAbs := by
    rw [text, String.toList_ofList]
    exact spells_digits value.natAbs
  unfold signedText
  split
  · rename_i negative
    rw [String.toList_append]
    have signed := SpellsInteger.minus magnitude
    rwa [Int.ofNat_natAbs_of_nonpos (Int.le_of_lt negative), Int.neg_neg] at signed
  · rename_i nonnegative
    have unsigned := SpellsInteger.plain magnitude
    rwa [Int.natAbs_of_nonneg (Int.not_lt.mp nonnegative)] at unsigned

/-- What is written for an integer: its digits, behind a minus sign if it is negative. -/
theorem toList_signedText (value : Int) :
    (signedText value).toList =
      if value < 0 then '-' :: digits value.natAbs else digits value.natAbs := by
  unfold signedText
  split <;> simp [text, String.toList_append, String.toList_ofList]

theorem isDigits_signedText_iff {value : Int} :
    isDigits (signedText value).toList = true ↔ 0 ≤ value := by
  rw [toList_signedText]
  by_cases negative : value < 0
  · rw [if_pos negative]
    constructor
    · intro allDigits
      exact (not_spells_of_sign (by decide) ⟨allDigits, rfl⟩).elim
    · intro nonnegative
      omega
  · rw [if_neg negative]
    exact iff_of_true (spells_digits _).1 (Int.not_lt.mp negative)

theorem not_mem_signedText {c : Char} (noDigit : isDigit c = false) (noSign : c ≠ '-')
    (value : Int) : c ∉ (signedText value).toList := by
  have free : c ∉ digits value.natAbs := not_mem_of_isDigits (spells_digits _).1 noDigit
  rw [toList_signedText]
  split
  · simp [noSign, free]
  · exact free

theorem solid_signedText (value : Int) : Text.Solid (signedText value).toList := by
  have solid := solid_of_isDigits (spells_digits value.natAbs).1
  rw [toList_signedText]
  split
  · refine ⟨List.cons_ne_nil _ _, ?_⟩
    rw [List.forall_mem_cons]
    exact ⟨by decide, solid.isBlank_eq_false⟩
  · exact solid
end Decimal
end SmallScale
