import SmallScale.Program.Dump
import SmallScale.Proofs.Program.Format
import SmallScale.Proofs.Program.Grammar
import SmallScale.Proofs.Text.Numeral
import SmallScale.Proofs.Word.Digits

namespace SmallScale
namespace Program
namespace Dump

/-!
# The grammar of dump lines

The first colon that a space follows separates the address of a dump line from
the bits of its word.  Blanks around either do not count.
-/

/-- The line may stand at this address of a dump of `wordCount` words of
`wordLength` bits. -/
structure Valid (wordLength wordCount address : Nat) (line : List Char) : Prop where
  meaningful : ∃ before after, CutsAtColon line before after ∧
    Decimal.SpellsUnsigned (Text.trim before) address ∧
    ∃ w : Word, w.WrittenAs (Text.trim after) ∧ w.length = wordLength
  room : address < wordCount

/-- The word of `wordLength` bits that a line stands for. -/
def Means (wordLength : Nat) (line : List Char) (w : Word) : Prop :=
  ∃ before after, CutsAtColon line before after ∧ w.WrittenAs (Text.trim after) ∧
    w.length = wordLength

/-- The grammar of dump lines. -/
def grammar (wordLength wordCount : Nat) : Grammar where
  Valid := Valid wordLength wordCount
  Means := Means wordLength

variable {wordLength wordCount address : Nat} {line : List Char} {w : Word}

theorem word_eq_ok_iff {bits : List Char} :
    word wordLength bits = .ok w ↔ w.WrittenAs (Text.trim bits) ∧ w.length = wordLength := by
  rw [← Word.ofChars_eq_ok_iff, word]
  cases Word.ofChars bits with
  | error cause => simp
  | ok found =>
      by_cases wide : found.length = wordLength
      · simp only [wide, if_true, Except.ok.injEq]
        constructor
        · rintro rfl
          exact ⟨rfl, wide⟩
        · exact And.left
      · simp only [wide, if_false, Except.ok.injEq, reduceCtorEq, false_iff, not_and]
        rintro rfl
        exact wide

theorem read_word_eq_ok_iff :
    (read wordLength address line).word = .ok w ↔ Means wordLength line w := by
  simp only [Means, ← cutAtColon_eq_some_iff, ← word_eq_ok_iff, read]
  cases cutAtColon line with
  | none => simp
  | some parts => simp [Prod.ext_iff, and_assoc]

theorem faultless_iff {before after : List Char} (cuts : CutsAtColon line before after) :
    (read wordLength address line).addressFault = none ↔
      Decimal.SpellsUnsigned (Text.trim before) address := by
  rw [← Decimal.readUnsigned?_eq_some_iff]
  simp [read, cutAtColon_eq_some_iff.mpr cuts]

/-- The grammar of dump lines governs their reader. -/
theorem governs (wordLength wordCount : Nat) :
    (grammar wordLength wordCount).Governs (read wordLength) wordCount := by
  constructor
  · intro address line
    rw [faultsAt_eq_nil_iff]
    constructor
    · rintro ⟨addressed, ⟨w, isWord⟩, room⟩
      rcases read_word_eq_ok_iff.mp isWord with ⟨before, after, cuts, written, wide⟩
      exact ⟨⟨before, after, cuts, (faultless_iff cuts).mp addressed, w, written, wide⟩, room⟩
    · rintro ⟨⟨before, after, cuts, spelt, w, written, wide⟩, room⟩
      exact ⟨(faultless_iff cuts).mpr spelt,
        ⟨w, read_word_eq_ok_iff.mpr ⟨before, after, cuts, written, wide⟩⟩, room⟩
  · intro address line w isWord
    exact read_word_eq_ok_iff.mp isWord

theorem length_of_means (means : Means wordLength line w) : w.length = wordLength := by
  rcases means with ⟨_, _, _, _, wide⟩
  exact wide

end Dump
end Program
end SmallScale
