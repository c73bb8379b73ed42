import SmallScale.Word.Text

namespace SmallScale
namespace Word

/-!
# Words from digits

The reader of words takes exactly the texts that a word is written as: its
binary digits, perhaps behind the mark `0b`, perhaps between blanks.  A text
that is refused is the text of no word.
-/

/-- The text shows the word in binary digits, perhaps behind the mark. -/
def WrittenAs (w : Word) (text : List Char) : Prop :=
  text = w.bits.map GlyphStyle.binary.glyph ∨
    text = '0' :: 'b' :: w.bits.map GlyphStyle.binary.glyph

theorem bitOfDigit_eq_ok_iff {c : Char} {bit : Bool} :
    bitOfDigit c = .ok bit ↔ c = GlyphStyle.binary.glyph bit := by
  unfold bitOfDigit
  by_cases isClear : c = '0'
  · subst isClear
    cases bit <;> simp [GlyphStyle.glyph, GlyphStyle.set, GlyphStyle.clear]
  · by_cases isSet : c = '1'
    · subst isSet
      cases bit <;> simp [GlyphStyle.glyph, GlyphStyle.set, GlyphStyle.clear]
    · cases bit <;> simp [GlyphStyle.glyph, GlyphStyle.set, GlyphStyle.clear, isClear, isSet]

theorem bitsOfDigits_eq_ok_iff {text : List Char} {bits : List Bool} :
    bitsOfDigits text = .ok bits ↔ text = bits.map GlyphStyle.binary.glyph := by
  induction text generalizing bits with
  | nil => cases bits <;> simp [bitsOfDigits]
  | cons c rest ih =>
      unfold bitsOfDigits
      cases read : bitOfDigit c with
      | error e =>
          constructor
          · intro impossible
            cases impossible
          · intro drawn
            cases bits with
            | nil => cases drawn
            | cons bit others =>
                rw [bitOfDigit_eq_ok_iff.mpr (List.cons.inj drawn).1] at read
                cases read
      | ok first =>
          have isGlyph := bitOfDigit_eq_ok_iff.mp read
          constructor
          · intro done
            cases others : bitsOfDigits rest with
            | error e =>
                rw [others] at done
                cases done
            | ok tail =>
                rw [others] at done
                cases done
                rw [List.map_cons, ← isGlyph, ← ih.mp others]
          · intro drawn
            cases bits with
            | nil => cases drawn
            | cons bit tail =>
                rcases List.cons.inj drawn with ⟨sameGlyph, sameRest⟩
                have sameBit : first = bit :=
                  GlyphStyle.glyph_injective .binary (isGlyph.symm.trans sameGlyph)
                rw [ih.mpr sameRest, sameBit]
                rfl

theorem glyph_ne_mark : ∀ bit, GlyphStyle.binary.glyph bit ≠ 'b' := by
  decide

theorem withoutMark_eq_iff {text : List Char} {bits : List Bool} :
    withoutMark text = bits.map GlyphStyle.binary.glyph ↔ WrittenAs ⟨bits⟩ text := by
  unfold withoutMark WrittenAs
  split
  · rename_i rest
    constructor
    · intro drawn
      exact Or.inr (by rw [drawn])
    · rintro (unmarked | marked)
      · have drawn : 'b' ∈ bits.map GlyphStyle.binary.glyph := by
          rw [← unmarked]
          simp
        rcases List.mem_map.mp drawn with ⟨bit, _, same⟩
        exact (glyph_ne_mark bit same).elim
      · exact (List.cons.inj (List.cons.inj marked).2).2
  · rename_i noMark
    constructor
    · exact Or.inl
    · rintro (unmarked | marked)
      · exact unmarked
      · exact (noMark _ marked).elim

/-- A text is read as a word exactly when it shows that word between blanks. -/
theorem ofChars_eq_ok_iff {text : List Char} {w : Word} :
    ofChars text = .ok w ↔ w.WrittenAs (Text.trim text) := by
  rcases w with ⟨bits⟩
  rw [← withoutMark_eq_iff, ← bitsOfDigits_eq_ok_iff, ofChars]
  cases bitsOfDigits (withoutMark (Text.trim text)) <;> simp [Except.map]

end Word
end SmallScale
