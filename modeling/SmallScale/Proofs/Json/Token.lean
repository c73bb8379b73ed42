import SmallScale.Json.Token
import SmallScale.Proofs.Text.Numeral

namespace SmallScale
namespace Json

/-!
# Tokens that were written

A literal, an integer or a string is read as one token from the text that is written for
it.  Strings may hold any characters: each is written as one part that spells it again.
Behind an integer must come something that is no more of a number.
-/

/-! ## Strings -/

theorem hexValue?_hexDigit : ∀ n < 16, hexValue? (hexDigit n) = some n := by
  decide

/-- The three ways to write a character inside a string. -/
theorem escape_cases (c : Char) :
    (∃ letter, escape c = ['\\', letter] ∧ letter ≠ 'u' ∧ shortEscape? letter = some c) ∨
    (escape c = ['\\', 'u', '0', '0', hexDigit (c.toNat / 16), hexDigit (c.toNat % 16)] ∧
      c.toNat < 0x20) ∨
    (escape c = [c] ∧ c ≠ '\x22' ∧ c ≠ '\\' ∧ ¬ c.toNat < 0x20) := by
  unfold escape
  by_cases isQuote : c = '\x22'
  · subst c
    exact Or.inl ⟨'\x22', rfl, by decide, rfl⟩
  by_cases isBackslash : c = '\\'
  · subst c
    exact Or.inl ⟨'\\', rfl, by decide, rfl⟩
  rw [if_neg isQuote, if_neg isBackslash]
  -- What remains are the control characters with a letter, those without, and the rest.
  iterate 5
    split
    · subst c
      exact Or.inl ⟨_, rfl, by decide, rfl⟩
  split
  · rename_i control
    exact Or.inr (Or.inl ⟨rfl, control⟩)
  · rename_i printable
    exact Or.inr (Or.inr ⟨rfl, isQuote, isBackslash, printable⟩)

theorem hexUnit?_of_small {code : Nat} (small : code < 0x20) :
    hexUnit? '0' '0' (hexDigit (code / 16)) (hexDigit (code % 16)) = some code := by
  have zero : hexValue? '0' = some 0 := by decide
  unfold hexUnit?
  rw [zero, hexValue?_hexDigit _ (by omega), hexValue?_hexDigit _ (by omega)]
  dsimp only
  congr 1
  omega

/-- A written character is one part of a string and spells that character. -/
theorem exists_part_of_escape (c : Char) :
    ∃ part, (∀ cs, stringParts (escape c ++ cs) = withPart part (stringParts cs)) ∧
      ∀ parts, spelled (part :: parts) = (spelled parts).map (c :: ·) := by
  rcases escape_cases c with ⟨letter, written, noUnit, short⟩ | ⟨written, control⟩ |
    ⟨written, noQuote, noBackslash, printable⟩
  · refine ⟨.plain c, fun cs => ?_, fun _ => rfl⟩
    rw [written, List.cons_append, List.cons_append, List.nil_append, stringParts, short]
    exact fun _ _ _ _ _ isUnit _ => noUnit isUnit
  · refine ⟨.escapedUnit c.toNat, fun cs => ?_, fun parts => ?_⟩
    · rw [written]
      simp only [List.cons_append, List.nil_append]
      rw [stringParts, hexUnit?_of_small control]
    · have noHigh : isHighSurrogate c.toNat = false := by
        simp [isHighSurrogate]
        omega
      have noLow : isLowSurrogate c.toNat = false := by
        simp [isLowSurrogate]
        omega
      rw [spelled.eq_def]
      dsimp only
      rw [noHigh, noLow, Char.ofNat_toNat]
      rfl
  · refine ⟨.plain c, fun cs => ?_, fun _ => rfl⟩
    rw [written, List.cons_append, List.nil_append, stringParts, if_neg printable]
    · exact noQuote
    · exact fun _ _ _ _ _ isBackslash _ => noBackslash isBackslash
    · exact fun _ _ isBackslash _ => noBackslash isBackslash

/-- The parts of a written string spell its characters. -/
theorem exists_parts_of_escapes (text rest : List Char) :
    ∃ parts, stringParts (text.flatMap escape ++ '\x22' :: rest) = some (parts, rest) ∧
      spelled parts = some text := by
  induction text with
  | nil => exact ⟨[], rfl, rfl⟩
  | cons c others ih =>
      rcases ih with ⟨parts, read, spells⟩
      rcases exists_part_of_escape c with ⟨part, readFirst, spellsFirst⟩
      refine ⟨part :: parts, ?_, ?_⟩
      · rw [List.flatMap_cons, List.append_assoc, readFirst, read]
        rfl
      · rw [spellsFirst, spells]
        rfl

theorem writeString_append (text : String) (rest : List Char) :
    writeString (some text) ++ rest =
      '\x22' :: (text.toList.flatMap escape ++ '\x22' :: rest) := by
  have written : writeString (some text) = '\x22' :: text.toList.flatMap escape ++ ['\x22'] := rfl
  rw [written, List.append_assoc]
  rfl

theorem starting_writeString (text : String) (rest : List Char) :
    Token.starting (writeString (some text) ++ rest) = some (.scalar (ofString text), rest) := by
  rcases exists_parts_of_escapes text.toList rest with ⟨parts, read, spells⟩
  have readBack : readString (text.toList.flatMap escape ++ '\x22' :: rest) =
      some (ofString text, rest) := by
    rw [readString, read, Option.map_some]
    dsimp only
    rw [spells, Option.map_some, String.ofList_toList]
    rfl
  rw [writeString_append, Token.starting, readBack]
  rfl

/-! ## Integers -/

/-- What follows a number cannot belong to it. -/
def EndsNumber (rest : List Char) : Prop :=
  ∀ c ∈ rest.head?, Decimal.isDigit c = false ∧ c ≠ '.' ∧ c ≠ 'e' ∧ c ≠ 'E'

theorem passFraction_of_endsNumber {rest : List Char} (ends : EndsNumber rest) :
    passFraction rest = some rest := by
  unfold passFraction
  split
  · rename_i behind
    exact ((ends '.' rfl).2.1 rfl).elim
  · rfl

theorem passExponent_of_endsNumber {rest : List Char} (ends : EndsNumber rest) :
    passExponent rest = some rest := by
  cases rest with
  | nil => rfl
  | cons c behind =>
      rcases ends c rfl with ⟨_, _, noSmall, noCapital⟩
      rw [passExponent.eq_def]
      exact if_neg (by simp [noSmall, noCapital])

theorem digitRun_append {digits rest : List Char} (allDigits : Decimal.isDigits digits = true)
    (ends : EndsNumber rest) : digitRun (digits ++ rest) = some (digits, rest) := by
  rw [Decimal.isDigits, Bool.and_eq_true, List.all_eq_true] at allDigits
  have stops : rest.takeWhile Decimal.isDigit = [] ∧ rest.dropWhile Decimal.isDigit = rest := by
    cases rest with
    | nil => exact ⟨rfl, rfl⟩
    | cons c behind => simp [(ends c rfl).1]
  unfold digitRun
  rw [List.takeWhile_append_of_pos allDigits.2, List.dropWhile_append_of_pos allDigits.2, stops.1,
    stops.2, List.append_nil, if_neg (by simpa using allDigits.1)]

theorem digit_ne_zero : ∀ n < 10, 0 < n → Decimal.digit n ≠ '0' := by
  decide

/-- Only zero is written with a zero in front. -/
theorem exists_digits_of_pos {n : Nat} (positive : 0 < n) :
    ∃ first others, Decimal.digits n = first :: others ∧ first ≠ '0' := by
  induction n using Decimal.digits.induct with
  | case1 n small =>
      rw [Decimal.digits, if_pos small]
      exact ⟨_, _, rfl, digit_ne_zero n small positive⟩
  | case2 n large ih =>
      rcases ih (Nat.div_pos (by omega) (by decide)) with ⟨first, others, written, noZero⟩
      rw [Decimal.digits, if_neg large, written]
      exact ⟨first, _, rfl, noZero⟩

theorem no_leading_zero (n : Nat) :
    ¬ ((Decimal.digits n).head? = some '0' ∧ Decimal.digits n ≠ ['0']) := by
  rintro ⟨zeroFirst, notAlone⟩
  rcases Nat.eq_zero_or_pos n with rfl | positive
  · exact notAlone (by rw [Decimal.digits]; rfl)
  · rcases exists_digits_of_pos positive with ⟨first, others, written, noZero⟩
    rw [written] at zeroFirst
    exact noZero (Option.some.inj zeroFirst)

theorem readMagnitude_digits {negative : Bool} {n : Nat} {rest : List Char}
    (ends : EndsNumber rest) (noNegatedZero : negative = false ∨ n ≠ 0) :
    readMagnitude negative (Decimal.digits n ++ rest) =
      some (integer (if negative then -(n : Int) else n), rest) := by
  rcases Decimal.spells_digits n with ⟨allDigits, sameValue⟩
  unfold readMagnitude
  rw [digitRun_append allDigits ends]
  dsimp only
  rw [if_neg (no_leading_zero n), passFraction_of_endsNumber ends, Option.bind_some,
    passExponent_of_endsNumber ends]
  dsimp only
  rw [sameValue, if_pos ⟨rfl, noNegatedZero⟩]

/-- The characters that numbers start with. -/
def StartsNumber (c : Char) : Prop :=
  Decimal.isDigit c = true ∨ c = '-'

theorem StartsNumber.ne {c mark : Char} (starts : StartsNumber c)
    (noDigit : Decimal.isDigit mark = false) (noSign : mark ≠ '-') : c ≠ mark := by
  rintro rfl
  rcases starts with digit | sign
  · rw [noDigit] at digit
    cases digit
  · exact noSign sign

theorem starting_of_startsNumber {c : Char} {cs : List Char} (starts : StartsNumber c) :
    Token.starting (c :: cs) =
      (readNumber (c :: cs)).map fun (value, rest) => (.scalar value, rest) := by
  rw [Token.starting.eq_def]
  split
  case h_11 => rfl
  all_goals
    rename_i same
    exact (starts.ne (by decide) (by decide) (List.cons.inj same).1).elim

theorem exists_cons_digits (n : Nat) :
    ∃ first others, Decimal.digits n = first :: others ∧ Decimal.isDigit first = true := by
  have allDigits := (Decimal.spells_digits n).1
  cases written : Decimal.digits n with
  | nil =>
      rw [written] at allDigits
      cases allDigits
  | cons first others =>
      rw [written, Decimal.isDigits, List.all_cons] at allDigits
      simp only [Bool.and_eq_true] at allDigits
      exact ⟨first, others, rfl, allDigits.2.1⟩

/-- What is written for an integer starts like a number. -/
theorem exists_startsNumber (value : Int) :
    ∃ first others, (Decimal.signedText value).toList = first :: others ∧ StartsNumber first := by
  rw [Decimal.toList_signedText]
  by_cases negative : value < 0
  · rw [if_pos negative]
    exact ⟨_, _, rfl, Or.inr rfl⟩
  · rcases exists_cons_digits value.natAbs with ⟨first, others, written, digit⟩
    rw [if_neg negative, written]
    exact ⟨first, others, rfl, Or.inl digit⟩

theorem readNumber_signedText (value : Int) {rest : List Char} (ends : EndsNumber rest) :
    readNumber ((Decimal.signedText value).toList ++ rest) = some (integer value, rest) := by
  rw [Decimal.toList_signedText]
  by_cases negative : value < 0
  · have sameValue : -(value.natAbs : Int) = value := by omega
    have noZero : value.natAbs ≠ 0 := by omega
    rw [if_pos negative, List.cons_append, readNumber, readMagnitude_digits ends (Or.inr noZero),
      if_pos rfl, sameValue]
  · have sameValue : (value.natAbs : Int) = value := by omega
    have unsigned := readMagnitude_digits (n := value.natAbs) ends (Or.inl rfl)
    rw [if_neg (by decide), sameValue] at unsigned
    rcases exists_cons_digits value.natAbs with ⟨first, others, written, digit⟩
    rw [if_neg negative, ← unsigned, written, List.cons_append, readNumber]
    rintro _ same
    cases (List.cons.inj same).1
    cases digit

/-! ## The next token -/

theorem next_of_not_isBlank {c : Char} (solid : isBlank c = false) (cs : List Char) :
    Token.next (c :: cs) = Token.starting (c :: cs) := by
  rw [Token.next, List.dropWhile_cons_of_neg (by simp [solid])]

theorem next_writeString (text : String) (rest : List Char) :
    Token.next (writeString (some text) ++ rest) = some (.scalar (ofString text), rest) := by
  rw [← starting_writeString, writeString_append]
  exact next_of_not_isBlank rfl _

theorem next_signedText (value : Int) {rest : List Char} (ends : EndsNumber rest) :
    Token.next ((Decimal.signedText value).toList ++ rest) =
      some (.scalar (integer value), rest) := by
  have read := readNumber_signedText value ends
  rcases exists_startsNumber value with ⟨first, others, written, starts⟩
  have solid : isBlank first = false := by
    simp only [isBlank, Bool.or_eq_false_iff, beq_eq_false_iff_ne]
    exact ⟨⟨⟨starts.ne rfl (by decide), starts.ne rfl (by decide)⟩,
      starts.ne rfl (by decide)⟩, starts.ne rfl (by decide)⟩
  rw [written, List.cons_append] at read ⊢
  rw [next_of_not_isBlank solid, starting_of_startsNumber starts, read]
  rfl

end Json
end SmallScale
