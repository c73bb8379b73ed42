import SmallScale.Proofs.Program.AssemblyText
import SmallScale.Proofs.Program.Image

namespace SmallScale
namespace Program

/-!
# Numbers that an assembly program keeps

Which mnemonics take an operand is up to the model.  A number behind one that does
is assembled into the word of its line.  Behind any other mnemonic everything is
ignored, and the word is that of operand zero.  A model keeps all the numbers that
are written behind a mnemonic exactly if the mnemonic takes an operand, or cannot
be written at all.
-/

/-- The line has the mnemonic as its second word and the number as its third. -/
def NumberIn (line : List Char) (m : Mnemonic) (value : Int) : Prop :=
  ∃ first name token rest, Text.words line = first :: name :: token :: rest ∧
    Text.capitals name = m.name.toList ∧ Decimal.SpellsInteger token value

/-- No assembly program that the model loads has a number behind the mnemonic that
the word of its line does not carry. -/
def KeepsNumbers (model : Model) (m : Mnemonic) : Prop :=
  ∀ (source : String) (target image : Store),
    detect source.toList = .assembly → load model source target = .ok image →
    ∀ address line value, (meaningfulLines source.toList)[address]? = some line →
      NumberIn line.text m value →
      ∃ w, image.get address = .ok w ∧ Carries model w m value

/-- Every line with the mnemonic in an assembly program that the model loads has the word of
operand zero, whatever stands behind the mnemonic. -/
def IgnoresNumbers (model : Model) (m : Mnemonic) : Prop :=
  ∀ (source : String) (target image : Store),
    detect source.toList = .assembly → load model source target = .ok image →
    ∀ address line first name rest, (meaningfulLines source.toList)[address]? = some line →
      Text.words line.text = first :: name :: rest → Text.capitals name = m.name.toList →
      ∃ w, image.get address = .ok w ∧ Carries model w m 0

variable {model : Model} {m : Mnemonic} {value : Int} {line : List Char} {w : Word}

theorem Carries.unique {other : Int} (carries : Carries model w m value)
    (carriesToo : Carries model w m other) : value = other := by
  by_cases isNumber : m = .num
  · exact (carries.1 isNumber).symm.trans (carriesToo.1 isNumber)
  · rcases carries.2 isNumber with ⟨nonnegative, decoded⟩
    rcases carriesToo.2 isNumber with ⟨nonnegativeToo, decodedToo⟩
    have same : (⟨m, value.toNat⟩ : Instruction) = ⟨m, other.toNat⟩ :=
      Except.ok.inj (decoded.symm.trans decodedToo)
    have sameNumber : value.toNat = other.toNat := congrArg Instruction.operand same
    omega

/-- What a line with a number says has that number, if there is an operand. -/
theorem says_of_numberIn {found : Mnemonic} {operand : Int} (stands : NumberIn line m value)
    (said : Assembly.Says model line found operand) :
    found = m ∧ (model.takesOperand m = true → operand = value) := by
  rcases stands with ⟨first, name, token, rest, tokens, named, spelt⟩
  cases said with
  | withOperand tokens' named' takes spelt' =>
      cases tokens.symm.trans tokens'
      exact ⟨Mnemonic.name_injective (named'.symm.trans named), fun _ => spelt'.2.unique spelt⟩
  | alone tokens' named' takesNone =>
      cases tokens.symm.trans tokens'
      have same := Mnemonic.name_injective (named'.symm.trans named)
      refine ⟨same, ?_⟩
      rw [← same, takesNone]
      intro impossible
      cases impossible

theorem keepsNumbers_of_takesOperand (takes : model.knows m = true → model.takesOperand m = true) :
    KeepsNumbers model m := by
  intro source target image isAssembly loaded address line value stands written
  have decides := assembly_decides (wordLength_eq_of_load loaded) isAssembly
  have accepted := decides.succeeds_iff.mp ⟨image, loaded⟩
  rcases (accepted address line stands).meaningful with ⟨found, _, saidValid, known, _⟩
  rcases (decides.holds_of_ok image loaded).word_of_line address line stands with
    ⟨w, stored, other, operand, said, encoded⟩
  rcases said.unique saidValid with ⟨rfl, _⟩
  rcases says_of_numberIn written said with ⟨rfl, sameOperand⟩
  have carries := carries_of_encode said encoded
  rw [sameOperand (takes known)] at carries
  exact ⟨w, stored, carries⟩

theorem ignoresNumbers_of_takesNone (takesNone : model.takesOperand m = false) :
    IgnoresNumbers model m := by
  intro source target image isAssembly loaded address line first name rest stands tokens named
  have decides := assembly_decides (wordLength_eq_of_load loaded) isAssembly
  rcases (decides.holds_of_ok image loaded).word_of_line address line stands with
    ⟨w, stored, found, operand, said, encoded⟩
  have zero : Assembly.Says model line.text m 0 := .alone tokens named takesNone
  rcases said.unique zero with ⟨rfl, rfl⟩
  exact ⟨w, stored, carries_of_encode said encoded⟩

/-! ## A program with a number -/

/-- The line at address zero that has the number one behind the mnemonic. -/
def oneBehind (m : Mnemonic) : List Char :=
  (Decimal.padded 2 0).toList ++ ' ' :: (m.name.toList ++ ' ' :: (Decimal.signedText 1).toList)

/-- The program of this line alone. -/
def programOf (m : Mnemonic) : String :=
  String.ofList (Text.unlines [oneBehind m])

theorem written_oneBehind (model : Model) (m : Mnemonic) :
    Assembly.Written model 0 m 1 (oneBehind m) :=
  .withNumber

theorem numberIn_oneBehind (m : Mnemonic) : NumberIn (oneBehind m) m 1 :=
  ⟨_, _, _, _, Assembly.words_withNumber 0 m 1, m.capitals_name, Decimal.spellsInteger_signedText 1⟩

theorem meaningfulLines_programOf (m : Mnemonic) :
    meaningfulLines (programOf m).toList = [⟨1, oneBehind m⟩] := by
  have isPlain : ∀ line ∈ [oneBehind m], Plain line := by
    intro line member
    rw [List.mem_singleton.mp member]
    exact (written_oneBehind .smallScale m).plain
  have noRemark : ∀ line ∈ ([] : List (List Char)), Remark line := by
    intro line impossible
    cases impossible
  have lines := meaningfulLines_unlines noRemark isPlain
  rw [List.nil_append] at lines
  rw [programOf, String.toList_ofList, lines]
  rfl

theorem detect_programOf (m : Mnemonic) : detect (programOf m).toList = .assembly := by
  have written := written_oneBehind .smallScale m
  apply detect_eq_assembly_of_colonless
  · intro line member
    rw [meaningfulLines_programOf, List.mem_singleton] at member
    rw [member]
    exact written.colon_not_mem
  · rw [meaningfulLines_programOf]
    exact ⟨_, List.mem_singleton_self _, written.assemblyPattern_iff.mpr (by decide)⟩

/-- A model without an operand for the mnemonic loads the program all the same, as
operand zero. -/
theorem load_programOf (known : model.knows m = true) (takesNone : model.takesOperand m = false) :
    ∃ image w, load model (programOf m) (Store.empty model.wordLength model.wordCount) = .ok image ∧
      image.get 0 = .ok w ∧ Carries model w m 0 := by
  have written := written_oneBehind model m
  have saysZero := written.tells (by decide) (by decide)
  rw [takesNone, if_neg (by decide)] at saysZero
  have sameWidth : (Store.empty model.wordLength model.wordCount).wordLength = model.wordLength :=
    rfl
  have decides := assembly_decides sameWidth (detect_programOf m)
  rw [meaningfulLines_programOf] at decides
  have accepted : (Assembly.grammar model
      (Store.empty model.wordLength model.wordCount).wordCount).Accepts [⟨1, oneBehind m⟩] := by
    intro address line stands
    cases address with
    | succ address => cases stands
    | zero =>
        cases stands
        refine ⟨written.spellsUnsigned_address (by decide), ⟨m, 0, saysZero, known, ?_⟩, ?_⟩
        · intro takes
          cases takesNone.symm.trans takes
        · rw [(Store.shaped_empty model.wordLength model.wordCount).wordCount_eq]
          exact model.valid.wordCount_pos
  rcases decides.succeeds_iff.mpr accepted with ⟨image, loaded⟩
  rcases (decides.holds_of_ok image loaded).word_of_line 0 _ rfl with
    ⟨w, stored, found, operand, said, encoded⟩
  rcases said.unique saysZero with ⟨rfl, rfl⟩
  exact ⟨image, w, loaded, stored, carries_of_encode said encoded⟩

/-- A model keeps the numbers behind a mnemonic exactly if it takes an operand or is
not a mnemonic of the machine.  Behind one that takes no operand it ignores them. -/
theorem keepsNumbers_iff (model : Model) (m : Mnemonic) :
    (KeepsNumbers model m ↔ (model.knows m = true → model.takesOperand m = true)) ∧
      (model.takesOperand m = false → IgnoresNumbers model m) := by
  refine ⟨⟨?_, keepsNumbers_of_takesOperand⟩, ignoresNumbers_of_takesNone⟩
  intro keeps known
  -- Otherwise a program with the number one behind the mnemonic is loaded as zero.
  by_contra notTaken
  rcases load_programOf known (Bool.eq_false_iff.mpr notTaken) with
    ⟨image, w, loaded, stored, carriesZero⟩
  have stands : (meaningfulLines (programOf m).toList)[0]? = some ⟨1, oneBehind m⟩ := by
    rw [meaningfulLines_programOf]
    rfl
  rcases keeps _ _ image (detect_programOf m) loaded 0 _ 1 stands (numberIn_oneBehind m) with
    ⟨v, storedToo, carriesOne⟩
  cases stored.symm.trans storedToo
  cases carriesZero.unique carriesOne

/-- The machine of 1948 without any operands. -/
def withoutOperandsDescription : Description :=
  { Model.smallScaleDescription with withOperand := [], addressOperand := [] }

/-- The model of the machine of 1948 without any operands. -/
def withoutOperands : Model where
  toDescription := withoutOperandsDescription
  valid := Description.valid_of_check rfl
  inNormalForm := by decide

/-- On a machine without operands the number five is assembled as zero. -/
theorem not_keepsNumbers_withoutOperands :
    (∃ image w, load withoutOperands "0 NUM 5" (Store.empty 32 32) = .ok image ∧
        image.get 0 = .ok w ∧ w.signed = 0) ∧
      NumberIn "0 NUM 5".toList .num 5 ∧ ¬ KeepsNumbers withoutOperands .num := by
  have stands : NumberIn "0 NUM 5".toList .num 5 :=
    ⟨"0".toList, "NUM".toList, "5".toList, [], by decide, by decide,
      (Decimal.readSigned?_eq_some_iff.mp (by decide)).2⟩
  refine ⟨⟨_, _, rfl, rfl, by decide⟩, stands, ?_⟩
  intro keeps
  rcases keeps "0 NUM 5" (Store.empty 32 32) _ (by decide) rfl 0 ⟨1, "0 NUM 5".toList⟩ 5
    (by decide) stands with ⟨w, stored, carries⟩
  cases stored
  have isZero : (Word.ofInt 0 32).signed = 5 := carries.1 rfl
  exact absurd isZero (by decide)

end Program
end SmallScale
