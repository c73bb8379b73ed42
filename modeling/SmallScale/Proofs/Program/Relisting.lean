import SmallScale.Proofs.Instruction.Canonical
import SmallScale.Proofs.Program.Listing
import SmallScale.Proofs.Word.Codec
import SmallScale.Proofs.Word.Engraving

namespace SmallScale

/-!
# What comes back from a listing

The line of a word stands for the word, with one exception: where the mnemonic
takes no operand the number in the address field is not written, and the line
stands for the instruction with the field clear.  A store that is loaded from
its listing differs from the listed one in these fields only, and unless an
instruction turns into the clear word by it, is listed as before.

On the machine of 1948 the mnemonics without an operand are `CMP` and `STP`.
No instruction of this machine reaches up to the sign bit, so the numbers that
are listed with a sign are exactly the words with this bit set.
-/

namespace Model

variable {model : Model} {w : Word}

/-- The word with nothing in its address field. -/
def clearedAddress (model : Model) (w : Word) : Word :=
  w.overwrite model.address.start (Word.zero model.address.length)

theorem clearedAddress_instructionWord {operand : Nat} {pattern : Word}
    (wide : pattern.length = model.opcode.length) :
    model.clearedAddress (model.instructionWord operand pattern) =
      model.instructionWord 0 pattern := by
  have fieldInside := operand_inside model operand
  have clearInside := operand_inside model 0
  have patternInside := @pattern_inside model pattern operand wide
  have apart : Word.Apart model.opcode.start pattern.length model.address.start
      (Word.ofNat 0 model.address.length).length := by
    have fieldsApart := model.valid.fields_disjoint
    unfold BitField.stop at fieldsApart
    rw [wide, Word.length_ofNat]
    intro position
    omega
  rw [clearedAddress, ← Word.ofNat_zero, instructionWord, Word.overwrite_comm patternInside ?_ apart,
    Word.overwrite_overwrite fieldInside (by simp only [Word.length_ofNat])]
  · rfl
  · rw [Word.length_overwrite fieldInside]
    exact clearInside

theorem clearedAddress_of_clear (wide : model.neededBits ≤ w.length)
    (clear : (model.addressField w).isZero = true) : model.clearedAddress w = w := by
  have field : model.addressField w = Word.zero model.address.length := by
    rw [← length_addressField wide]
    exact Word.isZero_iff.mp clear
  rw [clearedAddress, ← field]
  exact Word.overwrite_extract_self (Nat.le_trans (Nat.le_max_right _ _) wide)

/-- A word with a set bit in its opcode field is not the clear word. -/
theorem isZero_of_opcodeField (set : (model.opcodeField w).isZero = false) : w.isZero = false := by
  apply Bool.eq_false_iff.mpr
  intro allClear
  have fieldClear : (model.opcodeField w).isZero = true := Word.isZero_extract allClear _ _
  rw [set] at fieldClear
  cases fieldClear

end Model

namespace Program
namespace Listing

variable {model : Model} {address : Nat} {w other : Word} {store target image : Store}

/-! ## One word -/

/-- The word that the line of a word stands for. -/
def relisted (model : Model) (w : Word) : Word :=
  match model.exactInstruction? w with
  | some i => if model.takesOperand i.mnemonic then w else model.clearedAddress w
  | none => w

theorem eq_relisted_of_means (numbered : model.takesOperand .num = true)
    (wide : w.length = model.wordLength)
    (means : Assembly.Means model (line model address w).toList other) :
    other = relisted model w := by
  rcases bounded_listed wide with ⟨lower, upper⟩
  rcases means with ⟨m, value, said, encoded⟩
  rcases said.unique ((written_line model address w).tells lower upper) with ⟨rfl, rfl⟩
  revert lower upper encoded
  unfold listed relisted
  cases exact : model.exactInstruction? w with
  | none =>
    intro lower upper encoded
    simp only [numbered, if_true] at encoded
    rcases (Model.encodeNumber_eq_ok_iff lower upper).mp encoded with ⟨_, rfl⟩
    rw [← wide]
    exact Word.ofInt_signed (wide ▸ model.wordLength_le)
  | some i =>
    intro _ _ encoded
    rcases Model.exactInstruction?_eq_some_iff.mp exact with ⟨_, same⟩
    have executable := (Model.known_of_exactInstruction? exact).1
    rcases (Assembly.encode_eq_ok_iff_of_ne executable).mp encoded with ⟨_, written⟩
    cases takes : model.takesOperand i.mnemonic with
    | true =>
      simp only [takes, if_true, Int.toNat_natCast] at written
      cases same.symm.trans written
      simp only [takes, if_true]
    | false =>
      -- Such a line is assembled with operand zero, whatever was in the field.
      simp only [takes, Bool.false_eq_true, if_false, Int.toNat_zero] at written
      rcases Model.encode_eq_ok_iff.mp same with ⟨pattern, canonical, _, rfl⟩
      rcases Model.encode_eq_ok_iff.mp written with ⟨pattern', canonical', _, rfl⟩
      cases canonical.symm.trans canonical'
      have patternWide := Model.length_of_patternOf? canonical
      simp only [takes, Bool.false_eq_true, if_false]
      exact (Model.clearedAddress_instructionWord patternWide).symm

/-- A word that comes back is shown by the same text, unless the clear word
came back from an instruction. -/
theorem wordText_relisted (stillSet : w.isZero = false → (relisted model w).isZero = false) :
    model.wordText (relisted model w) = model.wordText w := by
  cases exact : model.exactInstruction? w with
  | none => simp only [relisted, exact]
  | some i =>
    rcases Model.exactInstruction?_eq_some_iff.mp exact with ⟨set, encoded⟩
    have setAgain := stillSet set
    cases takes : model.takesOperand i.mnemonic with
    | true => simp only [relisted, exact, takes, if_true]
    | false =>
      rcases Model.encode_eq_ok_iff.mp encoded with ⟨pattern, canonical, _, rfl⟩
      have patternWide := Model.length_of_patternOf? canonical
      simp only [relisted, exact, takes, Bool.false_eq_true, if_false,
        Model.clearedAddress_instructionWord patternWide] at setAgain ⊢
      have exactAgain : model.exactInstruction? (model.instructionWord 0 pattern) =
          some ⟨i.mnemonic, 0⟩ := by
        apply Model.exactInstruction?_eq_some_iff.mpr
        refine ⟨setAgain, Model.encode_eq_ok_iff.mpr ⟨pattern, canonical, ?_, rfl⟩⟩
        exact Nat.two_pow_pos _
      simp only [Model.wordText, exact, exactAgain, Model.instructionText, takes,
        Bool.false_eq_true, if_false]

/-! ## A whole store -/

/-- A listing that is loaded is loaded as assembly text. -/
theorem detect_write_of_load (loaded : load model (write model store) target = .ok image) :
    detect (write model store).toList = .assembly := by
  have format := detect_write model store
  split at format
  · exact format
  · have failed := (load_eq_unknownFormat_iff (wordLength_eq_of_load loaded)).mpr format
    cases loaded.symm.trans failed

/-- A store loaded from a listing holds, word for word, what the lines stand
for. -/
theorem eq_map_relisted_of_load (numbered : model.takesOperand .num = true)
    (shaped : store.Shaped model.wordLength model.wordCount)
    (sameCount : target.wordCount = model.wordCount)
    (loaded : load model (write model store) target = .ok image) :
    image = { store with words := store.words.map (relisted model) } := by
  have sameWidth := wordLength_eq_of_load loaded
  have holds := (assembly_decides sameWidth (detect_write_of_load loaded)).holds_of_ok image loaded
  have sameWords : image.words = store.words.map (relisted model) := by
    apply List.ext_getElem?
    intro address
    rw [List.getElem?_map]
    cases stored : store.words[address]? with
    | some w =>
      have stands : (meaningfulLines (write model store).toList)[address]? =
          some ⟨address + 4, (line model address w).toList⟩ := by
        rw [meaningfulLines_write, List.getElem?_map, List.getElem?_zipIdx, stored]
        simp only [Option.map_some, Nat.zero_add]
      rcases holds.word_of_line address _ stands with ⟨other, found, means⟩
      rw [Store.get_eq_ok_iff.mp found]
      exact congrArg some (eq_relisted_of_means numbered
        (shaped.length_of_mem w (List.mem_of_getElem? stored)) means)
    | none =>
      apply List.getElem?_eq_none
      have behind := List.getElem?_eq_none_iff.mp stored
      have imageCount := holds.wordCount_eq
      have storeCount := shaped.wordCount_eq
      unfold Store.wordCount at *
      omega
  cases image
  simp only [Store.mk.injEq]
  exact ⟨by rw [shaped.wordLength_eq, ← sameWidth]; exact holds.wordLength_eq, sameWords⟩

/-- Stores whose words are shown by the same texts have the same listing. -/
theorem write_map {back : Word → Word}
    (sameText : ∀ w ∈ store.words, model.wordText (back w) = model.wordText w) :
    write model { store with words := store.words.map back } = write model store := by
  unfold write
  congr 2
  rw [List.zipIdx_map, List.map_map]
  apply List.map_congr_left
  rintro ⟨w, address⟩ member
  have sameLine := sameText w (List.fst_mem_of_mem_zipIdx member)
  simp only [Function.comp_apply, Prod.map_apply, id_eq, line, sameLine]

/-! ## The machine of 1948 -/

/-- The word is clear outside its fields and stands for `CMP` or `STP`, with
something in the address field that its line does not show. -/
structure LosesAddress (w : Word) : Prop where
  clearOutside : Model.smallScale.ClearOutside w
  bare : ∃ i, Model.smallScale.decode w = .ok i ∧ (i.mnemonic = .cmp ∨ i.mnemonic = .stp)
  addressed : (Model.smallScale.addressField w).isZero = false

theorem takesOperand_smallScale_iff {m : Mnemonic} :
    Model.smallScale.takesOperand m = false ↔ m = .cmp ∨ m = .stp := by
  cases m <;> decide

/-- `CMP` and `STP` have one pattern each, and no pattern of only clear bits. -/
theorem canonical_of_bare {pattern : Word} {m : Mnemonic}
    (declared : ⟨pattern, m⟩ ∈ Model.smallScale.opcodes) (bare : m = .cmp ∨ m = .stp) :
    Model.smallScale.patternOf? m = some pattern ∧ pattern.isZero = false := by
  have rows : ∀ row ∈ Model.smallScale.opcodes, row.mnemonic = .cmp ∨ row.mnemonic = .stp →
      Model.smallScale.patternOf? row.mnemonic = some row.pattern ∧ row.pattern.isZero = false := by
    decide
  exact rows _ declared bare

/-- The words listed as `CMP` or `STP` are those that decode to one of them and
are clear outside the fields. -/
theorem exists_exact_bare_iff (wide : w.length = 32) :
    (∃ i, Model.smallScale.exactInstruction? w = some i ∧
        Model.smallScale.takesOperand i.mnemonic = false) ↔
      Model.smallScale.ClearOutside w ∧
        ∃ i, Model.smallScale.decode w = .ok i ∧ (i.mnemonic = .cmp ∨ i.mnemonic = .stp) := by
  constructor
  · rintro ⟨i, exact, takesNone⟩
    rcases Model.exactInstruction?_eq_some_iff.mp exact with ⟨_, encoded⟩
    have decoded := Model.decode_of_encode encoded
    exact ⟨((Model.encode_eq_self_iff decoded).mp encoded).2.1, i, decoded,
      takesOperand_smallScale_iff.mp takesNone⟩
  · rintro ⟨clear, i, decoded, bare⟩
    rcases Model.decode_eq_ok_iff.mp decoded with ⟨_, declared, _⟩
    rcases canonical_of_bare declared bare with ⟨canonical, patternSet⟩
    have encoded : Model.smallScale.encode i = .ok w :=
      (Model.encode_eq_self_iff decoded).mpr
        ⟨wide, clear, Model.patternOf?_eq_some_iff.mp canonical⟩
    exact ⟨i, Model.exactInstruction?_eq_some_iff.mpr
      ⟨Model.isZero_of_opcodeField patternSet, encoded⟩, takesOperand_smallScale_iff.mpr bare⟩

theorem relisted_of_losesAddress (wide : w.length = 32) (loses : LosesAddress w) :
    relisted .smallScale w = w.overwrite 0 (Word.zero 5) := by
  rcases (exists_exact_bare_iff wide).mpr ⟨loses.clearOutside, loses.bare⟩ with
    ⟨i, exact, takesNone⟩
  simp only [relisted, exact, takesNone, Bool.false_eq_true, if_false]
  rfl

theorem relisted_of_not_losesAddress (wide : w.length = 32) (keeps : ¬ LosesAddress w) :
    relisted .smallScale w = w := by
  unfold relisted
  cases exact : Model.smallScale.exactInstruction? w with
  | none => rfl
  | some i =>
    cases takes : Model.smallScale.takesOperand i.mnemonic with
    | true => simp only [takes, if_true]
    | false =>
      rcases (exists_exact_bare_iff wide).mp ⟨i, exact, takes⟩ with ⟨clear, bare⟩
      simp only [takes, Bool.false_eq_true, if_false]
      apply Model.clearedAddress_of_clear
      · rw [wide]
        exact Model.smallScale.neededBits_le
      · by_contra addressed
        exact keeps ⟨clear, bare, Bool.eq_false_iff.mpr addressed⟩

/-- A cleared address leaves the pattern of `CMP` or `STP`, which has a bit
set. -/
theorem isZero_relisted (wide : w.length = 32) (set : w.isZero = false) :
    (relisted .smallScale w).isZero = false := by
  by_cases loses : LosesAddress w
  · rcases loses.bare with ⟨i, decoded, bare⟩
    rcases Model.decode_eq_ok_iff.mp decoded with ⟨_, declared, _⟩
    have patternKept : Model.smallScale.opcodeField (relisted .smallScale w) =
        Model.smallScale.opcodeField w := by
      rw [relisted_of_losesAddress wide loses]
      apply Word.extract_overwrite_of_apart
      · rw [wide]
        decide
      · exact .inr (by decide)
    apply Model.isZero_of_opcodeField
    rw [patternKept]
    exact (canonical_of_bare declared bare).2
  · rwa [relisted_of_not_losesAddress wide loses]

/-- No instruction reaches up to the sign bit. -/
theorem not_clearOutside_of_negative (set : w.bit? 31 = some true) :
    ¬ Model.smallScale.ClearOutside w := by
  intro clear
  rcases clear 31 set with ⟨_, below⟩ | ⟨_, below⟩
  · exact absurd below (by decide)
  · exact absurd below (by decide)

/-- The negative numbers of a listing are those of the words with the sign bit
set. -/
theorem listed_neg_iff (wide : w.length = 32) :
    (listed .smallScale w).2 < 0 ↔ w.bit? 31 = some true := by
  unfold listed
  cases exact : Model.smallScale.exactInstruction? w with
  | none =>
    have signed := Word.signed_neg_iff (w := w) (by omega) (by omega)
    rw [wide] at signed
    exact signed
  | some i =>
    rcases Model.exactInstruction?_eq_some_iff.mp exact with ⟨_, encoded⟩
    have clear := ((Model.encode_eq_self_iff (Model.decode_of_encode encoded)).mp encoded).2.1
    apply iff_of_false (Int.not_lt.mpr (Int.natCast_nonneg _))
    intro set
    exact not_clearOutside_of_negative set clear

/-- One word without the sign bit is enough for a listing to be loaded. -/
theorem exists_load_of_nonnegative (shaped : store.Shaped 32 32)
    (sameWidth : target.wordLength = 32) (sameCount : target.wordCount = 32)
    (shows : ∃ w ∈ store.words, w.bit? 31 ≠ some true) :
    ∃ image, load .smallScale (write .smallScale store) target = .ok image := by
  have format := detect_write .smallScale store
  rcases shows with ⟨w, member, unsigned⟩
  have nonnegative : 0 ≤ (listed .smallScale w).2 := by
    rw [← Int.not_lt, listed_neg_iff (shaped.length_of_mem w member)]
    exact unsigned
  rw [if_pos ⟨w, member, nonnegative⟩] at format
  apply (assembly_decides sameWidth format).succeeds_iff.mpr
  rw [sameCount]
  apply (accepts_write_iff (by decide) shaped).mpr
  intro other isWord
  exact placed_of_addressable (by decide) (by decide) (shaped.length_of_mem other isWord)

theorem load_of_all_negative (shaped : store.Shaped 32 32) (sameWidth : target.wordLength = 32)
    (allNegative : ∀ w ∈ store.words, w.bit? 31 = some true) :
    load .smallScale (write .smallScale store) target = .error .unknownFormat := by
  apply (load_eq_unknownFormat_iff sameWidth).mpr
  rw [detect_write, if_neg]
  rintro ⟨w, member, nonnegative⟩
  have negative := (listed_neg_iff (shaped.length_of_mem w member)).mpr (allNegative w member)
  exact Int.not_lt.mpr nonnegative negative

/-- A store of the machine of 1948 that was loaded from the listing of
another. -/
structure ComesBack (store image : Store) : Prop where
  shaped : image.Shaped 32 32
  kept : ∀ address w, store.get address = .ok w → ¬ LosesAddress w → image.get address = .ok w
  lost : ∀ address w, store.get address = .ok w → LosesAddress w →
    image.get address = .ok (w.overwrite 0 (Word.zero 5))
  sameListing : write .smallScale image = write .smallScale store

theorem comesBack_of_load (shaped : store.Shaped 32 32) (sameCount : target.wordCount = 32)
    (loaded : load .smallScale (write .smallScale store) target = .ok image) :
    ComesBack store image := by
  have isImage := eq_map_relisted_of_load (by decide) shaped sameCount loaded
  have get_image {address : Nat} {w : Word} (stored : store.get address = .ok w) :
      image.get address = .ok (relisted .smallScale w) := by
    rw [isImage, Store.get_eq_ok_iff, List.getElem?_map, Store.get_eq_ok_iff.mp stored]
    rfl
  refine ⟨?_, ?_, ?_, ?_⟩
  · have imageShaped := shaped_of_load loaded
    rw [sameCount] at imageShaped
    exact imageShaped
  · intro address w stored keeps
    rw [get_image stored, relisted_of_not_losesAddress (shaped.length_of_get stored) keeps]
  · intro address w stored loses
    rw [get_image stored, relisted_of_losesAddress (shaped.length_of_get stored) loses]
  · rw [isImage]
    apply write_map
    intro w member
    exact wordText_relisted (isZero_relisted (shaped.length_of_mem w member))

end Listing

/-- On the machine of 1948 the listing of a store is refused exactly if all its
words have the sign bit set, because it then shows no format.  Every other
listing is loaded, into any store of this shape.  The words come back as they
were, except that an address field without a meaning comes back clear, and the
store that comes back has the same listing. -/
theorem listing_comes_back (store target : Store) (shaped : store.Shaped 32 32)
    (sameWidth : target.wordLength = 32) (sameCount : target.wordCount = 32) :
    ((∃ fault, load .smallScale (Listing.write .smallScale store) target = .error fault) ↔
        ∀ w ∈ store.words, w.bit? 31 = some true) ∧
      (∀ fault, load .smallScale (Listing.write .smallScale store) target = .error fault →
        fault = .unknownFormat) ∧
      ((∃ w ∈ store.words, w.bit? 31 ≠ some true) →
        ∃ image, load .smallScale (Listing.write .smallScale store) target = .ok image ∧
          Listing.ComesBack store image) := by
  by_cases shows : ∃ w ∈ store.words, w.bit? 31 ≠ some true
  · rcases Listing.exists_load_of_nonnegative shaped sameWidth sameCount shows with ⟨image, loaded⟩
    rw [loaded]
    refine ⟨⟨?_, ?_⟩, ?_, fun _ => ⟨image, rfl, Listing.comesBack_of_load shaped sameCount loaded⟩⟩
    · rintro ⟨fault, impossible⟩
      cases impossible
    · intro allNegative
      rcases shows with ⟨w, member, unsigned⟩
      exact (unsigned (allNegative w member)).elim
    · intro fault impossible
      cases impossible
  · have allNegative : ∀ w ∈ store.words, w.bit? 31 = some true := by
      intro w member
      by_contra unsigned
      exact shows ⟨w, member, unsigned⟩
    rw [Listing.load_of_all_negative shaped sameWidth allNegative]
    refine ⟨⟨fun _ => allNegative, fun _ => ⟨_, rfl⟩⟩, ?_, fun exists_shown => ?_⟩
    · intro fault failed
      cases failed
      rfl
    · exact (shows exists_shown).elim

/-- The instruction `STP` with a five in its address field, which the line
does not show, in front of thirty-one words minus one. -/
def stopThenMinusOnes : Store :=
  ⟨32, Model.smallScale.instructionWord 5 ⟨[true, true, true]⟩ ::
    List.replicate 31 (Word.ofInt (-1) 32)⟩

/-- The five does not come back, and all the minus ones do. -/
theorem listing_comes_back_stopThenMinusOnes :
    stopThenMinusOnes.Shaped 32 32 ∧
      ∃ image, load .smallScale (Listing.write .smallScale stopThenMinusOnes)
          (Store.empty 32 32) = .ok image ∧
        image.get 0 = .ok (Model.smallScale.instructionWord 0 ⟨[true, true, true]⟩) ∧
        image.get 31 = .ok (Word.ofInt (-1) 32) ∧
        Listing.write .smallScale image = Listing.write .smallScale stopThenMinusOnes := by
  have shaped : stopThenMinusOnes.Shaped 32 32 := ⟨rfl, by decide, by decide⟩
  have comesBack := (listing_comes_back stopThenMinusOnes (Store.empty 32 32) shaped rfl
    (by decide)).2.2 ⟨_, List.mem_cons_self, by decide +kernel⟩
  rcases comesBack with ⟨image, loaded, back⟩
  refine ⟨shaped, image, loaded, ?_, ?_, back.sameListing⟩
  · have loses : Listing.LosesAddress (Model.smallScale.instructionWord 5 ⟨[true, true, true]⟩) := by
      refine ⟨Model.clearOutside_instructionWord (by decide), ⟨⟨.stp, 5⟩, by decide +kernel, .inr rfl⟩,
        by decide +kernel⟩
    rw [back.lost 0 _ rfl loses]
    decide +kernel
  · have keeps : ¬ Listing.LosesAddress (Word.ofInt (-1) 32) := by
      intro loses
      exact Listing.not_clearOutside_of_negative (by decide +kernel) loses.clearOutside
    exact back.kept 31 _ rfl keeps

end Program
end SmallScale
