import SmallScale.Proofs.Machine.Reachable
import SmallScale.Proofs.Program.Written

namespace SmallScale
namespace Program

/-!
# Dumps are loaded again

A dump is written for the reader of dumps.  Its two comments mean nothing, each
further line shows the format of dumps, has the address that is its turn, and
holds the bits of one word.  A store with the words of a dump and clear ones
behind them is therefore what every dump is loaded as, if there is room for it;
the words without a place are reported, each of them once.

Addresses are written with as many digits as they need and are read back as long
as they are 64-bit numbers.
-/

/-- A run of binary digits is a run of digits. -/
theorem isDigits_of_isBinary {text : List Char} (binary : isBinary text = true) :
    Decimal.isDigits text = true := by
  simp only [isBinary, Decimal.isDigits, Bool.and_eq_true, List.all_eq_true] at binary ⊢
  refine ⟨binary.1, ?_⟩
  intro c member
  have digit := binary.2 c member
  simp only [Bool.or_eq_true, beq_iff_eq] at digit
  rcases digit with rfl | rfl <;> decide

theorem isBinary_toDigits {w : Word} (nonempty : 0 < w.length) :
    isBinary w.toDigits.toList = true := by
  rw [Word.toDigits, Word.render, String.toList_ofList]
  simp only [isBinary, Bool.and_eq_true, List.all_eq_true, List.mem_map]
  constructor
  · simpa [Word.length, List.length_pos_iff] using nonempty
  · rintro c ⟨bit, _, rfl⟩
    cases bit <;> decide

namespace Dump

/-- The line of a word in a dump. -/
def line (address : Nat) (w : Word) : List Char :=
  (Decimal.padded 4 address).toList ++ ([':', ' '] ++ w.toDigits.toList)

/-- The comments at the start of a dump. -/
def remarks (store : Store) : List (List Char) :=
  [ "; SSEM store dump".toList,
    ';' :: (" ".toList ++ (Decimal.text store.wordCount).toList ++ " words of ".toList ++
      (Decimal.text store.wordLength).toList ++ " bits".toList) ]

/-- The words of a store that have no place among `wordCount` words, as they are
reported. -/
def unplaced (store : Store) (wordCount : Nat) : List Diagnostic :=
  (store.words.zipIdx.drop wordCount).map fun (w, address) =>
    ⟨address + 3, Decimal.padded 4 address ++ ": " ++ w.toDigits, .tooManyWords (wordCount - 1)⟩

variable {wordLength address : Nat} {w : Word} {store target : Store} {model : Model}

/-! ## One line -/

theorem dumpPattern_line (nonempty : 0 < w.length) : DumpPattern (line address w) :=
  ⟨_, _, rfl, (Decimal.spells_padded 4 address).1, isBinary_toDigits nonempty⟩

theorem plain_line (nonempty : 0 < w.length) : Plain (line address w) := by
  have addressDigits := (Decimal.spells_padded 4 address).1
  have wordDigits := isDigits_of_isBinary (isBinary_toDigits nonempty)
  apply plain_of_solid [':', ' '] (Decimal.solid_of_isDigits addressDigits)
    (Decimal.solid_of_isDigits wordDigits)
  · have inAddress := Decimal.not_mem_of_isDigits (c := ';') addressDigits (by decide)
    have inWord := Decimal.not_mem_of_isDigits (c := ';') wordDigits (by decide)
    simp [inAddress, inWord]
  · have inAddress := Decimal.not_mem_of_isDigits (c := '\n') addressDigits (by decide)
    have inWord := Decimal.not_mem_of_isDigits (c := '\n') wordDigits (by decide)
    simp [inAddress, inWord]

/-- The reader finds the word again. -/
theorem read_line (positive : 0 < wordLength) (wide : w.length = wordLength)
    (addressable : address < 2 ^ 64) :
    read wordLength address (line address w) = ⟨none, .ok w⟩ := by
  have addressDigits := (Decimal.spells_padded 4 address).1
  have wordDigits := isDigits_of_isBinary (isBinary_toDigits (wide ▸ positive))
  have cuts : CutsAtColon (line address w) (Decimal.padded 4 address).toList w.toDigits.toList :=
    cutsAtColon_of_not_mem (Decimal.not_mem_of_isDigits addressDigits (by decide))
  have addressed : Decimal.readUnsigned? (Text.trim (Decimal.padded 4 address).toList) =
      some address := by
    rw [(Decimal.solid_of_isDigits addressDigits).trim_eq, Decimal.readUnsigned?_eq_some_iff]
    exact ⟨addressable, Or.inl (Decimal.spells_padded 4 address)⟩
  have found : word wordLength w.toDigits.toList = .ok w := by
    rw [word_eq_ok_iff, (Decimal.solid_of_isDigits wordDigits).trim_eq]
    refine ⟨Or.inl ?_, wide⟩
    rw [Word.toDigits, Word.render, String.toList_ofList]
  simp only [read, cutAtColon_eq_some_iff.mpr cuts, addressed, found, if_true]

/-! ## All lines -/

theorem toList_write (store : Store) :
    (write store).toList = Text.unlines (remarks store ++
      store.words.zipIdx.map fun (w, address) => line address w) := by
  have start : "; SSEM store dump\n; ".toList =
      "; SSEM store dump".toList ++ '\n' :: ';' :: " ".toList := by decide
  have stop : " bits\n".toList = " bits".toList ++ ['\n'] := by decide
  have line_eq (address : Nat) (w : Word) :
      (Decimal.padded 4 address ++ ": " ++ w.toDigits ++ "\n").toList =
        line address w ++ ['\n'] := by
    have colon : ": ".toList = [':', ' '] := by decide
    have ending : "\n".toList = ['\n'] := by decide
    simp only [line, String.toList_append, colon, ending, List.append_assoc]
  unfold write
  simp only [remarks, Text.unlines, String.toList_append, String.toList_join, start, stop,
    List.flatMap_cons, List.flatMap_map, line_eq, List.append_assoc, List.cons_append,
    List.nil_append]

theorem remark_of_mem {text : List Char} (member : text ∈ remarks store) : Remark text := by
  have digits (n : Nat) : '\n' ∉ (Decimal.text n).toList := by
    rw [Decimal.text, String.toList_ofList]
    exact Decimal.not_mem_of_isDigits (Decimal.spells_digits n).1 (by decide)
  simp only [remarks, List.mem_cons, List.not_mem_nil, or_false] at member
  rcases member with rfl | rfl
  · exact remark_of_semicolon (by decide : '\n' ∉ " SSEM store dump".toList)
  · apply remark_of_semicolon
    simp only [List.mem_append, digits, or_false]
    decide

theorem length_pos_of_mem (shaped : store.Shaped model.wordLength store.wordCount)
    (member : w ∈ store.words) : 0 < w.length := by
  rw [shaped.length_of_mem w member]
  exact model.valid.wordLength_pos

theorem meaningfulLines_write (shaped : store.Shaped model.wordLength store.wordCount) :
    meaningfulLines (write store).toList =
      store.words.zipIdx.map fun (w, address) => ⟨address + 3, line address w⟩ := by
  have arePlain : ∀ text ∈ store.words.zipIdx.map (fun (w, address) => line address w),
      Plain text := by
    intro text member
    rcases List.mem_map.mp member with ⟨⟨w, address⟩, isWord, rfl⟩
    exact plain_line (length_pos_of_mem shaped (List.fst_mem_of_mem_zipIdx isWord))
  rw [toList_write, meaningfulLines_unlines (fun _ => remark_of_mem) arePlain,
    numbered_map_zipIdx]
  rfl

theorem detect_write (shaped : store.Shaped model.wordLength store.wordCount)
    (nonempty : 0 < store.wordCount) : detect (write store).toList = .dump := by
  have shows : ∀ line ∈ meaningfulLines (write store).toList,
      formatOfLine? line.text = some .dump := by
    rw [meaningfulLines_write shaped]
    intro line member
    rcases List.mem_map.mp member with ⟨⟨w, address⟩, isWord, rfl⟩
    rw [formatOfLine?_eq_dump_iff]
    exact dumpPattern_line (length_pos_of_mem shaped (List.fst_mem_of_mem_zipIdx isWord))
  apply detect_eq_of_uniform
  · intro line member other shown
    rw [shows line member] at shown
    exact (Option.some.inj shown).symm
  · cases lines : meaningfulLines (write store).toList with
    | nil =>
        rw [meaningfulLines_write shaped, List.map_eq_nil_iff, List.zipIdx_eq_nil_iff] at lines
        simp [Store.wordCount, lines] at nonempty
    | cons line others =>
        rw [lines] at shows
        exact ⟨line, List.mem_cons_self, shows line List.mem_cons_self⟩

/-- The reader of dumps finds the words of the store in its dump. -/
theorem reads_write (shaped : store.Shaped model.wordLength store.wordCount)
    (addressable : store.wordCount ≤ 2 ^ 64) :
    Reads (read model.wordLength) (meaningfulLines (write store).toList) store.words := by
  rw [meaningfulLines_write shaped]
  refine ⟨by rw [List.length_map, List.length_zipIdx], ?_⟩
  intro address text w stands isWord
  rw [List.getElem?_map, List.getElem?_zipIdx, isWord] at stands
  cases stands
  have inside : address < store.wordCount := (List.getElem?_eq_some_iff.mp isWord).1
  rw [Nat.zero_add]
  exact read_line model.valid.wordLength_pos
    (shaped.length_of_mem w (List.mem_of_getElem? isWord)) (by omega)

theorem overflowing_write (shaped : store.Shaped model.wordLength store.wordCount)
    (wordCount : Nat) :
    overflowing wordCount (meaningfulLines (write store).toList) = unplaced store wordCount := by
  rw [meaningfulLines_write shaped, overflowing, unplaced, ← List.map_drop, List.map_map]
  apply List.map_congr_left
  rintro ⟨w, address⟩ _
  have text : String.ofList (line address w) = Decimal.padded 4 address ++ ": " ++ w.toDigits := by
    apply String.toList_injective
    have colon : ": ".toList = [':', ' '] := by decide
    simp only [String.toList_ofList, String.toList_append, line, colon, List.append_assoc]
  simp only [Function.comp_apply, text]

end Dump

/-- The dump of a store shows the format of dumps and is loaded as the store it
was written from, into any store of that size, whatever that holds.  A larger
store is clear behind the words of the dump.  For a smaller one the dump is
rejected, with one fault for each word that has no place, and a machine with that
store is as it was before. -/
theorem dump_reloads (model : Model) (store : Store) (nonempty : 0 < store.wordCount)
    (addressable : store.wordCount ≤ 2 ^ 64)
    (shaped : store.Shaped model.wordLength store.wordCount) :
    detect (Dump.write store).toList = .dump ∧
      ∀ target : Store, target.wordLength = model.wordLength →
        (target.wordCount = store.wordCount →
          load model (Dump.write store) target = .ok store ∧
            ∀ image, load model (Dump.write store) target = .ok image →
              Dump.write image = Dump.write store) ∧
        (store.wordCount < target.wordCount →
          load model (Dump.write store) target = .ok ⟨model.wordLength, store.words ++
            List.replicate (target.wordCount - store.wordCount) (Word.zero model.wordLength)⟩) ∧
        (target.wordCount < store.wordCount →
          load model (Dump.write store) target =
              .error (.rejected (Dump.unplaced store target.wordCount)) ∧
            ∀ machine : Machine, machine.model = model → machine.store = target →
              machine.perform (.load (Dump.write store)) = machine) := by
  have isDump := Dump.detect_write shaped nonempty
  have reads := Dump.reads_write shaped addressable
  refine ⟨isDump, ?_⟩
  intro target sameWidth
  have isRead := load_of_dump sameWidth isDump
  refine ⟨?_, ?_, ?_⟩
  · intro sameCount
    have loaded : load model (Dump.write store) target = .ok store := by
      rw [isRead, reads.readWith_of_le (Nat.le_of_eq sameCount.symm), imageOf, sameCount, sameWidth,
        ← shaped.wordLength_eq]
      simp [Store.wordCount]
    refine ⟨loaded, ?_⟩
    intro image again
    cases loaded.symm.trans again
    rfl
  · intro larger
    rw [isRead, reads.readWith_of_le (Nat.le_of_lt larger), imageOf, sameWidth]
    rfl
  · intro smaller
    have rejected : load model (Dump.write store) target =
        .error (.rejected (Dump.unplaced store target.wordCount)) := by
      rw [isRead, reads.readWith_of_lt smaller, Dump.overflowing_write shaped]
    refine ⟨rejected, ?_⟩
    rintro machine rfl rfl
    simp only [Machine.perform, Machine.load, rejected, Except.map]

/-- The instruction `LDN 20` and the number minus one. -/
def twoWords : Store :=
  ⟨32, [Model.smallScale.instructionWord 20 ⟨[false, true, false]⟩, Word.ofInt (-1) 32]⟩

/-- A store of `wordCount` sevens. -/
def sevens (wordCount : Nat) : Store :=
  ⟨32, List.replicate wordCount (Word.ofInt 7 32)⟩

/-- Two words are dumped and loaded into stores of two, three and one words. -/
theorem dump_reloads_twoWords :
    0 < twoWords.wordCount ∧ twoWords.wordCount ≤ 2 ^ 64 ∧ twoWords.Shaped 32 twoWords.wordCount ∧
      detect (Dump.write twoWords).toList = .dump ∧
      load .smallScale (Dump.write twoWords) (sevens 2) = .ok twoWords ∧
      load .smallScale (Dump.write twoWords) (sevens 3) =
        .ok ⟨32, twoWords.words ++ [Word.zero 32]⟩ ∧
      load .smallScale (Dump.write twoWords) (sevens 1) =
        .error (.rejected
          [⟨4, "0001: 11111111111111111111111111111111", .tooManyWords 0⟩]) := by
  have nonempty : 0 < twoWords.wordCount := by decide
  have addressable : twoWords.wordCount ≤ 2 ^ 64 := by decide
  have shaped : twoWords.Shaped Model.smallScale.wordLength twoWords.wordCount :=
    ⟨rfl, rfl, by decide⟩
  rcases dump_reloads .smallScale twoWords nonempty addressable shaped with ⟨isDump, reloads⟩
  have report : Dump.unplaced twoWords 1 =
      [⟨4, "0001: 11111111111111111111111111111111", .tooManyWords 0⟩] := by
    decide +kernel
  refine ⟨nonempty, addressable, shaped, isDump, ?_, ?_, ?_⟩
  · exact ((reloads (sevens 2) rfl).1 rfl).1
  · exact (reloads (sevens 3) rfl).2.1 (by decide)
  · rw [← report]
    exact ((reloads (sevens 1) rfl).2.2 (by decide)).1

end Program
end SmallScale
