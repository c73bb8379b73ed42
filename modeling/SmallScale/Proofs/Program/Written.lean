import Mathlib.Data.List.TakeWhile
import SmallScale.Proofs.Program.Format
import SmallScale.Proofs.Program.Meaning

namespace SmallScale
namespace Program

/-!
# Programs as they are written

A program is written with some comment lines in front and a line for every word,
without a comment and without blanks around it.  Read again, such a text has
exactly the lines of its words, numbered behind the comments.

A reader that finds in every line the word it was written for gives back these
words.  Where the store is too small, it reports one fault for each word that has
no place.
-/

/-- A line that is its own meaning. -/
structure Plain (line : List Char) : Prop where
  ne_nil : line ≠ []
  meaning_eq : meaning line = line
  unbroken : '\n' ∉ line

/-- A line that means nothing. -/
structure Remark (line : List Char) : Prop where
  meaning_eq : meaning line = []
  unbroken : '\n' ∉ line

/-- A line that starts and ends with a character of a word is plain. -/
theorem plain_of_solid {first last : List Char} (middle : List Char)
    (solidFirst : Text.Solid first) (solidLast : Text.Solid last)
    (noComment : ';' ∉ first ++ (middle ++ last)) (unbroken : '\n' ∉ first ++ (middle ++ last)) :
    Plain (first ++ (middle ++ last)) where
  ne_nil := by simp [solidFirst.ne_nil]
  unbroken := unbroken
  meaning_eq := by
    have whole : (first ++ (middle ++ last)).takeWhile (· != ';') = first ++ (middle ++ last) := by
      rw [List.takeWhile_eq_self_iff]
      intro c member
      rw [bne_iff_ne]
      rintro rfl
      exact noComment member
    rw [meaning, whole, solidFirst.trim_append solidLast]

/-- A line with a semicolon in front is a remark. -/
theorem remark_of_semicolon {rest : List Char} (unbroken : '\n' ∉ rest) : Remark (';' :: rest) where
  meaning_eq := rfl
  unbroken := by simp [unbroken]

theorem remark_nil : Remark [] where
  meaning_eq := rfl
  unbroken := List.not_mem_nil

/-- Lines numbered one after the other. -/
def numbered (start : Nat) (texts : List (List Char)) : List Line :=
  (texts.zipIdx start).map fun (text, number) => ⟨number, text⟩

theorem getElem?_numbered (start : Nat) (texts : List (List Char)) (address : Nat) :
    (numbered start texts)[address]? = texts[address]?.map fun text => ⟨start + address, text⟩ := by
  rw [numbered, List.getElem?_map, List.getElem?_zipIdx, Option.map_map]
  rfl

theorem numbered_map_zipIdx {α : Type} (start : Nat) (entries : List α)
    (textOf : α × Nat → List Char) :
    numbered start (entries.zipIdx.map textOf) =
      entries.zipIdx.map fun entry => ⟨entry.2 + start, textOf entry⟩ := by
  apply List.ext_getElem?
  intro address
  rw [getElem?_numbered, List.getElem?_map, List.getElem?_map, List.getElem?_zipIdx]
  cases entries[address]? with
  | none => rfl
  | some entry => simp [Nat.add_comm]

/-- The meaning of a text is its plain lines, numbered behind the remarks. -/
theorem meaningfulLines_unlines {remarks body : List (List Char)}
    (areRemarks : ∀ line ∈ remarks, Remark line) (arePlain : ∀ line ∈ body, Plain line) :
    meaningfulLines (Text.unlines (remarks ++ body)) = numbered (1 + remarks.length) body := by
  have unbroken : ∀ line ∈ remarks ++ body, '\n' ∉ line := by
    intro line member
    rcases List.mem_append.mp member with isRemark | isPlain
    · exact (areRemarks line isRemark).unbroken
    · exact (arePlain line isPlain).unbroken
  have noRemark (start : Nat) : meaningfulFrom start remarks = [] := by
    rw [meaningfulFrom, List.filterMap_eq_nil_iff]
    rintro ⟨line, number⟩ member
    simp [(areRemarks line (List.fst_mem_of_mem_zipIdx member)).meaning_eq]
  have allPlain (start : Nat) : meaningfulFrom start body = numbered start body := by
    apply List.filterMap_eq_map_iff_forall_eq_some.mpr
    rintro ⟨line, number⟩ member
    have plain := arePlain line (List.fst_mem_of_mem_zipIdx member)
    simp [plain.meaning_eq, plain.ne_nil]
  rw [meaningfulLines_eq, Text.linesOf, Text.splitWhere_unlines unbroken, meaningfulFrom_append,
    meaningfulFrom_append, noRemark, allPlain, meaningfulFrom_cons_of_idle rfl]
  exact List.append_nil _

/-! ## Reading them again -/

/-- The reader finds these words in the lines, one in each, and no fault. -/
structure Reads (reader : LineReader) (lines : List Line) (words : List Word) : Prop where
  length_eq : lines.length = words.length
  reading_eq : ∀ address line w, lines[address]? = some line → words[address]? = some w →
    reader address line.text = ⟨none, .ok w⟩

/-- The faults of lines of which only the first `wordCount` have a place in the
store. -/
def overflowing (wordCount : Nat) (lines : List Line) : List Diagnostic :=
  (lines.drop wordCount).map fun line =>
    ⟨line.number, String.ofList line.text, .tooManyWords (wordCount - 1)⟩

variable {reader : LineReader} {lines : List Line} {words : List Word} {source : List Char}
  {target : Store}

namespace Reads

theorem exists_reading (reads : Reads reader lines words) {address : Nat} {line : Line}
    (stands : lines[address]? = some line) :
    ∃ w, words[address]? = some w ∧ reader address line.text = ⟨none, .ok w⟩ := by
  have inside : address < words.length := by
    rw [← reads.length_eq]
    exact (List.getElem?_eq_some_iff.mp stands).1
  have found := List.getElem?_eq_getElem inside
  exact ⟨_, found, reads.reading_eq _ _ _ stands found⟩

theorem programWords_eq (reads : Reads reader lines words) : programWords reader lines = words := by
  have complete (address : Nat) (line : Line) (stands : lines[address]? = some line) :
      ∃ w, (reader address line.text).word = .ok w := by
    rcases reads.exists_reading stands with ⟨w, _, reading⟩
    exact ⟨w, by rw [reading]⟩
  apply List.ext_getElem?
  intro address
  cases stands : lines[address]? with
  | some line =>
      rcases reads.exists_reading stands with ⟨w, found, reading⟩
      rw [found, getElem?_programWords complete stands (by rw [reading])]
  | none =>
      have behind := List.getElem?_eq_none_iff.mp stands
      rw [List.getElem?_eq_none (by rw [length_programWords complete]; exact behind),
        List.getElem?_eq_none (by rw [← reads.length_eq]; exact behind)]

theorem diagnose_eq (reads : Reads reader lines words) (wordCount : Nat) :
    diagnose reader wordCount lines = overflowing wordCount lines := by
  -- Without its own faults a line has at most the one that there is no room.
  have faults_eq : ∀ line ∈ lines.zipIdx,
      (faultsAt reader wordCount line.2 line.1.text).map
        (fun fault => (⟨line.1.number, String.ofList line.1.text, fault⟩ : Diagnostic)) =
      if line.2 < wordCount then []
      else [⟨line.1.number, String.ofList line.1.text, .tooManyWords (wordCount - 1)⟩] := by
    rintro ⟨line, address⟩ member
    rcases reads.exists_reading (List.mk_mem_zipIdx_iff_getElem?.mp member) with ⟨w, _, reading⟩
    simp only [faultsAt, reading, LineReading.faults]
    split <;> simp
  have behind (others : List Line) (start : Nat) :
      (others.zipIdx start).flatMap (fun line => if line.2 < wordCount then []
        else [(⟨line.1.number, String.ofList line.1.text, .tooManyWords (wordCount - 1)⟩ :
          Diagnostic)]) =
      (others.drop (wordCount - start)).map fun line =>
        ⟨line.number, String.ofList line.text, .tooManyWords (wordCount - 1)⟩ := by
    induction others generalizing start with
    | nil => simp
    | cons line rest ih =>
        rw [List.zipIdx_cons, List.flatMap_cons, ih]
        by_cases room : start < wordCount
        · have further : wordCount - start = wordCount - (start + 1) + 1 := by omega
          simp [room, further]
        · have noPlace : wordCount - start = 0 := by omega
          have noneBehind : wordCount - (start + 1) = 0 := by omega
          simp [room, noPlace, noneBehind]
  have whole := behind lines 0
  rw [← List.flatMap_congr faults_eq] at whole
  exact whole

theorem readWith_of_le (reads : Reads reader (meaningfulLines source) words)
    (room : words.length ≤ target.wordCount) :
    readWith reader source target = .ok (imageOf words target) := by
  have nothing : overflowing target.wordCount (meaningfulLines source) = [] := by
    rw [overflowing, List.drop_eq_nil_of_le (reads.length_eq ▸ room), List.map_nil]
  simp only [readWith, reads.diagnose_eq, reads.programWords_eq, nothing]

theorem readWith_of_lt (reads : Reads reader (meaningfulLines source) words)
    (tooMany : target.wordCount < words.length) :
    readWith reader source target =
      .error (.rejected (overflowing target.wordCount (meaningfulLines source))) := by
  have something : overflowing target.wordCount (meaningfulLines source) ≠ [] := by
    rw [overflowing, ne_eq, List.map_eq_nil_iff, List.drop_eq_nil_iff, reads.length_eq]
    exact Nat.not_le_of_lt tooMany
  simp only [readWith, reads.diagnose_eq]

end Reads

end Program
end SmallScale
