import Mathlib.Data.List.Basic
import SmallScale.Program
import SmallScale.Proofs.Store.Shape

namespace SmallScale
namespace Program

/-!
# Grammars of program lines

A format is judged line by line.  A grammar says which lines are valid at an
address and which word a line stands for; the readers of the formats are
compared with it.  What is proved here about whole programs holds for every
reader: a program has a fault exactly where one of its lines has one, and the
faults are reported with the lines they are in and in the order of the lines.
-/

/-- What a format asks of a line that should have an address, and the word that
a line stands for. -/
structure Grammar where
  Valid : Nat → List Char → Prop
  Means : List Char → Word → Prop

variable {reader : LineReader} {wordCount address : Nat} {lines : List Line} {target : Store}

/-! ## The faults of one line -/

theorem faults_eq_nil_iff {reading : LineReading} {overflow : Option LineFault} :
    reading.faults overflow = [] ↔
      reading.addressFault = none ∧ (∃ w, reading.word = .ok w) ∧ overflow = none := by
  unfold LineReading.faults
  rw [List.append_eq_nil_iff, Option.toList_eq_nil_iff]
  cases reading.word with
  | error fault => simp
  | ok w => simp

/-- The faults of a line that should have this address. -/
def faultsAt (reader : LineReader) (wordCount address : Nat) (line : List Char) :
    List LineFault :=
  (reader address line).faults
    (if address < wordCount then none else some (.tooManyWords (wordCount - 1)))

theorem faultsAt_eq_nil_iff {line : List Char} :
    faultsAt reader wordCount address line = [] ↔
      (reader address line).addressFault = none ∧ (∃ w, (reader address line).word = .ok w) ∧
        address < wordCount := by
  rw [faultsAt, faults_eq_nil_iff]
  by_cases room : address < wordCount <;> simp [room]

/-! ## The faults of a program -/

theorem mem_diagnose_iff {d : Diagnostic} :
    d ∈ diagnose reader wordCount lines ↔
      ∃ address line fault, lines[address]? = some line ∧
        fault ∈ faultsAt reader wordCount address line.text ∧
        d = ⟨line.number, String.ofList line.text, fault⟩ := by
  simp only [diagnose, List.mem_flatMap, List.mem_map, Prod.exists,
    List.mk_mem_zipIdx_iff_getElem?]
  constructor
  · rintro ⟨line, address, stands, fault, found, rfl⟩
    exact ⟨address, line, fault, stands, found, rfl⟩
  · rintro ⟨address, line, fault, stands, found, rfl⟩
    exact ⟨line, address, stands, fault, found, rfl⟩

theorem diagnose_eq_nil_iff :
    diagnose reader wordCount lines = [] ↔
      ∀ address line, lines[address]? = some line →
        faultsAt reader wordCount address line.text = [] := by
  constructor
  · intro faultless address line stands
    rw [List.eq_nil_iff_forall_not_mem]
    intro fault found
    have reported := mem_diagnose_iff.mpr ⟨address, line, fault, stands, found, rfl⟩
    rw [faultless] at reported
    cases reported
  · intro faultless
    rw [List.eq_nil_iff_forall_not_mem]
    intro d reported
    rcases mem_diagnose_iff.mp reported with ⟨address, line, fault, stands, found, _⟩
    rw [faultless address line stands] at found
    cases found

theorem pairwise_zipIdx {α : Type} (xs : List α) (start : Nat) :
    (xs.zipIdx start).Pairwise fun first second => first.2 < second.2 := by
  rw [← List.pairwise_map, List.zipIdx_map_snd]
  exact List.pairwise_lt_range'

/-- The line numbers of a program increase. -/
theorem pairwise_meaningfulLines (source : List Char) :
    (meaningfulLines source).Pairwise fun first second => first.number < second.number := by
  rw [meaningfulLines, List.pairwise_filterMap]
  apply (pairwise_zipIdx _ 1).imp
  have number_eq {text : List Char} {number : Nat} {line : Line}
      (isLine : (if (meaning text).isEmpty then none else some ⟨number, meaning text⟩) =
        some line) : line.number = number := by
    by_cases nothing : (meaning text).isEmpty
    · simp [nothing] at isLine
    · simp only [nothing, Bool.false_eq_true, if_false, Option.some.injEq] at isLine
      rw [← isLine]
  intro first second increases firstLine isFirst secondLine isSecond
  rwa [number_eq isFirst, number_eq isSecond]

theorem lt_number_of_lt
    (increasing : lines.Pairwise fun first second => first.number < second.number)
    {earlier later : Nat} {first second : Line} (before : earlier < later)
    (firstStands : lines[earlier]? = some first) (secondStands : lines[later]? = some second) :
    first.number < second.number := by
  rcases List.getElem?_eq_some_iff.mp firstStands with ⟨firstInside, rfl⟩
  rcases List.getElem?_eq_some_iff.mp secondStands with ⟨secondInside, rfl⟩
  exact List.pairwise_iff_getElem.mp increasing _ _ firstInside secondInside before

/-- No two lines of a program have the same number. -/
theorem eq_of_number_eq
    (increasing : lines.Pairwise fun first second => first.number < second.number)
    {one other : Nat} {first second : Line} (firstStands : lines[one]? = some first)
    (secondStands : lines[other]? = some second) (same : first.number = second.number) :
    one = other := by
  rcases Nat.lt_trichotomy one other with before | equal | behind
  · have increases := lt_number_of_lt increasing before firstStands secondStands
    omega
  · exact equal
  · have increases := lt_number_of_lt increasing behind secondStands firstStands
    omega

theorem pairwise_diagnose
    (increasing : lines.Pairwise fun first second => first.number < second.number) :
    (diagnose reader wordCount lines).Pairwise fun first second => first.line ≤ second.line := by
  rw [diagnose, List.pairwise_flatMap]
  constructor
  · rintro ⟨line, address⟩ _
    rw [List.pairwise_map]
    exact List.pairwise_of_forall fun _ _ => Nat.le_refl _
  · rw [← List.zipIdx_map_fst 0 lines, List.pairwise_map] at increasing
    apply increasing.imp
    rintro ⟨first, _⟩ ⟨second, _⟩ increases d reported e reportedLater
    rcases List.mem_map.mp reported with ⟨_, _, rfl⟩
    rcases List.mem_map.mp reportedLater with ⟨_, _, rfl⟩
    exact Nat.le_of_lt increases

/-! ## The words of a program -/

theorem programWords_eq_map
    (complete : ∀ address line, lines[address]? = some line →
      ∃ w, (reader address line.text).word = .ok w) :
    programWords reader lines = lines.zipIdx.map fun (line, address) =>
      ((reader address line.text).word.toOption).getD default := by
  apply List.filterMap_eq_map_iff_forall_eq_some.mpr
  rintro ⟨line, address⟩ member
  rcases complete address line (List.mk_mem_zipIdx_iff_getElem?.mp member) with ⟨w, isWord⟩
  simp only [isWord, Except.toOption, Option.getD_some]

theorem length_programWords
    (complete : ∀ address line, lines[address]? = some line →
      ∃ w, (reader address line.text).word = .ok w) :
    (programWords reader lines).length = lines.length := by
  rw [programWords_eq_map complete, List.length_map, List.length_zipIdx]

theorem getElem?_programWords
    (complete : ∀ address line, lines[address]? = some line →
      ∃ w, (reader address line.text).word = .ok w)
    {line : Line} {w : Word} (stands : lines[address]? = some line)
    (isWord : (reader address line.text).word = .ok w) :
    (programWords reader lines)[address]? = some w := by
  rw [programWords_eq_map complete, List.getElem?_map, List.getElem?_zipIdx, stands]
  simp [isWord, Except.toOption]

/-! ## Images -/

theorem wordCount_imageOf {words : List Word} (room : words.length ≤ target.wordCount) :
    (imageOf words target).wordCount = target.wordCount := by
  simp only [imageOf, Store.wordCount, List.length_append, List.length_replicate]
  exact Nat.add_sub_cancel' room

theorem get_imageOf_of_word {words : List Word} {w : Word} (stands : words[address]? = some w) :
    (imageOf words target).get address = .ok w := by
  rcases List.getElem?_eq_some_iff.mp stands with ⟨inside, _⟩
  rw [Store.get_eq_ok_iff, imageOf, List.getElem?_append_left inside]
  exact stands

theorem get_imageOf_of_le {words : List Word} (behind : words.length ≤ address)
    (inside : address < target.wordCount) :
    (imageOf words target).get address = .ok (Word.zero target.wordLength) := by
  rw [Store.get_eq_ok_iff, imageOf, List.getElem?_append_right behind, List.getElem?_replicate,
    if_pos (by omega)]

/-! ## Grammar and reader -/

namespace Grammar

variable {grammar : Grammar}

/-- The reader finds nothing wrong exactly in valid lines, and a word it reads is
the one that the line stands for. -/
structure Governs (grammar : Grammar) (reader : LineReader) (wordCount : Nat) : Prop where
  faultless_iff : ∀ address line,
    faultsAt reader wordCount address line = [] ↔ grammar.Valid address line
  means_of_word : ∀ address line w, (reader address line).word = .ok w → grammar.Means line w

/-- Every line is valid at its place in the program. -/
def Accepts (grammar : Grammar) (lines : List Line) : Prop :=
  ∀ address line, lines[address]? = some line → grammar.Valid address line.text

/-- The image has the shape of the target, holds at every address of a line a
word that the line stands for, and is clear behind the lines. -/
structure Holds (grammar : Grammar) (lines : List Line) (target image : Store) : Prop where
  wordLength_eq : image.wordLength = target.wordLength
  wordCount_eq : image.wordCount = target.wordCount
  word_of_line : ∀ address line, lines[address]? = some line →
    ∃ w, image.get address = .ok w ∧ grammar.Means line.text w
  clear_behind : ∀ address, lines.length ≤ address → address < target.wordCount →
    image.get address = .ok (Word.zero target.wordLength)

/-- A report names the lines that are not valid and no others, with their texts
and in their order. -/
structure Reports (grammar : Grammar) (lines : List Line) (report : List Diagnostic) : Prop where
  named_iff : ∀ address line, lines[address]? = some line →
    ((∃ d ∈ report, d.line = line.number) ↔ ¬ grammar.Valid address line.text)
  in_program : ∀ d ∈ report, ∃ line ∈ lines, d.line = line.number ∧
    d.text = String.ofList line.text
  in_order : report.Pairwise fun first second => first.line ≤ second.line

/-- An attempt to load the lines into the target ends as the grammar says: it
succeeds exactly when every line is valid, with an image of all lines, and
otherwise reports all other lines. -/
structure Decides (grammar : Grammar) (lines : List Line) (target : Store)
    (result : Except LoadError Store) : Prop where
  succeeds_iff : (∃ image, result = .ok image) ↔ grammar.Accepts lines
  holds_of_ok : ∀ image, result = .ok image → grammar.Holds lines target image
  reports_of_error : ∀ e, result = .error e →
    ∃ report, e = .rejected report ∧ grammar.Reports lines report

/-- An image is in shape when all words of the grammar are as wide as those of
the target. -/
theorem Holds.shaped {image : Store} (holds : grammar.Holds lines target image)
    (wide : ∀ line w, grammar.Means line w → w.length = target.wordLength) :
    image.Shaped target.wordLength target.wordCount := by
  refine ⟨holds.wordLength_eq, holds.wordCount_eq, ?_⟩
  intro w member
  rcases List.mem_iff_getElem?.mp member with ⟨address, stored⟩
  have found := Store.get_eq_ok_iff.mpr stored
  by_cases isLine : address < lines.length
  · rcases holds.word_of_line address _ (List.getElem?_eq_getElem isLine) with ⟨v, same, means⟩
    cases found.symm.trans same
    exact wide _ _ means
  · have inside : address < target.wordCount := by
      rw [← holds.wordCount_eq]
      exact (List.getElem?_eq_some_iff.mp stored).1
    have same := holds.clear_behind address (Nat.le_of_not_lt isLine) inside
    cases found.symm.trans same
    exact Word.length_zero target.wordLength

variable (governs : grammar.Governs reader target.wordCount)

include governs

theorem Governs.diagnose_eq_nil_iff :
    diagnose reader target.wordCount lines = [] ↔ grammar.Accepts lines := by
  simp only [Program.diagnose_eq_nil_iff, governs.faultless_iff, Accepts]

theorem Governs.holds (accepted : grammar.Accepts lines) :
    grammar.Holds lines target (imageOf (programWords reader lines) target) := by
  have faultless (address : Nat) (line : Line) (stands : lines[address]? = some line) :=
    faultsAt_eq_nil_iff.mp ((governs.faultless_iff _ _).mpr (accepted address line stands))
  have complete (address : Nat) (line : Line) (stands : lines[address]? = some line) :
      ∃ w, (reader address line.text).word = .ok w := (faultless address line stands).2.1
  have sameLength := length_programWords complete
  -- If there are lines at all, the last one has room, and with it all others.
  have room : lines.length ≤ target.wordCount := by
    by_cases isEmpty : lines.length = 0
    · omega
    · have last := faultless (lines.length - 1) _ (List.getElem?_eq_getElem (by omega))
      omega
  refine ⟨rfl, wordCount_imageOf (sameLength ▸ room), ?_, ?_⟩
  · intro address line stands
    rcases complete address line stands with ⟨w, isWord⟩
    exact ⟨w, get_imageOf_of_word (getElem?_programWords complete stands isWord),
      governs.means_of_word _ _ _ isWord⟩
  · intro address behind inside
    exact get_imageOf_of_le (sameLength ▸ behind) inside

theorem Governs.reports
    (increasing : lines.Pairwise fun first second => first.number < second.number) :
    grammar.Reports lines (diagnose reader target.wordCount lines) := by
  refine ⟨?_, ?_, pairwise_diagnose increasing⟩
  · intro address line stands
    rw [← governs.faultless_iff, List.eq_nil_iff_forall_not_mem]
    constructor
    · rintro ⟨d, reported, sameNumber⟩ faultless
      rcases mem_diagnose_iff.mp reported with ⟨other, otherLine, fault, otherStands, found, rfl⟩
      -- Line numbers do not repeat, so the diagnostic is about this very line.
      have samePlace := eq_of_number_eq increasing otherStands stands sameNumber
      subst samePlace
      rw [stands, Option.some.injEq] at otherStands
      subst otherStands
      exact faultless fault found
    · intro faulty
      simp only [not_forall, not_not] at faulty
      rcases faulty with ⟨fault, found⟩
      exact ⟨_, mem_diagnose_iff.mpr ⟨address, line, fault, stands, found, rfl⟩, rfl⟩
  · intro d reported
    rcases mem_diagnose_iff.mp reported with ⟨address, line, fault, stands, _, rfl⟩
    exact ⟨line, List.mem_of_getElem? stands, rfl, rfl⟩

/-- A reader that a grammar governs loads a program as the grammar says. -/
theorem Governs.decides (source : List Char) :
    grammar.Decides (meaningfulLines source) target (readWith reader source target) := by
  have faultless : diagnose reader target.wordCount (meaningfulLines source) = [] ↔
      grammar.Accepts (meaningfulLines source) := governs.diagnose_eq_nil_iff
  have reports := governs.reports (pairwise_meaningfulLines source)
  cases report : diagnose reader target.wordCount (meaningfulLines source) with
  | nil =>
      have accepted := faultless.mp report
      have result : readWith reader source target =
          .ok (imageOf (programWords reader (meaningfulLines source)) target) := by
        simp only [readWith, report]
      rw [result]
      refine ⟨⟨fun _ => accepted, fun _ => ⟨_, rfl⟩⟩, ?_, ?_⟩
      · intro image loaded
        cases loaded
        exact governs.holds accepted
      · intro e impossible
        cases impossible
  | cons d others =>
      have result : readWith reader source target = .error (.rejected (d :: others)) := by
        simp only [readWith, report]
      rw [report] at faultless reports
      rw [result]
      refine ⟨⟨?_, ?_⟩, ?_, ?_⟩
      · rintro ⟨image, impossible⟩
        cases impossible
      · intro accepted
        cases faultless.mpr accepted
      · intro image impossible
        cases impossible
      · intro e failed
        cases failed
        exact ⟨_, rfl, reports⟩

end Grammar

end Program
end SmallScale
