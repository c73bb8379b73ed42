import Mathlib.Data.List.Forall2
import SmallScale.Proofs.Program.Grammar
import SmallScale.Proofs.Text.Pieces

namespace SmallScale
namespace Program

/-!
# Loading depends on meanings

What a line is read as depends on its meaning and on the number of meaningful
lines in front of it.  The number of the line in the text goes into the report
alone.  So of two programs that mean the same both are loaded, with one image, or
neither is, and then the reports agree fault by fault; only the line numbers may
differ, and they lead to lines that stand at the same place among the meaningful
ones of either program.

Where a line stands is said about the text and not about the numbered lines that
the readers see, so that a number in a report is known to be that of a line of
the text with the reported meaning.
-/

/-- What the lines mean that mean something. -/
def meaningsOf (lines : List (List Char)) : List (List Char) :=
  (lines.map meaning).filter fun text => !text.isEmpty

/-- What a program means, line by line. -/
def meanings (source : List Char) : List (List Char) :=
  meaningsOf (Text.linesOf source)

/-- The line of this number means the text, and as many lines in front of it as
`place` says mean something. -/
def StandsAt (source : List Char) (place number : Nat) (text : List Char) : Prop :=
  ∃ before line after, Text.linesOf source = before ++ line :: after ∧
    number = before.length + 1 ∧ (meaningsOf before).length = place ∧
    meaning line = text ∧ text ≠ []

variable {reader : LineReader} {wordCount : Nat} {source first second : List Char}
  {lines others : List Line}

/-! ## The meanings of a text -/

theorem meaningsOf_append (before after : List (List Char)) :
    meaningsOf (before ++ after) = meaningsOf before ++ meaningsOf after := by
  rw [meaningsOf, List.map_append, List.filter_append, meaningsOf, meaningsOf]

theorem meaningsOf_cons_of_idle {line : List Char} (idle : meaning line = [])
    (after : List (List Char)) : meaningsOf (line :: after) = meaningsOf after := by
  simp [meaningsOf, idle]

theorem meaningsOf_cons_of_ne_nil {line : List Char} (something : meaning line ≠ [])
    (after : List (List Char)) : meaningsOf (line :: after) = meaning line :: meaningsOf after := by
  simp [meaningsOf, something]

/-- A line break separates the meanings in front of it from those behind it. -/
theorem meanings_append_break (before after : List Char) :
    meanings (before ++ '\n' :: after) = meanings before ++ meanings after := by
  rw [meanings, Text.linesOf_append_break, meaningsOf_append, meanings, meanings]

/-! ## The numbered lines of a text -/

/-- The lines that mean something, when the first line has this number. -/
def meaningfulFrom (start : Nat) (texts : List (List Char)) : List Line :=
  (texts.zipIdx start).filterMap fun (line, number) =>
    if (meaning line).isEmpty then none else some ⟨number, meaning line⟩

theorem meaningfulLines_eq (source : List Char) :
    meaningfulLines source = meaningfulFrom 1 (Text.linesOf source) :=
  rfl

theorem meaningfulFrom_append (start : Nat) (before after : List (List Char)) :
    meaningfulFrom start (before ++ after) =
      meaningfulFrom start before ++ meaningfulFrom (start + before.length) after := by
  rw [meaningfulFrom, List.zipIdx_append, List.filterMap_append, meaningfulFrom, meaningfulFrom]

theorem meaningfulFrom_cons_of_idle {line : List Char} (idle : meaning line = []) (start : Nat)
    (after : List (List Char)) :
    meaningfulFrom start (line :: after) = meaningfulFrom (start + 1) after := by
  simp [meaningfulFrom, idle]

theorem meaningfulFrom_cons_of_ne_nil {line : List Char} (something : meaning line ≠ [])
    (start : Nat) (after : List (List Char)) :
    meaningfulFrom start (line :: after) =
      ⟨start, meaning line⟩ :: meaningfulFrom (start + 1) after := by
  simp [meaningfulFrom, something]

theorem map_text_meaningfulFrom (start : Nat) (texts : List (List Char)) :
    (meaningfulFrom start texts).map Line.text = meaningsOf texts := by
  induction texts generalizing start with
  | nil => rfl
  | cons line after ih =>
      by_cases idle : meaning line = []
      · rw [meaningfulFrom_cons_of_idle idle, meaningsOf_cons_of_idle idle, ih]
      · rw [meaningfulFrom_cons_of_ne_nil idle, meaningsOf_cons_of_ne_nil idle, List.map_cons, ih]

theorem map_text_meaningfulLines (source : List Char) :
    (meaningfulLines source).map Line.text = meanings source :=
  map_text_meaningfulFrom 1 (Text.linesOf source)

theorem length_meaningfulFrom (start : Nat) (texts : List (List Char)) :
    (meaningfulFrom start texts).length = (meaningsOf texts).length := by
  rw [← map_text_meaningfulFrom start, List.length_map]

theorem exists_of_getElem?_meaningfulFrom {texts : List (List Char)} {start place : Nat}
    {line : Line} (stands : (meaningfulFrom start texts)[place]? = some line) :
    ∃ before text after, texts = before ++ text :: after ∧
      line.number = start + before.length ∧ (meaningsOf before).length = place ∧
      meaning text = line.text ∧ line.text ≠ [] := by
  -- A line that means nothing moves the number on but not the place.
  induction texts generalizing start place with
  | nil => cases stands
  | cons head rest ih =>
      by_cases idle : meaning head = []
      · rw [meaningfulFrom_cons_of_idle idle] at stands
        rcases ih stands with ⟨before, text, after, rfl, number, behind, means⟩
        refine ⟨head :: before, text, after, rfl, ?_, ?_, means⟩
        · rw [number, List.length_cons]
          omega
        · rw [meaningsOf_cons_of_idle idle, behind]
      · rw [meaningfulFrom_cons_of_ne_nil idle] at stands
        cases place with
        | zero =>
            cases stands
            exact ⟨[], head, rest, rfl, rfl, rfl, rfl, idle⟩
        | succ place =>
            rcases ih stands with ⟨before, text, after, rfl, number, behind, means⟩
            refine ⟨head :: before, text, after, rfl, ?_, ?_, means⟩
            · rw [number, List.length_cons]
              omega
            · rw [meaningsOf_cons_of_ne_nil idle, List.length_cons, behind]

/-- The lines that a reader sees are the meaningful ones of the text, each with its
number there. -/
theorem getElem?_meaningfulLines_iff {place number : Nat} {text : List Char} :
    (meaningfulLines source)[place]? = some ⟨number, text⟩ ↔
      StandsAt source place number text := by
  rw [meaningfulLines_eq]
  constructor
  · intro stands
    rcases exists_of_getElem?_meaningfulFrom stands with
      ⟨before, line, after, shape, isNumber, behind, means⟩
    exact ⟨before, line, after, shape, isNumber.trans (Nat.add_comm 1 _), behind, means⟩
  · rintro ⟨before, line, after, shape, rfl, rfl, rfl, something⟩
    rw [shape, meaningfulFrom_append, ← length_meaningfulFrom 1 before,
      List.getElem?_append_right (Nat.le_refl _), Nat.sub_self,
      meaningfulFrom_cons_of_ne_nil something, Nat.add_comm]
    rfl

/-- The numbers of lines that mean something are in the order of their places. -/
theorem StandsAt.place_lt_iff {place other number otherNumber : Nat} {text otherText : List Char}
    (stands : StandsAt source place number text)
    (otherStands : StandsAt source other otherNumber otherText) :
    place < other ↔ number < otherNumber := by
  rw [← getElem?_meaningfulLines_iff] at stands otherStands
  have increasing := pairwise_meaningfulLines source
  constructor
  · exact fun before => lt_number_of_lt increasing before stands otherStands
  · intro before
    by_contra notBefore
    rcases Nat.lt_or_eq_of_le (Nat.le_of_not_lt notBefore) with later | rfl
    · exact Nat.lt_asymm before (lt_number_of_lt increasing later otherStands stands)
    · cases stands.symm.trans otherStands
      exact Nat.lt_irrefl _ before

/-! ## Programs with the same meanings -/

theorem map_text_eq_of_meanings (same : meanings first = meanings second) :
    (meaningfulLines first).map Line.text = (meaningfulLines second).map Line.text := by
  rw [map_text_meaningfulLines, map_text_meaningfulLines, same]

theorem detect_eq_of_meanings (same : meanings first = meanings second) :
    detect first = detect second := by
  have onMeanings (source : List Char) :
      detect source = ((meanings source).findSome? formatOfLine?).getD .unknown := by
    rw [detect, ← map_text_meaningfulLines, List.findSome?_map]
    rfl
  rw [onMeanings, onMeanings, same]

theorem programWords_eq_of_texts (same : lines.map Line.text = others.map Line.text) :
    programWords reader lines = programWords reader others := by
  have onTexts (lines : List Line) : programWords reader lines =
      (lines.map Line.text).zipIdx.filterMap fun (text, address) =>
        (reader address text).word.toOption := by
    rw [List.zipIdx_map, List.filterMap_map]
    rfl
  rw [onTexts, onTexts, same]

/-- The diagnostics report the same fault, in lines that mean the same and stand at
one place among the meaningful lines of the two programs. -/
structure SameFault (first second : List Char) (d e : Diagnostic) : Prop where
  text_eq : d.text = e.text
  fault_eq : d.fault = e.fault
  same_place : ∃ place, StandsAt first place d.line d.text.toList ∧
    StandsAt second place e.line e.text.toList

theorem forall₂_diagnose (same : meanings first = meanings second) :
    List.Forall₂ (SameFault first second)
      (diagnose reader wordCount (meaningfulLines first))
      (diagnose reader wordCount (meaningfulLines second)) := by
  have sameTexts := map_text_eq_of_meanings same
  have paired : List.Forall₂ (fun one other : Line × Nat => one.2 = other.2 ∧
      one.1.text = other.1.text ∧ (meaningfulLines first)[one.2]? = some one.1 ∧
      (meaningfulLines second)[other.2]? = some other.1)
      (meaningfulLines first).zipIdx (meaningfulLines second).zipIdx := by
    rw [List.forall₂_iff_get]
    refine ⟨by simpa using congrArg List.length sameTexts, fun place inside otherInside => ?_⟩
    rw [List.length_zipIdx] at inside otherInside
    have atPlace := congrArg (fun texts => texts[place]?) sameTexts
    simpa [inside, otherInside] using atPlace
  refine List.rel_flatMap paired ?_
  rintro ⟨⟨number, text⟩, address⟩ ⟨⟨otherNumber, _⟩, _⟩ ⟨rfl, rfl, stands, otherStands⟩
  change List.Forall₂ _
    ((faultsAt reader wordCount address text).map (Diagnostic.mk number (String.ofList text)))
    ((faultsAt reader wordCount address text).map (Diagnostic.mk otherNumber (String.ofList text)))
  rw [List.forall₂_map_left_iff, List.forall₂_map_right_iff, List.forall₂_same]
  rw [getElem?_meaningfulLines_iff] at stands otherStands
  exact fun fault _ => ⟨rfl, rfl, address, by simpa using stands, by simpa using otherStands⟩

/-- What loading two programs ends in, when it ends in the same way up to the line
numbers of a report. -/
inductive SameOutcome (first second : List Char) :
    Except LoadError Store → Except LoadError Store → Prop
  | loaded (image : Store) : SameOutcome first second (.ok image) (.ok image)
  | unknownFormat : SameOutcome first second (.error .unknownFormat) (.error .unknownFormat)
  | storeWidth (store model : Nat) :
      SameOutcome first second (.error (.storeWidth store model)) (.error (.storeWidth store model))
  | rejected {report otherReport : List Diagnostic}
      (alike : List.Forall₂ (SameFault first second) report otherReport) :
      SameOutcome first second (.error (.rejected report)) (.error (.rejected otherReport))

theorem sameOutcome_readWith (same : meanings first = meanings second) (target : Store) :
    SameOutcome first second (readWith reader first target) (readWith reader second target) := by
  have alike : List.Forall₂ (SameFault first second)
      (diagnose reader target.wordCount (meaningfulLines first))
      (diagnose reader target.wordCount (meaningfulLines second)) := forall₂_diagnose same
  have sameWords : programWords reader (meaningfulLines first) =
      programWords reader (meaningfulLines second) :=
    programWords_eq_of_texts (map_text_eq_of_meanings same)
  simp only [readWith, sameWords]
  generalize diagnose reader target.wordCount (meaningfulLines first) = report at alike ⊢
  generalize diagnose reader target.wordCount (meaningfulLines second) = otherReport at alike ⊢
  cases alike with
  | nil => exact .loaded _
  | cons head tail => exact .rejected (.cons head tail)

/-- Detection finds one format in both programs, and loading them for the model into
a store like the target ends in the same way. -/
structure LoadsAlike (model : Model) (target : Store) (first second : String) : Prop where
  detect_eq : detect first.toList = detect second.toList
  outcome : SameOutcome first.toList second.toList (load model first target)
    (load model second target)

theorem loadsAlike_of_meanings (model : Model) (target : Store) {first second : String}
    (same : meanings first.toList = meanings second.toList) :
    LoadsAlike model target first second where
  detect_eq := detect_eq_of_meanings same
  outcome := by
    rw [load, load, detect_eq_of_meanings same]
    split
    · exact .storeWidth _ _
    · split
      · exact sameOutcome_readWith same target
      · exact sameOutcome_readWith same target
      · exact .unknownFormat

end Program
end SmallScale
