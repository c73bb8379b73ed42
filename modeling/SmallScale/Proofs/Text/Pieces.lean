import Mathlib.Data.List.TakeWhile
import SmallScale.Text.Blank

namespace SmallScale
namespace Text

/-!
# Pieces of a text

A text is cut at characters.  The first piece ends at the first of them, and
what follows it is cut in the same way; no piece holds a character at which the
text is cut.  The lemmas below say so in both directions, so that a list of
pieces can be exchanged for the form of the text.

A text that is written line by line is cut into these lines again, and one that
is written word by word into these words, as long as no line holds a line break
and no word a blank.
-/

variable {cut : Char → Bool}

theorem uncut_of_not_mem {text : List Char} {mark : Char} (absent : mark ∉ text) :
    ∀ c ∈ text, (c == mark) = false := by
  intro c member
  rw [beq_eq_false_iff_ne]
  rintro rfl
  exact absent member

theorem splitWhere_of_uncut {text : List Char} (uncut : ∀ c ∈ text, cut c = false) :
    splitWhere cut text = [text] := by
  induction text with
  | nil => rfl
  | cons c rest ih =>
      rw [List.forall_mem_cons] at uncut
      simp [splitWhere, uncut.1, ih uncut.2, extendFirst]

/-- What stands in front of a mark is cut on its own, and so is what stands behind it. -/
theorem splitWhere_append_of_cut {mark : Char} (isCut : cut mark = true)
    (first rest : List Char) :
    splitWhere cut (first ++ mark :: rest) = splitWhere cut first ++ splitWhere cut rest := by
  induction first with
  | nil => simp [splitWhere, isCut]
  | cons c others ih =>
      rw [List.cons_append, splitWhere, splitWhere, ih]
      split
      · rfl
      · cases pieces : splitWhere cut others with
        | nil => exact (splitWhere_ne_nil cut others pieces).elim
        | cons head tail => rfl

theorem splitWhere_append {first rest : List Char} {mark : Char}
    (uncut : ∀ c ∈ first, cut c = false) (isCut : cut mark = true) :
    splitWhere cut (first ++ mark :: rest) = first :: splitWhere cut rest := by
  rw [splitWhere_append_of_cut isCut, splitWhere_of_uncut uncut]
  rfl

/-- The first piece of a text and how the others come about. -/
theorem splitWhere_eq_cons_iff {text first : List Char} {others : List (List Char)} :
    splitWhere cut text = first :: others ↔
      (∀ c ∈ first, cut c = false) ∧
        ((text = first ∧ others = []) ∨
          ∃ mark rest, cut mark = true ∧ text = first ++ mark :: rest ∧
            splitWhere cut rest = others) := by
  constructor
  · intro pieces
    -- A character in front either ends an empty piece or goes into the first one.
    induction text generalizing first with
    | nil =>
        cases pieces
        exact ⟨fun c member => (nomatch member), Or.inl ⟨rfl, rfl⟩⟩
    | cons c rest ih =>
        by_cases isCut : cut c = true
        · rw [splitWhere, if_pos isCut, List.cons.injEq] at pieces
          rcases pieces with ⟨rfl, rfl⟩
          exact ⟨fun c member => (nomatch member), Or.inr ⟨c, rest, isCut, rfl, rfl⟩⟩
        · rw [splitWhere, if_neg isCut] at pieces
          cases inner : splitWhere cut rest with
          | nil => exact (splitWhere_ne_nil cut rest inner).elim
          | cons head tail =>
              rw [inner, extendFirst, List.cons.injEq] at pieces
              rcases pieces with ⟨rfl, rfl⟩
              rcases ih inner with ⟨uncut, shape⟩
              refine ⟨List.forall_mem_cons.mpr ⟨Bool.eq_false_iff.mpr isCut, uncut⟩, ?_⟩
              rcases shape with ⟨rfl, rfl⟩ | ⟨mark, after, marked, rfl, rfl⟩
              · exact Or.inl ⟨rfl, rfl⟩
              · exact Or.inr ⟨mark, after, marked, rfl, rfl⟩
  · rintro ⟨uncut, ⟨rfl, rfl⟩ | ⟨mark, rest, marked, rfl, rfl⟩⟩
    · exact splitWhere_of_uncut uncut
    · exact splitWhere_append uncut marked

theorem splitWhere_eq_singleton_iff {text piece : List Char} :
    splitWhere cut text = [piece] ↔ (∀ c ∈ piece, cut c = false) ∧ text = piece := by
  rw [splitWhere_eq_cons_iff]
  constructor
  · rintro ⟨uncut, ⟨same, _⟩ | ⟨_, rest, _, _, nothing⟩⟩
    · exact ⟨uncut, same⟩
    · exact (splitWhere_ne_nil cut rest nothing).elim
  · rintro ⟨uncut, same⟩
    exact ⟨uncut, Or.inl ⟨same, rfl⟩⟩

/-- A text in two pieces or more is cut once after the first. -/
theorem splitWhere_eq_cons_cons_iff {text first second : List Char}
    {others : List (List Char)} :
    splitWhere cut text = first :: second :: others ↔
      (∀ c ∈ first, cut c = false) ∧
        ∃ mark rest, cut mark = true ∧ text = first ++ mark :: rest ∧
          splitWhere cut rest = second :: others := by
  rw [splitWhere_eq_cons_iff]
  simp

/-! ## Lines -/

/-- Lines one after the other, each with a line break behind it. -/
def unlines (lines : List (List Char)) : List Char :=
  lines.flatMap fun line => line ++ ['\n']

/-- Behind the last line break lies an empty piece. -/
theorem splitWhere_unlines {lines : List (List Char)} (unbroken : ∀ line ∈ lines, '\n' ∉ line) :
    splitWhere (· == '\n') (unlines lines) = lines ++ [[]] := by
  induction lines with
  | nil => rfl
  | cons line others ih =>
      rw [List.forall_mem_cons] at unbroken
      rw [unlines, List.flatMap_cons, List.append_assoc, List.singleton_append,
        splitWhere_append (uncut_of_not_mem unbroken.1) rfl]
      exact congrArg _ (ih unbroken.2)

/-- The pieces of a text between its line breaks. -/
def linesOf (text : List Char) : List (List Char) :=
  splitWhere (· == '\n') text

/-- Lines one after the other, with a line break between any two neighbours. -/
def joined (lines : List (List Char)) : List Char :=
  ['\n'].intercalate lines

theorem linesOf_append_break (first rest : List Char) :
    linesOf (first ++ '\n' :: rest) = linesOf first ++ linesOf rest :=
  splitWhere_append_of_cut rfl first rest

theorem linesOf_of_unbroken {line : List Char} (unbroken : '\n' ∉ line) : linesOf line = [line] :=
  splitWhere_of_uncut (uncut_of_not_mem unbroken)

theorem joined_cons_cons (line next : List Char) (others : List (List Char)) :
    joined (line :: next :: others) = line ++ '\n' :: joined (next :: others) := by
  rw [joined, List.intercalate_cons_cons, List.append_assoc, List.singleton_append, joined]

/-- Every text is its lines, and these have no line breaks. -/
theorem joined_linesOf (text : List Char) :
    joined (linesOf text) = text ∧ ∀ line ∈ linesOf text, '\n' ∉ line := by
  induction text with
  | nil => exact ⟨rfl, by simp [linesOf, splitWhere]⟩
  | cons c rest ih =>
      rw [linesOf] at ih ⊢
      rw [splitWhere]
      cases pieces : splitWhere (· == '\n') rest with
      | nil => exact (splitWhere_ne_nil _ rest pieces).elim
      | cons head tail =>
          rw [pieces, List.forall_mem_cons] at ih
          rcases ih with ⟨whole, headUnbroken, tailUnbroken⟩
          by_cases isBreak : c = '\n'
          · rw [isBreak, if_pos (by decide), joined_cons_cons, whole, List.forall_mem_cons]
            exact ⟨rfl, List.not_mem_nil, List.forall_mem_cons.mpr ⟨headUnbroken, tailUnbroken⟩⟩
          · rw [if_neg (by simpa using isBreak), extendFirst, List.forall_mem_cons]
            refine ⟨?_, by simpa [headUnbroken] using Ne.symm isBreak, tailUnbroken⟩
            rw [← whole]
            cases tail with
            | nil => rfl
            | cons next others => rw [joined_cons_cons, joined_cons_cons, List.cons_append]

/-! ## Blanks -/

/-- A nonempty text without blanks. -/
structure Solid (text : List Char) : Prop where
  ne_nil : text ≠ []
  isBlank_eq_false : ∀ c ∈ text, isBlank c = false

theorem Solid.reverse {text : List Char} (solid : Solid text) : Solid text.reverse where
  ne_nil := by simpa using solid.ne_nil
  isBlank_eq_false c member := solid.isBlank_eq_false c (List.mem_reverse.mp member)

theorem Solid.trimStart_append {first : List Char} (solid : Solid first) (rest : List Char) :
    trimStart (first ++ rest) = first ++ rest := by
  cases first with
  | nil => exact (solid.ne_nil rfl).elim
  | cons c others =>
      have isSolid := solid.isBlank_eq_false c List.mem_cons_self
      rw [trimStart, List.cons_append, List.dropWhile_cons_of_neg (by simp [isSolid])]

/-- A text with no blank at either end is not shortened. -/
theorem Solid.trim_append {first last : List Char} (solidFirst : Solid first)
    (solidLast : Solid last) (middle : List Char) :
    trim (first ++ (middle ++ last)) = first ++ (middle ++ last) := by
  rw [trim, solidFirst.trimStart_append, List.reverse_append, List.reverse_append,
    List.append_assoc, solidLast.reverse.trimStart_append]
  simp

theorem Solid.trim_eq {text : List Char} (solid : Solid text) : trim text = text := by
  have start := solid.trimStart_append []
  have stop := solid.reverse.trimStart_append []
  rw [List.append_nil] at start stop
  rw [trim, start, stop, List.reverse_reverse]

theorem Solid.words_eq {text : List Char} (solid : Solid text) : words text = [text] := by
  rw [words, splitWhere_of_uncut solid.isBlank_eq_false]
  simp [solid.ne_nil]

/-- A blank separates the words in front of it from those behind it. -/
theorem words_append_of_blank {blank : Char} (isBlank : isBlank blank = true)
    (first rest : List Char) : words (first ++ blank :: rest) = words first ++ words rest := by
  rw [words, splitWhere_append_of_cut isBlank, List.filter_append]
  rfl

/-- A blank ends the first word. -/
theorem Solid.words_append {first : List Char} (solid : Solid first) {blank : Char}
    (isBlank : isBlank blank = true) (rest : List Char) :
    words (first ++ blank :: rest) = first :: words rest := by
  rw [words_append_of_blank isBlank, solid.words_eq]
  rfl

/-- Blanks in front of a text are no words. -/
theorem words_blanks_append {blanks : List Char} (areBlank : ∀ c ∈ blanks, isBlank c = true)
    (text : List Char) : words (blanks ++ text) = words text := by
  induction blanks with
  | nil => rfl
  | cons blank others ih =>
      rw [List.forall_mem_cons] at areBlank
      rw [← ih areBlank.2]
      exact words_append_of_blank areBlank.1 [] (others ++ text)

/-! ## What trimming takes off -/

theorem exists_blanks_trimStart (text : List Char) :
    ∃ blanks, (∀ c ∈ blanks, isBlank c = true) ∧ text = blanks ++ trimStart text :=
  ⟨text.takeWhile isBlank, fun _ member => List.mem_takeWhile_imp member,
    List.takeWhile_append_dropWhile.symm⟩

/-- A text is what trimming leaves of it, between two runs of blanks. -/
theorem exists_blanks_trim (text : List Char) :
    ∃ front back, (∀ c ∈ front, isBlank c = true) ∧ (∀ c ∈ back, isBlank c = true) ∧
      text = front ++ (trim text ++ back) := by
  rcases exists_blanks_trimStart text with ⟨front, frontBlank, fromFront⟩
  rcases exists_blanks_trimStart (trimStart text).reverse with ⟨back, backBlank, fromBack⟩
  refine ⟨front, back.reverse, frontBlank,
    fun c member => backBlank c (List.mem_reverse.mp member), ?_⟩
  have rest := congrArg List.reverse fromBack
  rw [List.reverse_reverse, List.reverse_append] at rest
  rw [trim, ← rest]
  exact fromFront

theorem trimStart_blanks_append {blanks : List Char} (areBlank : ∀ c ∈ blanks, isBlank c = true)
    (text : List Char) : trimStart (blanks ++ text) = trimStart text :=
  List.dropWhile_append_of_pos areBlank

/-- Blanks in front of a text are trimmed. -/
theorem trim_blanks_append {blanks : List Char} (areBlank : ∀ c ∈ blanks, isBlank c = true)
    (text : List Char) : trim (blanks ++ text) = trim text := by
  rw [trim, trimStart_blanks_append areBlank, trim]

/-- Blanks behind a text are trimmed. -/
theorem trim_append_blanks {blanks : List Char} (areBlank : ∀ c ∈ blanks, isBlank c = true)
    (text : List Char) : trim (text ++ blanks) = trim text := by
  have turned : ∀ c ∈ blanks.reverse, isBlank c = true :=
    fun c member => areBlank c (List.mem_reverse.mp member)
  have start : trimStart (text ++ blanks) =
      if (trimStart text).isEmpty then trimStart blanks else trimStart text ++ blanks :=
    List.dropWhile_append
  by_cases nothing : trimStart text = []
  · have noneLeft : trimStart blanks = [] := List.dropWhile_eq_nil_iff.mpr areBlank
    rw [trim, trim, start, nothing, List.isEmpty_nil, if_pos rfl, noneLeft]
  · rw [trim, trim, start, if_neg (by simpa using nothing), List.reverse_append,
      trimStart_blanks_append turned]

end Text
end SmallScale
