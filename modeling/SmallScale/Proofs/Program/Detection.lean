import SmallScale.Proofs.Program.Loading

namespace SmallScale
namespace Program

/-!
# Detection agrees with the readers

The format of a program is detected by patterns that cut a line at single
spaces, and a program is read by readers that cut it at runs of blanks and trim
what they find.  So a line that a reader accepts need not show any format, and
one that shows a format need not be accepted.  Still the two never contradict
each other: a program that one reader accepts does not show the format of the
other one.

The colon decides.  Whatever has an address in front of a colon and a space has
the colon in its first word or is left with the colon as its second, and no
assembly line has a colon in its first two words.
-/

/-- The line looks like a line of this format. -/
def Format.Shown (line : List Char) : Format → Prop
  | .assembly => looksLikeAssembly line = true
  | .dump => looksLikeDump line = true
  | .unknown => False

/-- Of the lines that look like a line of some format, the first looks like one of
this format. -/
def FirstShown (lines : List Line) (format : Format) : Prop :=
  ∃ before line after, lines = before ++ line :: after ∧ format.Shown line.text ∧
    ∀ earlier ∈ before, ∀ other : Format, ¬ other.Shown earlier.text

/-- The reader of this format accepts the program for a store like the target. -/
def AcceptedAs (model : Model) (target : Store) (source : List Char) : Format → Prop
  | .assembly =>
      ∃ image, readWith (Assembly.read model target.wordCount) source target = .ok image
  | .dump => ∃ image, readWith (Dump.read target.wordLength) source target = .ok image
  | .unknown => False

variable {model : Model} {target : Store} {source line : List Char} {format : Format}
  {lines : List Line}

/-! ## The first line that shows a format -/

theorem not_both_shown (line : List Char) :
    ¬ (looksLikeAssembly line = true ∧ looksLikeDump line = true) := by
  rw [looksLikeAssembly_iff, looksLikeDump_iff]
  rintro ⟨assembly, dump⟩
  exact colon_not_mem_of_assemblyPattern assembly (colon_mem_of_dumpPattern dump)

theorem formatOfLine?_eq_some_iff : formatOfLine? line = some format ↔ format.Shown line := by
  cases format with
  | assembly => rw [formatOfLine?_eq_assembly_iff, ← looksLikeAssembly_iff, Format.Shown]
  | dump => rw [formatOfLine?_eq_dump_iff, ← looksLikeDump_iff, Format.Shown]
  | unknown => exact ⟨fun shown => formatOfLine?_ne_unknown shown rfl, False.elim⟩

theorem formatOfLine?_eq_none_iff :
    formatOfLine? line = none ↔ ∀ format : Format, ¬ format.Shown line := by
  rw [Option.eq_none_iff_forall_ne_some]
  exact forall_congr' fun _ => not_congr formatOfLine?_eq_some_iff

theorem firstShown_iff :
    FirstShown lines format ↔
      lines.findSome? (fun line => formatOfLine? line.text) = some format := by
  rw [List.findSome?_eq_some_iff]
  simp only [FirstShown, formatOfLine?_eq_some_iff, formatOfLine?_eq_none_iff]

theorem detect_eq_iff (known : format ≠ .unknown) :
    detect source = format ↔ FirstShown (meaningfulLines source) format := by
  rw [firstShown_iff, detect]
  cases (meaningfulLines source).findSome? fun line => formatOfLine? line.text with
  | none => simp [known.symm]
  | some first => simp

/-- The format that is detected stands in one of the lines. -/
theorem exists_shown_of_detect (known : format ≠ .unknown) (detected : detect source = format) :
    ∃ line ∈ meaningfulLines source, format.Shown line.text := by
  rcases (detect_eq_iff known).mp detected with ⟨before, line, after, lines, shown, _⟩
  exact ⟨line, by simp [lines], shown⟩

/-! ## The colon -/

/-- Where a word and a colon with a space behind it stand in front, one of the first
two words has a colon. -/
theorem exists_colon_mem_words {before after : List Char}
    (solid : Text.Solid (Text.trim before)) :
    ∃ word ∈ (Text.words (before ++ ':' :: ' ' :: after)).take 2, ':' ∈ word := by
  rcases Text.exists_blanks_trim before with ⟨front, back, frontBlank, backBlank, shape⟩
  have whole : before ++ ':' :: ' ' :: after =
      front ++ ((Text.trim before ++ (back ++ [':'])) ++ ' ' :: after) := by
    conv => lhs; rw [shape]
    simp
  have colon : Text.Solid [':'] := ⟨by decide, List.forall_mem_singleton.mpr (by decide)⟩
  rw [whole, Text.words_blanks_append frontBlank, Text.words_append_of_blank (by decide)]
  -- Either the colon stands right behind the word or blanks part the two.
  cases back with
  | nil =>
      have joined : Text.Solid (Text.trim before ++ [':']) := by
        refine ⟨by simp, fun c member => ?_⟩
        rcases List.mem_append.mp member with inside | isColon
        · exact solid.isBlank_eq_false c inside
        · exact colon.isBlank_eq_false c isColon
      rw [List.nil_append, joined.words_eq]
      exact ⟨_, List.mem_cons_self, by simp⟩
  | cons blank others =>
      rw [List.forall_mem_cons] at backBlank
      rw [List.cons_append, solid.words_append backBlank.1, Text.words_blanks_append backBlank.2,
        colon.words_eq]
      exact ⟨[':'], by simp, by simp⟩

theorem colon_mem_words_of_shown (shown : looksLikeDump line = true) :
    ∃ word ∈ (Text.words line).take 2, ':' ∈ word := by
  rcases looksLikeDump_iff.mp shown with ⟨address, bits, rfl, isAddress, _⟩
  have solid := Decimal.solid_of_isDigits isAddress
  exact exists_colon_mem_words (by rwa [solid.trim_eq])

theorem Dump.Valid.colon_mem_words {wordLength wordCount address : Nat}
    (valid : Dump.Valid wordLength wordCount address line) :
    ∃ word ∈ (Text.words line).take 2, ':' ∈ word := by
  rcases valid.meaningful with ⟨before, after, ⟨rfl, _⟩, spelt, _⟩
  exact exists_colon_mem_words (Decimal.solid_of_spellsUnsigned spelt)

theorem Assembly.Valid.colon_not_mem_words {wordCount address : Nat}
    (valid : Assembly.Valid model wordCount address line) :
    ∀ word ∈ (Text.words line).take 2, ':' ∉ word := by
  rcases valid.addressed with ⟨first, others, tokens, spelt⟩
  rcases valid.meaningful with ⟨m, value, said, _, _⟩
  have named : ∃ name rest, others = name :: rest ∧ Text.capitals name = m.name.toList := by
    cases said with
    | withOperand tokens' named => exact ⟨_, _, (List.cons.inj (tokens.symm.trans tokens')).2, named⟩
    | alone tokens' named => exact ⟨_, _, (List.cons.inj (tokens.symm.trans tokens')).2, named⟩
  rcases named with ⟨name, rest, rfl, capital⟩
  rw [tokens]
  simp only [List.take_succ_cons, List.take_zero, List.forall_mem_cons]
  refine ⟨Decimal.not_mem_of_spellsUnsigned spelt (by decide) (by decide), fun member => ?_,
    List.forall_mem_nil _⟩
  have inCapitals : ':' ∈ Text.capitals name :=
    List.mem_flatMap.mpr ⟨':', member, by decide⟩
  rw [capital] at inCapitals
  cases m <;> revert inCapitals <;> decide

/-- No line is valid in both formats, wherever it stands. -/
theorem not_valid_in_both {wordCount address wordLength otherCount otherAddress : Nat}
    (assembly : Assembly.Valid model wordCount address line) :
    ¬ Dump.Valid wordLength otherCount otherAddress line := by
  intro dump
  rcases dump.colon_mem_words with ⟨word, member, colon⟩
  exact assembly.colon_not_mem_words word member colon

/-! ## Programs that a reader accepts -/

theorem acceptedAs_assembly_iff :
    AcceptedAs model target source .assembly ↔
      (Assembly.grammar model target.wordCount).Accepts (meaningfulLines source) :=
  ((Assembly.governs model target.wordCount).decides source).succeeds_iff

theorem acceptedAs_dump_iff :
    AcceptedAs model target source .dump ↔
      (Dump.grammar target.wordLength target.wordCount).Accepts (meaningfulLines source) :=
  ((Dump.governs target.wordLength target.wordCount).decides source).succeeds_iff

/-- A program that the reader of a format accepts shows no other format. -/
theorem eq_of_shown_of_acceptedAs (accepted : AcceptedAs model target source format)
    {other : Format} {line : Line} (member : line ∈ meaningfulLines source)
    (shown : other.Shown line.text) : other = format := by
  rcases List.mem_iff_getElem?.mp member with ⟨address, stands⟩
  cases format with
  | assembly =>
      have valid := acceptedAs_assembly_iff.mp accepted address line stands
      cases other with
      | assembly => rfl
      | dump =>
          rcases colon_mem_words_of_shown shown with ⟨word, isWord, colon⟩
          exact (valid.colon_not_mem_words word isWord colon).elim
      | unknown => exact shown.elim
  | dump =>
      have valid := acceptedAs_dump_iff.mp accepted address line stands
      cases other with
      | assembly =>
          rcases valid.meaningful with ⟨before, after, ⟨shape, _⟩, _⟩
          apply (colon_not_mem_of_assemblyPattern (looksLikeAssembly_iff.mp shown) _).elim
          rw [shape]
          simp
      | dump => rfl
      | unknown => exact shown.elim
  | unknown => exact accepted.elim

/-- What detection says about a program is never contradicted by a reader. -/
structure DetectsRightly (model : Model) (target : Store) : Prop where
  not_both : ∀ line, ¬ (looksLikeAssembly line = true ∧ looksLikeDump line = true)
  first_decides : ∀ source format, format ≠ .unknown →
    (detect source = format ↔ FirstShown (meaningfulLines source) format)
  unknown_iff : ∀ source, detect source = .unknown ↔
    ∀ line ∈ meaningfulLines source, looksLikeAssembly line.text = false ∧
      looksLikeDump line.text = false
  one_reader : ∀ source, meaningfulLines source ≠ [] →
    ¬ (AcceptedAs model target source .assembly ∧ AcceptedAs model target source .dump)
  never_other : ∀ source format, AcceptedAs model target source format →
    detect source = format ∨ detect source = .unknown

/-- Detection and the readers agree, for every model, every store and every program. -/
theorem detection_agrees_with_readers (model : Model) (target : Store) :
    DetectsRightly model target where
  not_both := not_both_shown
  first_decides := fun _ _ => detect_eq_iff
  unknown_iff := by
    intro source
    rw [detect_eq_unknown_iff]
    simp only [← looksLikeAssembly_iff, ← looksLikeDump_iff, Bool.not_eq_true]
  one_reader := by
    rintro source something ⟨assembly, dump⟩
    rcases List.exists_mem_of_ne_nil _ something with ⟨line, member⟩
    rcases List.mem_iff_getElem?.mp member with ⟨address, stands⟩
    exact not_valid_in_both (acceptedAs_assembly_iff.mp assembly address line stands)
      (acceptedAs_dump_iff.mp dump address line stands)
  never_other := by
    intro source format accepted
    by_cases unknown : detect source = .unknown
    · exact .inr unknown
    · rcases exists_shown_of_detect unknown rfl with ⟨line, member, shown⟩
      exact .inl (eq_of_shown_of_acceptedAs accepted member shown)

/-- The second line is cut at a colon by one reader and at blanks by the other.  Only
the second one accepts the program, which shows no format. -/
theorem detection_agrees_with_readers_colonInLine :
    AcceptedAs .smallScale (Store.empty 32 32) "00 NUM -5\n+1\tstp : 01".toList .assembly ∧
      detect "00 NUM -5\n+1\tstp : 01".toList = .unknown ∧
      ¬ AcceptedAs .smallScale (Store.empty 32 32) "00 NUM -5\n+1\tstp : 01".toList .dump := by
  have law := detection_agrees_with_readers .smallScale (Store.empty 32 32)
  have accepted :
      AcceptedAs .smallScale (Store.empty 32 32) "00 NUM -5\n+1\tstp : 01".toList .assembly :=
    ⟨_, rfl⟩
  refine ⟨accepted, (law.unknown_iff _).mpr (by decide), fun dump => ?_⟩
  exact law.one_reader _ (by decide) ⟨accepted, dump⟩

end Program
end SmallScale
