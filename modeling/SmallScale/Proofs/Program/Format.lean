import SmallScale.Program.Format
import SmallScale.Proofs.Text.Numeral
import SmallScale.Proofs.Text.Pieces

namespace SmallScale
namespace Program

/-!
# The patterns of the formats

A format is detected by cutting a line and judging its pieces.  The patterns are
stated here as forms of the line: what is written one after the other, and which
characters may stand where.  No line of a program has either form exactly when
its format is unknown.
-/

/-- Left and right of the first colon that a space follows. -/
def CutsAtColon (line before after : List Char) : Prop :=
  line = before ++ ':' :: ' ' :: after ∧
    ∀ earlier rest, line = earlier ++ ':' :: ' ' :: rest → before.length ≤ earlier.length

theorem cutAtColon_eq_some_iff {line before after : List Char} :
    cutAtColon line = some (before, after) ↔ CutsAtColon line before after := by
  -- The cases are those of the reader: no text, the mark in front, any other character.
  induction line using cutAtColon.induct generalizing before with
  | case1 =>
      constructor
      · intro impossible
        cases impossible
      · rintro ⟨same, _⟩
        cases before <;> cases same
  | case2 rest =>
      constructor
      · intro cut
        cases cut
        exact ⟨rfl, fun _ _ _ => Nat.zero_le _⟩
      · rintro ⟨same, first⟩
        have atFront : before = [] :=
          List.eq_nil_of_length_eq_zero (Nat.le_zero.mp (first [] rest rfl))
        subst atFront
        cases same
        rfl
  | case3 c rest noMark ih =>
      rw [cutAtColon, Option.map_eq_some_iff]
      · constructor
        · rintro ⟨⟨inner, behind⟩, cut, same⟩
          cases same
          rcases ih.mp cut with ⟨shape, first⟩
          refine ⟨by rw [shape]; rfl, ?_⟩
          intro earlier others whole
          cases earlier with
          | nil =>
              cases whole
              exact (noMark others rfl rfl).elim
          | cons head tail => exact Nat.succ_le_succ (first tail others (List.cons.inj whole).2)
        · rintro ⟨shape, first⟩
          cases before with
          | nil =>
              cases shape
              exact (noMark after rfl rfl).elim
          | cons head inner =>
              rcases List.cons.inj shape with ⟨rfl, shape'⟩
              refine ⟨(inner, after), ih.mpr ⟨shape', ?_⟩, rfl⟩
              intro earlier others whole
              exact Nat.le_of_succ_le_succ (first (c :: earlier) others (by rw [whole]; rfl))
      · exact noMark

/-- What is in front of the first such colon is cut off there. -/
theorem cutsAtColon_of_not_mem {before after : List Char} (noColon : ':' ∉ before) :
    CutsAtColon (before ++ ':' :: ' ' :: after) before after := by
  refine ⟨rfl, ?_⟩
  intro earlier rest same
  by_cases shorter : before.length ≤ earlier.length
  · exact shorter
  · have position := congrArg (fun text => text[earlier.length]?) same
    simp only [List.getElem?_append_left (Nat.lt_of_not_le shorter),
      List.getElem?_append_right (Nat.le_refl _), Nat.sub_self, List.getElem?_cons_zero] at position
    exact (noColon (List.mem_of_getElem? position)).elim

/-! ## Lines that show a format -/

/-- Digits, a space and a name, and perhaps a space and more digits. -/
inductive AssemblyPattern : List Char → Prop where
  | bare {address name : List Char} (isAddress : Decimal.isDigits address = true)
      (named : isName name = true) : AssemblyPattern (address ++ ' ' :: name)
  | withOperand {address name operand : List Char} (isAddress : Decimal.isDigits address = true)
      (named : isName name = true) (isOperand : Decimal.isDigits operand = true) :
      AssemblyPattern (address ++ ' ' :: (name ++ ' ' :: operand))

/-- Digits, a colon, a space and binary digits. -/
def DumpPattern (line : List Char) : Prop :=
  ∃ address bits, line = address ++ ':' :: ' ' :: bits ∧ Decimal.isDigits address = true ∧
    isBinary bits = true

theorem not_mem_of_isName {text : List Char} {c : Char} (named : isName text = true)
    (other : (Text.isAlphanumeric c || c == '_') = false) : c ∉ text := by
  intro member
  rw [isName, Bool.and_eq_true, List.all_eq_true] at named
  rw [named.2 c member] at other
  cases other

theorem splitWhere_space_eq_pair_iff {line first second : List Char} :
    Text.splitWhere (· == ' ') line = [first, second] ↔
      line = first ++ ' ' :: second ∧ ' ' ∉ first ∧ ' ' ∉ second := by
  rw [Text.splitWhere_eq_cons_cons_iff]
  constructor
  · rintro ⟨firstUncut, mark, rest, marked, rfl, last⟩
    rcases Text.splitWhere_eq_singleton_iff.mp last with ⟨lastUncut, rfl⟩
    refine ⟨by rw [beq_iff_eq.mp marked], ?_, ?_⟩
    · intro member
      cases firstUncut ' ' member
    · intro member
      cases lastUncut ' ' member
  · rintro ⟨rfl, firstFree, secondFree⟩
    exact ⟨Text.uncut_of_not_mem firstFree, ' ', second, rfl, rfl,
      Text.splitWhere_of_uncut (Text.uncut_of_not_mem secondFree)⟩

theorem splitWhere_space_eq_triple_iff {line first second third : List Char} :
    Text.splitWhere (· == ' ') line = [first, second, third] ↔
      line = first ++ ' ' :: (second ++ ' ' :: third) ∧ ' ' ∉ first ∧ ' ' ∉ second ∧
        ' ' ∉ third := by
  rw [Text.splitWhere_eq_cons_cons_iff]
  constructor
  · rintro ⟨firstUncut, mark, rest, marked, rfl, last⟩
    rcases splitWhere_space_eq_pair_iff.mp last with ⟨rfl, secondFree, thirdFree⟩
    refine ⟨by rw [beq_iff_eq.mp marked], ?_, secondFree, thirdFree⟩
    intro member
    cases firstUncut ' ' member
  · rintro ⟨rfl, firstFree, secondFree, thirdFree⟩
    exact ⟨Text.uncut_of_not_mem firstFree, ' ', _, rfl, rfl,
      splitWhere_space_eq_pair_iff.mpr ⟨rfl, secondFree, thirdFree⟩⟩

theorem looksLikeAssembly_iff {line : List Char} :
    looksLikeAssembly line = true ↔ AssemblyPattern line := by
  constructor
  · intro looks
    unfold looksLikeAssembly at looks
    split at looks
    · rename_i address name pieces
      rw [Bool.and_eq_true] at looks
      rw [(splitWhere_space_eq_pair_iff.mp pieces).1]
      exact .bare looks.1 looks.2
    · rename_i address name operand pieces
      rw [Bool.and_eq_true, Bool.and_eq_true] at looks
      rw [(splitWhere_space_eq_triple_iff.mp pieces).1]
      exact .withOperand looks.1.1 looks.1.2 looks.2
    · cases looks
  · intro shown
    cases shown with
    | bare isAddress named =>
        have pieces := splitWhere_space_eq_pair_iff.mpr
          ⟨rfl, Decimal.not_mem_of_isDigits isAddress (by decide),
            not_mem_of_isName named (by decide)⟩
        simp [looksLikeAssembly, pieces, isAddress, named]
    | withOperand isAddress named isOperand =>
        have pieces := splitWhere_space_eq_triple_iff.mpr
          ⟨rfl, Decimal.not_mem_of_isDigits isAddress (by decide),
            not_mem_of_isName named (by decide), Decimal.not_mem_of_isDigits isOperand (by decide)⟩
        simp [looksLikeAssembly, pieces, isAddress, named, isOperand]

theorem looksLikeDump_iff {line : List Char} : looksLikeDump line = true ↔ DumpPattern line := by
  constructor
  · intro looks
    unfold looksLikeDump at looks
    split at looks
    · rename_i address bits cut
      rw [Bool.and_eq_true] at looks
      exact ⟨address, bits, (cutAtColon_eq_some_iff.mp cut).1, looks⟩
    · cases looks
  · rintro ⟨address, bits, rfl, isAddress, isBits⟩
    have noColon : ':' ∉ address := Decimal.not_mem_of_isDigits isAddress (by decide)
    have cuts : CutsAtColon (address ++ ':' :: ' ' :: bits) address bits :=
      cutsAtColon_of_not_mem noColon
    simp [looksLikeDump, cutAtColon_eq_some_iff.mpr cuts, isAddress, isBits]

/-- Only the lines of dumps have a colon. -/
theorem colon_not_mem_of_assemblyPattern {line : List Char} (shown : AssemblyPattern line) :
    ':' ∉ line := by
  cases shown with
  | bare isAddress named =>
      have addressFree := Decimal.not_mem_of_isDigits (c := ':') isAddress (by decide)
      have nameFree := not_mem_of_isName (c := ':') named (by decide)
      simp [addressFree, nameFree]
  | withOperand isAddress named isOperand =>
      have addressFree := Decimal.not_mem_of_isDigits (c := ':') isAddress (by decide)
      have nameFree := not_mem_of_isName (c := ':') named (by decide)
      have operandFree := Decimal.not_mem_of_isDigits (c := ':') isOperand (by decide)
      simp [addressFree, nameFree, operandFree]

theorem colon_mem_of_dumpPattern {line : List Char} (shown : DumpPattern line) : ':' ∈ line := by
  rcases shown with ⟨address, bits, rfl, _, _⟩
  simp

theorem formatOfLine?_eq_assembly_iff {line : List Char} :
    formatOfLine? line = some .assembly ↔ AssemblyPattern line := by
  rw [← looksLikeAssembly_iff, formatOfLine?]
  cases looksLikeAssembly line <;> cases looksLikeDump line <;> simp

theorem formatOfLine?_eq_dump_iff {line : List Char} :
    formatOfLine? line = some .dump ↔ DumpPattern line := by
  constructor
  · intro shown
    rw [← looksLikeDump_iff]
    unfold formatOfLine? at shown
    split at shown
    · cases shown
    · split at shown
      · assumption
      · cases shown
  · intro shown
    have noAssembly : ¬ looksLikeAssembly line = true := by
      rw [looksLikeAssembly_iff]
      intro assembly
      exact colon_not_mem_of_assemblyPattern assembly (colon_mem_of_dumpPattern shown)
    rw [formatOfLine?, if_neg noAssembly, if_pos (looksLikeDump_iff.mpr shown)]

/-! ## Programs that show a format -/

theorem formatOfLine?_ne_unknown {line : List Char} {format : Format}
    (shown : formatOfLine? line = some format) : format ≠ .unknown := by
  unfold formatOfLine? at shown
  split at shown
  · cases shown
    decide
  · split at shown <;> cases shown
    decide

/-- A program whose lines show no more than one format has that format. -/
theorem detect_eq_of_uniform {source : List Char} {format : Format}
    (uniform : ∀ line ∈ meaningfulLines source, ∀ other,
      formatOfLine? line.text = some other → other = format)
    (shown : ∃ line ∈ meaningfulLines source, formatOfLine? line.text = some format) :
    detect source = format := by
  unfold detect
  cases found : (meaningfulLines source).findSome? fun line => formatOfLine? line.text with
  | none =>
      rcases shown with ⟨line, member, isShown⟩
      rw [List.findSome?_eq_none_iff.mp found line member] at isShown
      cases isShown
  | some first =>
      rcases List.exists_of_findSome?_eq_some found with ⟨line, member, isShown⟩
      exact uniform line member first isShown

/-- A program without colons that shows assembly text is assembly text. -/
theorem detect_eq_assembly_of_colonless {source : List Char}
    (colonless : ∀ line ∈ meaningfulLines source, ':' ∉ line.text)
    (shown : ∃ line ∈ meaningfulLines source, AssemblyPattern line.text) :
    detect source = .assembly := by
  apply detect_eq_of_uniform
  · intro line member other isShown
    cases other with
    | assembly => rfl
    | dump =>
        have isDump := formatOfLine?_eq_dump_iff.mp isShown
        exact (colonless line member (colon_mem_of_dumpPattern isDump)).elim
    | unknown => exact (formatOfLine?_ne_unknown isShown rfl).elim
  · rcases shown with ⟨line, member, isAssembly⟩
    exact ⟨line, member, formatOfLine?_eq_assembly_iff.mpr isAssembly⟩

/-- The format is unknown when no line has the form of a pattern. -/
theorem detect_eq_unknown_iff {source : List Char} :
    detect source = .unknown ↔
      ∀ line ∈ meaningfulLines source, ¬ AssemblyPattern line.text ∧ ¬ DumpPattern line.text := by
  have lineUnknown (line : Line) : formatOfLine? line.text = none ↔
      ¬ AssemblyPattern line.text ∧ ¬ DumpPattern line.text := by
    rw [← looksLikeAssembly_iff, ← looksLikeDump_iff, formatOfLine?]
    cases looksLikeAssembly line.text <;> cases looksLikeDump line.text <;> simp
  simp only [← lineUnknown]
  unfold detect
  cases found : (meaningfulLines source).findSome? fun line => formatOfLine? line.text with
  | none =>
      rw [List.findSome?_eq_none_iff] at found
      exact ⟨fun _ => found, fun _ => rfl⟩
  | some format =>
      rcases List.exists_of_findSome?_eq_some found with ⟨line, member, shown⟩
      constructor
      · intro isUnknown
        exact (formatOfLine?_ne_unknown shown isUnknown).elim
      · intro absent
        rw [absent line member] at shown
        cases shown

end Program
end SmallScale
