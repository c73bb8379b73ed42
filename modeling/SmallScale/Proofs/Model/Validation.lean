import SmallScale.Proofs.Instruction.Canonical
import SmallScale.Proofs.Model.Description

namespace SmallScale

/-!
# What is wrong with a description first

A description has to meet a list of requirements: on the size of words and store,
on the two fields, on every row of the opcode table in turn and on the operand
lists.  The list is written down here in the order in which the requirements are
looked at, each with the complaint about a description that does not meet it.
The check passes exactly the descriptions that meet all of them and complains
about the first that is not met.

A model made from such a description looks its rows up in both directions.  Two
tables that are filled in one pass over the rows, where a later row takes over a
pattern and an earlier one keeps a mnemonic, give the same answers: no pattern
is ever taken over.
-/

namespace Description

/-- Something that must hold, and the complaint if it does not. -/
structure Requirement where
  Met : Prop
  complaint : ModelError

/-- The first requirement that is not met gives rise to this complaint. -/
def FirstUnmet (requirements : List Requirement) (e : ModelError) : Prop :=
  ∃ before broken after, requirements = before ++ broken :: after ∧
    (∀ earlier ∈ before, earlier.Met) ∧ ¬ broken.Met ∧ broken.complaint = e

/-- A field is not empty and ends inside the word. -/
def fieldRequirement (d : Description) (role : FieldRole) (field : BitField) : Requirement :=
  ⟨1 ≤ field.length ∧ field.stop ≤ d.wordLength, .fieldOutOfWord role field d.wordLength⟩

/-- The sizes are possible, and no bit is in both fields. -/
def layoutRequirements (d : Description) : List Requirement :=
  [ ⟨1 ≤ d.wordLength ∧ d.wordLength ≤ 64, .wordLength d.wordLength⟩,
    ⟨1 ≤ d.wordCount, .emptyStore⟩,
    d.fieldRequirement .address d.address,
    d.fieldRequirement .opcode d.opcode,
    ⟨∀ position, ¬ (d.address.Covers position ∧ d.opcode.Covers position), .fieldsOverlap⟩ ]

/-- A row has an instruction, and a pattern of the right width that is in none of
the rows before it. -/
def rowRequirements (width : Nat) (before : List Opcode) (row : Opcode) : List Requirement :=
  [ ⟨row.mnemonic ≠ .num, .numHasOpcode⟩,
    ⟨row.pattern.length = width, .patternWidth row.pattern width⟩,
    ⟨∀ earlier ∈ before, earlier.pattern ≠ row.pattern, .duplicatePattern row.pattern⟩ ]

/-- What is asked of rows that stand behind others, row by row. -/
def rowsRequirements (width : Nat) (before : List Opcode) : List Opcode → List Requirement
  | [] => []
  | row :: rest =>
      rowRequirements width before row ++ rowsRequirements width (before ++ [row]) rest

/-- A mnemonic with an address operand takes an operand. -/
def operandRequirements (d : Description) : List Requirement :=
  d.addressOperand.map fun m => ⟨m ∈ d.withOperand, .addressWithoutOperand m⟩

/-- All that is asked of a description, in the order in which it is looked at. -/
def requirements (d : Description) : List Requirement :=
  d.layoutRequirements ++ (rowsRequirements d.opcode.length [] d.opcodes ++ d.operandRequirements)

/-- A check that passes when all requirements are met, and complains about the first
that is not. -/
def Judges (requirements : List Requirement) : Except ModelError Unit → Prop
  | .ok () => ∀ requirement ∈ requirements, requirement.Met
  | .error e => FirstUnmet requirements e

variable {d : Description} {requirement : Requirement} {earlier later : List Requirement}
  {result : Except ModelError Unit} {e other : ModelError}

/-! ## One requirement after the other -/

theorem firstUnmet_cons_iff :
    FirstUnmet (requirement :: later) e ↔
      (¬ requirement.Met ∧ requirement.complaint = e) ∨
        (requirement.Met ∧ FirstUnmet later e) := by
  constructor
  · rintro ⟨before, broken, after, whole, met, unmet, complains⟩
    cases before with
    | nil =>
        cases whole
        exact .inl ⟨unmet, complains⟩
    | cons first others =>
        cases whole
        rw [List.forall_mem_cons] at met
        exact .inr ⟨met.1, others, broken, after, rfl, met.2, unmet, complains⟩
  · rintro (⟨unmet, complains⟩ | ⟨isMet, before, broken, after, rfl, met, unmet, complains⟩)
    · exact ⟨[], requirement, later, rfl, List.forall_mem_nil _, unmet, complains⟩
    · exact ⟨requirement :: before, broken, after, rfl, List.forall_mem_cons.mpr ⟨isMet, met⟩,
        unmet, complains⟩

/-- There is one complaint about the first requirement that is not met. -/
theorem FirstUnmet.unique {requirements : List Requirement} (first : FirstUnmet requirements e)
    (second : FirstUnmet requirements other) : e = other := by
  induction requirements with
  | nil =>
      rcases first with ⟨before, broken, after, whole, _⟩
      cases before <;> cases whole
  | cons requirement later ih =>
      rcases firstUnmet_cons_iff.mp first with ⟨unmet, rfl⟩ | ⟨met, first⟩ <;>
        rcases firstUnmet_cons_iff.mp second with ⟨unmetToo, rfl⟩ | ⟨metToo, second⟩
      · rfl
      · exact (unmet metToo).elim
      · exact (unmetToo met).elim
      · exact ih first second

/-- Where all requirements are met, there is nothing to complain about. -/
theorem not_firstUnmet_of_met {requirements : List Requirement}
    (met : ∀ requirement ∈ requirements, requirement.Met) : ¬ FirstUnmet requirements e := by
  rintro ⟨before, broken, after, rfl, _, unmet, _⟩
  exact unmet (met broken (by simp))

namespace Judges

theorem ok_iff {requirements : List Requirement} (judges : Judges requirements result) :
    result = .ok () ↔ ∀ requirement ∈ requirements, requirement.Met := by
  cases result with
  | ok _ => exact ⟨fun _ => judges, fun _ => rfl⟩
  | error e => exact ⟨nofun, fun met => (not_firstUnmet_of_met met judges).elim⟩

theorem error_iff {requirements : List Requirement} (judges : Judges requirements result) :
    result = .error e ↔ FirstUnmet requirements e := by
  cases result with
  | ok _ => exact ⟨nofun, fun unmet => (not_firstUnmet_of_met judges unmet).elim⟩
  | error found =>
      rw [Except.error.injEq]
      constructor
      · rintro rfl
        exact judges
      · exact judges.unique

/-- A requirement that is not met ends the check. -/
theorem stop (unmet : ¬ requirement.Met) :
    Judges (requirement :: later) (.error requirement.complaint) :=
  firstUnmet_cons_iff.mpr (.inl ⟨unmet, rfl⟩)

/-- After a requirement that is met the check goes on. -/
theorem pass (met : requirement.Met) (rest : Judges later result) :
    Judges (requirement :: later) result := by
  cases result with
  | ok _ => exact List.forall_mem_cons.mpr ⟨met, rest⟩
  | error e => exact firstUnmet_cons_iff.mpr (.inr ⟨met, rest⟩)

theorem append_of_error (judges : Judges earlier (.error e)) :
    Judges (earlier ++ later) (.error e) := by
  rcases judges with ⟨before, broken, after, rfl, met, unmet, complains⟩
  exact ⟨before, broken, after ++ later, by simp, met, unmet, complains⟩

theorem append_of_met (met : ∀ requirement ∈ earlier, requirement.Met)
    (rest : Judges later result) : Judges (earlier ++ later) result := by
  induction earlier with
  | nil => exact rest
  | cons requirement others ih =>
      rw [List.forall_mem_cons] at met
      exact (ih met.2).pass met.1

end Judges

/-! ## The parts of the check -/

theorem judges_checkField (d : Description) (role : FieldRole) (field : BitField) :
    Judges [d.fieldRequirement role field] (d.checkField role field) := by
  unfold checkField
  split
  · rename_i outside
    apply Judges.stop
    rintro ⟨positive, inside⟩
    omega
  · rename_i inside
    exact Judges.pass ⟨by omega, by omega⟩ (List.forall_mem_nil _)

/-- Two fields that are not empty share a bit exactly when each starts before the other
ends. -/
theorem covers_both_iff {first second : BitField} (firstPositive : 1 ≤ first.length)
    (secondPositive : 1 ≤ second.length) :
    (∃ position, first.Covers position ∧ second.Covers position) ↔
      first.start < second.stop ∧ second.start < first.stop := by
  simp only [BitField.Covers, BitField.stop]
  constructor
  · rintro ⟨position, inFirst, inSecond⟩
    omega
  · intro overlap
    exact ⟨max first.start second.start, by omega, by omega⟩

theorem judges_checkLayout (d : Description) : Judges d.layoutRequirements d.checkLayout := by
  unfold layoutRequirements checkLayout
  split
  · rename_i size
    exact Judges.stop fun met => by omega
  · rename_i size
    refine Judges.pass ⟨by omega, by omega⟩ ?_
    split
    · rename_i empty
      exact Judges.stop fun met => by omega
    · rename_i room
      refine Judges.pass (Nat.one_le_iff_ne_zero.mpr room) ?_
      have addressJudged := judges_checkField d .address d.address
      split
      · rename_i e failed
        rw [failed] at addressJudged
        exact addressJudged.append_of_error
      · rename_i addressFits
        have addressMet := List.forall_mem_singleton.mp (addressJudged.ok_iff.mp addressFits)
        refine Judges.pass addressMet ?_
        have opcodeJudged := judges_checkField d .opcode d.opcode
        split
        · rename_i e failed
          rw [failed] at opcodeJudged
          exact opcodeJudged.append_of_error
        · rename_i opcodeFits
          have opcodeMet := List.forall_mem_singleton.mp (opcodeJudged.ok_iff.mp opcodeFits)
          refine Judges.pass opcodeMet ?_
          have overlap := covers_both_iff addressMet.1 opcodeMet.1
          split
          · rename_i shared
            exact Judges.stop fun apart => (overlap.mpr shared).elim apart
          · rename_i apart
            refine Judges.pass ?_ (List.forall_mem_nil _)
            intro position both
            exact apart (overlap.mp ⟨position, both⟩)

/-- The rows of a table are judged one after the other.  Of the rows before, the check
keeps the patterns. -/
theorem judges_checkRows {width : Nat} {seen : List Word} {before rest : List Opcode}
    (kept : ∀ pattern, pattern ∈ seen ↔ ∃ row ∈ before, row.pattern = pattern) :
    Judges (rowsRequirements width before rest) (checkRows width seen rest) := by
  induction rest generalizing before seen with
  | nil => exact List.forall_mem_nil _
  | cons row others ih =>
      unfold rowsRequirements rowRequirements checkRows
      split
      · rename_i isNum
        exact Judges.stop fun executable => executable isNum
      · rename_i executable
        refine Judges.pass executable ?_
        split
        · rename_i otherWidth
          exact Judges.stop otherWidth
        · rename_i wide
          refine Judges.pass (not_not.mp wide) ?_
          split
          · rename_i repeated
            rcases (kept _).mp repeated with ⟨earlier, member, same⟩
            exact Judges.stop fun fresh => fresh earlier member same
          · rename_i fresh
            refine Judges.pass (fun earlier member same => ?_) (ih fun pattern => ?_)
            · exact fresh ((kept _).mpr ⟨earlier, member, same⟩)
            · rw [List.mem_cons, kept]
              simp [or_comm, eq_comm]

theorem judges_checkOperands (d : Description) :
    Judges d.operandRequirements d.checkOperands := by
  have judged (listed : List Mnemonic) :
      Judges (listed.map fun m => ⟨m ∈ d.withOperand, .addressWithoutOperand m⟩)
        { d with addressOperand := listed }.checkOperands := by
    induction listed with
    | nil => exact List.forall_mem_nil _
    | cons m others ih =>
        unfold checkOperands at ih ⊢
        by_cases takes : m ∈ d.withOperand
        · rw [List.find?_cons_of_neg (by simpa using takes)]
          exact Judges.pass takes ih
        · rw [List.find?_cons_of_pos (by simpa using takes)]
          exact Judges.stop takes
  exact judged d.addressOperand

/-- The check judges a description by its requirements. -/
theorem judges_check (d : Description) : Judges d.requirements d.check := by
  have layout := judges_checkLayout d
  have table : Judges (rowsRequirements d.opcode.length [] d.opcodes)
      (checkRows d.opcode.length [] d.opcodes) := judges_checkRows (by simp)
  unfold requirements check
  split
  · rename_i e failed
    rw [failed] at layout
    exact layout.append_of_error
  · rename_i passed
    refine Judges.append_of_met (layout.ok_iff.mp passed) ?_
    split
    · rename_i e failed
      rw [failed] at table
      exact table.append_of_error
    · rename_i tablePassed
      exact Judges.append_of_met (table.ok_iff.mp tablePassed) (judges_checkOperands d)

end Description

/-! ## Tables filled in one pass -/

/-- What patterns mean, and how mnemonics are written. -/
structure OpcodeTables where
  meaning : Word → Option Mnemonic
  canonical : Mnemonic → Option Word

namespace OpcodeTables

def empty : OpcodeTables :=
  ⟨fun _ => none, fun _ => none⟩

/-- Enter a row.  It replaces the meaning of its pattern; its mnemonic keeps the pattern
it has, if it has one. -/
def enter (tables : OpcodeTables) (row : Opcode) : OpcodeTables where
  meaning pattern := if pattern = row.pattern then some row.mnemonic else tables.meaning pattern
  canonical m := if m = row.mnemonic then some ((tables.canonical m).getD row.pattern)
    else tables.canonical m

/-- The tables of these rows, entered from the first to the last. -/
def ofRows (rows : List Opcode) : OpcodeTables :=
  rows.foldl enter empty

variable {tables : OpcodeTables} {rows : List Opcode}

/-- A pattern means what it meant before, unless one of the rows has it. -/
theorem meaning_foldl_enter_of_not_mem {pattern : Word}
    (absent : ∀ row ∈ rows, row.pattern ≠ pattern) :
    (rows.foldl enter tables).meaning pattern = tables.meaning pattern := by
  induction rows generalizing tables with
  | nil => rfl
  | cons row others ih =>
      rw [List.forall_mem_cons] at absent
      rw [List.foldl_cons, ih absent.2]
      exact if_neg absent.1.symm

/-- A pattern that is in one row only means the mnemonic of this row. -/
theorem meaning_foldl_enter_of_mem {row : Opcode} (member : row ∈ rows)
    (distinct : (rows.map Opcode.pattern).Nodup) :
    (rows.foldl enter tables).meaning row.pattern = some row.mnemonic := by
  induction rows generalizing tables with
  | nil => cases member
  | cons first others ih =>
      rw [List.map_cons, List.nodup_cons] at distinct
      rw [List.foldl_cons]
      rcases List.mem_cons.mp member with rfl | further
      · rw [meaning_foldl_enter_of_not_mem]
        · exact if_pos rfl
        · intro other isOther same
          exact distinct.1 (same ▸ List.mem_map_of_mem isOther)
      · exact ih further distinct.2

/-- A mnemonic has the pattern it had before or that of its first row. -/
theorem canonical_foldl_enter (m : Mnemonic) :
    (rows.foldl enter tables).canonical m =
      (tables.canonical m).or ((rows.find? fun row => row.mnemonic == m).map Opcode.pattern) := by
  induction rows generalizing tables with
  | nil => simp
  | cons row others ih =>
      rw [List.foldl_cons, ih, List.find?_cons]
      by_cases same : m = row.mnemonic
      · subst same
        cases found : tables.canonical row.mnemonic <;> simp [enter, found]
      · have different : (row.mnemonic == m) = false := by simpa using Ne.symm same
        simp [enter, same, different]

end OpcodeTables

namespace Model

/-- The model looks these rows up in both directions. -/
structure LooksUp (model : Model) (rows : List Opcode) : Prop where
  mnemonicOf?_iff : ∀ pattern m, model.mnemonicOf? pattern = some m ↔ ⟨pattern, m⟩ ∈ rows
  patternOf?_iff : ∀ m pattern, model.patternOf? m = some pattern ↔
    ∃ before after, rows = before ++ ⟨pattern, m⟩ :: after ∧ ∀ row ∈ before, row.mnemonic ≠ m
  patternOf?_none_iff : ∀ m, model.patternOf? m = none ↔ ∀ row ∈ rows, row.mnemonic ≠ m
  mnemonicOf?_patternOf? : ∀ m pattern, model.patternOf? m = some pattern →
    model.mnemonicOf? pattern = some m
  knows_iff : ∀ m, model.knows m = true ↔ m = .num ∨ ∃ row ∈ rows, row.mnemonic = m
  /-- One pass over the rows fills tables that give the same answers. -/
  meaning_eq : ∀ pattern, (OpcodeTables.ofRows rows).meaning pattern = model.mnemonicOf? pattern
  canonical_eq : ∀ m, (OpcodeTables.ofRows rows).canonical m = model.patternOf? m

variable {model : Model}

theorem meaning_ofRows (model : Model) (pattern : Word) :
    (OpcodeTables.ofRows model.opcodes).meaning pattern = model.mnemonicOf? pattern := by
  cases found : model.mnemonicOf? pattern with
  | some m =>
      have row := mnemonicOf?_eq_some_iff.mp found
      exact OpcodeTables.meaning_foldl_enter_of_mem row model.valid.patterns_distinct
  | none =>
      apply OpcodeTables.meaning_foldl_enter_of_not_mem
      rintro ⟨_, m⟩ member rfl
      exact mnemonicOf?_eq_none_iff.mp found m member

theorem looksUp_opcodes (model : Model) : model.LooksUp model.opcodes where
  mnemonicOf?_iff := fun _ _ => mnemonicOf?_eq_some_iff
  patternOf?_iff := fun _ _ => patternOf?_eq_some_iff
  patternOf?_none_iff := by
    intro m
    simp [patternOf?]
  mnemonicOf?_patternOf? := fun _ _ canonical =>
    mnemonicOf?_eq_some_iff.mpr (row_of_patternOf? canonical)
  knows_iff := by
    intro m
    simp [knows]
  meaning_eq := model.meaning_ofRows
  canonical_eq := by
    intro m
    rw [OpcodeTables.ofRows, OpcodeTables.canonical_foldl_enter]
    rfl

/-- A model is made exactly from the descriptions that make sense.  Of any other one the
first requirement that is not met is named.  The model looks up the rows it was made
from. -/
theorem ofDescription_is_exact (d : Description) :
    ((∃ model, ofDescription d = .ok model) ↔ d.Valid) ∧
      (∀ e, ofDescription d = .error e ↔ Description.FirstUnmet d.requirements e) ∧
      ∀ model, ofDescription d = .ok model → model.LooksUp d.opcodes := by
  refine ⟨⟨?_, ?_⟩, ?_, ?_⟩
  · rintro ⟨model, made⟩
    exact (ofDescription_eq_ok_iff.mp made).1
  · intro valid
    exact ⟨⟨d.normal, valid.normal, d.normal_normal⟩, ofDescription_eq_ok_iff.mpr ⟨valid, rfl⟩⟩
  · intro e
    rw [← (Description.judges_check d).error_iff, ofDescription_eq_error_iff]
  · intro model made
    have same := (ofDescription_eq_ok_iff.mp made).2
    have sameRows : model.opcodes = d.opcodes := (congrArg Description.opcodes same).trans rfl
    rw [← sameRows]
    exact model.looksUp_opcodes

/-- The machine of 1948 with a pattern declared twice, a row for `NUM` behind that and no
mnemonic that takes an operand. -/
def threeFaults : Description :=
  { smallScaleDescription with
    opcodes := smallScaleDescription.opcodes.take 4 ++
      [⟨⟨[true, false, false]⟩, .sub⟩, ⟨⟨[false, true, true]⟩, .num⟩]
    withOperand := [] }

/-- Of three faults the pattern that is declared twice comes first.  On the machine of
1948 itself both patterns of `SUB` mean it, and the first one is written for it. -/
theorem ofDescription_is_exact_threeFaults :
    Description.FirstUnmet threeFaults.requirements (.duplicatePattern ⟨[true, false, false]⟩) ∧
      smallScaleDescription.Valid ∧
      smallScale.mnemonicOf? ⟨[false, false, true]⟩ = some .sub ∧
      smallScale.mnemonicOf? ⟨[true, false, true]⟩ = some .sub ∧
      smallScale.patternOf? .sub = some ⟨[false, false, true]⟩ := by
  have made := ofDescription_toDescription smallScale
  have law := ofDescription_is_exact smallScaleDescription
  have looksUp := law.2.2 smallScale made
  refine ⟨((ofDescription_is_exact threeFaults).2.1 _).mp rfl, law.1.mp ⟨_, made⟩, ?_, ?_, ?_⟩
  · exact (looksUp.mnemonicOf?_iff _ _).mpr (by decide)
  · exact (looksUp.mnemonicOf?_iff _ _).mpr (by decide)
  · exact (looksUp.patternOf?_iff _ _).mpr
      ⟨smallScaleDescription.opcodes.take 4, smallScaleDescription.opcodes.drop 5, rfl, by decide⟩

end Model
end SmallScale
