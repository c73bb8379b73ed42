import SmallScale.Model

namespace SmallScale

/-!
# Descriptions that pass

The check accepts exactly the descriptions that make sense.  A model is the normal form
of such a description, so it is its own description, and descriptions that list the same
mnemonics in another order or more than once give the same model.
-/

namespace Description

variable {d : Description}

theorem checkField_of_fits {role : FieldRole} {field : BitField} (positive : 1 ≤ field.length)
    (inside : field.stop ≤ d.wordLength) : d.checkField role field = .ok () :=
  if_neg (by omega)

theorem checkLayout_of_valid (valid : d.Valid) : d.checkLayout = .ok () := by
  have sized : ¬ (d.wordLength < 1 ∨ 64 < d.wordLength) := by
    have positive := valid.wordLength_pos
    have small := valid.wordLength_le
    omega
  have apart : ¬ (d.address.start < d.opcode.stop ∧ d.opcode.start < d.address.stop) := by
    have disjoint := valid.fields_disjoint
    omega
  unfold checkLayout
  rw [if_neg sized, if_neg (Nat.ne_of_gt valid.wordCount_pos),
    checkField_of_fits valid.address_pos valid.address_inside,
    checkField_of_fits valid.opcode_pos valid.opcode_inside]
  exact if_neg apart

theorem checkRows_of_distinct {width : Nat} {seen : List Word} {rows : List Opcode}
    (executable : ∀ row ∈ rows, row.mnemonic ≠ .num)
    (wide : ∀ row ∈ rows, row.pattern.length = width)
    (fresh : ∀ row ∈ rows, row.pattern ∉ seen) (distinct : (rows.map Opcode.pattern).Nodup) :
    checkRows width seen rows = .ok () := by
  induction rows generalizing seen with
  | nil => rfl
  | cons row rest ih =>
      rw [List.forall_mem_cons] at executable wide fresh
      rw [List.map_cons, List.nodup_cons] at distinct
      rw [checkRows, if_neg executable.1, if_neg (Decidable.not_not.mpr wide.1), if_neg fresh.1]
      apply ih executable.2 wide.2 _ distinct.2
      intro later isLater seenBefore
      rcases List.mem_cons.mp seenBefore with same | seenBefore
      · exact distinct.1 (same ▸ List.mem_map_of_mem isLater)
      · exact fresh.2 later isLater seenBefore

theorem checkOperands_of_listed (listed : ∀ m ∈ d.addressOperand, m ∈ d.withOperand) :
    d.checkOperands = .ok () := by
  have found : d.addressOperand.find? (fun m => !d.withOperand.contains m) = none := by
    rw [List.find?_eq_none]
    intro m isAddress
    simp [listed m isAddress]
  rw [checkOperands, found]

theorem check_eq_ok_iff : d.check = .ok () ↔ d.Valid := by
  constructor
  · exact valid_of_check
  · intro valid
    have rows : checkRows d.opcode.length [] d.opcodes = .ok () :=
      checkRows_of_distinct valid.rows_executable valid.patterns_wide
        (fun _ _ seen => nomatch seen) valid.patterns_distinct
    rw [check, checkLayout_of_valid valid]
    dsimp only
    rw [rows]
    exact checkOperands_of_listed valid.operands_listed

/-- Two descriptions that differ at most in the order and the repeats of the mnemonics that
they list. -/
structure SameUpToListing (first second : Description) : Prop where
  withOperand : ∀ m, m ∈ first.withOperand ↔ m ∈ second.withOperand
  addressOperand : ∀ m, m ∈ first.addressOperand ↔ m ∈ second.addressOperand
  rest : second = { first with
    withOperand := second.withOperand, addressOperand := second.addressOperand }

theorem ordered_congr {first second : List Mnemonic} (same : ∀ m, m ∈ first ↔ m ∈ second) :
    ordered first = ordered second := by
  apply List.filter_congr
  intro m _
  rw [Bool.eq_iff_iff, List.contains_iff_mem, List.contains_iff_mem]
  exact same m

theorem SameUpToListing.normal_eq {first second : Description}
    (same : SameUpToListing first second) : first.normal = second.normal := by
  rw [normal, normal, ordered_congr same.withOperand, ordered_congr same.addressOperand, same.rest]

end Description

namespace Model

/-- A model is made from exactly the valid descriptions that it is the normal form of. -/
theorem ofDescription_eq_ok_iff {d : Description} {model : Model} :
    ofDescription d = .ok model ↔ d.Valid ∧ model.toDescription = d.normal := by
  unfold ofDescription
  split
  · rename_i e failed
    constructor
    · intro impossible
      cases impossible
    · rintro ⟨valid, _⟩
      rw [Description.check_eq_ok_iff.mpr valid] at failed
      cases failed
  · rename_i passed
    constructor
    · intro made
      cases made
      exact ⟨Description.valid_of_check passed, rfl⟩
    · rintro ⟨_, same⟩
      rcases model with ⟨description, _, _⟩
      cases same
      rfl

/-- What is wrong with a description is what its check says. -/
theorem ofDescription_eq_error_iff {d : Description} {e : ModelError} :
    ofDescription d = .error e ↔ d.check = .error e := by
  unfold ofDescription
  split
  · rename_i found failed
    rw [failed, Except.error.injEq, Except.error.injEq]
  · rename_i passed
    have noError : d.check ≠ .error e := by
      rw [passed]
      nofun
    exact ⟨nofun, fun failed => (noError failed).elim⟩

/-- A model is made again from its own description. -/
theorem ofDescription_toDescription (model : Model) :
    ofDescription model.toDescription = .ok model :=
  ofDescription_eq_ok_iff.mpr ⟨model.valid, model.inNormalForm.symm⟩

end Model
end SmallScale
