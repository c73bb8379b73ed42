import SmallScale.Model.Description

namespace SmallScale
namespace Description

/-!
# What the check of a description establishes

A description that passes the check is valid, and a valid description stays
valid when its operand lists are brought into normal form.
-/

theorem mem_ordered {listed : List Mnemonic} {m : Mnemonic} :
    m ∈ ordered listed ↔ m ∈ listed := by
  unfold ordered
  rw [List.mem_filter]
  constructor
  · intro both
    exact List.contains_iff_mem.mp both.2
  · intro member
    exact ⟨m.mem_all, List.contains_iff_mem.mpr member⟩

theorem ordered_ordered (listed : List Mnemonic) : ordered (ordered listed) = ordered listed := by
  apply List.filter_congr
  intro m _
  rw [Bool.eq_iff_iff, List.contains_iff_mem, List.contains_iff_mem]
  exact mem_ordered

theorem normal_normal (d : Description) : d.normal.normal = d.normal := by
  simp only [normal, ordered_ordered]

theorem Valid.normal {d : Description} (valid : d.Valid) : d.normal.Valid where
  wordLength_pos := valid.wordLength_pos
  wordLength_le := valid.wordLength_le
  wordCount_pos := valid.wordCount_pos
  address_pos := valid.address_pos
  address_inside := valid.address_inside
  opcode_pos := valid.opcode_pos
  opcode_inside := valid.opcode_inside
  fields_disjoint := valid.fields_disjoint
  rows_executable := valid.rows_executable
  patterns_wide := valid.patterns_wide
  patterns_distinct := valid.patterns_distinct
  operands_listed := fun m member =>
    mem_ordered.mpr (valid.operands_listed m (mem_ordered.mp member))

/-- What a passed check of the opcode table says about it. -/
theorem rows_of_checkRows {width : Nat} {seen : List Word} {rows : List Opcode}
    (passed : checkRows width seen rows = .ok ()) :
    (∀ row ∈ rows, row.mnemonic ≠ .num ∧ row.pattern.length = width ∧ row.pattern ∉ seen) ∧
      (rows.map Opcode.pattern).Nodup := by
  induction rows generalizing seen with
  | nil => exact ⟨fun _ member => (nomatch member), List.nodup_nil⟩
  | cons row rest ih =>
      unfold checkRows at passed
      split at passed
      · cases passed
      · rename_i executable
        split at passed
        · cases passed
        · rename_i wide
          split at passed
          · cases passed
          · rename_i fresh
            obtain ⟨others, distinct⟩ := ih passed
            constructor
            · intro candidate member
              rcases List.mem_cons.mp member with rfl | later
              · exact ⟨executable, Decidable.not_not.mp wide, fresh⟩
              · obtain ⟨one, two, three⟩ := others candidate later
                exact ⟨one, two, fun earlier => three (List.mem_cons_of_mem _ earlier)⟩
            · rw [List.map_cons, List.nodup_cons]
              refine ⟨fun repeated => ?_, distinct⟩
              obtain ⟨candidate, later, same⟩ := List.mem_map.mp repeated
              exact (others candidate later).2.2 (same ▸ List.mem_cons_self)

/-- A description that passes the check makes sense. -/
theorem valid_of_check {d : Description} (passed : d.check = .ok ()) : d.Valid := by
  unfold check at passed
  split at passed
  · cases passed
  · rename_i layout
    split at passed
    · cases passed
    · rename_i table
      obtain ⟨rows, distinct⟩ := rows_of_checkRows table
      unfold checkLayout at layout
      split at layout
      · cases layout
      · rename_i width
        split at layout
        · cases layout
        · rename_i count
          split at layout
          · cases layout
          · rename_i address
            split at layout
            · cases layout
            · rename_i opcode
              split at layout
              · cases layout
              · rename_i apart
                unfold checkField at address opcode
                split at address
                · cases address
                · rename_i addressRight
                  split at opcode
                  · cases opcode
                  · rename_i opcodeRight
                    refine ⟨?_, ?_, ?_, ?_, ?_, ?_, ?_, ?_, fun row member => (rows row member).1,
                      fun row member => (rows row member).2.1, distinct, ?_⟩
                    iterate 8 omega
                    intro m member
                    unfold checkOperands at passed
                    split at passed
                    · cases passed
                    · rename_i found
                      have listed := List.find?_eq_none.mp found m member
                      simpa using listed

end Description
end SmallScale
