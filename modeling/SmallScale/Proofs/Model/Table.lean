import Mathlib.Data.List.Nodup
import SmallScale.Model

namespace SmallScale
namespace Model

/-!
# The opcode table of a model

No pattern stands in two rows of a valid table.  A pattern therefore means the
mnemonic of its row, whichever row is found first, and the canonical pattern of
a mnemonic means that mnemonic again.
-/

theorem eq_of_pattern_eq {model : Model} {first second : Opcode}
    (firstRow : first ∈ model.opcodes) (secondRow : second ∈ model.opcodes)
    (same : first.pattern = second.pattern) : first = second :=
  List.inj_on_of_nodup_map model.valid.patterns_distinct firstRow secondRow same

/-- A pattern means a mnemonic exactly when the table says so. -/
theorem mnemonicOf?_eq_some_iff {model : Model} {pattern : Word} {m : Mnemonic} :
    model.mnemonicOf? pattern = some m ↔ ⟨pattern, m⟩ ∈ model.opcodes := by
  rw [mnemonicOf?, Option.map_eq_some_iff]
  constructor
  · rintro ⟨row, found, rfl⟩
    have same : row.pattern = pattern := by simpa using List.find?_some found
    subst same
    exact List.mem_of_find?_eq_some found
  · intro declared
    cases found : model.opcodes.find? fun row => row.pattern == pattern with
    | none =>
        have absent := List.find?_eq_none.mp found _ declared
        exact (absent (beq_self_eq_true pattern)).elim
    | some row =>
        have same : row.pattern = pattern := by simpa using List.find?_some found
        have isRow := eq_of_pattern_eq (List.mem_of_find?_eq_some found) declared same
        exact ⟨row, rfl, by rw [isRow]⟩

/-- A pattern means nothing exactly when it stands in no row. -/
theorem mnemonicOf?_eq_none_iff {model : Model} {pattern : Word} :
    model.mnemonicOf? pattern = none ↔ ∀ m, ⟨pattern, m⟩ ∉ model.opcodes := by
  rw [Option.eq_none_iff_forall_ne_some]
  exact forall_congr' fun m => not_congr mnemonicOf?_eq_some_iff

theorem ne_num_of_row {model : Model} {pattern : Word} {m : Mnemonic}
    (declared : ⟨pattern, m⟩ ∈ model.opcodes) : m ≠ .num :=
  model.valid.rows_executable _ declared

theorem length_of_row {model : Model} {pattern : Word} {m : Mnemonic}
    (declared : ⟨pattern, m⟩ ∈ model.opcodes) : pattern.length = model.opcode.length :=
  model.valid.patterns_wide _ declared

theorem row_of_patternOf? {model : Model} {pattern : Word} {m : Mnemonic}
    (canonical : model.patternOf? m = some pattern) : ⟨pattern, m⟩ ∈ model.opcodes := by
  rw [patternOf?, Option.map_eq_some_iff] at canonical
  rcases canonical with ⟨row, found, rfl⟩
  have same : row.mnemonic = m := by simpa using List.find?_some found
  subst same
  exact List.mem_of_find?_eq_some found

theorem length_of_patternOf? {model : Model} {pattern : Word} {m : Mnemonic}
    (canonical : model.patternOf? m = some pattern) : pattern.length = model.opcode.length :=
  length_of_row (row_of_patternOf? canonical)

theorem knows_of_row {model : Model} {pattern : Word} {m : Mnemonic}
    (declared : ⟨pattern, m⟩ ∈ model.opcodes) : model.knows m = true := by
  rw [knows, Bool.or_eq_true, List.any_eq_true]
  exact Or.inr ⟨_, declared, beq_self_eq_true m⟩

/-- Every known mnemonic but `NUM` has a canonical pattern. -/
theorem exists_patternOf?_of_knows {model : Model} {m : Mnemonic} (known : model.knows m = true)
    (executable : m ≠ .num) : ∃ pattern, model.patternOf? m = some pattern := by
  cases canonical : model.patternOf? m with
  | some pattern => exact ⟨pattern, rfl⟩
  | none =>
      rw [patternOf?, Option.map_eq_none_iff, List.find?_eq_none] at canonical
      rw [knows, Bool.or_eq_true, List.any_eq_true] at known
      rcases known with isNum | ⟨row, member, named⟩
      · exact (executable (beq_iff_eq.mp isNum)).elim
      · exact (canonical row member named).elim

end Model
end SmallScale
