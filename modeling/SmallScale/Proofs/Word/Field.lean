import SmallScale.Word

namespace SmallScale
namespace Word

/-!
# Fields of words

A patch inside a word can be read back from where it was written, and leaves
every run of bits beside it as it was.  Both follow from one description of a
patched run of bits, position by position.
-/

/-- The bits of a run under a patch inside it, position by position. -/
theorem getElem?_splice {bits patch : List Bool} {start : Nat}
    (inside : start + patch.length ≤ bits.length) (position : Nat) :
    (splice bits start patch)[position]? =
      if start ≤ position ∧ position < start + patch.length then patch[position - start]?
      else bits[position]? := by
  have front : (bits.take start).length = start := by
    rw [List.length_take]
    exact Nat.min_eq_left (by omega)
  rw [splice, List.append_assoc]
  by_cases before : position < start
  · rw [List.getElem?_append_left (by omega), List.getElem?_take_of_lt before,
      if_neg (by omega)]
  · rw [List.getElem?_append_right (by omega), front]
    by_cases within : position < start + patch.length
    · rw [List.getElem?_append_left (by omega), if_pos (by omega)]
    · rw [List.getElem?_append_right (by omega), List.getElem?_drop, if_neg (by omega)]
      congr 1
      omega

theorem getElem?_extract (w : Word) (start count position : Nat) :
    (w.extract start count).bits[position]? =
      if position < count then w.bits[start + position]? else none := by
  rw [extract, List.getElem?_take, List.getElem?_drop]

theorem length_extract {w : Word} {start count : Nat} (inside : start + count ≤ w.length) :
    (w.extract start count).length = count := by
  simp only [length, extract, List.length_take, List.length_drop] at inside ⊢
  omega

theorem length_overwrite {w patch : Word} {start : Nat}
    (inside : start + patch.length ≤ w.length) : (w.overwrite start patch).length = w.length :=
  length_splice inside

/-- Words with the same bits at all positions are the same word. -/
theorem ext_bits {first second : Word}
    (same : ∀ position : Nat, first.bits[position]? = second.bits[position]?) : first = second := by
  cases first
  cases second
  exact congrArg Word.mk (List.ext_getElem? same)

theorem isZero_iff {w : Word} : w.isZero = true ↔ w = zero w.length := by
  have clear : w.isZero = true ↔ ∀ bit ∈ w.bits, bit = false := by
    simp only [isZero, List.all_eq_true, Bool.not_eq_true']
  cases w
  rw [clear, zero, Word.mk.injEq, List.eq_replicate_iff]
  exact (and_iff_right rfl).symm

theorem isZero_extract {w : Word} (clear : w.isZero = true) (start count : Nat) :
    (w.extract start count).isZero = true := by
  apply List.all_eq_true.2
  intro bit member
  exact List.all_eq_true.1 clear bit (List.mem_of_mem_drop (List.mem_of_mem_take member))

/-- A patch is read back from where it was written. -/
theorem extract_overwrite_self {w patch : Word} {start : Nat}
    (inside : start + patch.length ≤ w.length) :
    (w.overwrite start patch).extract start patch.length = patch := by
  apply ext_bits
  intro position
  rw [getElem?_extract, overwrite, getElem?_splice inside]
  by_cases within : position < patch.length
  · rw [if_pos within, if_pos ⟨Nat.le_add_right _ _, Nat.add_lt_add_left within start⟩,
      Nat.add_sub_cancel_left]
  · rw [if_neg within, List.getElem?_eq_none (Nat.le_of_not_lt within)]

/-- A run of bits beside a patch is not changed by it. -/
theorem extract_overwrite_of_apart {w patch : Word} {start origin count : Nat}
    (inside : start + patch.length ≤ w.length)
    (apart : origin + count ≤ start ∨ start + patch.length ≤ origin) :
    (w.overwrite start patch).extract origin count = w.extract origin count := by
  apply ext_bits
  intro position
  rw [getElem?_extract, getElem?_extract, overwrite, getElem?_splice inside]
  by_cases within : position < count
  · have beside : ¬ (start ≤ origin + position ∧ origin + position < start + patch.length) := by
      omega
    rw [if_pos within, if_pos within]
    exact if_neg beside
  · rw [if_neg within, if_neg within]

end Word
end SmallScale
