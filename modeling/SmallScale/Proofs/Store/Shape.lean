import SmallScale.Store

namespace SmallScale
namespace Store

/-!
# Stores of a given shape

A store has the shape of a machine when it is declared for words of that
machine's length, has as many words as the machine addresses, and each of them
is as wide as declared.  Replacing and clearing words keeps the shape.
-/

/-- `wordCount` words of `wordLength` bits, declared as such. -/
structure Shaped (store : Store) (wordLength wordCount : Nat) : Prop where
  wordLength_eq : store.wordLength = wordLength
  wordCount_eq : store.wordCount = wordCount
  length_of_mem : ∀ w ∈ store.words, w.length = wordLength

variable {store : Store} {wordLength wordCount address : Nat}

theorem get_eq_ok_iff {w : Word} : store.get address = .ok w ↔ store.words[address]? = some w := by
  unfold get
  cases store.words[address]? <;> simp

theorem get_of_le (outside : store.wordCount ≤ address) :
    store.get address = .error (.addressOutOfRange address store.wordCount) := by
  rw [get, List.getElem?_eq_none outside]

theorem exists_get_of_lt (inside : address < store.wordCount) : ∃ w, store.get address = .ok w :=
  ⟨store.words[address], get_eq_ok_iff.mpr (List.getElem?_eq_getElem inside)⟩

/-- What it takes to replace a word, and what that does. -/
theorem set_eq_ok_iff {w : Word} {after : Store} :
    store.set address w = .ok after ↔
      w.length = store.wordLength ∧ address < store.wordCount ∧
        after = { store with words := store.words.set address w } := by
  unfold set
  by_cases wide : w.length = store.wordLength
  · by_cases inside : address < store.wordCount
    · simp [wide, inside, eq_comm]
    · simp [wide, inside]
  · simp [wide]

theorem Shaped.length_of_get (shaped : store.Shaped wordLength wordCount) {w : Word}
    (stored : store.get address = .ok w) : w.length = wordLength :=
  shaped.length_of_mem w (List.mem_of_getElem? (get_eq_ok_iff.mp stored))

theorem shaped_empty (wordLength wordCount : Nat) :
    (empty wordLength wordCount).Shaped wordLength wordCount where
  wordLength_eq := rfl
  wordCount_eq := List.length_replicate
  length_of_mem := by
    intro w member
    rw [List.eq_of_mem_replicate member, Word.length_zero]

theorem Shaped.cleared (shaped : store.Shaped wordLength wordCount) :
    store.cleared.Shaped wordLength wordCount := by
  rw [Store.cleared, shaped.wordLength_eq, shaped.wordCount_eq]
  exact shaped_empty wordLength wordCount

theorem Shaped.set (shaped : store.Shaped wordLength wordCount) {w : Word} {after : Store}
    (replaced : store.set address w = .ok after) : after.Shaped wordLength wordCount := by
  rcases set_eq_ok_iff.mp replaced with ⟨wide, _, rfl⟩
  refine ⟨shaped.wordLength_eq, ?_, ?_⟩
  · rw [← shaped.wordCount_eq]
    exact List.length_set
  · intro other member
    rcases List.mem_or_eq_of_mem_set member with old | new
    · exact shaped.length_of_mem other old
    · rw [new, wide, shaped.wordLength_eq]

end Store
end SmallScale
