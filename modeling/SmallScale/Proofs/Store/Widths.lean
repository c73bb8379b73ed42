import SmallScale.Proofs.Exchange
import SmallScale.Proofs.Program.Reload

namespace SmallScale
namespace Store

/-!
# The widths of the words of a store

A store declares the width of its words, and whatever writes a word keeps to it: a single
word of another width is refused, and clearing and loading write words of the declared
width only.  Structured text does not.  It gives the declared width and the words side by
side, and any width goes with any words.

So a word that does not fit stays until something is written over it, and nothing makes a
word that does not fit.  If all words of a store fit then its dump is loaded as that store
again, and otherwise no text is.
-/

/-- The word at the address, if there is one, has the declared width. -/
def Fits (store : Store) (address : Nat) : Prop :=
  ∀ w, store.words[address]? = some w → w.length = store.wordLength

/-- Every word has the declared width. -/
def Uniform (store : Store) : Prop :=
  ∀ w ∈ store.words, w.length = store.wordLength

/-- Every word has the declared width, and so the dump is loaded as this store, into any
store of its size. -/
structure Regular (store : Store) : Prop where
  uniform : store.Uniform
  reloads : ∀ (model : Model) (target : Store), store.wordLength = model.wordLength →
    target.wordLength = store.wordLength → target.wordCount = store.wordCount →
      0 < store.wordCount → store.wordCount ≤ UInt64.size →
        Program.load model (Program.Dump.write store) target = .ok store

/-- How a store comes about: it is new, or read from a text, alone or as a part of what an
observer is shown. -/
inductive Origin : Store → Prop where
  | made (wordLength wordCount : Nat) : Origin (empty wordLength wordCount)
  | read {text : String} {store : Store}
      (formed : readExchanged (shapeOnly ofJson?) text = .ok store) : Origin store
  | readInside {text : String} {snapshot : Snapshot}
      (formed : readExchanged (shapeOnly Snapshot.ofJson?) text = .ok snapshot) :
      Origin snapshot.store

/-- What can be done with a store. -/
inductive Operation where
  | set (address : Nat) (w : Word)
  | clear
  | load (model : Model) (source : String)

/-- The store after an operation.  A refused one changes nothing. -/
def perform (store : Store) : Operation → Store
  | .set address w =>
      match store.set address w with
      | .ok after => after
      | .error _ => store
  | .clear => store.cleared
  | .load model source =>
      match Program.load model source store with
      | .ok image => image
      | .error _ => store

def performAll (store : Store) (operations : List Operation) : Store :=
  operations.foldl perform store

/-- The operation is not refused and writes the word at the address. -/
def Operation.Writes (store : Store) (operation : Operation) (address : Nat) : Prop :=
  match operation with
  | .set place w => place = address ∧ place < store.wordCount ∧ w.length = store.wordLength
  | .clear => True
  | .load model source => ∃ image, Program.load model source store = .ok image

/-- One of the operations writes the word at the address. -/
def Rewritten (store : Store) (address : Nat) : List Operation → Prop
  | [] => False
  | operation :: others =>
      operation.Writes store address ∨ (store.perform operation).Rewritten address others

/-- Each word fits from the start or is written later. -/
def Mended (store : Store) (operations : List Operation) : Prop :=
  ∀ address, store.Fits address ∨ store.Rewritten address operations

variable {store target : Store} {address : Nat}

theorem uniform_iff_fits : store.Uniform ↔ ∀ address, store.Fits address := by
  constructor
  · intro uniform address w stored
    exact uniform w (List.mem_of_getElem? stored)
  · intro fits w member
    rcases List.getElem?_of_mem member with ⟨address, stored⟩
    exact fits address w stored

theorem uniform_iff_shaped : store.Uniform ↔ store.Shaped store.wordLength store.wordCount :=
  ⟨fun uniform => ⟨rfl, rfl, uniform⟩, Shaped.length_of_mem⟩

theorem Shaped.uniform {wordLength wordCount : Nat} (shaped : store.Shaped wordLength wordCount) :
    store.Uniform := by
  intro w member
  rw [shaped.length_of_mem w member, shaped.wordLength_eq]

/-! ## Operations -/

/-- A word that is written fits, and no other word is touched. -/
theorem fits_perform_iff (store : Store) (operation : Operation) (address : Nat) :
    (store.perform operation).Fits address ↔
      store.Fits address ∨ operation.Writes store address := by
  cases operation with
  | set place w =>
      unfold perform Operation.Writes
      dsimp only
      cases replaced : store.set place w with
      | error e =>
          have refused : ¬ (place < store.wordCount ∧ w.length = store.wordLength) := by
            rintro ⟨inside, wide⟩
            cases replaced.symm.trans (set_eq_ok_iff.mpr ⟨wide, inside, rfl⟩)
          simp [refused]
      | ok after =>
          rcases set_eq_ok_iff.mp replaced with ⟨wide, inside, rfl⟩
          by_cases here : place = address
          · subst here
            have fits : Fits { store with words := store.words.set place w } place := by
              intro other stored
              rw [List.getElem?_set_self inside] at stored
              cases stored
              exact wide
            simp [fits, wide, inside]
          · simp [Fits, List.getElem?_set_ne here, here]
  | clear =>
      have cleared : store.cleared.Uniform := (shaped_empty _ _).uniform
      simp [perform, Operation.Writes, uniform_iff_fits.mp cleared address]
  | load model source =>
      unfold perform Operation.Writes
      dsimp only
      cases loaded : Program.load model source store with
      | error e => simp
      | ok image =>
          have uniform : image.Uniform := (Program.shaped_of_load loaded).uniform
          simp [uniform_iff_fits.mp uniform address]

theorem fits_performAll_iff (store : Store) (operations : List Operation) (address : Nat) :
    (store.performAll operations).Fits address ↔
      store.Fits address ∨ store.Rewritten address operations := by
  induction operations generalizing store with
  | nil => exact by rw [Rewritten, or_false]; rfl
  | cons operation others ih =>
      rw [performAll, List.foldl_cons, ← performAll, ih, fits_perform_iff, or_assoc]
      rfl

/-- All words fit after some operations exactly if each of them did or was written. -/
theorem uniform_performAll_iff (store : Store) (operations : List Operation) :
    (store.performAll operations).Uniform ↔ store.Mended operations := by
  rw [uniform_iff_fits]
  exact forall_congr' (store.fits_performAll_iff operations)

theorem Uniform.mended (uniform : store.Uniform) (operations : List Operation) :
    store.Mended operations :=
  fun address => Or.inl (uniform_iff_fits.mp uniform address)

/-! ## Dumps -/

/-- If all words fit then the dump is loaded as the store it is of. -/
theorem Uniform.regular (uniform : store.Uniform) : store.Regular where
  uniform := uniform
  reloads := by
    intro model target sameWidth targetWidth sameCount nonempty addressable
    have shaped : store.Shaped model.wordLength store.wordCount :=
      sameWidth ▸ uniform_iff_shaped.mp uniform
    have reads := Program.Dump.reads_write shaped addressable
    rw [Program.load_of_dump (targetWidth.trans sameWidth)
        (Program.Dump.detect_write shaped nonempty),
      reads.readWith_of_le (Nat.le_of_eq sameCount.symm), Program.imageOf, sameCount, targetWidth]
    simp [wordCount]

/-! ## Stores in texts -/

theorem lt_of_natBelow?_eq_some {bound n : Nat} {value : Json}
    (read : value.natBelow? bound = some n) : n < bound := by
  unfold Json.natBelow? at read
  split at read
  · split_ifs at read with inside
    cases read
    omega
  · cases read

/-- All that is asked of the width that a form declares is that the host can hold it. -/
theorem wordLength_lt_of_ofJson? {value : Json} (read : ofJson? value = some store) :
    store.wordLength < UInt64.size := by
  rw [ofJson?, Option.bind_eq_bind, Option.bind_eq_some_iff] at read
  rcases read with ⟨parts, _, read⟩
  split at read
  · simp only [Option.bind_eq_bind, Option.bind_eq_some_iff] at read
    rcases read with ⟨wordLength, isNumber, words, _, made⟩
    cases made
    exact lt_of_natBelow?_eq_some isNumber
  · cases read

theorem exists_store_of_snapshotOfJson? {value : Json} {snapshot : Snapshot}
    (read : Snapshot.ofJson? value = some snapshot) :
    ∃ part, ofJson? part = some snapshot.store := by
  rw [Snapshot.ofJson?, Option.bind_eq_bind, Option.bind_eq_some_iff] at read
  rcases read with ⟨parts, _, read⟩
  split at read
  · simp only [Option.bind_eq_bind, Option.bind_eq_some_iff] at read
    rcases read with ⟨registers, _, store, isStore, cycles, _, state, _, speed, _, last, _, made⟩
    cases made
    exact ⟨_, isStore⟩
  · cases read

/-- What is read from a text has the form of a value in it. -/
theorem exists_form_of_readExchanged {α : Type} {form? : Json → Option α} {text : String}
    {result : α} (read : readExchanged (shapeOnly form?) text = .ok result) :
    ∃ value, form? value = some result := by
  unfold readExchanged readExchangedBy shapeOnly at read
  split at read
  · cases read
  · rename_i value rest _
    cases formed : form? value with
    | none =>
        rw [formed] at read
        cases read
    | some found =>
        rw [formed] at read
        dsimp only at read
        split_ifs at read
        cases read
        exact ⟨value, formed⟩

/-- Any words go with a width that the host can hold. -/
theorem origin_iff :
    store.Origin ↔ store.wordLength < UInt64.size ∨
      store = empty store.wordLength store.wordCount := by
  constructor
  · intro origin
    cases origin with
    | made wordLength wordCount =>
        right
        rw [(shaped_empty wordLength wordCount).wordCount_eq]
        rfl
    | read formed =>
        rcases exists_form_of_readExchanged formed with ⟨value, isStore⟩
        exact Or.inl (wordLength_lt_of_ofJson? isStore)
    | readInside formed =>
        rcases exists_form_of_readExchanged formed with ⟨value, isSnapshot⟩
        rcases exists_store_of_snapshotOfJson? isSnapshot with ⟨part, isStore⟩
        exact Or.inl (wordLength_lt_of_ofJson? isStore)
  · rintro (host | new)
    · exact .read (readExchangedBy_shapeOnly JsonLibrary.faithful_builtIn (plain_toJson host)
        (ofJson?_toJson host))
    · rw [new]
      exact .made _ _

/-- A store that comes about in any of these ways, which any words do that go with a width
that the host can hold, is regular after operations on it exactly if each of its words fits
from the start or is written by one of them.  Otherwise no text is loaded as the store that
is left.  New stores are always regular. -/
theorem regular_performAll_iff (store : Store) (operations : List Operation) :
    (store.Origin ↔ store.wordLength < UInt64.size ∨
        store = empty store.wordLength store.wordCount) ∧
      ((store.performAll operations).Regular ↔ store.Mended operations) ∧
      (¬ store.Mended operations → ∀ model source target,
        Program.load model source target ≠ .ok (store.performAll operations)) ∧
      (store = empty store.wordLength store.wordCount →
        (store.performAll operations).Regular) := by
  have uniform_iff := store.uniform_performAll_iff operations
  refine ⟨origin_iff, ?_, ?_, ?_⟩
  · constructor
    · intro regular
      exact uniform_iff.mp regular.uniform
    · intro mended
      exact (uniform_iff.mpr mended).regular
  · intro unmended model source target loaded
    exact unmended (uniform_iff.mp (Program.shaped_of_load loaded).uniform)
  · intro new
    have uniform : store.Uniform := by
      rw [new]
      exact (shaped_empty _ _).uniform
    exact (uniform_iff.mpr (uniform.mended operations)).regular

/-- A text declares words of four bits and gives a word of one. -/
theorem not_regular_oneBit :
    ¬ ∀ store : Store, store.Origin → ∀ operations, (store.performAll operations).Regular := by
  intro regular
  have read : readExchanged (shapeOnly ofJson?) "\x7b\"word_length\":4,\"words\":[\"1\"]\x7d" =
      .ok ⟨4, [⟨[true]⟩]⟩ := by
    decide +kernel
  have uniform : Uniform ⟨4, [⟨[true]⟩]⟩ := (regular _ (.read read) []).uniform
  have wide := uniform ⟨[true]⟩ (List.mem_singleton_self _)
  cases wide

end Store
end SmallScale
