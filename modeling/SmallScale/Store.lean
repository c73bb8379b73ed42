import SmallScale.Word.Text

namespace SmallScale

/-!
# The store

A store is a fixed number of words, addressed from zero.  Its word length is
the width that new words must have.  A word of another width is refused, and so
is an address past the last word; a refused write changes nothing.  The words
themselves are kept as given: a store read from structured text may hold words
of any width.
-/

/-- Words in address order. -/
structure Store where
  wordLength : Nat
  words : List Word
deriving DecidableEq, Inhabited

/-- Why an access to the store is refused. -/
inductive StoreError where
  | addressOutOfRange (address wordCount : Nat)
  | widthMismatch (expected found : Nat)
deriving DecidableEq

def StoreError.message : StoreError → String
  | .addressOutOfRange address wordCount =>
      let highest := wordCount - 1
      s!"store address {address} out of range (0-{highest})"
  | .widthMismatch expected found =>
      s!"word is {found} bits wide, store words are {expected} bits"

namespace Store

/-- The store of `wordCount` clear words. -/
def empty (wordLength wordCount : Nat) : Store :=
  ⟨wordLength, List.replicate wordCount (Word.zero wordLength)⟩

def wordCount (store : Store) : Nat :=
  store.words.length

def get (store : Store) (address : Nat) : Except StoreError Word :=
  match store.words[address]? with
  | some w => .ok w
  | none => .error (.addressOutOfRange address store.wordCount)

/-- Replace the word at an address.  The width is looked at first. -/
def set (store : Store) (address : Nat) (w : Word) : Except StoreError Store :=
  if w.length ≠ store.wordLength then .error (.widthMismatch store.wordLength w.length)
  else if address < store.wordCount then
    .ok { store with words := store.words.set address w }
  else .error (.addressOutOfRange address store.wordCount)

/-- The store with every word clear. -/
def cleared (store : Store) : Store :=
  empty store.wordLength store.wordCount

/-- The words one below the other in the glyphs of a style. -/
def picture (store : Store) (style : GlyphStyle) : String :=
  "\n".intercalate (store.words.map fun w => w.render style)

/-- The addresses whose word is not the one that another store has there. -/
def changedSince (store before : Store) : List (Nat × Word) :=
  store.words.zipIdx.filterMap fun (w, address) =>
    if before.words[address]? = some w then none else some (address, w)

/-- The addresses of the words that are not clear. -/
def nonzero (store : Store) : List (Nat × Word) :=
  store.words.zipIdx.filterMap fun (w, address) => if w.isZero then none else some (address, w)

/-- A summary for people looking for faults. -/
def inspect (store : Store) : String :=
  "MemoryStore \x7b word_length: " ++ Decimal.text store.wordLength ++
    ", word_count: " ++ Decimal.text store.wordCount ++
    ", non_zero_words: " ++ Decimal.text store.nonzero.length ++ " \x7d"

end Store
end SmallScale
