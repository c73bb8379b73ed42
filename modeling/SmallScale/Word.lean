namespace SmallScale

/-!
# Words

A word is a run of bits whose length is fixed when it is made.  Bit 0 is the
least significant bit and also the leftmost one in every written form.  A word
changes in two ways only: one bit is set, or a patch is engraved over a run of
bits.  Both leave the length alone, and both refuse positions outside the word
without touching it.
-/

/-- A run of bits, bit 0 first. -/
structure Word where
  bits : List Bool
deriving DecidableEq, Inhabited

/-- What can be wrong with an access to the bits of a word, or with the text
of one. -/
inductive BitError where
  /-- The run of bits from `start` up to but without `stop` is not inside a
  word of `width` bits. -/
  | outOfRange (start stop : Int) (width : Nat)
  /-- The text of a word holds a character other than the two digits. -/
  | invalidCharacter (c : Char)
deriving DecidableEq

namespace Word

def length (w : Word) : Nat :=
  w.bits.length

/-- The word of `n` clear bits. -/
def zero (n : Nat) : Word :=
  ⟨List.replicate n false⟩

def isZero (w : Word) : Bool :=
  w.bits.all fun bit => !bit

def ones (w : Word) : Nat :=
  w.bits.count true

/-- One bit, if there is one at that position. -/
def bit? (w : Word) (index : Nat) : Option Bool :=
  w.bits[index]?

/-- A position as it appears in an error: a 64-bit two's-complement number. -/
def reportedPosition (index : Nat) : Int :=
  Int.bmod index UInt64.size

/-- The word with one bit replaced. -/
def setBit (w : Word) (index : Nat) (bit : Bool) : Except BitError Word :=
  if index < w.length then .ok ⟨w.bits.set index bit⟩
  else .error (.outOfRange (reportedPosition index) (reportedPosition index + 1) w.length)

/-- The bits from `start` on, `count` of them, wherever they end.  Bits past
the end of the word are missing from the result. -/
def extract (w : Word) (start count : Nat) : Word :=
  ⟨(w.bits.drop start).take count⟩

/-- The run of `count` bits from `start` on as a word of its own.  The end of a
refused run is reported as the largest 64-bit position if it lies beyond. -/
def slice (w : Word) (start count : Nat) : Except BitError Word :=
  if start + count ≤ w.length then .ok (w.extract start count)
  else
    .error (.outOfRange (reportedPosition start)
      (reportedPosition (min (start + count) (UInt64.size - 1))) w.length)

/-- Replace the bits from `start` on by those of the patch. -/
def splice (bits : List Bool) (start : Nat) (patch : List Bool) : List Bool :=
  bits.take start ++ patch ++ bits.drop (start + patch.length)

/-- A patch inside the word keeps its length. -/
theorem length_splice {bits patch : List Bool} {start : Nat}
    (inside : start + patch.length ≤ bits.length) :
    (splice bits start patch).length = bits.length := by
  simp only [splice, List.length_append, List.length_take, List.length_drop]
  omega

/-- The word with the bits from `start` on replaced by those of the patch. -/
def overwrite (w : Word) (start : Nat) (patch : Word) : Word :=
  ⟨splice w.bits start patch.bits⟩

/-- The positions at which a patch may be engraved: it starts inside the word,
counted from either end, does not reach past the end counted from the front,
and is no longer than the word. -/
def Admits (w : Word) (start : Int) (patch : Word) : Prop :=
  -w.length ≤ start ∧ start + patch.length ≤ w.length ∧ patch.length ≤ w.length

instance (w : Word) (start : Int) (patch : Word) : Decidable (w.Admits start patch) :=
  inferInstanceAs (Decidable (_ ∧ _ ∧ _))

/-- The bits of a word under a patch.  A position from 0 on starts at that bit.
A negative one counts back from the end of the word: the part of the patch that
passes the end carries on from bit 0, so no bit is written twice. -/
def engraved (bits : List Bool) (start : Int) (patch : List Bool) : List Bool :=
  if 0 ≤ start then splice bits start.toNat patch
  else
    splice (splice bits (bits.length - start.natAbs) (patch.take start.natAbs)) 0
      (patch.drop start.natAbs)

/-- Write a patch over the word. -/
def engrave (w : Word) (start : Int) (patch : Word) : Except BitError Word :=
  if w.Admits start patch then .ok ⟨engraved w.bits start patch.bits⟩
  else .error (.outOfRange start (start + patch.length) w.length)

/-- An admitted patch leaves the length alone. -/
theorem length_engraved {w patch : Word} {start : Int} (admitted : w.Admits start patch) :
    (engraved w.bits start patch.bits).length = w.length := by
  obtain ⟨fromFront, toEnd, short⟩ := admitted
  simp only [length] at fromFront toEnd short
  unfold engraved length
  split
  · exact length_splice (by omega)
  · have firstInside : w.bits.length - start.natAbs +
        (patch.bits.take start.natAbs).length ≤ w.bits.length := by
      simp only [List.length_take]
      omega
    have othersInside : 0 + (patch.bits.drop start.natAbs).length ≤
        (splice w.bits (w.bits.length - start.natAbs)
          (patch.bits.take start.natAbs)).length := by
      rw [length_splice firstInside]
      simp only [List.length_drop]
      omega
    rw [length_splice othersInside, length_splice firstInside]

theorem length_of_engrave {w patch result : Word} {start : Int}
    (done : w.engrave start patch = .ok result) : result.length = w.length := by
  unfold engrave at done
  split at done
  · rename_i admitted
    cases done
    exact length_engraved admitted
  · cases done

@[simp] theorem length_zero (n : Nat) : (zero n).length = n := by
  simp [zero, length]

end Word

def BitError.message : BitError → String
  | .outOfRange start stop width =>
      s!"bit range {start}..{stop} is outside a {width}-bit word"
  | .invalidCharacter c => s!"invalid bit character: '{c}' (expected 0 or 1)"

end SmallScale
