import SmallScale.Proofs.Machine.Shape
import SmallScale.Proofs.Program.Loading

namespace SmallScale
namespace Program

/-!
# Assembled programs are executed as written

The machine reads back from the image of an assembly program what its lines say.
A `NUM` line is found as a signed number, every other line as the instruction
that the machine decodes, so a cycle that succeeds at the address of such a line
records what is written there.  The operand of a line is an integer of the host
and that of an instruction a natural number; on the way from one to the other
nothing is cut off, because an operand that does not fit is a fault.
-/

/-- A number is carried as the signed value of the word, an instruction as what
the word decodes to. -/
def Carries (model : Model) (w : Word) (m : Mnemonic) (operand : Int) : Prop :=
  (m = .num → w.signed = operand) ∧
    (m ≠ .num → 0 ≤ operand ∧ model.decode w = .ok ⟨m, operand.toNat⟩)

theorem carries_of_encode {model : Model} {line : List Char} {m : Mnemonic} {operand : Int}
    {w : Word} (said : Assembly.Says model line m operand)
    (encoded : Assembly.encode model m operand = .ok w) : Carries model w m operand := by
  constructor
  · rintro rfl
    exact Model.signed_of_encodeNumber said.bounded.1 said.bounded.2 encoded
  · intro executable
    rcases (Assembly.encode_eq_ok_iff_of_ne executable).mp encoded with ⟨nonnegative, written⟩
    exact ⟨nonnegative, Model.decode_of_encode written⟩

/-- The image of an assembly program has the shape of the target, carries at the
address of every line what that line says, and is clear behind the lines.  A
machine that holds it and succeeds in a cycle at the address of an instruction
records the address, the mnemonic and the operand of its line. -/
theorem assembled_as_written (model : Model) (source : String) (target image : Store)
    (sameWidth : target.wordLength = model.wordLength)
    (isAssembly : detect source.toList = .assembly)
    (loaded : load model source target = .ok image) :
    (image.wordLength = target.wordLength ∧ image.wordCount = target.wordCount) ∧
      (∀ address line, (meaningfulLines source.toList)[address]? = some line →
        (∃ m operand, Assembly.Says model line.text m operand) ∧
          ∀ m operand, Assembly.Says model line.text m operand →
            (∃ w, image.get address = .ok w ∧ Carries model w m operand) ∧
              ∀ (machine after : Machine) (executed : Executed), m ≠ .num →
                machine.model = model → machine.store = image →
                (machine.registers.controlValue + 1) % model.wordCount = address →
                machine.step = (after, .ok executed) →
                after.last = some ⟨address, m, operand.toNat⟩ ∧
                  (operand.toNat : Int) = operand) ∧
      ∀ address, (meaningfulLines source.toList).length ≤ address → address < target.wordCount →
        image.get address = .ok (Word.zero target.wordLength) := by
  have holds := (assembly_decides sameWidth isAssembly).holds_of_ok image loaded
  refine ⟨⟨holds.wordLength_eq, holds.wordCount_eq⟩, ?_, holds.clear_behind⟩
  intro address line stands
  rcases holds.word_of_line address line stands with ⟨w, stored, m, operand, said, encoded⟩
  have carries := carries_of_encode said encoded
  refine ⟨⟨m, operand, said⟩, ?_⟩
  intro other otherOperand saidToo
  rcases said.unique saidToo with ⟨rfl, rfl⟩
  refine ⟨⟨w, stored, carries⟩, ?_⟩
  rintro machine after executed executable rfl rfl atAddress stepped
  rcases carries.2 executable with ⟨nonnegative, decoded⟩
  rw [← machine.fetchAddress_eq] at atAddress
  subst atAddress
  rcases Machine.recorded_of_step stored decoded stepped with ⟨rfl, recorded⟩
  exact ⟨recorded, Int.toNat_of_nonneg nonnegative⟩

/-- The machine of 1948 with this store and its control instruction at the end of
it. -/
def atEndOf (store : Store) : Machine :=
  { Machine.initial .smallScale with registers := ⟨Word.ofNat 31 32, Word.zero 32⟩, store }

/-- Two lines, the second one a negative number.  From the end of the store the
machine comes to the first line and executes it. -/
theorem assembled_as_written_twoLines :
    ∃ image, load .smallScale "00 LDN 20\n01 NUM -5" (Store.empty 32 32) = .ok image ∧
      image.wordCount = 32 ∧
      (∃ w, image.get 0 = .ok w ∧ Carries .smallScale w .ldn 20) ∧
      (∃ w, image.get 1 = .ok w ∧ Carries .smallScale w .num (-5)) ∧
      ∃ after, (atEndOf image).step = (after, .ok ⟨0, .ldn, 20⟩) ∧
        after.last = some ⟨0, .ldn, 20⟩ := by
  have assembled := assembled_as_written .smallScale "00 LDN 20\n01 NUM -5" (Store.empty 32 32) _
    rfl (by decide) rfl
  have first := (assembled.2.1 0 ⟨1, "00 LDN 20".toList⟩ (by decide)).2 .ldn 20
    (.withOperand rfl (by decide) (by decide) (Decimal.readSigned?_eq_some_iff.mp (by decide)))
  have second := (assembled.2.1 1 ⟨2, "01 NUM -5".toList⟩ (by decide)).2 .num (-5)
    (.withOperand rfl (by decide) (by decide) (Decimal.readSigned?_eq_some_iff.mp (by decide)))
  refine ⟨_, rfl, assembled.1.2, first.1, second.1, _, rfl, ?_⟩
  exact (first.2 (atEndOf _) _ ⟨0, .ldn, 20⟩ (by decide) rfl rfl rfl rfl).1

end Program
end SmallScale
