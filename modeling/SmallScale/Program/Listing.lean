import SmallScale.Instruction
import SmallScale.Store

namespace SmallScale
namespace Program
namespace Listing

/-!
# Listings

A listing shows every word of a store as a line of assembly text, under two
comment lines.  Nothing in a store tells instructions from numbers; a word is
shown as an instruction when it encodes one exactly.
-/

/-- The line of one word. -/
def line (model : Model) (address : Nat) (w : Word) : String :=
  Decimal.padded 2 address ++ " " ++ model.wordText w

/-- The listing of a store. -/
def write (model : Model) (store : Store) : String :=
  "; SSEM Disassembly\n; ----------------\n\n" ++
    String.join (store.words.zipIdx.map fun (w, address) => line model address w ++ "\n")

end Listing
end Program
end SmallScale
