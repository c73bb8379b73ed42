import SmallScale.Program.Listing
import SmallScale.Proofs.Program.AssemblyText
import SmallScale.Proofs.Program.Loading

namespace SmallScale
namespace Program
namespace Listing

/-!
# Which listings are loaded again

A listing shows every word as a mnemonic with a number: as the instruction that
the word encodes exactly, or as `NUM` with the signed number that fills the word.
The number is left out where the mnemonic takes none.  All these lines are written
assembly lines, and two things about their numbers decide whether a listing is
loaded.

A negative number does not show the format of assembly text, so a listing of
negative numbers alone has no format.  And a number that the model takes for an
address must be one of the store's, while the address field of a word may hold
more than the store has words.
-/

/-- The mnemonic and the number under which a word is listed. -/
def listed (model : Model) (w : Word) : Mnemonic × Int :=
  match model.exactInstruction? w with
  | some i => (i.mnemonic, i.operand)
  | none => (.num, w.signed)

/-- The number that is listed for a word is no address outside the store. -/
def Placed (model : Model) (w : Word) : Prop :=
  model.operandIsAddress (listed model w).1 = true →
    0 ≤ (listed model w).2 ∧ (listed model w).2 < model.wordCount

variable {model : Model} {address : Nat} {w : Word} {store : Store}

/-! ## What is listed -/

theorem written_line (model : Model) (address : Nat) (w : Word) :
    Assembly.Written model address (listed model w).1 (listed model w).2
      (line model address w).toList := by
  have space : " ".toList = [' '] := by decide
  unfold line Model.wordText listed
  cases exact : model.exactInstruction? w with
  | none =>
      have shown : "NUM ".toList = Mnemonic.num.name.toList ++ [' '] := by decide
      simp only [String.toList_append, space, shown, List.append_assoc, List.cons_append,
        List.nil_append]
      exact .withNumber
  | some i =>
      cases takes : model.takesOperand i.mnemonic with
      | false =>
          simp only [Model.instructionText, takes, String.toList_append, space, List.append_assoc,
            List.cons_append, List.nil_append, Bool.false_eq_true, if_false]
          exact .bare takes (Int.natCast_nonneg i.operand)
      | true =>
          have number : (Decimal.text i.operand).toList =
              (Decimal.signedText i.operand).toList := by
            rw [Decimal.toList_signedText, if_neg (Int.not_lt.mpr (Int.natCast_nonneg _)),
              Decimal.text, String.toList_ofList, Int.natAbs_natCast]
          simp only [Model.instructionText, takes, String.toList_append, space, number,
            List.append_assoc, List.cons_append, List.nil_append, if_true]
          exact .withNumber

theorem knows_listed (model : Model) (w : Word) : model.knows (listed model w).1 = true := by
  unfold listed
  cases exact : model.exactInstruction? w with
  | none => rfl
  | some i => exact (Model.known_of_exactInstruction? exact).2.1

/-- The number fits where the mnemonic puts it, since it was read from there. -/
theorem ranges_listed (wide : w.length = model.wordLength) :
    ((listed model w).1 = .num → -2 ^ (model.wordLength - 1) ≤ (listed model w).2 ∧
        (listed model w).2 < 2 ^ (model.wordLength - 1)) ∧
      ((listed model w).1 ≠ .num → 0 ≤ (listed model w).2 ∧
        (listed model w).2 < 2 ^ model.address.length) := by
  unfold listed
  cases exact : model.exactInstruction? w with
  | none =>
      have bounds := Word.signed_bounds (wide ▸ model.valid.wordLength_pos)
        (wide ▸ model.wordLength_le)
      rw [wide] at bounds
      exact ⟨fun _ => bounds, fun executable => (executable rfl).elim⟩
  | some i =>
      rcases Model.known_of_exactInstruction? exact with ⟨executable, _, fits⟩
      have power : ((2 ^ model.address.length : Nat) : Int) = 2 ^ model.address.length :=
        Int.natCast_pow 2 model.address.length
      refine ⟨fun isNumber => (executable isNumber).elim, fun _ => ⟨Int.natCast_nonneg _, ?_⟩⟩
      dsimp only
      omega

/-- Every listed number is a signed 64-bit number. -/
theorem bounded_listed (wide : w.length = model.wordLength) :
    -2 ^ 63 ≤ (listed model w).2 ∧ (listed model w).2 < 2 ^ 63 := by
  rcases ranges_listed wide with ⟨number, field⟩
  by_cases isNumber : (listed model w).1 = .num
  · have short : model.wordLength - 1 ≤ 63 := by
      have := model.wordLength_le
      omega
    have bound : (2 : Int) ^ (model.wordLength - 1) ≤ 2 ^ 63 :=
      mod_cast Nat.pow_le_pow_right (by decide : 0 < 2) short
    have := number isNumber
    omega
  · have bound : (2 : Int) ^ model.address.length ≤ 2 ^ 63 :=
      mod_cast Nat.pow_le_pow_right (by decide : 0 < 2)
        (Nat.le_of_lt_succ model.address_length_lt)
    have := field isNumber
    omega

/-! ## One line -/

/-- A listed line is valid at its address unless its number is an address outside
the store. -/
theorem valid_line_iff (wide : w.length = model.wordLength) (inside : address < model.wordCount)
    (addressable : model.wordCount ≤ 2 ^ 64) :
    Assembly.Valid model model.wordCount address (line model address w).toList ↔
      Placed model w := by
  rcases bounded_listed wide with ⟨lower, upper⟩
  have written := written_line model address w
  have said := written.tells lower upper
  constructor
  · rintro ⟨_, ⟨m, value, saidToo, _, fits⟩, _⟩ isAddress
    rcases said.unique saidToo with ⟨rfl, rfl⟩
    have takes : model.takesOperand (listed model w).1 = true :=
      List.contains_iff_mem.mpr
        (model.valid.operands_listed _ (List.contains_iff_mem.mp isAddress))
    have placed := (fits takes).address isAddress
    rwa [if_pos takes] at placed
  · intro placed
    refine ⟨written.spellsUnsigned_address (Nat.lt_of_lt_of_le inside addressable),
      ⟨_, _, said, knows_listed model w, ?_⟩, inside⟩
    intro takes
    rw [if_pos takes]
    exact ⟨placed, (ranges_listed wide).1, (ranges_listed wide).2⟩

/-- Where every address that fits the address field is one of the store's, no
instruction is listed with another one. -/
theorem placed_of_addressable (reaches : 2 ^ model.address.length ≤ model.wordCount)
    (noNumber : model.operandIsAddress .num = false) (wide : w.length = model.wordLength) :
    Placed model w := by
  intro isAddress
  have executable : (listed model w).1 ≠ .num := by
    intro isNumber
    rw [isNumber, noNumber] at isAddress
    cases isAddress
  have field := (ranges_listed wide).2 executable
  have reaches' : (2 : Int) ^ model.address.length ≤ model.wordCount := mod_cast reaches
  omega

/-! ## All lines -/

/-- The comments at the start of a listing. -/
def remarks : List (List Char) :=
  ["; SSEM Disassembly".toList, "; ----------------".toList, []]

theorem toList_write (model : Model) (store : Store) :
    (write model store).toList = Text.unlines (remarks ++
      store.words.zipIdx.map fun (w, address) => (line model address w).toList) := by
  have start : "; SSEM Disassembly\n; ----------------\n\n".toList =
      "; SSEM Disassembly".toList ++ '\n' :: ("; ----------------".toList ++ ['\n', '\n']) := by
    decide
  have ending : "\n".toList = ['\n'] := by decide
  unfold write
  simp only [remarks, Text.unlines, String.toList_append, String.toList_join, start, ending,
    List.flatMap_cons, List.flatMap_map, List.append_assoc, List.cons_append, List.nil_append]

theorem remark_of_mem {text : List Char} (member : text ∈ remarks) : Remark text := by
  simp only [remarks, List.mem_cons, List.not_mem_nil, or_false] at member
  rcases member with rfl | rfl | rfl
  · exact remark_of_semicolon (by decide : '\n' ∉ " SSEM Disassembly".toList)
  · exact remark_of_semicolon (by decide : '\n' ∉ " ----------------".toList)
  · exact remark_nil

theorem meaningfulLines_write (model : Model) (store : Store) :
    meaningfulLines (write model store).toList =
      store.words.zipIdx.map fun (w, address) => ⟨address + 4, (line model address w).toList⟩ := by
  have arePlain : ∀ text ∈ store.words.zipIdx.map
      (fun (w, address) => (line model address w).toList), Plain text := by
    intro text member
    rcases List.mem_map.mp member with ⟨⟨w, address⟩, _, rfl⟩
    exact (written_line model address w).plain
  rw [toList_write, meaningfulLines_unlines (fun _ => remark_of_mem) arePlain,
    numbered_map_zipIdx]
  rfl

theorem mem_meaningfulLines_write_iff {written : Line} :
    written ∈ meaningfulLines (write model store).toList ↔
      ∃ w address, store.words[address]? = some w ∧
        written = ⟨address + 4, (line model address w).toList⟩ := by
  simp only [meaningfulLines_write, List.mem_map, Prod.exists, List.mk_mem_zipIdx_iff_getElem?,
    eq_comm]

/-- The format of a listing shows in its numbers that are not negative. -/
theorem detect_write (model : Model) (store : Store) :
    detect (write model store).toList =
      if ∃ w ∈ store.words, 0 ≤ (listed model w).2 then .assembly else .unknown := by
  have colonless : ∀ written ∈ meaningfulLines (write model store).toList, ':' ∉ written.text := by
    intro written isLine
    rcases mem_meaningfulLines_write_iff.mp isLine with ⟨w, address, _, rfl⟩
    exact (written_line model address w).colon_not_mem
  split
  · rename_i someShows
    rcases someShows with ⟨w, member, nonnegative⟩
    rcases List.mem_iff_getElem?.mp member with ⟨address, stored⟩
    apply detect_eq_assembly_of_colonless colonless
    refine ⟨_, mem_meaningfulLines_write_iff.mpr ⟨w, address, stored, rfl⟩, ?_⟩
    exact (written_line model address w).assemblyPattern_iff.mpr nonnegative
  · rename_i noneShows
    rw [detect_eq_unknown_iff]
    intro written isLine
    refine ⟨?_, fun isDump => colonless written isLine (colon_mem_of_dumpPattern isDump)⟩
    rcases mem_meaningfulLines_write_iff.mp isLine with ⟨w, address, stored, rfl⟩
    rw [(written_line model address w).assemblyPattern_iff]
    intro nonnegative
    exact noneShows ⟨w, List.mem_of_getElem? stored, nonnegative⟩

/-- All lines of a listing are valid when no number is an address outside the
store. -/
theorem accepts_write_iff (addressable : model.wordCount ≤ 2 ^ 64)
    (shaped : store.Shaped model.wordLength model.wordCount) :
    (Assembly.grammar model model.wordCount).Accepts (meaningfulLines (write model store).toList) ↔
      ∀ w ∈ store.words, Placed model w := by
  have written_iff {address : Nat} {w : Word} (stored : store.words[address]? = some w) :
      Assembly.Valid model model.wordCount address (line model address w).toList ↔
        Placed model w := by
    have inside : address < store.wordCount := (List.getElem?_eq_some_iff.mp stored).1
    rw [shaped.wordCount_eq] at inside
    exact valid_line_iff (shaped.length_of_mem w (List.mem_of_getElem? stored)) inside addressable
  have stands {address : Nat} : (meaningfulLines (write model store).toList)[address]? =
      store.words[address]?.map fun w => ⟨address + 4, (line model address w).toList⟩ := by
    rw [meaningfulLines_write, List.getElem?_map, List.getElem?_zipIdx, Option.map_map,
      Nat.zero_add]
    rfl
  constructor
  · intro accepted w member
    rcases List.mem_iff_getElem?.mp member with ⟨address, stored⟩
    exact (written_iff stored).mp
      (accepted address ⟨address + 4, (line model address w).toList⟩ (by rw [stands, stored]; rfl))
  · intro placed address written isLine
    rw [stands, Option.map_eq_some_iff] at isLine
    rcases isLine with ⟨w, stored, rfl⟩
    exact (written_iff stored).mpr (placed w (List.mem_of_getElem? stored))

end Listing

/-- A listing is loaded into a store of the shape of the listed one, whatever that
holds, exactly if one of its numbers is not negative and none is an address
outside the store.  If all are negative no line shows a format. -/
theorem listing_loads_iff (model : Model) (store target : Store)
    (addressable : model.wordCount ≤ 2 ^ 64)
    (shaped : store.Shaped model.wordLength model.wordCount)
    (sameWidth : target.wordLength = model.wordLength)
    (sameCount : target.wordCount = model.wordCount) :
    ((∃ image, load model (Listing.write model store) target = .ok image) ↔
        (∃ w ∈ store.words, 0 ≤ (Listing.listed model w).2) ∧
          ∀ w ∈ store.words, Listing.Placed model w) ∧
      (load model (Listing.write model store) target = .error .unknownFormat ↔
        ∀ w ∈ store.words, (Listing.listed model w).2 < 0) := by
  have format := Listing.detect_write model store
  by_cases shows : ∃ w ∈ store.words, 0 ≤ (Listing.listed model w).2
  · rw [if_pos shows] at format
    have decides := assembly_decides sameWidth format
    rw [sameCount] at decides
    constructor
    · rw [decides.succeeds_iff, Listing.accepts_write_iff addressable shaped]
      exact ⟨fun placed => ⟨shows, placed⟩, fun both => both.2⟩
    · rw [load_eq_unknownFormat_iff sameWidth, format]
      rcases shows with ⟨w, member, nonnegative⟩
      have notAll : ¬ ∀ w ∈ store.words, (Listing.listed model w).2 < 0 := by
        intro allNegative
        exact Int.not_lt.mpr nonnegative (allNegative w member)
      exact iff_of_false (by decide) notAll
  · -- Without a format no reader looks at the lines, valid as they may be.
    rw [if_neg shows] at format
    have failed := (load_eq_unknownFormat_iff sameWidth).mpr format
    rw [failed]
    refine ⟨⟨?_, fun both => (shows both.1).elim⟩, iff_of_true rfl ?_⟩
    · rintro ⟨image, impossible⟩
      cases impossible
    · intro w member
      by_contra nonnegative
      exact shows ⟨w, member, Int.not_lt.mp nonnegative⟩

/-- The instruction `LDN 20` in front of thirty-one words minus one. -/
def loadThenMinusOnes : Store :=
  ⟨32, Model.smallScale.instructionWord 20 ⟨[false, true, false]⟩ ::
    List.replicate 31 (Word.ofInt (-1) 32)⟩

/-- One instruction is enough for a listing of minus ones to be loaded. -/
theorem listing_loads_iff_loadThenMinusOnes :
    Model.smallScale.wordCount ≤ 2 ^ 64 ∧ loadThenMinusOnes.Shaped 32 32 ∧
      ∃ image, load .smallScale (Listing.write .smallScale loadThenMinusOnes)
        (Store.empty 32 32) = .ok image := by
  have addressable : Model.smallScale.wordCount ≤ 2 ^ 64 := by decide
  have shaped : loadThenMinusOnes.Shaped Model.smallScale.wordLength Model.smallScale.wordCount :=
    ⟨rfl, by decide, by decide⟩
  have loads := listing_loads_iff .smallScale loadThenMinusOnes (Store.empty 32 32) addressable
    shaped rfl (by decide)
  refine ⟨addressable, shaped, loads.1.mpr ⟨⟨_, List.mem_cons_self, by decide +kernel⟩, ?_⟩⟩
  intro w member
  exact Listing.placed_of_addressable (by decide) (by decide) (shaped.length_of_mem w member)

/-- The thirty-two words minus one. -/
def minusOnes : Store :=
  ⟨32, List.replicate 32 (Word.ofInt (-1) 32)⟩

/-- A store of minus ones is listed, but its listing is not loaded again. -/
theorem listing_not_loaded_minusOnes :
    minusOnes.Shaped Model.smallScale.wordLength Model.smallScale.wordCount ∧
      load .smallScale (Listing.write .smallScale minusOnes) minusOnes = .error .unknownFormat := by
  have unseen : ¬ ∃ w ∈ minusOnes.words, 0 ≤ (Listing.listed .smallScale w).2 := by
    decide +kernel
  refine ⟨⟨rfl, by decide, by decide⟩, ?_⟩
  rw [load_eq_unknownFormat_iff rfl, Listing.detect_write, if_neg unseen]

end Program
end SmallScale
