import SmallScale.Proofs.Program.Assembly
import SmallScale.Proofs.Program.Dump

namespace SmallScale
namespace Program

/-!
# Loading follows the grammars

An attempt to load a program ends in one of three ways.  No line shows a format;
or every line is valid in the format of the program, and the image of the
program takes the place of all contents of the store; or some lines are not, and
those are reported.  Only the second way gives a store, so a program that is not
loaded as a whole leaves no trace.
-/

variable {model : Model} {source : String} {target : Store}

theorem load_of_assembly (sameWidth : target.wordLength = model.wordLength)
    (isAssembly : detect source.toList = .assembly) :
    load model source target =
      readWith (Assembly.read model target.wordCount) source.toList target := by
  simp only [load, sameWidth, ne_eq, not_true_eq_false, if_false, isAssembly]

theorem load_of_dump (sameWidth : target.wordLength = model.wordLength)
    (isDump : detect source.toList = .dump) :
    load model source target = readWith (Dump.read model.wordLength) source.toList target := by
  simp only [load, sameWidth, ne_eq, not_true_eq_false, if_false, isDump]

theorem assembly_decides (sameWidth : target.wordLength = model.wordLength)
    (isAssembly : detect source.toList = .assembly) :
    (Assembly.grammar model target.wordCount).Decides (meaningfulLines source.toList) target
      (load model source target) := by
  rw [load_of_assembly sameWidth isAssembly]
  exact (Assembly.governs model target.wordCount).decides source.toList

theorem dump_decides (sameWidth : target.wordLength = model.wordLength)
    (isDump : detect source.toList = .dump) :
    (Dump.grammar model.wordLength target.wordCount).Decides (meaningfulLines source.toList) target
      (load model source target) := by
  rw [load_of_dump sameWidth isDump]
  exact (Dump.governs model.wordLength target.wordCount).decides source.toList

/-- Only a store for words of the machine's length can be loaded. -/
theorem wordLength_eq_of_load {image : Store} (loaded : load model source target = .ok image) :
    target.wordLength = model.wordLength := by
  by_contra otherWidth
  rw [load, if_pos otherWidth] at loaded
  cases loaded

/-- A loaded image has words of the machine's length only. -/
theorem shaped_of_load {image : Store} (loaded : load model source target = .ok image) :
    image.Shaped model.wordLength target.wordCount := by
  by_cases sameWidth : target.wordLength = model.wordLength
  · rw [← sameWidth]
    cases format : detect source.toList with
    | assembly =>
        apply ((assembly_decides sameWidth format).holds_of_ok image loaded).shaped
        intro line w means
        rw [sameWidth]
        exact Assembly.length_of_means means
    | dump =>
        apply ((dump_decides sameWidth format).holds_of_ok image loaded).shaped
        intro line w means
        rw [sameWidth]
        exact Dump.length_of_means means
    | unknown => simp [load, sameWidth, format] at loaded
  · simp [load, sameWidth] at loaded

theorem load_eq_unknownFormat_iff (sameWidth : target.wordLength = model.wordLength) :
    load model source target = .error .unknownFormat ↔ detect source.toList = .unknown := by
  have rejected (reader : LineReader) :
      readWith reader source.toList target ≠ .error .unknownFormat := by
    simp only [readWith]
    split <;> simp
  cases format : detect source.toList with
  | assembly => simp [load_of_assembly sameWidth format, rejected]
  | dump => simp [load_of_dump sameWidth format, rejected]
  | unknown => simp [load, sameWidth, format]

/-- A program of unknown format is one without a line that shows a format.  A
program of a known format is loaded exactly if all its meaningful lines are
valid in the format, as the image of these lines, and is otherwise rejected with
a report on exactly the lines that are not. -/
theorem load_follows_grammar (model : Model) (source : String) (target : Store)
    (sameWidth : target.wordLength = model.wordLength) :
    (load model source target = .error .unknownFormat ↔
        ∀ line ∈ meaningfulLines source.toList,
          ¬ AssemblyPattern line.text ∧ ¬ DumpPattern line.text) ∧
      (detect source.toList = .assembly →
        (Assembly.grammar model target.wordCount).Decides (meaningfulLines source.toList) target
          (load model source target)) ∧
      (detect source.toList = .dump →
        (Dump.grammar model.wordLength target.wordCount).Decides
          (meaningfulLines source.toList) target (load model source target)) := by
  refine ⟨?_, assembly_decides sameWidth, dump_decides sameWidth⟩
  rw [load_eq_unknownFormat_iff sameWidth, detect_eq_unknown_iff]

/-- One line of three is valid, and each of the other two is reported once. -/
theorem load_follows_grammar_twoFaults :
    (Store.empty 32 32).wordLength = Model.smallScale.wordLength ∧
      (Assembly.grammar .smallScale 32).Decides
        (meaningfulLines "00 LDN 1\n1 FOO ; no such name\n3 STP".toList) (Store.empty 32 32)
        (load .smallScale "00 LDN 1\n1 FOO ; no such name\n3 STP" (Store.empty 32 32)) ∧
      load .smallScale "00 LDN 1\n1 FOO ; no such name\n3 STP" (Store.empty 32 32) =
        .error (.rejected
          [⟨2, "1 FOO", .unknownMnemonic "FOO"⟩, ⟨3, "3 STP", .unexpectedAddress 2 "3"⟩]) := by
  refine ⟨rfl, ?_, rfl⟩
  exact (load_follows_grammar .smallScale _ (Store.empty 32 32) rfl).2.1 (by decide)

end Program
end SmallScale
