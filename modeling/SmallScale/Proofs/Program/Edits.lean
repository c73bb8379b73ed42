import Mathlib.Logic.Relation
import SmallScale.Proofs.Program.Meaning

namespace SmallScale
namespace Program

/-!
# Edits that change no meaning

The text of a program can be laid out and commented in many ways.  A line can be
moved in or followed by blanks, a comment can stand behind it or on a line of its
own, and lines can be ended in two ways, the last one or not at all.  The edits
below are stated on the text.  Each of them keeps the meanings of the program, and
so does any number of them, done or undone; loading then notices nothing but the
line numbers.

A carriage return is a blank.  One in front of a line break is trimmed with the
other blanks at the end of its line, or belongs to the comment there.
-/

/-- A change inside one line. -/
inductive Retouched (line : List Char) : List Char → Prop
  | indented {blanks : List Char} (areBlank : ∀ c ∈ blanks, Text.isBlank c = true) :
      Retouched line (blanks ++ line)
  | trailed {blanks : List Char} (areBlank : ∀ c ∈ blanks, Text.isBlank c = true) :
      Retouched line (line ++ blanks)
  | remarked (note : List Char) : Retouched line (line ++ ';' :: note)

/-- A line of blanks, or a comment behind blanks. -/
inductive Idle : List Char → Prop
  | blank {blanks : List Char} (areBlank : ∀ c ∈ blanks, Text.isBlank c = true) : Idle blanks
  | comment {blanks : List Char} (areBlank : ∀ c ∈ blanks, Text.isBlank c = true)
      (note : List Char) : Idle (blanks ++ ';' :: note)

/-- The text with a carriage return in front of every line break. -/
def withCarriageReturns (source : List Char) : List Char :=
  source.flatMap fun c => if c = '\n' then ['\r', '\n'] else [c]

/-- One text is made from another by one edit of its layout. -/
inductive Edit : List Char → List Char → Prop
  | retouch (before after : List (List Char)) {line changed : List Char}
      (how : Retouched line changed) (unbroken : '\n' ∉ changed) :
      Edit (Text.joined (before ++ line :: after)) (Text.joined (before ++ changed :: after))
  | insert (before after : List (List Char)) {line : List Char}
      (idle : Idle line) (unbroken : '\n' ∉ line) :
      Edit (Text.joined (before ++ after)) (Text.joined (before ++ line :: after))
  | returnCarriages (source : List Char) : Edit source (withCarriageReturns source)
  | endLastLine (source : List Char) : Edit source (source ++ ['\n'])

variable {line changed blanks source edited : List Char}

/-! ## Edits of a line -/

theorem semicolon_not_mem_of_blank (areBlank : ∀ c ∈ blanks, Text.isBlank c = true) :
    ∀ c ∈ blanks, (c != ';') = true := by
  intro c member
  rw [bne_iff_ne]
  rintro rfl
  exact absurd (areBlank _ member) (by decide)

theorem meaning_blanks_append (areBlank : ∀ c ∈ blanks, Text.isBlank c = true)
    (line : List Char) : meaning (blanks ++ line) = meaning line := by
  rw [meaning, List.takeWhile_append_of_pos (semicolon_not_mem_of_blank areBlank),
    Text.trim_blanks_append areBlank, meaning]

theorem meaning_append_comment (line note : List Char) :
    meaning (line ++ ';' :: note) = meaning line := by
  rw [meaning, meaning, List.takeWhile_append, List.takeWhile_cons_of_neg (by decide),
    List.append_nil]
  split
  case isTrue uncommented => rw [(List.takeWhile_prefix _).eq_of_length uncommented]
  case isFalse => rfl

theorem meaning_append_blanks (areBlank : ∀ c ∈ blanks, Text.isBlank c = true)
    (line : List Char) : meaning (line ++ blanks) = meaning line := by
  rw [meaning, meaning, List.takeWhile_append,
    List.takeWhile_eq_self_iff.mpr (semicolon_not_mem_of_blank areBlank)]
  split
  case isTrue uncommented =>
    rw [Text.trim_append_blanks areBlank, (List.takeWhile_prefix _).eq_of_length uncommented]
  case isFalse => rfl

theorem Retouched.meaning_eq (how : Retouched line changed) : meaning changed = meaning line := by
  cases how with
  | indented areBlank => exact meaning_blanks_append areBlank line
  | trailed areBlank => exact meaning_append_blanks areBlank line
  | remarked note => exact meaning_append_comment line note

theorem Retouched.subset (how : Retouched line changed) : line ⊆ changed := by
  cases how with
  | indented => exact List.subset_append_right _ _
  | trailed => exact List.subset_append_left _ _
  | remarked note => exact List.subset_append_left _ _

theorem Idle.meaning_eq (idle : Idle line) : meaning line = [] := by
  cases idle with
  | blank areBlank =>
      have empty := meaning_blanks_append areBlank []
      rwa [List.append_nil] at empty
  | comment areBlank note => exact meaning_blanks_append areBlank _

/-! ## Edits of a text -/

/-- As far as it is one line, a text can be exchanged for a line with its meaning. -/
theorem meanings_eq_of_meaning_eq {other : List Char} (unbroken : '\n' ∉ line)
    (otherUnbroken : '\n' ∉ other) (same : meaning line = meaning other) :
    meanings line = meanings other := by
  rw [meanings, meanings, Text.linesOf_of_unbroken unbroken,
    Text.linesOf_of_unbroken otherUnbroken, meaningsOf, meaningsOf, List.map_singleton,
    List.map_singleton, same]

theorem Retouched.meanings_eq (how : Retouched line changed) (unbroken : '\n' ∉ changed) :
    meanings line = meanings changed :=
  meanings_eq_of_meaning_eq (fun isBreak => unbroken (how.subset isBreak)) unbroken
    how.meaning_eq.symm

theorem Idle.meanings_eq (idle : Idle line) (unbroken : '\n' ∉ line) : meanings line = [] :=
  meanings_eq_of_meaning_eq unbroken List.not_mem_nil idle.meaning_eq

/-- The meanings of lines that are joined are those of the lines. -/
theorem meanings_joined (lines : List (List Char)) :
    meanings (Text.joined lines) = lines.flatMap meanings := by
  induction lines with
  | nil => rfl
  | cons line others ih =>
      cases others with
      | nil => simp [Text.joined]
      | cons next others =>
          rw [Text.joined_cons_cons, meanings_append_break, ih, ← List.flatMap_cons]

theorem withCarriageReturns_of_unbroken (unbroken : '\n' ∉ line) :
    withCarriageReturns line = line := by
  induction line with
  | nil => rfl
  | cons c rest ih =>
      rw [List.mem_cons, not_or] at unbroken
      rw [withCarriageReturns, List.flatMap_cons, if_neg (Ne.symm unbroken.1)]
      exact congrArg _ (ih unbroken.2)

theorem withCarriageReturns_append_break (unbroken : '\n' ∉ line) (rest : List Char) :
    withCarriageReturns (line ++ '\n' :: rest) =
      (line ++ ['\r']) ++ '\n' :: withCarriageReturns rest := by
  have same := withCarriageReturns_of_unbroken unbroken
  rw [withCarriageReturns] at same
  rw [withCarriageReturns, List.flatMap_append, same, List.flatMap_cons, if_pos rfl]
  simp [withCarriageReturns]

theorem meanings_withCarriageReturns (source : List Char) :
    meanings (withCarriageReturns source) = meanings source := by
  rcases Text.joined_linesOf source with ⟨whole, unbroken⟩
  rw [← whole]
  generalize Text.linesOf source = lines at unbroken
  -- Every line but the last one gets a blank at its end.
  induction lines with
  | nil => rfl
  | cons line others ih =>
      rw [List.forall_mem_cons] at unbroken
      cases others with
      | nil =>
          rw [Text.joined, List.intercalate_singleton, withCarriageReturns_of_unbroken unbroken.1]
      | cons next others =>
          have returned : Retouched line (line ++ ['\r']) :=
            .trailed (List.forall_mem_singleton.mpr (by decide))
          rw [Text.joined_cons_cons, withCarriageReturns_append_break unbroken.1,
            meanings_append_break, meanings_append_break, ih unbroken.2,
            ← returned.meanings_eq (by simp [unbroken.1])]

theorem Edit.meanings_eq (edit : Edit source edited) : meanings source = meanings edited := by
  cases edit with
  | retouch before after how unbroken =>
      rw [meanings_joined, meanings_joined, List.flatMap_append, List.flatMap_append,
        List.flatMap_cons, List.flatMap_cons, how.meanings_eq unbroken]
  | insert before after idle unbroken =>
      rw [meanings_joined, meanings_joined, List.flatMap_append, List.flatMap_append,
        List.flatMap_cons, idle.meanings_eq unbroken, List.nil_append]
  | returnCarriages => exact (meanings_withCarriageReturns source).symm
  | endLastLine =>
      rw [meanings_append_break]
      exact (List.append_nil _).symm

/-- Edits, done and undone in any number, keep the meanings of a program. -/
theorem meanings_eq_of_edits (edits : Relation.EqvGen Edit source edited) :
    meanings source = meanings edited := by
  induction edits with
  | rel _ _ edit => exact edit.meanings_eq
  | refl => rfl
  | symm _ _ _ ih => exact ih.symm
  | trans _ _ _ _ _ first second => exact first.trans second

/-- Loading depends on the meanings of a program, so not on its layout and comments. -/
structure DependsOnMeanings (model : Model) (target : Store) : Prop where
  same_meanings : ∀ first second : String, meanings first.toList = meanings second.toList →
    LoadsAlike model target first second
  edits : ∀ first second : String, Relation.EqvGen Edit first.toList second.toList →
    LoadsAlike model target first second
  /-- The number of a line tells its place among those that mean something. -/
  places_in_order : ∀ (source : String) (place other number otherNumber : Nat)
    (text otherText : List Char), StandsAt source.toList place number text →
    StandsAt source.toList other otherNumber otherText →
    (place < other ↔ number < otherNumber)

/-- For every model and every store, two programs with the same meanings are detected
alike, are loaded to the same image, or are rejected for the same faults of the same
lines; and editing the layout or the comments of a program keeps its meanings. -/
theorem loading_depends_on_meanings (model : Model) (target : Store) :
    DependsOnMeanings model target where
  same_meanings := fun _ _ same => loadsAlike_of_meanings model target same
  edits := fun _ _ edits => loadsAlike_of_meanings model target (meanings_eq_of_edits edits)
  places_in_order := fun _ _ _ _ _ _ _ stands otherStands => stands.place_lt_iff otherStands

/-- The faults of the second and the third line are found in the fourth and the fifth. -/
theorem loading_depends_on_meanings_newLayout :
    LoadsAlike .smallScale (Store.empty 32 32) "00 LDN 1\n1 FOO\n3 STP"
        "; header\r\n  00 LDN 1 ; x\r\n \r\n1 FOO\n\t3 STP;\n" ∧
      load .smallScale "00 LDN 1\n1 FOO\n3 STP" (Store.empty 32 32) =
        .error (.rejected
          [⟨2, "1 FOO", .unknownMnemonic "FOO"⟩, ⟨3, "3 STP", .unexpectedAddress 2 "3"⟩]) ∧
      load .smallScale "; header\r\n  00 LDN 1 ; x\r\n \r\n1 FOO\n\t3 STP;\n" (Store.empty 32 32) =
        .error (.rejected
          [⟨4, "1 FOO", .unknownMnemonic "FOO"⟩, ⟨5, "3 STP", .unexpectedAddress 2 "3"⟩]) := by
  refine ⟨?_, rfl, rfl⟩
  exact (loading_depends_on_meanings .smallScale (Store.empty 32 32)).same_meanings _ _ (by decide)

end Program
end SmallScale
