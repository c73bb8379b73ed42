import SmallScale.Panel.Frame
import SmallScale.Proofs.Panel.Screen
import SmallScale.Proofs.Panel.View
import SmallScale.Proofs.Text.Numeral

namespace SmallScale

/-!
# The view of the store

The view of the store is a window on a list: both registers, an empty row and the words.
Here it is said what the lines of this list read like, without a function that draws them.
The rows of the window read like the list from the offset on, and of them only the one of
the word that the control instruction points to is marked.
-/

/-- What a listing says of a word: the instruction that it encodes exactly, or its number. -/
inductive Model.Tells (model : Model) (w : Word) : List Char → Prop where
  | operand {m : Mnemonic} {operand : Nat} {numeral : List Char}
      (exact : model.exactInstruction? w = some ⟨m, operand⟩)
      (takesOperand : model.takesOperand m = true) (spelt : Decimal.Spells numeral operand) :
      Model.Tells model w (m.name.toList ++ ' ' :: numeral)
  | plain {m : Mnemonic} {operand : Nat}
      (exact : model.exactInstruction? w = some ⟨m, operand⟩)
      (takesNone : model.takesOperand m = false) : Model.Tells model w m.name.toList
  | number {numeral : List Char} (data : model.exactInstruction? w = none)
      (spelt : Decimal.SpellsInteger numeral w.signed) :
      Model.Tells model w ('N' :: 'U' :: 'M' :: ' ' :: numeral)

namespace PanelView

/-- The line of a register: behind a blank its bits, then its name and, at the right end of
eleven columns, its value. -/
inductive ListsRegister (style : GlyphStyle) (w : Word) (name : Char × Char) (value : Int) :
    List Char → Prop where
  | intro {numeral : List Char} (spelt : Decimal.SpellsInteger numeral value) :
      ListsRegister style w name value
        (' ' :: w.bits.map style.glyph ++ [' ', ' ', name.1, name.2, ' ', '=', ' '] ++
          List.replicate (11 - numeral.length) ' ' ++ numeral)

/-- The line of a word: behind the mark or a blank its bits, then its address in at least two
digits and what a listing says of it. -/
inductive ListsWord (view : PanelView) (address : Nat) (w : Word) : List Char → Prop where
  | intro {mark : Char} {numeral told : List Char}
      (marked : mark = if address = view.shown.registers.control.unsigned then '>' else ' ')
      (spelt : Decimal.Spells numeral address) (twoDigits : 2 ≤ numeral.length)
      (tells : view.model.Tells w told) :
      ListsWord view address w
        (mark :: w.bits.map view.style.glyph ++ [' ', ' '] ++ numeral ++ ' ' :: told)

/-- The list of the view: what the line at each place reads like. -/
inductive Lists (view : PanelView) : Nat → List Char → Prop where
  | control {text : List Char}
      (lists : ListsRegister view.style view.shown.registers.control ('C', 'I')
        view.shown.registers.control.unsigned text) : Lists view 0 text
  | accumulator {text : List Char}
      (lists : ListsRegister view.style view.shown.registers.accumulator ('A', ' ')
        view.shown.registers.accumulator.signed text) : Lists view 1 text
  | gap : Lists view 2 []
  | word {address : Nat} {w : Word} {text : List Char}
      (stored : view.shown.store.words[address]? = some w)
      (lists : ListsWord view address w text) : Lists view (address + Panel.registerRows) text

variable {view : PanelView} {width height : Nat}

theorem ListsRegister.head {style : GlyphStyle} {w : Word} {name : Char × Char} {value : Int}
    {text : List Char} (lists : ListsRegister style w name value text) : text[0]? = some ' ' := by
  cases lists
  rfl

open ScreenRow

theorem narrow_glyph (style : GlyphStyle) (bit : Bool) : Narrow (style.glyph bit) := by
  cases style <;> cases bit <;> decide

theorem narrow_name (m : Mnemonic) : ∀ c ∈ m.name.toList, Narrow c := by
  cases m <;> simp [Mnemonic.name, Narrow]

theorem narrow_of_spells {numeral : List Char} {value : Nat}
    (spelt : Decimal.Spells numeral value) : ∀ c ∈ numeral, Narrow c := by
  intro c member
  have allDigits := spelt.1
  rw [Decimal.isDigits, Bool.and_eq_true, List.all_eq_true] at allDigits
  have isDigit := allDigits.2 c member
  rw [Decimal.isDigit, Bool.and_eq_true, decide_eq_true_eq, decide_eq_true_eq] at isDigit
  exact .inl (by omega)

theorem narrow_of_spellsInteger {numeral : List Char} {value : Int}
    (spelt : Decimal.SpellsInteger numeral value) : ∀ c ∈ numeral, Narrow c := by
  cases spelt with
  | plain spelt => exact narrow_of_spells spelt
  | plus spelt => exact List.forall_mem_cons.mpr ⟨by decide, narrow_of_spells spelt⟩
  | minus spelt => exact List.forall_mem_cons.mpr ⟨by decide, narrow_of_spells spelt⟩

theorem narrow_of_tells {model : Model} {w : Word} {text : List Char}
    (tells : model.Tells w text) : ∀ c ∈ text, Narrow c := by
  cases tells with
  | operand exact takesOperand spelt =>
      rw [List.forall_mem_append, List.forall_mem_cons]
      exact ⟨narrow_name _, by decide, narrow_of_spells spelt⟩
  | plain => exact narrow_name _
  | number data spelt =>
      simp only [List.forall_mem_cons]
      exact ⟨by decide, by decide, by decide, by decide, narrow_of_spellsInteger spelt⟩

theorem narrow_bits (w : Word) (style : GlyphStyle) : ∀ c ∈ w.bits.map style.glyph, Narrow c := by
  intro c member
  rcases List.mem_map.mp member with ⟨bit, _, rfl⟩
  exact narrow_glyph style bit

theorem ListsRegister.narrow {style : GlyphStyle} {w : Word} {name : Char × Char} {value : Int}
    {text : List Char} (lists : ListsRegister style w name value text)
    (narrowName : Narrow name.1 ∧ Narrow name.2) : ∀ c ∈ text, Narrow c := by
  rcases lists with ⟨spelt⟩
  simp only [List.forall_mem_append, List.forall_mem_cons]
  refine ⟨⟨⟨⟨by decide, narrow_bits w style⟩, ?_⟩, ?_⟩, narrow_of_spellsInteger spelt⟩
  · exact ⟨by decide, by decide, narrowName.1, narrowName.2, by decide, by decide, by decide, nofun⟩
  · intro c member
    rw [List.eq_of_mem_replicate member]
    decide

/-- Every character of the list takes one cell. -/
theorem Lists.narrow {place : Nat} {text : List Char} (listed : view.Lists place text) :
    ∀ c ∈ text, Narrow c := by
  cases listed with
  | control lists => exact lists.narrow ⟨by decide, by decide⟩
  | accumulator lists => exact lists.narrow ⟨by decide, by decide⟩
  | gap => nofun
  | word stored lists =>
      rcases lists with ⟨rfl, spelt, _, tells⟩
      simp only [List.forall_mem_append, List.forall_mem_cons]
      refine ⟨⟨⟨⟨?_, narrow_bits _ _⟩, by decide, by decide, nofun⟩, narrow_of_spells spelt⟩,
        by decide, narrow_of_tells tells⟩
      split_ifs <;> decide

end PanelView
end SmallScale
