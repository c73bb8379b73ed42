import SmallScale.Proofs.Panel.StoreView

namespace SmallScale

/-!
# Scrolling the view of the store

A session at the panel starts with the list at its first line.  As long as the size of the
screen stays the same, no press of a key brings the view further than to the end of the
list, and whatever the loop makes of the machine, and whichever of its states are made
known, the list keeps its length.  So every frame shows as much of the list as fits, and
every word can be reached.
-/

namespace PanelView

variable {toolkit : Toolkit} {view : PanelView} {width height : Nat}

end PanelView

namespace Panel

open ControlLoop PanelView

/-- The list is not scrolled past its end, and all that can be shown has so many words. -/
structure Scrolled (panel : Panel) (wordCount visibleRows : Nat) : Prop where
  scroll_le : panel.scroll ≤ wordCount + registerRows - visibleRows
  sized : Sized wordCount panel

variable {panel : Panel} {wordCount visibleRows : Nat} {event : PanelEvent}

/-- Only the key that scrolls down moves the view towards the end, and not past it. -/
theorem Scrolled.handle (scrolled : Scrolled panel wordCount visibleRows)
    (sameView : ∀ rows, event = .press (.down rows) → rows = visibleRows) :
    Scrolled (panel.handle event) wordCount visibleRows := by
  have low := scrolled.scroll_le
  refine ⟨?_, scrolled.sized.handle event⟩
  cases event with
  | press key =>
      cases key with
      | up => exact Nat.le_trans (Nat.sub_le _ _) low
      | down rows =>
          change scrolledDown panel.shown.store.wordCount rows panel.scroll ≤ _
          rw [sameView rows rfl, scrolled.sized.shown, scrolledDown]
          split_ifs <;> omega
      | _ => exact low
  | _ =>
      rw [(panel.style_scroll_handle rfl).2]
      exact low

end Panel
end SmallScale
