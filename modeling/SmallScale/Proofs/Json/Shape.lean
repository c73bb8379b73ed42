import Mathlib.Data.List.Nodup
import SmallScale.Json.Shape
import SmallScale.Proofs.Json.Reader

namespace SmallScale
namespace Json

/-!
# Shapes of written values

What is written with the parts of a record, with the items of a list or with a number of
the host is found again by the readers of these shapes.
-/

theorem natBelow?_ofNat {bound n : Nat} (small : n < bound) :
    natBelow? bound (ofNat n) = some n := by
  have inside : 0 ≤ (n : Int) ∧ (n : Int) < bound := by omega
  exact if_pos inside

theorem text?_ofString (text : String) : (ofString text).text? = some text := rfl

/-- A part that is there is read, whatever it would stand for otherwise. -/
theorem orDefault?_some {α : Type} (value? : Json → Option α) (fallback : α) (value : Json) :
    orDefault? value? fallback (some value) = value? value := rfl

/-- Reading every one of some things that were written. -/
theorem mapM_map_eq_some {α β γ : Type} {written : α → β} {read? : β → Option γ} {meant : α → γ}
    {things : List α} (each : ∀ thing ∈ things, read? (written thing) = some (meant thing)) :
    (things.map written).mapM read? = some (things.map meant) := by
  induction things with
  | nil => rfl
  | cons thing others ih =>
      rw [List.forall_mem_cons] at each
      rw [List.map_cons, List.mapM_cons, each.1, ih each.2]
      rfl

theorem items?_map {α : Type} {toJson : α → Json} {item? : Json → Option α} {items : List α}
    (each : ∀ item ∈ items, item? (toJson item) = some item) :
    (array (items.map toJson)).items? item? = some items := by
  have all : (items.map toJson).mapM item? = some (items.map id) := mapM_map_eq_some each
  rwa [List.map_id] at all

theorem plain_map {α : Type} {levels : Nat} {toJson : α → Json}
    (plain : ∀ item, (toJson item).Plain levels) (items : List α) :
    (array (items.map toJson)).Plain (levels + 1) := by
  apply Plain.array
  intro form isForm
  rcases List.mem_map.mp isForm with ⟨item, _, rfl⟩
  exact plain item

section

variable {members : List (String × Json)}

theorem filter_of_not_mem {name : String} (absent : name ∉ members.map Prod.fst) :
    (members.map fun (key, value) => (some key, value)).filter (fun (key, _) => key == some name) =
      [] := by
  rw [List.filter_eq_nil_iff]
  intro member isMember
  rcases List.mem_map.mp isMember with ⟨⟨key, value⟩, given, rfl⟩
  intro same
  have isName : key = name := by simpa using same
  exact absent (isName ▸ List.mem_map_of_mem given)

/-- Only one member has the name where no name is repeated. -/
theorem filter_of_mem (distinct : (members.map Prod.fst).Nodup) {name : String} {value : Json}
    (isMember : (name, value) ∈ members) :
    (members.map fun (key, value) => (some key, value)).filter (fun (key, _) => key == some name) =
      [(some name, value)] := by
  induction members with
  | nil => cases isMember
  | cons first others ih =>
      rw [List.map_cons, List.nodup_cons] at distinct
      rw [List.map_cons]
      rcases List.mem_cons.mp isMember with rfl | later
      · rw [List.filter_cons_of_pos (by simp), filter_of_not_mem distinct.1]
      · have other : first.1 ≠ name := by
          intro same
          exact distinct.1 (same ▸ List.mem_map_of_mem later)
        rw [List.filter_cons_of_neg (by simpa using other), ih distinct.2 later]

/-- The parts of a record are found under their names, in the order they are written in. -/
theorem parts?_ofMembers (distinct : (members.map Prod.fst).Nodup) :
    (ofMembers members).parts? (members.map Prod.fst) =
      some (members.map fun member => some member.2) := by
  have allNamed : (members.map fun (key, value) => (some key, value)).all
      (fun (key, _) => key.isSome) = true := by
    simp
  unfold ofMembers parts?
  dsimp only
  rw [if_pos allNamed]
  apply mapM_map_eq_some
  intro member isMember
  unfold member?
  rw [filter_of_mem distinct isMember]

end

end Json
end SmallScale
