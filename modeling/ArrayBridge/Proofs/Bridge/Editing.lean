import Mathlib.Data.List.Infix
import ArrayBridge.Bridge.Edit

/-!
# What edits keep

An edit of a native list puts in what it was given, takes out what it says (`ListEdit.removed`), and
keeps the rest: no element gets lost on the way.
-/

namespace ArrayBridge

namespace ListEdit

variable {α : Type} {values : List α} {x : α}

/-- What is in the list afterwards was in it, or was brought. -/
theorem mem_of_mem_apply {e : ListEdit α} (mem : x ∈ e.apply values) :
    x ∈ values ∨ x ∈ e.operand? := by
  cases e with
  | push y =>
    rcases List.mem_append.mp mem with old | new
    · exact .inl old
    · exact .inr (Option.mem_some.mpr (List.mem_singleton.mp new).symm)
  | set index y =>
    exact (List.mem_or_eq_of_mem_set mem).imp_right fun new => Option.mem_some.mpr new.symm
  | insert index y =>
    rw [apply] at mem
    split at mem
    · rename_i inside
      exact ((List.mem_insertIdx inside).mp mem).symm.imp_right fun new =>
        Option.mem_some.mpr new.symm
    · exact .inl mem
  | remove index => exact .inl (List.mem_of_mem_eraseIdx mem)
  | pop => exact .inl (List.mem_of_mem_dropLast mem)
  | clear => cases mem
  | truncate length => exact .inl (List.mem_of_mem_take mem)
  | reverse => exact .inl (List.mem_reverse.mp mem)
  | double => exact .inl ((List.mem_append.mp mem).elim id id)

/-- What is taken out was in the list, or was brought. -/
theorem mem_of_mem_removed {e : ListEdit α} (mem : x ∈ e.removed values) :
    x ∈ values ∨ x ∈ e.operand? := by
  cases e with
  | set index y =>
    obtain rfl := List.mem_singleton.mp mem
    rw [List.getD_eq_getElem?_getD]
    cases here : values[index]? with
    | none => exact .inr rfl
    | some z => exact .inl (List.mem_of_getElem? here)
  | insert index y =>
    rw [removed] at mem
    split at mem
    · cases mem
    · exact .inr (Option.mem_some.mpr (List.mem_singleton.mp mem).symm)
  | remove index =>
    have mem : x ∈ values[index]?.toList := mem
    exact .inl (List.mem_of_getElem? (Option.mem_toList.mp mem))
  | pop =>
    have mem : x ∈ values.getLast?.toList := mem
    exact .inl (List.mem_of_mem_getLast? (Option.mem_toList.mp mem))
  | clear => exact .inl mem
  | truncate length => exact .inl (List.mem_of_mem_drop mem)
  | push | reverse | double => cases mem

/-- **No element is lost**: it is in the list afterwards, or was taken out. -/
theorem mem_apply_or_removed (e : ListEdit α) (mem : x ∈ values) :
    x ∈ e.apply values ∨ x ∈ e.removed values := by
  cases e with
  | push y => exact .inl (List.mem_append_left _ mem)
  | set index y =>
    obtain ⟨place, inside, rfl⟩ := List.mem_iff_getElem.mp mem
    by_cases here : place = index
    · subst here
      exact .inr (by simp [removed, inside])
    · refine .inl (List.mem_iff_getElem.mpr ⟨place, by simpa [apply] using inside, ?_⟩)
      exact List.getElem_set_ne (Ne.symm here) _
  | insert index y =>
    rw [apply]
    split
    · rename_i inside
      exact .inl ((List.mem_insertIdx inside).mpr (.inr mem))
    · exact .inl mem
  | remove index =>
    obtain ⟨place, inside, rfl⟩ := List.mem_iff_getElem.mp mem
    by_cases here : place = index
    · subst here
      exact .inr (by simp [removed, inside])
    · exact .inl (List.mem_eraseIdx_iff_getElem.mpr ⟨place, inside, here, rfl⟩)
  | pop =>
    have nonempty : values ≠ [] := List.ne_nil_of_mem mem
    rw [← List.dropLast_append_getLast nonempty] at mem
    refine (List.mem_append.mp mem).imp_right fun last => ?_
    rw [List.mem_singleton.mp last, removed, List.getLast?_eq_some_getLast nonempty]
    exact List.mem_singleton_self _
  | clear => exact .inr mem
  | truncate length =>
    rw [← List.take_append_drop length values] at mem
    exact List.mem_append.mp mem
  | reverse => exact .inl (List.mem_reverse.mpr mem)
  | double => exact .inl (List.mem_append_left _ mem)

/-- The list after some edits. -/
def applyAll (values : List α) (edits : List (ListEdit α)) : List α :=
  edits.foldl (fun values e => e.apply values) values

/-- What some edits take out, one after another. -/
def removedBy : List α → List (ListEdit α) → List α
  | _, [] => []
  | values, e :: rest => e.removed values ++ removedBy (e.apply values) rest

theorem mem_applyAll_or_removedBy (edits : List (ListEdit α)) (mem : x ∈ values) :
    x ∈ applyAll values edits ∨ x ∈ removedBy values edits := by
  induction edits generalizing values with
  | nil => exact .inl mem
  | cons e rest ih =>
    rw [removedBy, List.mem_append]
    rcases e.mem_apply_or_removed mem with still | out
    · exact (ih still).imp_right .inr
    · exact .inr (.inl out)

end ListEdit

end ArrayBridge
