import ArrayBridge.Registry.ClassDb

/-!
# The tables of a database

What a look-up answers after a row was added or an entry was changed. Rows are only ever added at
the end and under a new key, so a table stays free of double keys, and a look-up finds exactly the
rows that are there (`find?_eq_some_iff`).
-/

namespace ArrayBridge

namespace ClassDb

section Lookup

variable {κ α : Type}

/-- The keys of a table, in order. -/
def keys (table : List (κ × α)) : List κ := table.map Prod.fst

@[simp] theorem keys_append (table rows : List (κ × α)) :
    keys (table ++ rows) = keys table ++ keys rows := List.map_append

@[simp] theorem keys_concat (table : List (κ × α)) (key : κ) (entry : α) :
    keys (table ++ [(key, entry)]) = keys table ++ [key] := keys_append table _

variable [DecidableEq κ]

/-- A look-up answers from the first row that has the key. -/
theorem find?_cons (row : κ × α) (rest : List (κ × α)) (k : κ) :
    find? (row :: rest) k = if row.1 = k then some row.2 else find? rest k := by
  simp only [find?, List.find?_cons]
  by_cases h : row.1 = k <;> simp [h]

/-- A look-up in a longer table answers from the rows before, and then from the others. -/
theorem find?_append (table rows : List (κ × α)) (k : κ) :
    find? (table ++ rows) k = (find? table k).or (find? rows k) := by
  simp only [find?, List.find?_append, Option.map_or]

theorem find?_concat (table : List (κ × α)) (key : κ) (entry : α) (k : κ) :
    find? (table ++ [(key, entry)]) k =
      (find? table k).or (if key = k then some entry else none) := by
  rw [find?_append, find?_cons]
  rfl

/-- What was found is found in a longer table. -/
theorem find?_concat_of_some {table : List (κ × α)} {k : κ} {found : α}
    (h : find? table k = some found) (key : κ) (entry : α) :
    find? (table ++ [(key, entry)]) k = some found := by
  rw [find?_concat, h]
  rfl

/-- Under a new key stands the new row. -/
@[simp] theorem find?_concat_self {table : List (κ × α)} {key : κ} (free : find? table key = none)
    (entry : α) : find? (table ++ [(key, entry)]) key = some entry := by
  rw [find?_concat, free, if_pos rfl]
  rfl

@[simp] theorem find?_concat_of_ne {table : List (κ × α)} {key k : κ} (h : key ≠ k) (entry : α) :
    find? (table ++ [(key, entry)]) k = find? table k := by
  rw [find?_concat, if_neg h, Option.or_none]

/-- Changing an entry changes what is found under its key, and nothing else. -/
theorem find?_change (table : List (κ × α)) (key : κ) (f : α → α) (k : κ) :
    find? (change table key f) k = if k = key then (find? table k).map f else find? table k := by
  induction table with
  | nil => simp [find?, change]
  | cons row rest ih =>
    have step : change (row :: rest) key f =
        (if row.1 = key then (row.1, f row.2) else row) :: change rest key f := rfl
    rw [step, find?_cons, find?_cons, ih]
    by_cases hr : row.1 = key
    · rw [if_pos hr]
      by_cases hk : row.1 = k
      · rw [if_pos hk, if_pos hk, if_pos (hk.symm.trans hr)]
        rfl
      · rw [if_neg hk, if_neg hk]
    · rw [if_neg hr]
      by_cases hk : row.1 = k
      · rw [if_pos hk, if_neg fun h => hr (hk.trans h), if_pos hk]
      · rw [if_neg hk, if_neg hk]

@[simp] theorem keys_change (table : List (κ × α)) (key : κ) (f : α → α) :
    keys (change table key f) = keys table := by
  simp only [keys, change, List.map_map]
  refine List.map_congr_left fun row _ => ?_
  simp only [Function.comp_apply]
  split <;> rfl

theorem find?_eq_none_iff {table : List (κ × α)} {k : κ} :
    find? table k = none ↔ k ∉ keys table := by
  simp only [find?, keys, Option.map_eq_none_iff, List.find?_eq_none, List.mem_map,
    decide_eq_true_eq]
  exact ⟨fun h ⟨row, mem, eq⟩ => h row mem eq, fun h row mem eq => h ⟨row, mem, eq⟩⟩

theorem isSome_find?_iff {table : List (κ × α)} {k : κ} :
    (find? table k).isSome ↔ k ∈ keys table := by
  rw [← Option.ne_none_iff_isSome, ne_eq, find?_eq_none_iff, Decidable.not_not]

theorem mem_of_find? {table : List (κ × α)} {k : κ} {found : α} (h : find? table k = some found) :
    (k, found) ∈ table := by
  obtain ⟨⟨key, entry⟩, hrow, rfl⟩ := Option.map_eq_some_iff.mp h
  have same : key = k := by simpa using List.find?_some hrow
  exact same ▸ List.mem_of_find?_eq_some hrow

/-- In a table without double keys a look-up finds exactly the rows that are there. -/
theorem find?_eq_some_iff {table : List (κ × α)} (unique : (keys table).Nodup) {k : κ} {found : α} :
    find? table k = some found ↔ (k, found) ∈ table := by
  refine ⟨mem_of_find?, fun mem => ?_⟩
  induction table with
  | nil => cases mem
  | cons row rest ih =>
    obtain ⟨fresh, unique⟩ := List.nodup_cons.mp unique
    rw [find?_cons]
    rcases List.mem_cons.mp mem with rfl | mem
    · rw [if_pos rfl]
    · rw [if_neg fun h => fresh (List.mem_map.mpr ⟨_, mem, h.symm⟩)]
      exact ih unique mem

/-- A new key at the end leaves a table without double keys. -/
theorem nodup_keys_concat {table : List (κ × α)} (unique : (keys table).Nodup) {key : κ}
    (free : find? table key = none) (entry : α) : (keys (table ++ [(key, entry)])).Nodup := by
  rw [keys_concat]
  refine List.nodup_append.mpr ⟨unique, List.pairwise_singleton _ key, ?_⟩
  rintro k mem k' mem' rfl
  rw [List.mem_singleton.mp mem'] at mem
  exact find?_eq_none_iff.mp free mem

/-- In a table without double keys the row found stands between rows of other keys. -/
theorem change_eq_of_find? {table : List (κ × α)} (unique : (keys table).Nodup) {key : κ}
    {found : α} (h : find? table key = some found) (f : α → α) :
    ∃ before after, table = before ++ (key, found) :: after ∧
      change table key f = before ++ (key, f found) :: after := by
  obtain ⟨before, after, rfl⟩ := List.append_of_mem (mem_of_find? h)
  have split : (keys before ++ key :: keys after).Nodup := by
    simpa [keys] using unique
  have elsewhere : ∀ rows : List (κ × α), key ∉ keys rows → change rows key f = rows := by
    intro rows absent
    refine (List.map_congr_left fun row mem => ?_).trans (List.map_id rows)
    rw [if_neg fun h => absent (List.mem_map.mpr ⟨row, mem, h⟩)]
    rfl
  obtain ⟨_, last, apart⟩ := List.nodup_append.mp split
  refine ⟨before, after, rfl, ?_⟩
  have front := elsewhere before fun mem => apart key mem key List.mem_cons_self rfl
  have back := elsewhere after (List.nodup_cons.mp last).1
  unfold change at front back ⊢
  rw [List.map_append, List.map_cons, if_pos rfl, front, back]

end Lookup

end ClassDb

end ArrayBridge
