/-
  This file defines tables: values found by keys, in the
  order in which the keys were first set.

  Key definitions include:
    * `Table`
    * `Table.get?`
    * `Table.set`
    * `Table.erase`
-/

------------------------------------------------------------
-- Tables
------------------------------------------------------------

namespace SplitStream

/- Values found by keys. -/
structure Table
    (κ ν : Type) where
  entries : List (κ × ν)

namespace Table

variable {κ ν : Type}

/- The table without entries. -/
def empty : Table κ ν where
  entries := []

/- All keys. -/
def keys
    (table : Table κ ν) : List κ :=
  table.entries.map Prod.fst

variable [DecidableEq κ]

/- The first value of a key in a list of entries. -/
def find?
    (key : κ) : List (κ × ν) → Option ν
  | [] => none
  | (k, v) :: rest => if k = key then some v else find? key rest

/- The value of a key. -/
def get?
    (table : Table κ ν)
    (key : κ) : Option ν :=
  find? key table.entries

/- Take the entries of a key out of a list. -/
def without
    (key : κ)
    (entries : List (κ × ν)) : List (κ × ν) :=
  entries.filter fun entry => entry.1 ≠ key

/- Forget the value of a key. -/
def erase
    (table : Table κ ν)
    (key : κ) : Table κ ν where
  entries := without key table.entries

/- Give a key a value. -/
def set
    (table : Table κ ν)
    (key : κ)
    (value : ν) : Table κ ν where
  entries := (key, value) :: without key table.entries

------------------------------------------------------------
-- Lookup
------------------------------------------------------------

@[simp]
theorem find?_without_self
    (key : κ)
    (entries : List (κ × ν)) :
    find? key (without key entries) = none := by
  induction entries with
  | nil => rfl
  | cons entry rest ih =>
    by_cases h : entry.1 = key
    · simpa [without, h] using ih
    · simpa [without, find?, h] using ih

theorem find?_without
    {key other : κ}
    (h : other ≠ key)
    (entries : List (κ × ν)) :
    find? other (without key entries) = find? other entries := by
  induction entries with
  | nil => rfl
  | cons entry rest ih =>
    by_cases hEntry : entry.1 = key
    · have hOther : ¬ entry.1 = other := by
        intro hEq
        exact h (hEq.symm.trans hEntry)
      simpa [without, find?, hEntry, h.symm] using ih
    · by_cases hOther : entry.1 = other
      · simp [without, find?, hOther, h]
      · simpa [without, find?, hEntry, hOther] using ih

/- A value that is found is in the list. -/
theorem mem_of_find?
    {key : κ}
    {value : ν}
    {entries : List (κ × ν)}
    (h : find? key entries = some value) :
    (key, value) ∈ entries := by
  induction entries with
  | nil => contradiction
  | cons entry rest ih =>
    rw [find?] at h
    split at h
    · rename_i hKey
      cases h
      rw [← hKey]
      exact List.mem_cons_self
    · exact List.mem_cons_of_mem _ (ih h)

@[simp]
theorem get?_set_self
    (table : Table κ ν)
    (key : κ)
    (value : ν) :
    (table.set key value).get? key = some value := by
  simp [get?, set, find?]

theorem get?_set
    (table : Table κ ν)
    {key other : κ}
    (h : other ≠ key)
    (value : ν) :
    (table.set key value).get? other = table.get? other := by
  simp [get?, set, find?, h.symm, find?_without h]

@[simp]
theorem get?_erase_self
    (table : Table κ ν)
    (key : κ) :
    (table.erase key).get? key = none := by
  simp [get?, erase]

theorem get?_erase
    (table : Table κ ν)
    {key other : κ}
    (h : other ≠ key) :
    (table.erase key).get? other = table.get? other := by
  simp [get?, erase, find?_without h]

end Table

end SplitStream
