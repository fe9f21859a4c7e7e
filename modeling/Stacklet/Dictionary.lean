import Stacklet.Value

set_option autoImplicit false
set_option relaxedAutoImplicit false

/-!
Dictionaries: values under keys. Each key has one entry, and an entry keeps its place when its
value is replaced.
-/

namespace Stacklet

/-- Puts a value under a key: in place of the entry of that key, or else at the end. -/
def insertEntry (key : String) (value : Value) : List (String × Value) → List (String × Value)
  | [] => [(key, value)]
  | entry :: rest =>
      if entry.1 = key then (key, value) :: rest else entry :: insertEntry key value rest

theorem mem_keys_insertEntry (key : String) (value : Value) (entries : List (String × Value))
    (other : String) :
    other ∈ (insertEntry key value entries).map Prod.fst ↔
      other = key ∨ other ∈ entries.map Prod.fst := by
  induction entries with
  | nil => simp [insertEntry]
  | cons entry rest ih =>
      unfold insertEntry
      split
      · rename_i same
        simp [same]
      · simp only [List.map_cons, List.mem_cons, ih]
        constructor
        · rintro (h | h | h) <;> simp [h]
        · rintro (h | h | h) <;> simp [h]

theorem nodup_keys_insertEntry (key : String) (value : Value) (entries : List (String × Value))
    (nodup : (entries.map Prod.fst).Nodup) :
    ((insertEntry key value entries).map Prod.fst).Nodup := by
  induction entries with
  | nil => simp [insertEntry]
  | cons entry rest ih =>
      simp only [List.map_cons, List.nodup_cons] at nodup
      unfold insertEntry
      split
      · rename_i same
        simpa [← same] using nodup
      · rename_i differ
        simp only [List.map_cons, List.nodup_cons, mem_keys_insertEntry, not_or]
        exact ⟨⟨differ, nodup.1⟩, ih nodup.2⟩

structure Dictionary where
  capacity : Nat
  entries : List (String × Value)
  nodup : (entries.map Prod.fst).Nodup

namespace Dictionary

def empty (capacity : Nat) : Dictionary := ⟨capacity, [], List.nodup_nil⟩

instance : Inhabited Dictionary := ⟨empty 0⟩

def get? (d : Dictionary) (key : String) : Option Value := d.entries.lookup key

def insert (d : Dictionary) (key : String) (value : Value) : Dictionary :=
  ⟨d.capacity, insertEntry key value d.entries, nodup_keys_insertEntry key value d.entries d.nodup⟩

def clear (d : Dictionary) : Dictionary := empty d.capacity

def size (d : Dictionary) : Nat := d.entries.length

/-- The larger of the size asked for and the number of entries. -/
def maxLength (d : Dictionary) : Nat := max d.capacity d.size

def describe (d : Dictionary) : String :=
  "Dictionary \x7b len: " ++ toString d.size ++ ", capacity: " ++ toString d.capacity ++ " \x7d"

@[simp] theorem get?_empty (capacity : Nat) (key : String) : (empty capacity).get? key = none := rfl

@[simp] theorem get?_insert_self (d : Dictionary) (key : String) (value : Value) :
    (d.insert key value).get? key = some value := by
  unfold get? insert
  simp only
  induction d.entries with
  | nil => simp [insertEntry]
  | cons entry rest ih =>
      obtain ⟨name, old⟩ := entry
      unfold insertEntry
      split
      · simp
      · rename_i differ
        have : (key == name) = false := by simpa using fun h => differ h.symm
        simp [List.lookup_cons, this, ih]

theorem get?_insert_of_ne (d : Dictionary) {key other : String} (value : Value)
    (ne : other ≠ key) : (d.insert key value).get? other = d.get? other := by
  have apart : (other == key) = false := by simpa using ne
  unfold get? insert
  simp only
  induction d.entries with
  | nil => simp [insertEntry, List.lookup_cons, apart]
  | cons entry rest ih =>
      obtain ⟨name, old⟩ := entry
      unfold insertEntry
      split
      · rename_i same
        simp only at same
        simp [List.lookup_cons, same, apart]
      · simp only [List.lookup_cons, ih]

@[simp] theorem capacity_insert (d : Dictionary) (key : String) (value : Value) :
    (d.insert key value).capacity = d.capacity := rfl

end Dictionary

end Stacklet
