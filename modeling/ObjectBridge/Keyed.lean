/-!
# Lists with keys

A table with few entries is a list of pairs. The core function `List.lookup` reads an entry, the
first one with a key; `put` replaces it in place or adds it at the end.
Main statements: `lookup_put_self`, `lookup_put_of_ne` and `put_eq_append`, and what is in a table at all: `mem_put` and
`mem_of_lookup`.
-/

namespace ObjectBridge

/-- Put an entry under a key, in place of the one it has. -/
def put [BEq α] (key : α) (value : β) : List (α × β) → List (α × β)
  | [] => [(key, value)]
  | (k, v) :: rest => if k == key then (k, value) :: rest else (k, v) :: put key value rest

/-- An entry of a table after a change has the new value, or was there before. -/
theorem mem_put [BEq α] {key : α} {value : β} {entries : List (α × β)} {entry : α × β}
    (h : entry ∈ put key value entries) : entry.2 = value ∨ entry ∈ entries := by
  induction entries with
  | nil => exact Or.inl (congrArg Prod.snd (List.mem_singleton.mp h))
  | cons first rest ih =>
      obtain ⟨k, v⟩ := first
      rw [put] at h
      split at h
      · rcases List.mem_cons.mp h with rfl | h
        · exact Or.inl rfl
        · exact Or.inr (List.mem_cons_of_mem _ h)
      · rcases List.mem_cons.mp h with rfl | h
        · exact Or.inr List.mem_cons_self
        · rcases ih h with heq | hmem
          · exact Or.inl heq
          · exact Or.inr (List.mem_cons_of_mem _ hmem)

variable [BEq α] [LawfulBEq α]

/-- What is read is in the table. -/
theorem mem_of_lookup {key : α} {value : β} {entries : List (α × β)}
    (h : entries.lookup key = some value) : (key, value) ∈ entries := by
  obtain ⟨before, after, rfl, -⟩ := List.lookup_eq_some_iff.mp h
  exact List.mem_append_right _ List.mem_cons_self

/-- The entry that was put is the one that is read. -/
theorem lookup_put_self (key : α) (value : β) (entries : List (α × β)) :
    (put key value entries).lookup key = some value := by
  induction entries with
  | nil => simp [put]
  | cons entry rest ih =>
      obtain ⟨k, v⟩ := entry
      by_cases h : k == key
      · simp [put, eq_of_beq h]
      · have missed : (key == k) = false := by simpa [BEq.comm] using h
        simp [put, h, List.lookup_cons, missed, ih]

/-- A new key comes last. -/
theorem put_eq_append {key : α} {value : β} {entries : List (α × β)}
    (hnew : entries.lookup key = none) : put key value entries = entries ++ [(key, value)] := by
  induction entries with
  | nil => rfl
  | cons entry rest ih =>
      obtain ⟨k, v⟩ := entry
      rw [List.lookup_cons] at hnew
      cases hkey : key == k with
      | true =>
          rw [hkey] at hnew
          cases hnew
      | false =>
          rw [hkey] at hnew
          rw [put, BEq.comm, hkey, List.cons_append, ← ih hnew]
          rfl

/-- The other entries read as before. -/
theorem lookup_put_of_ne {key other : α} (different : other ≠ key) (value : β)
    (entries : List (α × β)) :
    (put key value entries).lookup other = entries.lookup other := by
  have missed : (other == key) = false := beq_false_of_ne different
  induction entries with
  | nil => simp [put, List.lookup_cons, missed]
  | cons entry rest ih =>
      obtain ⟨k, v⟩ := entry
      by_cases h : k == key
      · have same : k = key := eq_of_beq h
        simp [put, List.lookup_cons, same, missed]
      · simp [put, h, List.lookup_cons, ih]

end ObjectBridge
