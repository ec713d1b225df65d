/-!
# Entries in the order of their keys

A finite map from texts, kept as a list of entries with rising keys. Texts are ordered by their
code points, which is also the order of their bytes in UTF-8. Main statements: `find?_insert` says
what a map holds after an insertion, and an insertion keeps the keys rising (`rising_insert`).
-/

namespace Pushdown.Ordered

variable {α : Type}

/-- Puts a value under a key, in place of the one that was there. -/
def insert (key : String) (value : α) : List (String × α) → List (String × α)
  | [] => [(key, value)]
  | (k, v) :: rest =>
    if key < k then (key, value) :: (k, v) :: rest
    else if key = k then (key, value) :: rest
    else (k, v) :: insert key value rest

/-- The value under a key. -/
def find? (key : String) : List (String × α) → Option α
  | [] => none
  | (k, v) :: rest => if key = k then some v else find? key rest

/-- The map of a list of entries, of which the last under each key counts. -/
def ofList (entries : List (String × α)) : List (String × α) :=
  entries.foldl (fun map entry => insert entry.1 entry.2 map) []

/-- The keys of a list rise strictly. -/
def Rising (entries : List (String × α)) : Prop :=
  entries.Pairwise fun a b => a.1 < b.1

theorem find?_insert (key : String) (value : α) (k : String) (entries : List (String × α)) :
    find? k (insert key value entries) = if k = key then some value else find? k entries := by
  induction entries with
  | nil => simp [insert, find?]
  | cons entry rest ih =>
    obtain ⟨k', v'⟩ := entry
    simp only [insert]
    split
    · simp [find?]
    · split
      · subst key; simp only [find?]; split <;> rfl
      · simp only [find?, ih]; split <;> grind

theorem mem_insert {key : String} {value : α} {entry : String × α} {entries : List (String × α)}
    (h : entry ∈ insert key value entries) : entry = (key, value) ∨ entry ∈ entries := by
  induction entries with
  | nil => simpa [insert] using h
  | cons head rest ih =>
    obtain ⟨k, v⟩ := head
    simp only [insert] at h
    split at h
    · simpa using h
    · split at h
      · rcases List.mem_cons.1 h with h | h <;> simp [h]
      · rcases List.mem_cons.1 h with h | h
        · simp [h]
        · rcases ih h with h | h <;> simp [h]

theorem rising_insert (key : String) (value : α) {entries : List (String × α)}
    (h : Rising entries) : Rising (insert key value entries) := by
  induction entries with
  | nil => simp [insert, Rising]
  | cons head rest ih =>
    obtain ⟨k, v⟩ := head
    obtain ⟨hk, hr⟩ := List.pairwise_cons.1 h
    simp only [insert]
    split
    · rename_i hlt
      refine List.pairwise_cons.2 ⟨?_, h⟩
      intro entry hmem
      rcases List.mem_cons.1 hmem with rfl | hmem
      · exact hlt
      · exact String.lt_trans hlt (hk entry hmem)
    · split
      · subst key
        exact List.pairwise_cons.2 ⟨hk, hr⟩
      · rename_i hlt hne
        refine List.pairwise_cons.2 ⟨?_, ih hr⟩
        intro entry hmem
        rcases mem_insert hmem with rfl | hmem
        · exact Decidable.byContradiction fun hge =>
            hne (String.le_antisymm (String.not_lt.1 hge) (String.not_lt.1 hlt))
        · exact hk entry hmem

end Pushdown.Ordered
