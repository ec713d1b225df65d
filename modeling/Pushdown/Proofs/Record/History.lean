import Mathlib
import Pushdown.Proofs.Postgres.Rows

/-!
# Records as histories of insertions

A record is the outcome of its insertions, those of the list that it was collected from and those
that came after. `Remembers` says what it keeps of them: the names in the order in which each came
first, and under each name the value that came last. An insertion either replaces a value in its
place or adds a field at the end, so one insertion keeps this (`Remembers.insert`) and leaves every
other field where it is (`getElem?_insert_of_ne`). Main statement: `reached_remembers`. The rows of
a server are such records (`reached_of_readRow`).
-/

namespace Pushdown.Record

/-- The records that there are, with the insertions that led to them. -/
inductive Reached : List (String × Value) → Record → Prop
  | empty : Reached [] .empty
  | collected (fields : List (String × Value)) : Reached fields (.ofList fields)
  | insert {history : List (String × Value)} {r : Record} (name : String) (value : Value) :
      Reached history r → Reached (history ++ [(name, value)]) (r.insert name value)

/-- The value of the last insertion under a name. -/
def LastUnder (history : List (String × Value)) (name : String) (value : Value) : Prop :=
  ∃ before after, history = before ++ (name, value) :: after ∧ name ∉ after.map Prod.fst

/-- What a record keeps of its insertions. -/
structure Remembers (history : List (String × Value)) (r : Record) : Prop where
  distinct : r.columns.Nodup
  inserted : ∀ name, name ∈ r.columns ↔ name ∈ history.map Prod.fst
  /-- the names stand in the order of their first insertions -/
  ordered : r.columns.Pairwise fun a b =>
    (history.map Prod.fst).idxOf a < (history.map Prod.fst).idxOf b
  last : ∀ name value, r.get? name = some value ↔ LastUnder history name value

variable {history : List (String × Value)} {r : Record} {name other : String} {value : Value}

/-! ## The last insertion under a name -/

theorem lastUnder_concat_self {v : Value} :
    LastUnder (history ++ [(name, value)]) name v ↔ v = value := by
  constructor
  · rintro ⟨before, after, heq, hafter⟩
    rcases List.eq_nil_or_concat after with rfl | ⟨after, last, rfl⟩
    · have hlast := (List.append_singleton_inj.mp heq).2
      exact (Prod.mk.inj hlast).2.symm
    · -- An insertion behind it would be the last of all, which is under this name.
      rw [List.concat_eq_append, ← List.cons_append, ← List.append_assoc] at heq
      have hlast := (List.append_singleton_inj.mp heq).2
      subst hlast
      simp at hafter
  · rintro rfl
    exact ⟨history, [], rfl, by simp⟩

theorem lastUnder_concat_of_ne (hne : other ≠ name) {v : Value} :
    LastUnder (history ++ [(name, value)]) other v ↔ LastUnder history other v := by
  constructor
  · rintro ⟨before, after, heq, hafter⟩
    rcases List.eq_nil_or_concat after with rfl | ⟨after, last, rfl⟩
    · have hlast := (List.append_singleton_inj.mp heq).2
      exact absurd (Prod.mk.inj hlast).1.symm hne
    · rw [List.concat_eq_append, ← List.cons_append, ← List.append_assoc] at heq
      refine ⟨before, after, (List.append_singleton_inj.mp heq).1, fun hmem => hafter ?_⟩
      rw [List.concat_eq_append, List.map_append]
      exact List.mem_append_left _ hmem
  · rintro ⟨before, after, rfl, hafter⟩
    refine ⟨before, after ++ [(name, value)], by simp, ?_⟩
    simp [hafter, hne]

/-! ## One insertion -/

/-- An insertion leaves every field of another name where it is and as it is. -/
theorem getElem?_insert_of_ne (r : Record) (value : Value) (hne : other ≠ name) (i : Nat)
    (v : Value) :
    (r.insert name value).fields[i]? = some (other, v) ↔ r.fields[i]? = some (other, v) := by
  obtain ⟨fields⟩ := r
  show (insertField name value fields)[i]? = _ ↔ fields[i]? = _
  induction fields generalizing i with
  | nil => cases i <;> simp [insertField, hne.symm]
  | cons field rest ih =>
    obtain ⟨n, w⟩ := field
    rw [insertField]
    split
    case isTrue hn =>
      subst hn
      cases i <;> simp [hne.symm]
    case isFalse =>
      cases i with
      | zero => rfl
      | succ i => exact ih i

theorem get?_eq_none_iff (r : Record) (name : String) : r.get? name = none ↔ name ∉ r.columns := by
  simp only [get?, columns, Option.map_eq_none_iff, List.find?_eq_none, List.mem_map, not_exists,
    not_and, decide_eq_true_eq]

namespace Remembers

theorem empty : Remembers [] Record.empty where
  distinct := List.nodup_nil
  inserted := fun _ => Iff.rfl
  ordered := List.Pairwise.nil
  last := by
    intro name value
    simp [LastUnder, get?, Record.empty]

/-- A name that was inserted keeps its place in the order, and a new one comes last. -/
theorem ordered_insert (h : Remembers history r) (name : String) (value : Value) :
    (r.insert name value).columns.Pairwise fun a b =>
      ((history ++ [(name, value)]).map Prod.fst).idxOf a <
        ((history ++ [(name, value)]).map Prod.fst).idxOf b := by
  rw [List.map_append, List.map_singleton, columns_insert]
  have hold : ∀ a ∈ r.columns, (history.map Prod.fst ++ [name]).idxOf a =
      (history.map Prod.fst).idxOf a :=
    fun a ha => List.idxOf_append_of_mem ((h.inserted a).mp ha)
  have hcolumns : r.columns.Pairwise fun a b =>
      (history.map Prod.fst ++ [name]).idxOf a < (history.map Prod.fst ++ [name]).idxOf b := by
    refine h.ordered.imp_of_mem fun ha hb hlt => ?_
    rwa [hold _ ha, hold _ hb]
  split
  case isTrue => exact hcolumns
  case isFalse hnew =>
    refine List.pairwise_append.mpr ⟨hcolumns, List.pairwise_singleton _ _, ?_⟩
    intro a ha b hb
    obtain rfl := List.mem_singleton.mp hb
    rw [hold a ha, List.idxOf_append_of_notMem (fun hb => hnew ((h.inserted b).mpr hb))]
    exact Nat.lt_add_right _ (List.idxOf_lt_length_iff.mpr ((h.inserted a).mp ha))

/-- One more insertion is remembered with those before it. -/
theorem insert (h : Remembers history r) (name : String) (value : Value) :
    Remembers (history ++ [(name, value)]) (r.insert name value) where
  distinct := by
    rw [columns_insert]
    split
    case isTrue => exact h.distinct
    case isFalse hnew =>
      rw [← List.concat_eq_append]
      exact h.distinct.concat hnew
  inserted := by
    intro n
    rw [columns_insert, List.map_append, List.mem_append, ← h.inserted n]
    split
    case isTrue hmem =>
      refine ⟨Or.inl, ?_⟩
      rintro (hn | hn)
      · exact hn
      · obtain rfl := List.mem_singleton.mp hn
        exact hmem
    case isFalse => exact List.mem_append
  ordered := h.ordered_insert name value
  last := by
    intro n v
    rw [get?_insert]
    split
    case isTrue hn =>
      subst hn
      rw [lastUnder_concat_self, Option.some.injEq]
      exact eq_comm
    case isFalse hn => rw [lastUnder_concat_of_ne hn, h.last]

theorem foldl (fields : List (String × Value)) (h : Remembers history r) :
    Remembers (history ++ fields) (fields.foldl (fun r field => r.insert field.1 field.2) r) := by
  induction fields generalizing history r with
  | nil => rwa [List.append_nil]
  | cons field rest ih =>
    rw [List.append_cons]
    exact ih (h.insert field.1 field.2)

/-- A record has one field for each name that was inserted. -/
theorem size_eq (h : Remembers history r) : r.size = (history.map Prod.fst).toFinset.card := by
  have hnames : r.columns.toFinset = (history.map Prod.fst).toFinset := by
    ext name
    rw [List.mem_toFinset, List.mem_toFinset, h.inserted]
  rw [← hnames, List.toFinset_card_of_nodup h.distinct, columns, List.length_map, size]

end Remembers

/-! ## All records -/

theorem remembers_of_reached (h : Reached history r) : Remembers history r := by
  induction h with
  | empty => exact .empty
  | collected fields => exact Remembers.empty.foldl fields
  | insert name value _ ih => exact ih.insert name value

/-- A record remembers its insertions, has no value under a name exactly if none was inserted under
it, and has so many fields as there are names. One more insertion changes neither the value nor the
place of another name. -/
theorem reached_remembers (h : Reached history r) :
    Remembers history r ∧
      (∀ name, r.get? name = none ↔ name ∉ history.map Prod.fst) ∧
      r.size = (history.map Prod.fst).toFinset.card ∧
      ∀ name value other, other ≠ name →
        (r.insert name value).get? other = r.get? other ∧
          ∀ (i : Nat) (v : Value), (r.insert name value).fields[i]? = some (other, v) ↔
            r.fields[i]? = some (other, v) := by
  have hr : Remembers history r := remembers_of_reached h
  refine ⟨hr, ?_, hr.size_eq, ?_⟩
  · intro name
    rw [get?_eq_none_iff, hr.inserted]
  · intro name value other hne
    refine ⟨?_, getElem?_insert_of_ne r value hne⟩
    rw [get?_insert, if_neg hne]

/-- A record collected with a null and then given another value under a name that it has: the name
keeps its place in front of the null, which is present. -/
theorem reached_remembers_replaced :
    ∃ r, Reached [("id", .int 1), ("name", .null), ("id", .int 2)] r ∧
      Remembers [("id", .int 1), ("name", .null), ("id", .int 2)] r ∧
      r.columns = ["id", "name"] ∧ r.size = 2 ∧ r.get? "id" = some (.int 2) ∧
      r.get? "name" = some .null ∧ r.get? "missing" = none := by
  have h : Reached [("id", .int 1), ("name", .null), ("id", .int 2)]
      ((ofList [("id", .int 1), ("name", .null)]).insert "id" (.int 2)) :=
    (Reached.collected [("id", .int 1), ("name", .null)]).insert "id" (.int 2)
  exact ⟨_, h, (reached_remembers h).1, rfl, rfl, rfl, rfl, rfl⟩

/-- The record of a row of a server is collected from its values, also where columns share a
name. -/
theorem reached_of_readRow {columns : List (String × Nat)} {cells : List Postgres.Cell}
    (h : Postgres.readRow columns cells = .ok r) :
    ∃ values, Postgres.Values columns cells values ∧
      Reached ((columns.map Prod.fst).zip values) r := by
  obtain ⟨values, hvalues, rfl⟩ := Postgres.readCells_eq_ok_iff.mp h
  exact ⟨values, hvalues, .collected _⟩

end Pushdown.Record
