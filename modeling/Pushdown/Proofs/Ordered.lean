import Mathlib
import Pushdown.Ordered

/-!
# Entries determined by their look-ups

A map with rising keys is determined by what it holds (`eq_of_find?_eq`). The keys of a map that is
built from entries rise (`rising_ofList`). It has the entries themselves if no two of them share a
key (`perm_ofList`), and in the same order if their keys rise already (`ofList_rising`).
-/

namespace Pushdown.Ordered

variable {α : Type}

/-- The entries of a map with rising keys are what is found under their keys. -/
theorem mem_iff_find? {entries : List (String × α)} (h : Rising entries) {entry : String × α} :
    entry ∈ entries ↔ find? entry.1 entries = some entry.2 := by
  induction entries with
  | nil => simp [find?]
  | cons head rest ih =>
    obtain ⟨hhead, hrest⟩ := List.pairwise_cons.mp h
    rw [List.mem_cons, ih hrest, find?]
    split
    · -- The keys behind the head are greater, so only the head can be the entry.
      rename_i hkey
      have habsent : ¬find? entry.1 rest = some entry.2 := by
        rw [← ih hrest]
        exact fun hentry => (hhead entry hentry).ne' hkey
      constructor
      · rintro (rfl | hentry)
        · rfl
        · exact absurd hentry habsent
      · intro hvalue
        exact .inl (Prod.ext hkey (Option.some.inj hvalue).symm)
    · rename_i hkey
      constructor
      · rintro (rfl | hentry)
        · exact absurd rfl hkey
        · exact hentry
      · exact .inr

theorem Rising.nodup {entries : List (String × α)} (h : Rising entries) : entries.Nodup :=
  h.imp fun hlt heq => hlt.ne (congrArg Prod.fst heq)

/-- Two maps with rising keys that hold the same have the same entries. -/
theorem eq_of_find?_eq {a b : List (String × α)} (ha : Rising a) (hb : Rising b)
    (h : ∀ key, find? key a = find? key b) : a = b := by
  have hperm : a.Perm b := by
    rw [List.perm_ext_iff_of_nodup ha.nodup hb.nodup]
    intro entry
    rw [mem_iff_find? ha, mem_iff_find? hb, h]
  exact hperm.eq_of_pairwise (fun x y _ _ hxy hyx => absurd hyx hxy.not_gt) ha hb

/-- A key above all keys is put last. -/
theorem insert_above {key : String} (value : α) {entries : List (String × α)}
    (h : ∀ entry ∈ entries, entry.1 < key) :
    insert key value entries = entries ++ [(key, value)] := by
  induction entries with
  | nil => rfl
  | cons entry rest ih =>
    have hlt : entry.1 < key := h entry List.mem_cons_self
    rw [insert, if_neg hlt.not_gt, if_neg hlt.ne',
      ih fun entry hentry => h entry (List.mem_cons_of_mem _ hentry)]
    rfl

/-- The map of entries with rising keys. -/
theorem ofList_rising {entries : List (String × α)} (h : Rising entries) :
    ofList entries = entries := by
  induction entries using List.reverseRecOn with
  | nil => rfl
  | append_singleton entries entry ih =>
    obtain ⟨hentries, _, habove⟩ := List.pairwise_append.mp h
    have hmap : ofList entries = entries := ih hentries
    rw [ofList] at hmap
    rw [ofList, List.foldl_append, hmap]
    exact insert_above entry.2 fun other hother => habove other hother entry List.mem_cons_self

theorem rising_ofList (entries : List (String × α)) : Rising (ofList entries) := by
  refine List.foldlRecOn (motive := Rising) entries _ List.Pairwise.nil ?_
  intro map hmap entry _
  exact rising_insert entry.1 entry.2 hmap

/-- An entry under a new key is added to the others. -/
theorem perm_insert {key : String} (value : α) {entries : List (String × α)}
    (h : key ∉ entries.map Prod.fst) : (insert key value entries).Perm ((key, value) :: entries) := by
  induction entries with
  | nil => exact .refl _
  | cons entry rest ih =>
    rw [List.map_cons, List.mem_cons, not_or] at h
    rw [insert]
    split
    · exact .refl _
    · rw [if_neg h.1]
      exact ((ih h.2).cons entry).trans (.swap _ _ rest)

/-- Entries of which no two share a key are the entries of the map that is built from them. -/
theorem perm_ofList {entries : List (String × α)} (h : (entries.map Prod.fst).Nodup) :
    (ofList entries).Perm entries := by
  induction entries using List.reverseRecOn with
  | nil => exact .refl _
  | append_singleton entries entry ih =>
    rw [List.map_append, List.map_singleton, ← List.concat_eq_append, List.nodup_concat] at h
    obtain ⟨hentry, hentries⟩ := h
    have hmap : (ofList entries).Perm entries := ih hentries
    have hnew : entry.1 ∉ (ofList entries).map Prod.fst :=
      fun hmem => hentry ((hmap.map Prod.fst).mem_iff.mp hmem)
    have hstep : ofList (entries ++ [entry]) = insert entry.1 entry.2 (ofList entries) :=
      List.foldl_append
    calc ofList (entries ++ [entry])
      _ = insert entry.1 entry.2 (ofList entries) := hstep
      List.Perm _ (entry :: ofList entries) := perm_insert entry.2 hnew
      List.Perm _ (entry :: entries) := hmap.cons entry
      List.Perm _ (entries ++ [entry]) := (List.perm_append_singleton entry entries).symm

end Pushdown.Ordered
