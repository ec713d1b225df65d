import Mathlib
import Pushdown.Proofs.Json.RoundTrip
import Pushdown.Proofs.Record.Extent
import Pushdown.Proofs.Record.History

/-!
# The two forms of a record

A record is written on a line, with its entries in the order of the columns, and it is an object of
a document, with its entries in the order of their names. No name of a record stands twice, so
nothing is lost when the object puts the entries in order. Main statement: both forms hold the
document of each value under its name, once, and the line is read as the object if its numbers are
read exactly (`forms_agree`).
-/

namespace Pushdown

open Json (Exact deepest write)

/-- Values other than floating point numbers whose documents are read exactly in a place that leaves
so many levels to nest. -/
def Value.Exact (depth : Nat) : Value → Prop
  | .float _ => False
  | .json document => Json.Exact depth document
  | _ => True

theorem Value.Exact.toJson {depth : Nat} {value : Value} (h : value.Exact depth) :
    Json.Exact depth value.toJson := by
  cases value with
  | null => exact .null
  | bool b => exact .bool b
  | int n =>
    have hlow : -(Number.twoPow 63 : Int) ≤ n.toInt := n.le_toInt
    have hhigh : n.toInt < Number.twoPow 63 := n.toInt_lt
    have hgreatest : Number.twoPow 63 ≤ Json.greatestWord := by decide
    exact .int ⟨hlow, by omega⟩
  | float x => cases h
  | string text => exact .string text
  | bytes data => exact .string _
  | json document => exact h
  | timestamp instant => exact .string _

namespace Record

variable {history : List (String × Value)} {r : Record}

/-- An entry of a record as it is written. -/
def written (entry : String × Json) : String × List Char :=
  (entry.1, write entry.2)

/-- Entries hold a record if they have the document of each of its values under its name, once. -/
structure Holds (entries : List (String × Json)) (r : Record) : Prop where
  distinct : (entries.map Prod.fst).Nodup
  document : ∀ name document,
    (name, document) ∈ entries ↔ (r.get? name).map Value.toJson = some document

theorem names_documents (r : Record) : r.documents.map Prod.fst = r.columns := by
  rw [documents, columns, List.map_map]
  rfl

/-- The value under a name is the one of its only field. -/
theorem get?_eq_some_iff (h : r.columns.Nodup) {name : String} {value : Value} :
    r.get? name = some value ↔ (name, value) ∈ r.fields := by
  have hfound {v : Value} (hv : r.get? name = some v) : (name, v) ∈ r.fields := by
    obtain ⟨field, hfield, rfl⟩ := Option.map_eq_some_iff.mp hv
    have hname : field.1 = name := by simpa using List.find?_some hfield
    rw [← hname]
    exact List.mem_of_find?_eq_some hfield
  refine ⟨hfound, fun hmem => ?_⟩
  have hcolumn : name ∈ r.columns := List.mem_map_of_mem hmem
  obtain ⟨v, hv⟩ : ∃ v, r.get? name = some v := by
    rw [← Option.ne_none_iff_exists']
    exact fun hnone => (get?_eq_none_iff r name).mp hnone hcolumn
  -- No two fields have one name, so it is this field that is found.
  have hfield : (name, v) = (name, value) := List.inj_on_of_nodup_map h (hfound hv) hmem rfl
  rw [hv, (Prod.mk.inj hfield).2]

/-- What holds a record holds it in any order. -/
theorem Holds.perm {entries others : List (String × Json)} (h : Holds entries r)
    (hperm : others.Perm entries) : Holds others r where
  distinct := (hperm.map Prod.fst).nodup_iff.mpr h.distinct
  document := by
    intro name document
    rw [hperm.mem_iff, h.document]

theorem holds_documents (h : r.columns.Nodup) : Holds r.documents r where
  distinct := by rwa [names_documents]
  document := by
    intro name document
    simp only [Option.map_eq_some_iff, get?_eq_some_iff h, documents, List.mem_map, Prod.mk.injEq,
      Prod.exists]
    constructor
    · rintro ⟨_, value, hfield, rfl, hdocument⟩
      exact ⟨value, hfield, hdocument⟩
    · rintro ⟨value, hfield, hdocument⟩
      exact ⟨name, value, hfield, rfl, hdocument⟩

/-- The object of a record has its entries in the order of their names. -/
theorem toJson_sorted (h : r.columns.Nodup) :
    ∃ sorted, r.toJson = .object sorted ∧ Ordered.Rising sorted ∧ sorted.Perm r.documents := by
  refine ⟨Ordered.ofList r.documents, rfl, Ordered.rising_ofList _, Ordered.perm_ofList ?_⟩
  rwa [names_documents]

theorem field?_toJson (h : r.columns.Nodup) (name : String) :
    r.toJson.field? name = (r.get? name).map Value.toJson := by
  obtain ⟨sorted, hobject, hrising, hperm⟩ := toJson_sorted h
  rw [hobject, Json.field?]
  apply Option.ext
  intro document
  have hfind : (name, document) ∈ sorted ↔ Ordered.find? name sorted = some document :=
    Ordered.mem_iff_find? hrising
  rw [← hfind]
  exact ((holds_documents h).perm hperm).document name document

/-- The line of a record shows its entries in the order of the columns. -/
theorem shows_documents (r : Record) : Shows r.line (r.documents.map written) := by
  have hentries : r.documents.map written = r.fields.map entry := by
    rw [documents, List.map_map]
    rfl
  rw [hentries]
  exact shows_line r

/-- The entries that a line shows are those of the record and no others. -/
theorem written_eq_of_shows {entries : List (String × Json)}
    (h : Shows r.line (entries.map written)) : entries.map written = r.documents.map written := by
  have hspelt (list : List (String × Json)) : ∀ entry ∈ list.map written, Spelt entry.2 :=
    List.forall_mem_map.mpr fun entry _ => spelt_write entry.2
  exact shows_unique (hspelt entries) (hspelt r.documents) h (shows_documents r)

/-- The two forms of a record hold the same entries, the document of each value under its name, once.
The line shows them in the order of the columns and shows no others. The object has them in the order
of their names. Without floating point numbers and deep or inexact documents, the line is read as the
object. -/
theorem forms_agree (h : Reached history r) :
    Holds r.documents r ∧ r.documents.map Prod.fst = r.columns ∧
      Shows r.line (r.documents.map written) ∧
      (∀ entries : List (String × Json), Shows r.line (entries.map written) →
        entries.map written = r.documents.map written) ∧
      (∃ sorted, r.toJson = .object sorted ∧ Ordered.Rising sorted ∧ sorted.Perm r.documents) ∧
      (∀ name, r.toJson.field? name = (r.get? name).map Value.toJson) ∧
      ((∀ field ∈ r.fields, field.2.Exact (deepest - 1)) →
        Json.read r.line.toList = .ok r.toJson) := by
  have hdistinct : r.columns.Nodup := (remembers_of_reached h).distinct
  refine ⟨holds_documents hdistinct, names_documents r, shows_documents r,
    fun _ => written_eq_of_shows, toJson_sorted hdistinct, field?_toJson hdistinct, ?_⟩
  intro hexact
  have hdocuments : ∀ entry ∈ r.documents, Json.Exact (deepest - 1) entry.2 :=
    List.forall_mem_map.mpr fun field hfield => (hexact field hfield).toJson
  rw [line, Json.compact, String.toList_ofList]
  exact Json.read_write_object hdocuments

/-- A record with a quote in a name and an object in a field: the line keeps the order of the
columns, the object has them sorted, and the line is read as the object. -/
theorem forms_agree_quoted :
    ∃ r, Reached [("z", .int 1), ("a\"", .json (.object [("k", .array [.int 5])]))] r ∧
      r.line = "\x7b\"z\":1,\"a\\\"\":\x7b\"k\":[5]\x7d\x7d" ∧
      r.toJson = .object [("a\"", .object [("k", .array [.int 5])]), ("z", .int 1)] ∧
      Json.read r.line.toList = .ok r.toJson := by
  have hword : Json.IsWord 5 := ⟨by decide, by decide⟩
  have hdocument : Json.Exact (deepest - 1) (.object [("k", .array [.int 5])]) :=
    .object (List.pairwise_singleton _ _)
      (by simpa using .array (by simpa using .int hword))
  have hvalues : ∀ field ∈ [("z", Value.int 1), ("a\"", .json (.object [("k", .array [.int 5])]))],
      field.2.Exact (deepest - 1) := by
    simp only [List.forall_mem_cons]
    exact ⟨trivial, hdocument, List.forall_mem_nil _⟩
  exact ⟨_, .collected _, rfl, rfl, (forms_agree (.collected _)).2.2.2.2.2.2 hvalues⟩

end Record

end Pushdown
