import Pushdown.Proofs.Filter.Declared
import Pushdown.Proofs.Filter.RoundTrip

/-!
# Tables made from relations

The columns and the key columns of a relation's table grow together with the columns of the
relation, and a column that the host has no type for adds to neither list (`Exposes`). What holds of
the two lists, a look-up of a name that may stand there more than once included (`Exposes.found`),
is an induction over this. Main statement: the table of a relation is the one that describes it, and
the host can filter on each column it sees by every operator (`describes_synthesize`).
-/

namespace Pushdown.VirtualTable

/-! ## What a table of a relation is -/

/-- The types that the host has no word for. -/
inductive Unmapped : NativeType → Prop
  | network (typeName : String) : Unmapped (.network (.other typeName))
  | spatial : Unmapped .spatial
  | textSearch : Unmapped .textSearch
  | array : Unmapped .array
  | serial : Unmapped .serial
  | objectId : Unmapped .objectId
  | range : Unmapped .range
  | userDefined : Unmapped .userDefined
  | xml : Unmapped .xml
  | unsupported : Unmapped .unsupported

/-- The column that the host sees of a column. -/
def shown (c : Column) : VirtualColumn :=
  ⟨c.name, c.hostType, c.comment.getD ""⟩

/-- The key column of a column: it need not be filtered on, and any operator can be used. -/
def key (c : Column) : KeyColumn :=
  ⟨c.name, Operator.all, .optional⟩

/-- Columns and key columns that grow together with the columns of a relation, one of each for a
column with a host type and none for another. -/
inductive Exposes : List Column → List VirtualColumn → List KeyColumn → Prop
  | nil : Exposes [] [] []
  | dropped {c : Column} {cs : List Column} {vs : List VirtualColumn} {ks : List KeyColumn} :
      Unmapped c.type.native → Exposes cs vs ks → Exposes (c :: cs) vs ks
  | kept {c : Column} {cs : List Column} {vs : List VirtualColumn} {ks : List KeyColumn} :
      ¬Unmapped c.type.native → Exposes cs vs ks → Exposes (c :: cs) (shown c :: vs) (key c :: ks)

/-- A table describes a relation. -/
structure Describes (t : VirtualTable) (r : Relation) : Prop where
  name : t.name = r.name
  description : t.description = r.comment.getD ""
  kind : t.kind = .dynamic
  columns : Exposes r.columns t.columns t.keyColumns

/-- What is found under a name in the two lists of a table: what stands there for the first column
of the name that has a host type, or nothing in either. -/
inductive FoundUnder (name : String) (columns : List Column) :
    Option VirtualColumn → Option KeyColumn → Prop
  | first {before after : List Column} {c : Column} :
      columns = before ++ c :: after → c.name = name → ¬Unmapped c.type.native →
        (∀ d ∈ before, d.name = name → Unmapped d.type.native) →
          FoundUnder name columns (some (shown c)) (some (key c))
  | nowhere : (∀ c ∈ columns, c.name = name → Unmapped c.type.native) →
      FoundUnder name columns none none

/-- What the host can rely on in the table of a relation. -/
structure Usable (t : VirtualTable) (r : Relation) : Prop where
  typed : ∀ v ∈ t.columns, v.hostType ≠ .unknown
  names : t.columns.map (·.name) = t.keyColumns.map (·.name)
  keys : ∀ k ∈ t.keyColumns, k.require = .optional ∧ ∀ op, k.accepts op = true
  found : ∀ name, FoundUnder name r.columns (t.column? name) (t.keyColumn? name)
  filtered : ∀ v ∈ t.columns, ∃ k, t.keyColumn? v.name = some k ∧ ∀ op, k.accepts op = true
  accepted : ∀ filter name op, Filter.read t filter ≠ .error (.refusedOperator name op)
  empty : t.columns = [] ∧ t.keyColumns = [] ↔ ∀ c ∈ r.columns, Unmapped c.type.native

/-! ## One table for each relation -/

theorem hostType_eq_unknown_iff {n : NativeType} : n.hostType = .unknown ↔ Unmapped n := by
  constructor
  · intro h
    cases n with
    | network kind =>
      cases kind with
      | other typeName => exact .network typeName
      | _ => cases h
    | spatial => exact .spatial
    | textSearch => exact .textSearch
    | array => exact .array
    | serial => exact .serial
    | objectId => exact .objectId
    | range => exact .range
    | userDefined => exact .userDefined
    | xml => exact .xml
    | unsupported => exact .unsupported
    | _ => cases h
  · intro h
    cases h <;> rfl

theorem exposes_synthesize (r : Relation) :
    Exposes r.columns (synthesize r).columns (synthesize r).keyColumns := by
  show Exposes r.columns ((shownColumns r).map shown) ((shownColumns r).map key)
  unfold shownColumns
  induction r.columns with
  | nil => exact .nil
  | cons c cs ih =>
    by_cases hc : Unmapped c.type.native
    · have hhost : c.hostType = .unknown := hostType_eq_unknown_iff.mpr hc
      rw [List.filter_cons_of_neg (by simp [hhost])]
      exact .dropped hc ih
    · have hhost : c.hostType ≠ .unknown := fun h => hc (hostType_eq_unknown_iff.mp h)
      rw [List.filter_cons_of_pos (by simp [hhost])]
      exact .kept hc ih

theorem Exposes.unique {cs : List Column} {vs vs' : List VirtualColumn} {ks ks' : List KeyColumn}
    (h : Exposes cs vs ks) (h' : Exposes cs vs' ks') : vs = vs' ∧ ks = ks' := by
  induction h generalizing vs' ks' with
  | nil =>
    cases h'
    exact ⟨rfl, rfl⟩
  | dropped hc _ ih =>
    cases h' with
    | dropped _ h' => exact ih h'
    | kept hc' _ => exact absurd hc hc'
  | kept hc _ ih =>
    cases h' with
    | dropped hc' _ => exact absurd hc' hc
    | kept _ h' =>
      obtain ⟨rfl, rfl⟩ := ih h'
      exact ⟨rfl, rfl⟩

theorem eq_synthesize_iff {t : VirtualTable} {r : Relation} :
    t = synthesize r ↔ Describes t r := by
  constructor
  · rintro rfl
    exact ⟨rfl, rfl, rfl, exposes_synthesize r⟩
  · rintro ⟨hname, hdescription, hkind, hcolumns⟩
    obtain ⟨hvs, hks⟩ := hcolumns.unique (exposes_synthesize r)
    obtain ⟨name, description, columns, keyColumns, kind⟩ := t
    subst hname hdescription hkind hvs hks
    rfl

/-! ## What the host can do with it -/

variable {cs : List Column} {vs : List VirtualColumn} {ks : List KeyColumn}

theorem Exposes.names (h : Exposes cs vs ks) : vs.map (·.name) = ks.map (·.name) := by
  induction h with
  | nil => rfl
  | dropped _ _ ih => exact ih
  | kept _ _ ih => exact congrArg (_ :: ·) ih

theorem Exposes.hostType_ne (h : Exposes cs vs ks) : ∀ v ∈ vs, v.hostType ≠ .unknown := by
  induction h with
  | nil => simp
  | dropped _ _ ih => exact ih
  | @kept c _ _ _ hc _ ih =>
    intro v hv
    rcases List.mem_cons.mp hv with rfl | hv
    · exact fun hhost => hc (hostType_eq_unknown_iff.mp hhost)
    · exact ih v hv

theorem accepts_key (c : Column) (op : Operator) : (key c).accepts op = true := by
  cases op <;> rfl

theorem Exposes.keys (h : Exposes cs vs ks) :
    ∀ k ∈ ks, k.require = .optional ∧ ∀ op, k.accepts op = true := by
  induction h with
  | nil => simp
  | dropped _ _ ih => exact ih
  | @kept c _ _ _ _ _ ih =>
    intro k hk
    rcases List.mem_cons.mp hk with rfl | hk
    · exact ⟨rfl, accepts_key c⟩
    · exact ih k hk

/-- A column that is not the first of a name with a host type makes no difference to what is found
under the name. -/
theorem FoundUnder.skip {name : String} {c : Column} {v : Option VirtualColumn}
    {k : Option KeyColumn} (h : FoundUnder name cs v k)
    (hc : c.name = name → Unmapped c.type.native) : FoundUnder name (c :: cs) v k := by
  cases h with
  | @first before after d hcs hname hd hbefore =>
    have hsplit : c :: cs = (c :: before) ++ d :: after := by rw [hcs, List.cons_append]
    refine .first hsplit hname hd ?_
    intro e he
    rcases List.mem_cons.mp he with rfl | he
    · exact hc
    · exact hbefore e he
  | nowhere hcs =>
    refine .nowhere fun e he => ?_
    rcases List.mem_cons.mp he with rfl | he
    · exact hc
    · exact hcs e he

theorem Exposes.found (h : Exposes cs vs ks) (name : String) :
    FoundUnder name cs (vs.find? (·.name = name)) (ks.find? (·.name = name)) := by
  induction h with
  | nil => exact .nowhere (by simp)
  | dropped hc _ ih => exact ih.skip fun _ => hc
  | @kept c cs vs ks hc _ ih =>
    by_cases hname : c.name = name
    · have hv : (shown c :: vs).find? (·.name = name) = some (shown c) :=
        List.find?_cons_of_pos (decide_eq_true hname)
      have hk : (key c :: ks).find? (·.name = name) = some (key c) :=
        List.find?_cons_of_pos (decide_eq_true hname)
      rw [hv, hk]
      exact .first (List.nil_append _).symm hname hc (by simp)
    · have hv : (shown c :: vs).find? (·.name = name) = vs.find? (·.name = name) :=
        List.find?_cons_of_neg (mt of_decide_eq_true hname)
      have hk : (key c :: ks).find? (·.name = name) = ks.find? (·.name = name) :=
        List.find?_cons_of_neg (mt of_decide_eq_true hname)
      rw [hv, hk]
      exact ih.skip fun h => absurd h hname

/-- Under the name of a column that is seen stands a key column. -/
theorem Exposes.filtered (h : Exposes cs vs ks) {v : VirtualColumn} (hv : v ∈ vs) :
    ∃ k, ks.find? (·.name = v.name) = some k ∧ ∀ op, k.accepts op = true := by
  have hname : v.name ∈ ks.map (·.name) := h.names ▸ List.mem_map_of_mem hv
  obtain ⟨k, hk, hname⟩ := List.mem_map.mp hname
  have hsome : (ks.find? (·.name = v.name)).isSome :=
    List.find?_isSome.mpr ⟨k, hk, decide_eq_true hname⟩
  obtain ⟨k', hk'⟩ := Option.isSome_iff_exists.mp hsome
  exact ⟨k', hk', (h.keys k' (List.mem_of_find?_eq_some hk')).2⟩

theorem Exposes.nil_iff (h : Exposes cs vs ks) :
    vs = [] ∧ ks = [] ↔ ∀ c ∈ cs, Unmapped c.type.native := by
  induction h with
  | nil => simp
  | dropped hc _ ih => simp [hc, ih]
  | kept hc _ _ => simp [hc]

/-- The table of a relation is the one that describes it: its columns are those of the relation that
the host has a type for, in their order and as often as they stand there, each with a key column of
its name that accepts every operator. So no operator is refused on it. -/
theorem describes_synthesize (r : Relation) :
    Describes (synthesize r) r ∧ (∀ t, Describes t r → t = synthesize r) ∧
      (∀ c ∈ r.columns, Unmapped c.type.native ↔ c.hostType = .unknown) ∧
      Usable (synthesize r) r := by
  have h : Exposes r.columns (synthesize r).columns (synthesize r).keyColumns :=
    exposes_synthesize r
  refine ⟨eq_synthesize_iff.mp rfl, fun t => eq_synthesize_iff.mpr,
    fun c _ => hostType_eq_unknown_iff.symm, ?_⟩
  refine ⟨h.hostType_ne, h.names, h.keys, h.found, fun v => h.filtered, ?_, h.nil_iff⟩
  intro filter name op hrefused
  have haccepts : Filter.accepts (synthesize r) name op = false :=
    Filter.not_accepts_of_read hrefused
  rw [Filter.accepts_synthesize] at haccepts
  cases haccepts

end Pushdown.VirtualTable
