import Mathlib
import Pushdown.Proofs.Catalog.Statement

/-!
# Listings

How far a listing of a dynamic table gets. Two things end it early, a failure of the source and a
sink that declines a row, and they may come in any order. `Delivered` says what a listing of items
has to come to without saying how it is found: the rows are the longest that may be pushed, and the
failure counts if every row in front of it was wanted. Main statements: a listing delivers the items
of the source (`delivered_run`), and nothing behind the row or failure that ended it matters
(`run_congr`), so that a listing of a dynamic table is what it has to be (`list_dynamic`).
-/

namespace Pushdown

/-! ## What a listing has to come to -/

/-- A sink takes rows one after the other and wants more behind each of them. -/
def Wanted (sink : List Record → Bool) (rows : List Record) : Prop :=
  ∀ taken, taken ≠ [] → taken <+: rows → sink taken = true

/-- Rows that may be pushed: the items start with them, and none in front of the last is declined. -/
structure Pushable (sink : List Record → Bool) (items : List Item) (rows : List Record) :
    Prop where
  first : rows.map .ok <+: items
  wanted : Wanted sink rows.dropLast

/-- The first failure among items, where none of the rows in front of it is declined. -/
def FailsWith (sink : List Record → Bool) (items : List Item) (e : Error) : Prop :=
  ∃ rows rest, items = rows.map .ok ++ .error e :: rest ∧ Wanted sink rows

/-- What a listing of items comes to. -/
structure Delivered (sink : List Record → Bool) (items : List Item) (l : Listing) : Prop where
  pushable : Pushable sink items l.pushed
  longest : ∀ rows, Pushable sink items rows → rows <+: l.pushed
  failed : ∀ e, l.result = .error e ↔ FailsWith sink items e
  pulledFailed : ∀ e, l.result = .error e → l.pulled = l.pushed.length + 1
  counted : ∀ n, l.result = .ok n → n = l.pushed.length ∧ l.pulled = n

/-- A failure or a declined row ended a listing. -/
def Listing.Stopped (sink : List Record → Bool) (l : Listing) : Prop :=
  l.failure ≠ none ∨ l.pushed ≠ [] ∧ sink l.pushed = false

/-! ## Rows in front -/

variable {sink : List Record → Bool} {row : Record} {rows : List Record} {items : List Item}

theorem wanted_nil (sink : List Record → Bool) : Wanted sink [] := by
  intro taken hne htaken
  exact absurd (List.prefix_nil.mp htaken) hne

theorem wanted_cons_iff :
    Wanted sink (row :: rows) ↔ sink [row] = true ∧ Wanted (fun rows => sink (row :: rows)) rows := by
  constructor
  · intro h
    refine ⟨h [row] (by simp) (List.prefix_append [row] rows), ?_⟩
    intro taken _ htaken
    exact h (row :: taken) (by simp) (List.cons_prefix_cons.mpr ⟨rfl, htaken⟩)
  · rintro ⟨hrow, hrows⟩ taken hne htaken
    obtain rfl | ⟨rest, rfl, hrest⟩ := List.prefix_cons_iff.mp htaken
    · exact absurd rfl hne
    · by_cases hnil : rest = []
      · rw [hnil]
        exact hrow
      · exact hrows rest hnil hrest

theorem pushable_nil (sink : List Record → Bool) (items : List Item) : Pushable sink items [] :=
  ⟨List.nil_prefix, wanted_nil sink⟩

/-- Behind a row that is not the last pushed one the sink goes on with the others. -/
theorem pushable_cons_iff {first : Record} :
    Pushable sink (.ok row :: items) (first :: rows) ↔
      first = row ∧ (rows = [] ∨
        sink [row] = true ∧ Pushable (fun rows => sink (row :: rows)) items rows) := by
  cases rows with
  | nil =>
    constructor
    · intro h
      obtain ⟨hfirst, _⟩ := List.cons_prefix_cons.mp h.first
      exact ⟨Except.ok.inj hfirst, .inl rfl⟩
    · rintro ⟨rfl, _⟩
      exact ⟨List.cons_prefix_cons.mpr ⟨rfl, List.nil_prefix⟩, wanted_nil sink⟩
  | cons second rows =>
    constructor
    · rintro ⟨hstart, hwanted⟩
      obtain ⟨hfirst, hrest⟩ := List.cons_prefix_cons.mp hstart
      obtain rfl : first = row := Except.ok.inj hfirst
      obtain ⟨hrow, hrows⟩ := wanted_cons_iff.mp hwanted
      exact ⟨rfl, .inr ⟨hrow, hrest, hrows⟩⟩
    · rintro ⟨rfl, hnil | ⟨hrow, hrest, hrows⟩⟩
      · cases hnil
      · exact ⟨List.cons_prefix_cons.mpr ⟨rfl, hrest⟩, wanted_cons_iff.mpr ⟨hrow, hrows⟩⟩

theorem failsWith_error_iff {e e' : Error} :
    FailsWith sink (.error e :: items) e' ↔ e = e' := by
  constructor
  · rintro ⟨rows, rest, hitems, _⟩
    cases rows with
    | nil => exact Except.error.inj (List.cons.inj hitems).1
    | cons row rows => cases (List.cons.inj hitems).1
  · rintro rfl
    exact ⟨[], items, rfl, wanted_nil sink⟩

theorem failsWith_ok_iff {e : Error} :
    FailsWith sink (.ok row :: items) e ↔
      sink [row] = true ∧ FailsWith (fun rows => sink (row :: rows)) items e := by
  constructor
  · rintro ⟨rows, rest, hitems, hwanted⟩
    cases rows with
    | nil => cases (List.cons.inj hitems).1
    | cons first rows =>
      obtain ⟨hfirst, hrest⟩ := List.cons.inj hitems
      obtain rfl : row = first := Except.ok.inj hfirst
      obtain ⟨hrow, hrows⟩ := wanted_cons_iff.mp hwanted
      exact ⟨hrow, rows, rest, hrest, hrows⟩
  · rintro ⟨hrow, rows, rest, rfl, hrows⟩
    exact ⟨row :: rows, rest, rfl, wanted_cons_iff.mpr ⟨hrow, hrows⟩⟩

/-! ## One item -/

theorem Listing.result_eq_error_iff {l : Listing} {e : Error} :
    l.result = .error e ↔ l.failure = some e := by
  unfold Listing.result
  cases l.failure with
  | none => simp
  | some e' => simp

theorem Listing.result_eq_ok_iff {l : Listing} {n : Nat} :
    l.result = .ok n ↔ l.failure = none ∧ l.pushed.length = n := by
  unfold Listing.result
  cases l.failure with
  | none => simp
  | some e' => simp

/-- Without items nothing is pushed. -/
theorem delivered_nil (sink : List Record → Bool) : Delivered sink [] ⟨[], none, 0⟩ where
  pushable := pushable_nil sink []
  longest := by
    intro rows hrows
    have hnil : rows = [] := by simpa using hrows.first
    rw [hnil]
  failed := by
    intro e
    constructor
    · intro h
      cases h
    · rintro ⟨rows, rest, hitems, _⟩
      simp at hitems
  pulledFailed := by
    intro e h
    cases h
  counted := by
    intro n h
    cases h
    exact ⟨rfl, rfl⟩

/-- A failure ends a listing. -/
theorem delivered_error (sink : List Record → Bool) (e : Error) (items : List Item) :
    Delivered sink (.error e :: items) ⟨[], some e, 1⟩ where
  pushable := pushable_nil sink _
  longest := by
    intro rows hrows
    cases rows with
    | nil => exact List.nil_prefix
    | cons row rows => cases (List.cons_prefix_cons.mp hrows.first).1
  failed := by
    intro e'
    rw [failsWith_error_iff, Listing.result_eq_error_iff, Option.some.injEq]
  pulledFailed := fun _ _ => rfl
  counted := by
    intro n h
    cases h

/-- A declined row is pushed and ends a listing. -/
theorem delivered_declined (items : List Item) (hrow : sink [row] = false) :
    Delivered sink (.ok row :: items) ⟨[row], none, 1⟩ where
  pushable := pushable_cons_iff.mpr ⟨rfl, .inl rfl⟩
  longest := by
    intro rows hrows
    cases rows with
    | nil => exact List.nil_prefix
    | cons first rows =>
      obtain ⟨rfl, rfl | ⟨htrue, _⟩⟩ := pushable_cons_iff.mp hrows
      · exact List.prefix_refl _
      · rw [hrow] at htrue
        cases htrue
  failed := by
    intro e
    rw [failsWith_ok_iff, hrow]
    constructor
    · intro h
      cases h
    · rintro ⟨htrue, _⟩
      cases htrue
  pulledFailed := by
    intro e h
    cases h
  counted := by
    intro n h
    cases h
    exact ⟨rfl, rfl⟩

/-- A listing with one more row in front. -/
def Listing.behind (row : Record) (l : Listing) : Listing :=
  ⟨row :: l.pushed, l.failure, l.pulled + 1⟩

/-- A row behind which the sink wants more is pushed in front of the others. -/
theorem Delivered.behind {l : Listing} (hrow : sink [row] = true)
    (h : Delivered (fun rows => sink (row :: rows)) items l) :
    Delivered sink (.ok row :: items) (l.behind row) where
  pushable := pushable_cons_iff.mpr ⟨rfl, .inr ⟨hrow, h.pushable⟩⟩
  longest := by
    intro rows hrows
    cases rows with
    | nil => exact List.nil_prefix
    | cons first rows =>
      obtain ⟨rfl, rfl | ⟨_, hrest⟩⟩ := pushable_cons_iff.mp hrows
      · exact List.cons_prefix_cons.mpr ⟨rfl, List.nil_prefix⟩
      · exact List.cons_prefix_cons.mpr ⟨rfl, h.longest rows hrest⟩
  failed := by
    intro e
    rw [failsWith_ok_iff, and_iff_right hrow, ← h.failed, Listing.result_eq_error_iff,
      Listing.result_eq_error_iff]
    rfl
  pulledFailed := by
    intro e hresult
    rw [Listing.result_eq_error_iff] at hresult
    have hpulled := h.pulledFailed e (Listing.result_eq_error_iff.mpr hresult)
    exact congrArg (· + 1) hpulled
  counted := by
    intro n hresult
    obtain ⟨hnone, hlength⟩ := Listing.result_eq_ok_iff.mp hresult
    have hcounted := h.counted l.pushed.length (Listing.result_eq_ok_iff.mpr ⟨hnone, rfl⟩)
    exact ⟨hlength.symm, (congrArg (· + 1) hcounted.2).trans hlength⟩

/-! ## All items -/

/-- The deliveries of items that are passed on one by one. -/
def singly (items : List Item) : List Delivery :=
  items.map (⟨·, 1⟩)

/-- Rows that were pushed before only change what the sink is asked about. -/
theorem Listing.run_before (sink : List Record → Bool) (before : List Record)
    (deliveries : List Delivery) :
    Listing.run sink before deliveries =
      let l := Listing.run (fun rows => sink (before ++ rows)) [] deliveries
      { l with pushed := before ++ l.pushed } := by
  induction deliveries generalizing before sink with
  | nil => simp [Listing.run]
  | cons d rest ih =>
    unfold Listing.run
    cases d.item with
    | error e => simp
    | ok row =>
      simp only [List.nil_append]
      split
      · rw [ih sink (before ++ [row]), ih _ [row]]
        simp [List.append_assoc]
      · simp

/-- A listing starts with its first row, and the sink is asked whether there is more to come. -/
theorem run_cons (sink : List Record → Bool) (row : Record) (items : List Item) :
    Listing.run sink [] (singly (.ok row :: items)) =
      if sink [row] then
        (Listing.run (fun rows => sink (row :: rows)) [] (singly items)).behind row
      else ⟨[row], none, 1⟩ := by
  show (if sink [row] then
      { Listing.run sink [row] (singly items) with
        pulled := 1 + (Listing.run sink [row] (singly items)).pulled }
    else ⟨[row], none, 1⟩) = _
  rw [Listing.run_before sink [row], Nat.add_comm 1]
  rfl

/-- A listing of items that are passed on one by one is what it has to be. -/
theorem delivered_run (sink : List Record → Bool) (items : List Item) :
    Delivered sink items (Listing.run sink [] (singly items)) := by
  induction items generalizing sink with
  | nil => exact delivered_nil sink
  | cons item items ih =>
    cases item with
    | error e => exact delivered_error sink e items
    | ok row =>
      rw [run_cons]
      by_cases hrow : sink [row] = true
      · rw [if_pos hrow]
        exact (ih _).behind hrow
      · rw [if_neg hrow]
        exact delivered_declined items (Bool.eq_false_iff.mpr hrow)

theorem eq_cons_of_take_succ {item : Item} {others : List Item} {n : Nat}
    (h : others.take (n + 1) = (item :: items).take (n + 1)) :
    ∃ rest, others = item :: rest ∧ rest.take n = items.take n := by
  cases others with
  | nil => cases h
  | cons other rest =>
    obtain ⟨hother, hrest⟩ := List.cons.inj h
    exact ⟨rest, by rw [hother], hrest⟩

/-- A listing that was stopped does not depend on the items behind those it pulled. -/
theorem run_congr {others : List Item}
    (hstopped : (Listing.run sink [] (singly items)).Stopped sink)
    (hsame : others.take (Listing.run sink [] (singly items)).pulled =
      items.take (Listing.run sink [] (singly items)).pulled) :
    Listing.run sink [] (singly others) = Listing.run sink [] (singly items) := by
  induction items generalizing sink others with
  | nil =>
    rcases hstopped with hfailed | ⟨hpushed, _⟩
    · exact absurd rfl hfailed
    · exact absurd rfl hpushed
  | cons item items ih =>
    cases item with
    | error e =>
      obtain ⟨rest, rfl, _⟩ := eq_cons_of_take_succ (n := 0) hsame
      rfl
    | ok row =>
      rw [run_cons] at hstopped hsame ⊢
      by_cases hrow : sink [row] = true
      · rw [if_pos hrow] at hstopped hsame ⊢
        obtain ⟨rest, rfl, hrest⟩ := eq_cons_of_take_succ hsame
        rw [run_cons, if_pos hrow, ih ?_ hrest]
        rcases hstopped with hfailed | ⟨_, hdeclined⟩
        · exact .inl hfailed
        · -- The first row was wanted, so it is a later one that the sink declined.
          refine .inr ⟨?_, hdeclined⟩
          intro hnil
          have hdeclined : sink [row] = false := hnil ▸ hdeclined
          rw [hrow] at hdeclined
          cases hdeclined
      · rw [if_neg hrow] at hsame ⊢
        obtain ⟨rest, rfl, _⟩ := eq_cons_of_take_succ (n := 0) hsame
        rw [run_cons, if_neg hrow]

/-! ## Dynamic tables -/

namespace Catalog

theorem list_eq_run {c : Catalog} {name : String} {table : VirtualTable}
    (htable : c.table? name = some table) (hkind : table.kind = .dynamic) (quals : List Qualifier)
    (sink : List Record → Bool) :
    (c.list name quals sink).1 =
      Listing.run sink [] (singly (c.source.query c.url (c.tableStatement table quals))) := by
  have hstream : c.stream name quals = .ok (c.rowStream (c.tableStatement table quals)) := by
    rw [stream_of_table htable, hkind]
  unfold list
  rw [hstream]
  rfl

/-- A listing of a dynamic table is what it has to be for the items of the source, whatever comes
behind the item that stops it. -/
theorem list_dynamic {c : Catalog} {name : String} {table : VirtualTable}
    (htable : c.table? name = some table) (hkind : table.kind = .dynamic) (quals : List Qualifier)
    (sink : List Record → Bool) :
    let sql := c.tableStatement table quals
    let listing := (c.list name quals sink).1
    Delivered sink (c.source.query c.url sql) listing ∧
      ∀ source : Source, listing.Stopped sink →
        (source.query c.url sql).take listing.pulled =
          (c.source.query c.url sql).take listing.pulled →
        (Catalog.list { c with source } name quals sink).1 = listing := by
  intro sql listing
  have hlisting : listing = Listing.run sink [] (singly (c.source.query c.url sql)) :=
    list_eq_run htable hkind quals sink
  rw [hlisting]
  refine ⟨delivered_run sink _, ?_⟩
  intro source hstopped hsame
  have hother : (Catalog.list { c with source } name quals sink).1 =
      Listing.run sink [] (singly (source.query c.url sql)) :=
    list_eq_run (c := { c with source }) htable hkind quals sink
  rw [hother]
  exact run_congr hstopped hsame

/-- A table whose rows the source breaks off behind the second. -/
def brokenOff : Catalog where
  tables := [("users", VirtualTable.synthesize ⟨"users", none, [⟨"id", ⟨.integer, "int8"⟩, none⟩]⟩)]
  schema := "public"
  url := "postgres://db"
  style := .verbatim
  source :=
    { introspect := fun _ _ => .ok []
      query := fun _ sql =>
        [.ok (.ofList [("id", .int 1)]), .ok (.ofList [("id", .int 2)]),
          .error (.query sql (.told "gone")), .ok (.ofList [("id", .int 3)])] }

/-- The row in front of the failure is declined, so the failure is never read. -/
theorem list_declined_before_failure :
    ∃ table, brokenOff.table? "users" = some table ∧ table.kind = .dynamic ∧
      let sink : List Record → Bool := fun rows => rows.length < 2
      let listing := (brokenOff.list "users" [] sink).1
      Delivered sink (brokenOff.source.query brokenOff.url (brokenOff.tableStatement table []))
          listing ∧
        listing.result = .ok 2 ∧ listing.pulled = 2 := by
  refine ⟨_, rfl, rfl, ?_⟩
  have hlisting := @list_dynamic brokenOff "users" _ rfl rfl [] fun rows => rows.length < 2
  exact ⟨hlisting.1, rfl, rfl⟩

end Catalog

end Pushdown
