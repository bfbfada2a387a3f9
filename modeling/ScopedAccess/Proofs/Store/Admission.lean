import ScopedAccess.Proofs.Store.Intact
import ScopedAccess.Store.RoleTables

namespace ScopedAccess

namespace Store

variable {s next : Store} {o : OwnTable} {t : Table} {rows done rest : List Row} {row : Row} {p q : Progress} {i : Nat}

def contents (s : Store) (o : OwnTable) : Option (List Row) := (s.own o).map fun t => t.rows.map (·.cells)

theorem contents_of_agrees {changed : List OwnTable} (agrees : AgreesOff changed s next) (away : o ∉ changed) :
    next.contents o = s.contents o := by
  rw [contents, agrees.own o away, contents]

theorem clear_leaves_none (intact : s.Intact) (cleared : s.clear o = .ok next) :
    next.contents o = some [] ∧ AgreesOff [o] s next ∧ next.Intact := by
  obtain ⟨t, here, rfl⟩ := clear_eq_ok cleared
  have is := intact.is here
  have emptied : Table.Is { t with rows := [] } o := ⟨is.name, is.schema⟩
  refine ⟨?_, put_agrees emptied.name, intact.put emptied⟩
  rw [contents, put_here emptied.name]
  rfl

structure Fits (o : OwnTable) (i : Nat) (row : Row) : Prop where
  full : row.length = o.columns.length
  settled : Table.settle o.columns row = row
  numbered : o.columns.findIdx? ColumnSchema.isNumber = some 0 → row.getD 0 .null = .integer (i + 1)

theorem number_column : o.columns.findIdx? ColumnSchema.isNumber = none ∨ o.columns.findIdx? ColumnSchema.isNumber = some 0 := by
  cases o <;> decide

-- After some of the rows: they stand in the table in their order, and where the table numbers its rows
-- no number is above how many there are.
structure Filled (o : OwnTable) (done : List Row) (p : Progress) : Prop where
  is : p.table.Is o
  cells : p.table.rows.map (·.cells) = done
  ascending : p.table.rows.Pairwise fun a b => a.number < b.number
  counted : o.columns.findIdx? ColumnSchema.isNumber = some 0 → ∀ r ∈ p.table.rows, r.number ≤ done.length

theorem numbered_fits {counter : Int} {r : NumberedRow} (filled : Filled o done p) (fits : Fits o done.length row)
    (numbered : p.table.numbered counter row = .ok r) :
    r.cells = row ∧ (∀ x ∈ p.table.rows, x.number < r.number) ∧
      (o.columns.findIdx? ColumnSchema.isNumber = some 0 → r.number = done.length + 1) := by
  have columns : p.table.schema.columns = o.columns := congrArg _ filled.is.schema
  simp only [Table.numbered, columns, fits.settled] at numbered
  rcases number_column (o := o) with free | key
  · simp only [free] at numbered
    cases follows : p.table.nextNumber? counter with
    | none => simp [follows] at numbered
    | some n =>
      simp only [follows, Option.map_some, Option.elim_some, Except.ok.injEq] at numbered
      subst numbered
      exact ⟨rfl, Table.lt_nextNumber filled.ascending follows, by simp [free]⟩
  · simp only [key, fits.numbered key, Except.ok.injEq] at numbered
    subst numbered
    refine ⟨rfl, ?_, fun _ => rfl⟩
    intro x member
    have bound := filled.counted key x member
    change x.number < (done.length : Int) + 1
    omega

theorem filled_step (filled : Filled o done p) (fits : Fits o done.length row) (stepped : Progress.step none p row = .ok q) :
    Filled o (done ++ [row]) q := by
  obtain ⟨r, numbered, ⟨_, came, _⟩ | ⟨⟨_, _, impossible⟩, _⟩⟩ := step_eq_ok stepped
  · obtain ⟨cells, above, number⟩ := numbered_fits filled fits numbered
    rw [Table.add_last above] at came
    refine ⟨?_, ?_, ?_, ?_⟩
    · rw [came]
      exact ⟨filled.is.name, filled.is.schema⟩
    · simp [came, filled.cells, cells]
    · rw [came, List.pairwise_append]
      refine ⟨filled.ascending, by simp, ?_⟩
      intro x member y last
      cases List.mem_singleton.mp last
      exact above x member
    · intro key x member
      simp only [came, List.mem_append, List.mem_singleton] at member
      simp only [List.length_append, List.length_singleton]
      rcases member with old | rfl
      · have bound := filled.counted key x old
        omega
      · have exactly := number key
        omega
  · cases impossible

theorem fill_agrees (intact : s.Intact) (uncounted : o.schema.isCounted = false) (ran : s.fill o rows = .ok next) :
    AgreesOff [o] s next ∧ next.Intact := by
  unfold fill at ran
  split at ran
  · cases ran
    exact ⟨.refl, intact⟩
  · rw [bind_eq_ok_iff] at ran
    obtain ⟨⟨written, _⟩, wrote, same⟩ := ran
    cases same
    obtain ⟨_, _, _, _, _, _, agrees, intact⟩ := insertInto_eq_ok intact uncounted wrote
    exact ⟨agrees, intact⟩

theorem fill_eq_ok (intact : s.Intact) (uncounted : o.schema.isCounted = false) (empty : s.contents o = some [])
    (fits : ∀ i row, rows[i]? = some row → Fits o i row) (ran : s.fill o rows = .ok next) :
    next.contents o = some rows ∧ AgreesOff [o] s next ∧ next.Intact := by
  refine ⟨?_, fill_agrees intact uncounted ran⟩
  unfold fill at ran
  split at ran
  · rename_i none
    cases ran
    rw [List.isEmpty_iff.mp none]
    exact empty
  · rw [bind_eq_ok_iff] at ran
    obtain ⟨⟨written, n⟩, wrote, same⟩ := ran
    cases same
    obtain ⟨t, p, here, ran, _, place, _⟩ := insertInto_eq_ok intact uncounted wrote
    have is := intact.is here
    have none : t.rows = [] := by
      simpa [contents, here] using empty
    have arranged : rows.map (arrange t (o.columns.map (·.name))) = rows := by
      refine (List.map_congr_left ?_).trans (List.map_id rows)
      intro row member
      obtain ⟨i, place⟩ := List.mem_iff_getElem?.mp member
      have columns : t.schema.columns = [] ++ o.columns := congrArg _ is.schema
      exact arrange_eq columns OwnTable.columns_distinct (fits i row place).full
    rw [arranged] at ran
    have filled : Filled o rows p := by
      refine foldlM_invariant (Filled o) ?_ ?_ ran
      · exact ⟨is, by simp [none], by simp [none], by simp [none]⟩
      · intro done row rest p q split filled stepped
        refine filled_step filled (fits _ _ ?_) stepped
        simp [split]
    rw [contents, place, Option.map_some, filled.cells]

inductive TableWrite where
  | empty (o : OwnTable)
  | fill (o : OwnTable) (rows : List Row)

def write (s : Store) : TableWrite → Except StoreFault Store
  | .empty o => s.clear o
  | .fill o rows => s.fill o rows

def TableWrite.table : TableWrite → OwnTable
  | .empty o | .fill o _ => o

theorem write_agrees {w : TableWrite} (intact : s.Intact) (uncounted : w.table.schema.isCounted = false)
    (ran : s.write w = .ok next) : AgreesOff [w.table] s next ∧ next.Intact := by
  cases w with
  | empty o => exact (clear_leaves_none intact ran).2
  | fill o rows => exact fill_agrees intact uncounted ran

theorem writes_agree {writes : List TableWrite} {changed : List OwnTable} (intact : s.Intact)
    (within : ∀ w ∈ writes, w.table.schema.isCounted = false ∧ w.table ∈ changed) (ran : writes.foldlM write s = .ok next) :
    AgreesOff changed s next ∧ next.Intact := by
  refine foldlM_invariant (fun _ middle => AgreesOff changed s middle ∧ middle.Intact) ⟨.refl, intact⟩ ?_ ran
  rintro done w rest middle after split ⟨toMiddle, intactMiddle⟩ wrote
  obtain ⟨uncounted, listed⟩ := within w (by simp [split])
  obtain ⟨toAfter, intactAfter⟩ := write_agrees intactMiddle uncounted wrote
  exact ⟨toMiddle.trans (toAfter.mono (by simp [listed])), intactAfter⟩

end Store

namespace OwnTable

variable {o u : OwnTable} {k : ForeignKey} {row : Row} {i : Nat} {c : ColumnSchema}

theorem eq_of_sameName (same : sameName o.name u.name = true) : o = u := by
  have left : named? o.name = some o := named?_name
  have right : named? u.name = some u := named?_name
  have alike : named? o.name = named? u.name := by
    have lowered : o.name.map Char.toLower = u.name.map Char.toLower := of_decide_eq_true same
    simp only [named?, sameName, lowered]
  rw [left, right] at alike
  exact Option.some.inj alike

theorem name_injective (same : o.name = u.name) : o = u := by
  refine eq_of_sameName ?_
  rw [same]
  exact sameName_self

-- Own tables refer to roles and permissions only, by their keys.
theorem parent_of_foreignKey (member : k ∈ u.foreignKeys) :
    ∃ p : OwnTable, k.parent = p.name ∧ p.schema.identifies k.references = true ∧ p.schema.hasColumn k.references = true ∧
      u.schema.hasColumn k.column = true := by
  have roles : roles.schema.identifies "name" = true ∧ roles.schema.hasColumn "name" = true := by
    simp [schema, columns, TableSchema.identifies, TableSchema.hasColumn, TableSchema.columnIndex?, ColumnSchema.key,
      ColumnSchema.plain, List.findIdx?_cons, sameName_eq]
  have permissions : permissions.schema.identifies "id" = true ∧ permissions.schema.hasColumn "id" = true := by
    simp [schema, columns, TableSchema.identifies, TableSchema.hasColumn, TableSchema.columnIndex?, ColumnSchema.key,
      ColumnSchema.plain, List.findIdx?_cons, sameName_eq]
  have grants : grants.schema.hasColumn "permission_id" = true ∧ grants.schema.hasColumn "role" = true := by
    simp [schema, columns, TableSchema.hasColumn, TableSchema.columnIndex?, ColumnSchema.key, ColumnSchema.plain,
      List.findIdx?_cons, sameName_eq]
  have implications : implications.schema.hasColumn "from_role" = true ∧ implications.schema.hasColumn "to_role" = true := by
    simp [schema, columns, TableSchema.hasColumn, TableSchema.columnIndex?, ColumnSchema.key, ColumnSchema.plain,
      List.findIdx?_cons, sameName_eq]
  cases u <;> simp only [foreignKeys, List.mem_cons, List.not_mem_nil, or_false] at member
  · rcases member with rfl | rfl
    · exact ⟨.permissions, rfl, permissions.1, permissions.2, grants.1⟩
    · exact ⟨.roles, rfl, roles.1, roles.2, grants.2⟩
  · rcases member with rfl | rfl
    · exact ⟨.roles, rfl, roles.1, roles.2, implications.1⟩
    · exact ⟨.roles, rfl, roles.1, roles.2, implications.2⟩

theorem refers_iff :
    (∃ k ∈ u.foreignKeys, k.parent = o.name) ↔
      o = .permissions ∧ u = .grants ∨ o = .roles ∧ (u = .grants ∨ u = .implications) := by
  cases u <;> cases o <;> simp [foreignKeys, name]

def entry (o : OwnTable) (column : String) (row : Row) : Cell × Option Affinity :=
  match o.schema.columnIndex? column with
  | some i => (row.getD i .null, (o.columns[i]?).bind (·.column.affinity))
  | none => (.null, none)

def unique (o : OwnTable) : List (List String) :=
  (o.columns.filter (·.isKey)).map (fun c => [c.name]) ++ (o.indexes.filter (·.isUnique)).map (·.columns)

theorem unique_known : ∀ columns ∈ o.unique, ∀ column ∈ columns, o.schema.hasColumn column = true := by
  cases o <;>
    simp [unique, columns, indexes, schema, TableSchema.hasColumn, TableSchema.columnIndex?, ColumnSchema.key, ColumnSchema.plain,
      ColumnSchema.free, List.findIdx?_cons, sameName_eq]

theorem entry_of_place (here : o.columns[i]? = some c) : o.entry c.name row = (row.getD i .null, c.column.affinity) := by
  simp only [entry, columnIndex?_name here, here, Option.bind_some]

def filled (o : OwnTable) (rows : List Row) : Table := ⟨o.name, o.schema, rows.mapIdx fun i row => ⟨i + 1, row⟩⟩

theorem filled_is {rows : List Row} : (o.filled rows).Is o := ⟨rfl, rfl⟩

end OwnTable

namespace Store

variable {s : Store} {o u : OwnTable} {t child : Table} {k : ForeignKey} {r : NumberedRow} {chosen : NumberedRow → Bool}

theorem writable_ok (here : s.own o = some t) : s.writable o.name = .ok t := by
  simp only [writable, OwnTable.not_catalog, find?_own, here]
  rfl

theorem referenceFault?_eq_none (intact : s.Intact) (is : t.Is o) : s.referenceFault? t = none := by
  rw [referenceFault?, is.schema, List.findSome?_eq_none_iff]
  intro k member
  obtain ⟨p, named, identified, _⟩ := OwnTable.parent_of_foreignKey member
  obtain ⟨parent, here, parentIs⟩ := intact p
  rw [named, find?_own, here]
  simp only [parentIs.schema, identified, if_true]

theorem of_mem_referencesTo (intact : s.Intact) (is : t.Is o) (member : (child, k) ∈ s.referencesTo t) :
    ∃ u, s.own u = some child ∧ k ∈ u.foreignKeys ∧ k.parent = o.name ∧ o.schema.identifies k.references = true := by
  simp only [referencesTo, ownTables, List.mem_flatMap, List.mem_filterMap, List.mem_map, List.mem_filter, Prod.mk.injEq] at member
  obtain ⟨table, ⟨u, _, here⟩, key, ⟨listed, same⟩, rfl, rfl⟩ := member
  have childIs := intact.is here
  rw [childIs.schema] at listed
  obtain ⟨p, named, identified, _⟩ := OwnTable.parent_of_foreignKey listed
  rw [named, is.name] at same
  cases OwnTable.eq_of_sameName same
  exact ⟨u, here, listed, named, identified⟩

theorem isReferenced_eq_false (intact : s.Intact) (is : t.Is o)
    (unused : ∀ u child, s.own u = some child → (∃ k ∈ u.foreignKeys, k.parent = o.name) → child.rows = []) :
    s.isReferenced t r = false := by
  rw [isReferenced, List.any_eq_false]
  rintro ⟨child, k⟩ member
  obtain ⟨u, here, listed, named, _⟩ := of_mem_referencesTo intact is member
  simp [unused u child here ⟨k, listed, named⟩]

theorem deleteWhere_ok (intact : s.Intact) (is : t.Is o) (unreferenced : ∀ r ∈ t.rows, s.isReferenced t r = false) :
    s.deleteWhere t chosen = .ok (s.put { t with rows := t.rows.filter fun r => !chosen r }, (t.rows.filter chosen).length) := by
  have keyed : ((s.referencesTo t).find? fun link => !t.schema.identifies link.2.references) = none := by
    rw [List.find?_eq_none]
    intro link member
    obtain ⟨_, _, _, _, identified⟩ := of_mem_referencesTo intact is member
    simp [is.schema, identified]
  have free : (t.rows.filter chosen).any (s.isReferenced t) = false := by
    rw [List.any_eq_false]
    intro r member
    rw [unreferenced r (List.mem_filter.mp member).1]
    exact Bool.false_ne_true
  simp only [deleteWhere, referenceFault?_eq_none intact is, keyed, free, Bool.false_eq_true, if_false]

theorem deleteMatching_ok (intact : s.Intact) (here : s.own o = some t) {criteria : List (String × String)}
    (known : ∀ c ∈ criteria, o.schema.hasColumn c.1 = true) (unreferenced : ∀ r ∈ t.rows, s.isReferenced t r = false) :
    s.deleteMatching o criteria =
      .ok (s.put { t with rows := t.rows.filter fun r => !Selects t criteria r },
        (t.rows.filter (Selects t criteria)).length) := by
  have is := intact.is here
  have columns : (criteria.find? fun c => !t.schema.hasColumn c.1) = none := by
    rw [List.find?_eq_none]
    intro c member
    rw [is.schema, known c member]
    exact Bool.false_ne_true
  simp only [deleteMatching, writable_ok here, bind, Except.bind, columns]
  exact deleteWhere_ok intact is unreferenced

theorem clear_ok (intact : s.Intact)
    (unused : ∀ u, (∃ k ∈ u.foreignKeys, k.parent = o.name) → s.contents u = some []) : ∃ next, s.clear o = .ok next := by
  obtain ⟨t, here, is⟩ := intact o
  have unreferenced : ∀ r ∈ t.rows, s.isReferenced t r = false := by
    intro r _
    refine isReferenced_eq_false intact is ?_
    intro u child place refers
    simpa [contents, place] using unused u refers
  rw [clear, deleteMatching_ok intact here (by simp) unreferenced]
  exact ⟨_, rfl⟩

variable {rows done : List Row} {row : Row} {p q : Progress}

structure Admissible (s : Store) (o : OwnTable) (rows : List Row) : Prop where
  fits : ∀ i row, rows[i]? = some row → Fits o i row
  whole : ∀ row ∈ rows, .null ∉ row
  apart : rows.Pairwise fun a b => ∀ columns ∈ o.unique, ∃ column ∈ columns,
    Cell.same (o.entry column b).1 (o.entry column a).1 = false
  anchored : ∀ k ∈ o.foreignKeys, ∃ u : OwnTable, ∃ parents, k.parent = u.name ∧ u ≠ o ∧ s.contents u = some parents ∧
    ∀ row ∈ rows, ∃ parent ∈ parents, Cell.equal (o.entry k.column row) (u.entry k.references parent) = true

theorem value_entry (is : t.Is o) {column : String} (known : o.schema.hasColumn column = true) :
    t.value column r = o.entry column r.cells := by
  obtain ⟨i, place⟩ := Option.isSome_iff_exists.mp known
  simp only [Table.value, is.schema, OwnTable.entry, place]
  rfl

theorem clash?_eq_none (is : t.Is o)
    (apart : ∀ x ∈ t.rows, ∀ columns ∈ o.unique, ∃ column ∈ columns,
      Cell.same (o.entry column r.cells).1 (o.entry column x.cells).1 = false) : t.clash? r = none := by
  let keys := (t.schema.columns.filter (·.isKey)).map fun c => (⟨[c.name], true⟩ : Table.Clash)
  let entries := (t.schema.indexes.filter (·.isUnique)).map fun i => (⟨i.columns, false⟩ : Table.Clash)
  have listed : (keys ++ entries).map (·.columns) = o.unique := by
    rw [List.map_append, List.map_map, List.map_map, is.schema]
    rfl
  rw [Table.clash?, List.find?_eq_none]
  intro clash member
  have unique : clash.columns ∈ o.unique := listed ▸ List.mem_map_of_mem member
  rw [Bool.not_eq_true, List.any_eq_false]
  intro x here
  obtain ⟨column, inside, differ⟩ := apart x here clash.columns unique
  have known := OwnTable.unique_known clash.columns unique column inside
  rw [Bool.not_eq_true, Table.agree, List.all_eq_false]
  refine ⟨column, inside, ?_⟩
  rw [Table.cell, Table.cell, value_entry is known, value_entry is known, differ]
  exact Bool.false_ne_true

theorem missingValue?_eq_none (is : t.Is o) (full : r.cells.length = o.columns.length) (whole : .null ∉ r.cells) :
    t.missingValue? r = none := by
  have columns : t.schema.columns = o.columns := congrArg _ is.schema
  rw [Table.missingValue?, columns, Option.map_eq_none_iff, List.find?_eq_none]
  intro c member
  obtain ⟨i, place⟩ := List.mem_iff_getElem?.mp member
  rw [Table.cell_own is place, Bool.and_eq_true, decide_eq_true_eq]
  intro given
  have bound : i < r.cells.length := full ▸ (List.getElem?_eq_some_iff.mp place).1
  have there : r.cells.getD i .null ∈ r.cells := by
    rw [List.getD_eq_getElem?_getD, List.getElem?_eq_getElem bound, Option.getD_some]
    exact List.getElem_mem bound
  exact whole (given.2 ▸ there)

theorem cells_filled : (o.filled rows).rows.map (·.cells) = rows := by
  rw [OwnTable.filled, List.mapIdx_eq_zipIdx_map, List.map_map]
  exact List.zipIdx_map_fst 0 rows

theorem number_lt_of_filled : ∀ x ∈ (o.filled done).rows, x.number < done.length + 1 := by
  intro x member
  obtain ⟨i, place, rfl⟩ := List.mem_mapIdx.mp member
  dsimp only
  omega

theorem lastNumber?_filled : (o.filled done).lastNumber? = if done = [] then none else some (done.length : Int) := by
  rcases List.eq_nil_or_concat done with rfl | ⟨front, last, rfl⟩
  · rfl
  · simp [Table.lastNumber?, OwnTable.filled]

-- Whether the number is given as the key or follows from the last one, it is the same.
theorem numbered_filled (counter : Int) (fits : Fits o done.length row) (uncounted : o.schema.isCounted = false) :
    (o.filled done).numbered counter row = .ok ⟨done.length + 1, row⟩ := by
  have columns : (o.filled done).schema.columns = o.columns := rfl
  simp only [Table.numbered, columns, fits.settled]
  rcases number_column (o := o) with none | key
  · have next : (o.filled done).nextNumber? counter = some (done.length + 1 : Int) := by
      have free : (o.filled done).schema.isCounted = false := uncounted
      simp only [Table.nextNumber?, lastNumber?_filled, free, Bool.false_eq_true, if_false]
      split <;> rename_i last
      · split at last
        · cases last
        · cases last
          rfl
      · split at last
        · simp [*]
        · cases last
    simp only [none, next, Option.map_some, Option.elim_some]
  · simp only [key, fits.numbered key]

theorem add_filled : (o.filled done).add ⟨done.length + 1, row⟩ = o.filled (done ++ [row]) := by
  rw [Table.add_last number_lt_of_filled]
  simp [OwnTable.filled]

theorem step_ok (counter : Int) (added : List NumberedRow) (fits : Fits o done.length row)
    (uncounted : o.schema.isCounted = false) (whole : .null ∉ row)
    (apart : ∀ a ∈ done, ∀ columns ∈ o.unique, ∃ column ∈ columns,
      Cell.same (o.entry column row).1 (o.entry column a).1 = false) :
    Progress.step none ⟨o.filled done, counter, added⟩ row =
      .ok ⟨o.filled (done ++ [row]), max counter (done.length + 1), added ++ [⟨done.length + 1, row⟩]⟩ := by
  have nothingMissing : (o.filled done).missingValue? ⟨done.length + 1, row⟩ = none :=
    missingValue?_eq_none OwnTable.filled_is fits.full whole
  have noClash : (o.filled done).clash? ⟨done.length + 1, row⟩ = none := by
    refine clash?_eq_none OwnTable.filled_is ?_
    intro x here
    have known : x.cells ∈ done := by
      have listed : x.cells ∈ (o.filled done).rows.map (·.cells) := List.mem_map_of_mem here
      rwa [cells_filled] at listed
    exact apart x.cells known
  simp only [Progress.step, numbered_filled counter fits uncounted, bind, Except.bind, nothingMissing, noClash, add_filled]

theorem anchored_ok (intact : s.Intact) (is : t.Is o) (admissible : Admissible s o rows) (member : r.cells ∈ rows) :
    (s.put t).isAnchored t r = true := by
  rw [isAnchored, is.schema, List.all_eq_true]
  intro k listed
  obtain ⟨u, parents, named, other, held, each⟩ := admissible.anchored k listed
  obtain ⟨parent, there, equal⟩ := each r.cells member
  obtain ⟨p, sameName, _, reference, column⟩ := OwnTable.parent_of_foreignKey listed
  cases OwnTable.name_injective (named.symm.trans sameName)
  obtain ⟨table, here, tableIs⟩ := intact u
  have kept : (s.put t).own u = some table := by
    rw [(put_agrees is.name).own u (by simpa using other)]
    exact here
  rw [contents, here, Option.map_some, Option.some.injEq] at held
  rw [← held] at there
  obtain ⟨x, inside, rfl⟩ := List.mem_map.mp there
  have refers : refersTo t k table r x = true := by
    rw [refersTo, value_entry is column, value_entry tableIs reference]
    exact equal
  simp only [named, find?_own, kept, Option.map_some, Option.getD_some, Bool.or_eq_true, List.any_eq_true]
  exact .inr ⟨x, inside, refers⟩

theorem rows_ok (counter : Int) (uncounted : o.schema.isCounted = false) (admissible : Admissible s o rows) :
    ∃ p, rows.foldlM (Progress.step none) ⟨o.filled [], counter, []⟩ = .ok p ∧ p.table = o.filled rows ∧
      ∀ r ∈ p.added, r.cells ∈ rows := by
  refine foldlM_ok (fun done (p : Progress) => p.table = o.filled done ∧ ∀ r ∈ p.added, r.cells ∈ done) ⟨rfl, by simp⟩ ?_
  rintro done row rest ⟨_, counter, added⟩ split ⟨rfl, known⟩
  have apart := admissible.apart
  rw [split, List.pairwise_append] at apart
  have stepped := step_ok counter added (admissible.fits _ _ (by simp [split])) uncounted
    (admissible.whole row (by simp [split])) fun a old => apart.2.2 a old row (List.mem_cons_self ..)
  refine ⟨_, stepped, rfl, ?_⟩
  intro x new
  rcases List.mem_append.mp new with old | last
  · exact List.mem_append_left _ (known x old)
  · cases List.mem_singleton.mp last
    exact List.mem_append_right _ (List.mem_singleton_self _)

theorem fill_ok (intact : s.Intact) (uncounted : o.schema.isCounted = false) (empty : s.contents o = some [])
    (admissible : Admissible s o rows) :
    ∃ next, s.fill o rows = .ok next ∧ next.own o = some (o.filled rows) ∧ AgreesOff [o] s next := by
  obtain ⟨t, here, is⟩ := intact o
  have vacant : t = o.filled [] := by
    have none : t.rows = [] := by
      simpa [contents, here] using empty
    obtain ⟨name, schema, rows⟩ := t
    cases is.name
    cases is.schema
    cases none
    rfl
  subst vacant
  unfold fill
  split
  · rename_i none
    rw [List.isEmpty_iff.mp none]
    exact ⟨s, rfl, here, .refl⟩
  · have known : ((o.columns.map (·.name)).find? fun c => !(o.filled []).schema.hasColumn c) = none := by
      rw [List.find?_eq_none]
      intro name member
      have listed : (o.filled []).schema.hasColumn name = true := OwnTable.hasColumn_listed member
      rw [listed]
      decide
    have arranged : rows.map (arrange (o.filled []) (o.columns.map (·.name))) = rows := by
      refine (List.map_congr_left ?_).trans (List.map_id rows)
      intro row member
      obtain ⟨i, place⟩ := List.mem_iff_getElem?.mp member
      have columns : (o.filled []).schema.columns = [] ++ o.columns := rfl
      exact arrange_eq columns OwnTable.columns_distinct (admissible.fits i row place).full
    obtain ⟨⟨_, counter, added⟩, ran, rfl, new⟩ := rows_ok (s.counter (o.filled []).name) uncounted admissible
    have free : (o.filled []).schema.isCounted = false := uncounted
    have anchored : added.all ((s.put (o.filled rows)).isAnchored (o.filled rows)) = true := by
      rw [List.all_eq_true]
      intro r member
      exact anchored_ok intact OwnTable.filled_is admissible (new r member)
    refine ⟨s.put (o.filled rows), ?_, put_here rfl, put_agrees rfl⟩
    simp only [insertInto, writable_ok here, bind, Except.bind, known, arranged, insertRows, Option.map_none, Option.getD_none,
      if_true, referenceFault?_eq_none intact is, ran, mapError_ok, free, Bool.false_eq_true, if_false, anchored]

end Store

end ScopedAccess
