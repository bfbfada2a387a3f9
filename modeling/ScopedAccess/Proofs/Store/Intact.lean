import ScopedAccess.Proofs.Outcome
import ScopedAccess.Store.Change

namespace ScopedAccess

def ColumnSchema.Distinct (columns : List ColumnSchema) : Prop := columns.Pairwise fun a b => sameName a.name b.name = false

namespace OwnTable

variable {o u : OwnTable}

theorem named?_name : named? o.name = some o := by
  cases o <;> simp [named?, all, OwnTable.name, sameName_eq]

theorem not_catalog : Store.isCatalog o.name = false := by
  cases o <;> simp [Store.isCatalog, Store.catalogNames, Store.catalogName, OwnTable.name, sameName_eq]

theorem columns_distinct : ColumnSchema.Distinct o.columns := by
  cases o <;> simp [ColumnSchema.Distinct, columns, ColumnSchema.key, ColumnSchema.plain, ColumnSchema.free, sameName_eq]

theorem columnIndex?_name {i : Nat} {c : ColumnSchema} (here : o.columns[i]? = some c) :
    o.schema.columnIndex? c.name = some i := by
  obtain ⟨bound, rfl⟩ := List.getElem?_eq_some_iff.mp here
  refine List.findIdx?_eq_some_iff_getElem.mpr ⟨bound, sameName_self, ?_⟩
  intro j before
  have other := List.pairwise_iff_getElem.mp columns_distinct j i (Nat.lt_trans before bound) bound before
  exact Bool.eq_false_iff.mp other

theorem hasColumn_listed {name : String} (listed : name ∈ o.columns.map (·.name)) : o.schema.hasColumn name = true := by
  obtain ⟨c, member, rfl⟩ := List.mem_map.mp listed
  obtain ⟨i, place⟩ := List.mem_iff_getElem?.mp member
  rw [TableSchema.hasColumn, columnIndex?_name place]
  rfl

end OwnTable

-- The table that the store keeps as `o`, whatever its rows.
structure Table.Is (t : Table) (o : OwnTable) : Prop where
  name : t.name = o.name
  schema : t.schema = o.schema

namespace Store

variable {s next : Store} {o u : OwnTable} {t table : Table}

def Intact (s : Store) : Prop := ∀ o, ∃ t, s.own o = some t ∧ t.Is o

theorem fresh_intact {application : List Table} : (fresh application).Intact := by
  intro o
  refine ⟨_, rfl, ?_⟩
  cases o <;> exact ⟨rfl, rfl⟩

theorem Intact.is (intact : s.Intact) (here : s.own o = some t) : t.Is o := by
  obtain ⟨table, found, is⟩ := intact o
  rw [here] at found
  cases found
  exact is

theorem find?_own : s.find? o.name = s.own o := by
  simp only [find?, OwnTable.named?_name]

theorem writable_own (found : s.writable o.name = .ok t) : s.own o = some t := by
  simp only [writable, OwnTable.not_catalog, find?_own] at found
  cases here : s.own o with
  | none => simp [here, refuse] at found
  | some table =>
    simp only [here] at found
    cases found
    rfl

theorem put_own (named : table.name = o.name) :
    s.put table = { s with own := fun u => if u = o then some table else s.own u } := by
  simp only [put, named, OwnTable.named?_name]

structure AgreesOff (changed : List OwnTable) (s next : Store) : Prop where
  application : next.application = s.application
  own : ∀ o, o ∉ changed → next.own o = s.own o

variable {changed more : List OwnTable} {last : Store}

theorem AgreesOff.refl : AgreesOff changed s s := ⟨rfl, fun _ _ => rfl⟩

theorem AgreesOff.symm (agrees : AgreesOff changed s next) : AgreesOff changed next s :=
  ⟨agrees.application.symm, fun o away => (agrees.own o away).symm⟩

theorem AgreesOff.trans (first : AgreesOff changed s next) (second : AgreesOff changed next last) : AgreesOff changed s last :=
  ⟨second.application.trans first.application, fun o away => (second.own o away).trans (first.own o away)⟩

theorem AgreesOff.mono (agrees : AgreesOff changed s next) (within : ∀ o ∈ changed, o ∈ more) : AgreesOff more s next :=
  ⟨agrees.application, fun o away => agrees.own o fun member => away (within o member)⟩

theorem put_agrees (named : table.name = o.name) : AgreesOff [o] s (s.put table) := by
  rw [put_own named]
  exact ⟨rfl, fun u away => if_neg fun same => away (List.mem_singleton.mpr same)⟩

theorem put_here (named : table.name = o.name) : (s.put table).own o = some table := by
  rw [put_own named]
  exact if_pos rfl

theorem Intact.put (intact : s.Intact) (is : table.Is o) : (s.put table).Intact := by
  intro u
  by_cases same : u = o
  · subst same
    exact ⟨table, put_here is.name, is⟩
  · rw [(put_agrees is.name).own u fun member => same (List.mem_singleton.mp member)]
    exact intact u

variable {n : Nat} {chosen : NumberedRow → Bool} {passing : Option (List String)}
  {p q : Progress} {row : Row} {rows : List Row} {columns : List String} {counter : Int}

theorem deleteWhere_eq_ok (deleted : s.deleteWhere t chosen = .ok (next, n)) :
    next = s.put { t with rows := t.rows.filter fun r => !chosen r } ∧ n = (t.rows.filter chosen).length := by
  unfold deleteWhere at deleted
  split at deleted
  · cases deleted
  · split at deleted
    · cases deleted
    · dsimp only at deleted
      split at deleted
      · cases deleted
      · cases deleted
        exact ⟨rfl, rfl⟩

def Selects (t : Table) (criteria : List (String × String)) (r : NumberedRow) : Bool :=
  criteria.all fun c => t.holds c.1 (.text c.2) r

theorem deleteMatching_eq_ok {criteria : List (String × String)} (deleted : s.deleteMatching o criteria = .ok (next, n)) :
    ∃ t, s.own o = some t ∧ next = s.put { t with rows := t.rows.filter fun r => !Selects t criteria r } ∧
      n = (t.rows.filter (Selects t criteria)).length := by
  rw [deleteMatching, bind_eq_ok_iff] at deleted
  obtain ⟨t, found, deleted⟩ := deleted
  split at deleted
  · cases deleted
  · obtain ⟨same, count⟩ := deleteWhere_eq_ok deleted
    exact ⟨t, writable_own found, same, count⟩

theorem clear_eq_ok (cleared : s.clear o = .ok next) : ∃ t, s.own o = some t ∧ next = s.put { t with rows := [] } := by
  rw [clear, bind_eq_ok_iff] at cleared
  obtain ⟨⟨emptied, n⟩, deleted, same⟩ := cleared
  cases same
  obtain ⟨t, found, same, _⟩ := deleteMatching_eq_ok deleted
  refine ⟨t, found, ?_⟩
  have all : t.rows.filter (fun r => !Selects t [] r) = [] := List.filter_eq_nil_iff.mpr (by simp [Selects])
  rwa [all] at same

theorem setCounter_agrees (intact : s.Intact) (name : String) (counter : Int) :
    AgreesOff [.counters] s (s.setCounter name counter) ∧ (s.setCounter name counter).Intact := by
  obtain ⟨t, here, is⟩ := intact .counters
  unfold setCounter
  simp only [here]
  split
  · exact ⟨put_agrees is.name, intact.put ⟨is.name, is.schema⟩⟩
  · exact ⟨put_agrees is.name, intact.put ⟨is.name, is.schema⟩⟩

-- A row either comes into the table or clashes with one that is there already.
theorem step_eq_ok (stepped : Progress.step passing p row = .ok q) :
    ∃ r, p.table.numbered p.counter row = .ok r ∧
      ((p.table.clash? r = none ∧ q.table = p.table.add r ∧ q.added = p.added ++ [r]) ∨
        (∃ clash, p.table.clash? r = some clash ∧ passing = some clash.columns) ∧ q.table = p.table ∧ q.added = p.added) := by
  rw [Progress.step, bind_eq_ok_iff] at stepped
  obtain ⟨r, numbered, stepped⟩ := stepped
  refine ⟨r, numbered, ?_⟩
  dsimp only at stepped
  split at stepped
  · cases stepped
  · split at stepped
    · rename_i free
      cases stepped
      exact .inl ⟨free, rfl, rfl⟩
    · rename_i clash found
      split at stepped
      · rename_i passes
        cases stepped
        exact .inr ⟨⟨clash, found, passes⟩, rfl, rfl⟩
      · cases stepped

theorem progress_is (is : t.Is o) (ran : rows.foldlM (Progress.step passing) ⟨t, counter, []⟩ = .ok p) : p.table.Is o := by
  refine foldlM_invariant (fun _ p => p.table.Is o) is ?_ ran
  intro done row rest p q split held stepped
  obtain ⟨r, _, ⟨_, came, _⟩ | ⟨_, stayed, _⟩⟩ := step_eq_ok stepped
  · rw [came]
    exact ⟨held.name, held.schema⟩
  · rw [stayed]
    exact held

theorem insertInto_eq_ok (intact : s.Intact) (uncounted : o.schema.isCounted = false)
    (wrote : s.insertInto o.name columns passing rows = .ok (next, n)) :
    ∃ t p, s.own o = some t ∧
      (rows.map (arrange t columns)).foldlM (Progress.step passing) ⟨t, s.counter t.name, []⟩ = .ok p ∧
      n = p.added.length ∧ next.own o = some p.table ∧ AgreesOff [o] s next ∧ next.Intact := by
  rw [insertInto, bind_eq_ok_iff] at wrote
  obtain ⟨t, found, wrote⟩ := wrote
  have here := writable_own found
  have free : t.schema.isCounted = false := (congrArg (·.isCounted) (intact.is here).schema).trans uncounted
  split at wrote
  · cases wrote
  · unfold insertRows at wrote
    split at wrote
    · split at wrote
      · cases wrote
      · rw [bind_eq_ok_iff] at wrote
        obtain ⟨p, ran, wrote⟩ := wrote
        rw [mapError_eq_ok_iff] at ran
        have is := progress_is (intact.is here) ran
        simp only [free, Bool.false_eq_true, if_false] at wrote
        split at wrote
        · cases wrote
          exact ⟨t, p, here, ran, rfl, put_here is.name, put_agrees is.name, intact.put is⟩
        · cases wrote
    · cases wrote

end Store

namespace Table

variable {t : Table} {o : OwnTable} {r : NumberedRow} {i : Nat} {c : ColumnSchema} {text : String} {counter n : Int}

theorem value_own (is : t.Is o) (here : o.columns[i]? = some c) :
    t.value c.name r = (r.cells.getD i .null, c.column.affinity) := by
  have place : o.schema.columns[i]? = some c := here
  simp only [value, is.schema, OwnTable.columnIndex?_name here, place, Option.bind_some]

theorem cell_own (is : t.Is o) (here : o.columns[i]? = some c) : t.cell c.name r = r.cells.getD i .null := by
  rw [cell, value_own is here]

theorem cells_own (is : t.Is o) (full : r.cells.length = o.columns.length) :
    ((o.columns.map (·.name)).map fun name => t.cell name r) = r.cells := by
  apply List.ext_getElem
  · simp [full]
  · intro i left right
    obtain ⟨c, place⟩ : ∃ c, o.columns[i]? = some c := ⟨_, List.getElem?_eq_getElem (full ▸ right)⟩
    obtain ⟨_, rfl⟩ := List.getElem?_eq_some_iff.mp place
    rw [List.getElem_map, List.getElem_map, cell_own is place, List.getD_eq_getElem?_getD, List.getElem?_eq_getElem right,
      Option.getD_some]

-- In a column that prefers text, only that text itself will do.
theorem holds_text_iff (is : t.Is o) (here : o.columns[i]? = some c) (textual : c.column.affinity = some .text) :
    t.holds c.name (.text text) r = true ↔ t.cell c.name r = .text text := by
  rw [holds, cell, value_own is here, textual]
  cases r.cells.getD i .null <;> simp [Cell.equal, Cell.same, Cell.written]

theorem add_last (above : ∀ x ∈ t.rows, x.number < r.number) : t.add r = { t with rows := t.rows ++ [r] } := by
  have below : t.rows.filter (·.number < r.number) = t.rows :=
    List.filter_eq_self.mpr fun x member => decide_eq_true (above x member)
  have after : t.rows.filter (r.number < ·.number) = [] := by
    rw [List.filter_eq_nil_iff]
    intro x member later
    have before := above x member
    have beyond := of_decide_eq_true later
    omega
  rw [add, below, after]

theorem last_lt_nextNumber {last : Int} (ends : t.lastNumber? = some last) (next : t.nextNumber? counter = some n) : last < n := by
  unfold nextNumber? at next
  simp only [ends] at next
  split at next
  · split at next
    · cases next
      omega
    · cases next
  · cases next
    omega

-- The next number is above the last one, and so above all of them where the numbers go up.
theorem lt_nextNumber (ascending : t.rows.Pairwise fun a b => a.number < b.number) (next : t.nextNumber? counter = some n) :
    ∀ x ∈ t.rows, x.number < n := by
  intro x member
  rcases List.eq_nil_or_concat t.rows with none | ⟨front, last, split⟩
  · rw [none] at member
    cases member
  · have ends : t.lastNumber? = some last.number := by
      simp [lastNumber?, split]
    have beyond := last_lt_nextNumber ends next
    rw [split, List.concat_eq_append] at member ascending
    rcases List.mem_append.mp member with early | final
    · have before := (List.pairwise_append.mp ascending).2.2 x early last (List.mem_singleton_self _)
      omega
    · cases List.mem_singleton.mp final
      exact beyond

end Table

namespace Store

variable {s : Store} {o : OwnTable} {t : Table} {skipped columns : List ColumnSchema} {row : Row}

theorem read_own (here : s.own o = some t) (is : t.Is o) {names : List String} (known : ∀ name ∈ names, o.schema.hasColumn name = true)
    (chosen : Table → NumberedRow → Bool) :
    s.read o names chosen = .ok ((t.rows.filter (chosen t)).map fun r => names.map fun name => t.cell name r) := by
  have all : (names.find? fun name => !t.schema.hasColumn name) = none := by
    rw [List.find?_eq_none]
    intro name member
    rw [is.schema, known name member]
    decide
  simp only [read, here, all]

theorem values_by_name (distinct : ColumnSchema.Distinct columns) (full : row.length = columns.length) :
    (columns.map fun c => (((columns.map (·.name)).zip row).find? fun v => sameName v.1 c.name).elim .null (·.2)) = row := by
  induction columns generalizing row with
  | nil => exact (List.length_eq_zero_iff.mp full).symm
  | cons c rest ih =>
    obtain ⟨others, distinct⟩ := List.pairwise_cons.mp distinct
    cases row with
    | nil => cases full
    | cons value row =>
      have tail := ih distinct (Nat.succ.inj full)
      simp only [List.map_cons, List.zip_cons_cons, List.find?_cons, sameName_self, Option.elim_some]
      refine congrArg _ ?_
      rw [← tail]
      apply List.map_congr_left
      intro d member
      rw [others d member, tail]

theorem no_value (apart : ∀ c ∈ skipped, ∀ d ∈ columns, sameName c.name d.name = false) {c : ColumnSchema} (member : c ∈ skipped) :
    (((columns.map (·.name)).zip row).find? fun v => sameName v.1 c.name) = none := by
  rw [List.find?_eq_none]
  intro v given same
  obtain ⟨d, listed, named⟩ := List.mem_map.mp (List.of_mem_zip given).1
  have other := apart c member d listed
  rw [sameName_comm, named, same] at other
  cases other

-- Values given for the last columns stay in their order, and the columns before them get none.
theorem arrange_eq (schema : t.schema.columns = skipped ++ columns) (distinct : ColumnSchema.Distinct (skipped ++ columns))
    (full : row.length = columns.length) :
    arrange t (columns.map (·.name)) row = skipped.map (fun _ => .null) ++ row := by
  obtain ⟨_, later, apart⟩ := List.pairwise_append.mp distinct
  rw [arrange, schema, List.map_append, values_by_name later full]
  refine congrArg (· ++ row) (List.map_congr_left ?_)
  intro c member
  rw [no_value apart member]
  rfl

end Store

end ScopedAccess
