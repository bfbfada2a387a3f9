import ScopedAccess.Proofs.Store.Roster

namespace ScopedAccess

namespace Store

variable {s next : Store} {t : Table} {held : List (Int × Assignment)} {e : Int × Assignment} {x : Assignment} {n counter : Int}

def nextNumber? (s : Store) : Option Int := (s.own .assignments).bind fun t => t.nextNumber? (s.counter t.name)

def blankRow (x : Assignment) : Row :=
  [.null, .text x.user, .text x.resourceType, .text x.resourceId, .text x.role, .integer 0]

theorem arrange_assignment (is : t.Is .assignments) :
    arrange t (x.values.map (·.1) ++ ["created_at"]) (x.values.map (.text ·.2) ++ [.integer 0]) = blankRow x := by
  have schema : t.schema.columns = [.key "id" .integer] ++ OwnTable.assignments.columns.tail := by
    rw [is.schema]
    rfl
  exact arrange_eq schema (OwnTable.columns_distinct (o := .assignments)) rfl

theorem numbered_assignment (is : t.Is .assignments) :
    t.numbered counter (blankRow x) = ((t.nextNumber? counter).map fun n => keptRow (n, x)).elim (.error .exhausted) .ok := by
  have columns : t.schema.columns = OwnTable.assignments.columns := congrArg _ is.schema
  have settled : Table.settle OwnTable.assignments.columns (blankRow x) = blankRow x := rfl
  have key : OwnTable.assignments.columns.findIdx? ColumnSchema.isNumber = some 0 := rfl
  have empty : (blankRow x).getD 0 .null = .null := rfl
  simp only [Table.numbered, columns, settled, key, empty]
  rfl

theorem clash?_assignment (is : t.Is .assignments) {r : NumberedRow} :
    t.clash? r =
      [(⟨["id"], true⟩ : Table.Clash), ⟨x.values.map (·.1), false⟩].find? fun c => t.rows.any (t.agree c.columns r) := by
  rw [Table.clash?, is.schema]
  rfl

-- A row with a number of its own clashes as an assignment only.
theorem clash?_kept (is : t.Is .assignments) (rows : t.rows = held.map keptRow) (above : ∀ r ∈ t.rows, r.number < n) :
    t.clash? (keptRow (n, x)) = if x ∈ held.map (·.2) then some ⟨x.values.map (·.1), false⟩ else none := by
  have number : ∀ f, t.cell "id" (keptRow f) = .integer f.1 := fun _ =>
    Table.cell_own (i := 0) (c := .key "id" .integer) is rfl
  have byNumber : t.rows.any (t.agree ["id"] (keptRow (n, x))) = false := by
    rw [List.any_eq_false]
    intro r member same
    rw [rows] at member
    obtain ⟨f, listed, rfl⟩ := List.mem_map.mp member
    have below := above (keptRow f) (rows ▸ member)
    simp only [Table.agree, List.all_cons, List.all_nil, number, Cell.same, Bool.and_true, decide_eq_true_eq] at same
    have less : f.1 < n := below
    omega
  have byAssignment : t.rows.any (t.agree (x.values.map (·.1)) (keptRow (n, x))) = decide (x ∈ held.map (·.2)) := by
    rw [rows, List.any_map, Bool.eq_iff_iff, List.any_eq_true, decide_eq_true_eq, List.mem_map]
    constructor
    · intro given
      obtain ⟨f, listed, agrees⟩ := given
      exact ⟨f, listed, ((agree_kept_iff is).mp agrees).symm⟩
    · intro given
      obtain ⟨f, listed, same⟩ := given
      exact ⟨f, listed, (agree_kept_iff is).mpr same.symm⟩
  rw [clash?_assignment (x := x) is, List.find?_cons, byNumber, List.find?_cons, byAssignment]
  by_cases known : x ∈ held.map (·.2)
  · simp [known]
  · simp [known]

theorem Roster.below (roster : s.Roster held) (here : s.own .assignments = some t) (follows : t.nextNumber? counter = some n) :
    ∀ r ∈ t.rows, r.number < n := by
  obtain ⟨table, found, _, rows⟩ := roster.rows
  cases here.symm.trans found
  refine Table.lt_nextNumber ?_ follows
  rw [rows, List.pairwise_map]
  exact roster.ascending

theorem step_assignment (is : t.Is .assignments) (rows : t.rows = held.map keptRow) (above : ∀ r ∈ t.rows, r.number < n)
    (follows : t.nextNumber? counter = some n) :
    Progress.step (some (x.values.map (·.1))) ⟨t, counter, []⟩ (blankRow x) =
      .ok (if x ∈ held.map (·.2) then ⟨t, max counter n, []⟩
        else ⟨t.add (keptRow (n, x)), max counter n, [keptRow (n, x)]⟩) := by
  have whole : t.missingValue? (keptRow (n, x)) = none :=
    missingValue?_eq_none is rfl (by simp [keptRow])
  simp only [Progress.step, numbered_assignment is, follows, Option.map_some, Option.elim_some, bind, Except.bind, whole,
    clash?_kept is rows above]
  by_cases known : x ∈ held.map (·.2)
  · simp only [known, if_true]
    rfl
  · simp only [known, if_false]
    rfl

theorem isAnchored_assignment (is : t.Is .assignments) {r : NumberedRow} : s.isAnchored t r = true := by
  rw [isAnchored, is.schema]
  rfl

theorem insertAssignment_eq (intact : s.Intact) (roster : s.Roster held) (here : s.own .assignments = some t) :
    s.insertAssignment x = match s.nextNumber? with
      | none => .error (.refused .execution .exhausted)
      | some n =>
        let table := if x ∈ held.map (·.2) then t else t.add (keptRow (n, x))
        .ok ((s.put table).setCounter t.name (max (s.counter t.name) n), decide (x ∉ held.map (·.2))) := by
  have is := intact.is here
  obtain ⟨table, found, _, rows⟩ := roster.rows
  cases here.symm.trans found
  have columns : ((x.values.map (·.1) ++ ["created_at"]).find? fun c => !t.schema.hasColumn c) = none := by
    rw [List.find?_eq_none]
    intro name member
    have listed : name ∈ OwnTable.assignments.columns.map (·.name) := List.mem_cons_of_mem _ member
    rw [is.schema, OwnTable.hasColumn_listed listed]
    decide
  have distinguished : t.schema.distinguishes (x.values.map (·.1)) = true := by
    rw [is.schema]
    simp [TableSchema.distinguishes, OwnTable.schema, OwnTable.indexes, Assignment.values, sameName_self]
  have counted : t.schema.isCounted = true := by
    rw [is.schema]
    rfl
  have number : s.nextNumber? = t.nextNumber? (s.counter t.name) := by
    rw [nextNumber?, here]
    rfl
  simp only [number, insertAssignment, insertInto, writable_ok here, bind, Except.bind, columns, List.map_singleton,
    arrange_assignment is, insertRows, Option.map_some, Option.getD_some, distinguished, if_true,
    referenceFault?_eq_none intact is, List.foldlM_cons, List.foldlM_nil]
  cases follows : t.nextNumber? (s.counter t.name) with
  | none =>
    simp only [Progress.step, numbered_assignment is, follows, bind, Except.bind]
    rfl
  | some n =>
    simp only [step_assignment is rows (roster.below here follows) follows]
    by_cases known : x ∈ held.map (·.2)
    · simp only [known, if_true, pure, Except.pure, mapError_ok, counted, List.all_nil]
      rfl
    · have added : (t.add (keptRow (n, x))).Is .assignments := ⟨is.name, is.schema⟩
      simp only [known, if_false, pure, Except.pure, mapError_ok, counted, if_true, List.all_cons, List.all_nil,
        isAnchored_assignment added, Bool.and_true]
      rfl

theorem insertAssignment_eq_ok (intact : s.Intact) (roster : s.Roster held) {created : Bool}
    (wrote : s.insertAssignment x = .ok (next, created)) :
    ((created = true ∧ (∀ e ∈ held, e.2 ≠ x) ∧ ∃ n, s.nextNumber? = some n ∧ next.Roster (held ++ [(n, x)])) ∨
      (created = false ∧ (∃ e ∈ held, e.2 = x) ∧ next.Roster held)) ∧
      AgreesOff [.assignments, .counters] s next ∧ next.Intact := by
  obtain ⟨t, here, is, rows⟩ := roster.rows
  rw [insertAssignment_eq intact roster here] at wrote
  cases follows : s.nextNumber? with
  | none =>
    rw [follows] at wrote
    cases wrote
  | some n =>
    simp only [follows] at wrote
    cases wrote
    have follows' : t.nextNumber? (s.counter t.name) = some n := by
      rw [← follows, nextNumber?, here]
      rfl
    have tableIs : (if x ∈ held.map (·.2) then t else t.add (keptRow (n, x))).Is .assignments := by
      split
      · exact is
      · exact ⟨is.name, is.schema⟩
    obtain ⟨counted, stays⟩ := setCounter_agrees (intact.put tableIs) t.name (max (s.counter t.name) n)
    have place := (counted.own .assignments (by simp)).trans (put_here tableIs.name)
    refine ⟨?_, AgreesOff.trans ((put_agrees tableIs.name).mono (by simp)) (counted.mono (by simp)), stays⟩
    by_cases known : x ∈ held.map (·.2)
    · rw [if_pos known] at place
      rw [if_pos known]
      exact .inr ⟨by simp [known], List.mem_map.mp known, ⟨t, place, is, rows⟩, roster.ascending, roster.distinct⟩
    · rw [if_neg known] at place
      rw [if_neg known]
      have fresh : ∀ e ∈ held, e.2 ≠ x := fun e member same => known (List.mem_map.mpr ⟨e, member, same⟩)
      exact .inl ⟨by simp [known], fresh, n, rfl, roster.append here fresh (roster.below here follows') place⟩

theorem deleteAssignment_eq (intact : s.Intact) (roster : s.Roster held) (here : s.own .assignments = some t) :
    s.deleteAssignment x =
      .ok (s.put { t with rows := t.rows.filter fun r => !Selects t x.values r }, decide (x ∈ held.map (·.2))) := by
  have is := intact.is here
  obtain ⟨table, found, _, rows⟩ := roster.rows
  cases here.symm.trans found
  have known : ∀ c ∈ x.values, OwnTable.assignments.schema.hasColumn c.1 = true := by
    intro c member
    have named : c.1 ∈ x.values.map (·.1) := List.mem_map_of_mem member
    have listed : c.1 ∈ OwnTable.assignments.columns.map (·.name) :=
      List.mem_cons_of_mem _ (List.mem_append_left ["created_at"] named)
    exact OwnTable.hasColumn_listed listed
  have unreferenced : ∀ r ∈ t.rows, s.isReferenced t r = false := by
    intro r _
    refine isReferenced_eq_false intact is ?_
    intro u child _ refers
    simp [OwnTable.refers_iff] at refers
  have counted : 0 < (t.rows.filter (Selects t x.values)).length ↔ x ∈ held.map (·.2) := by
    simp only [rows, List.filter_map, List.length_map, List.length_pos_iff_exists_mem, List.mem_filter, Function.comp_apply,
      selects_kept_iff is, List.mem_map]
  simp only [deleteAssignment, deleteMatching_ok intact here known unreferenced, bind, Except.bind, counted]

theorem deleteAssignment_eq_ok (intact : s.Intact) (roster : s.Roster held) {removed : Bool}
    (deleted : s.deleteAssignment x = .ok (next, removed)) :
    next.Roster (held.filter fun e => e.2 ≠ x) ∧ (removed = true ↔ ∃ e ∈ held, e.2 = x) ∧
      AgreesOff [.assignments] s next ∧ next.Intact := by
  obtain ⟨t, here, is, rows⟩ := roster.rows
  rw [deleteAssignment_eq intact roster here] at deleted
  cases deleted
  refine ⟨roster.filter here ?_, by simp, put_agrees is.name, intact.put ⟨is.name, is.schema⟩⟩
  intro e _
  rw [Bool.eq_iff_iff, selects_kept_iff is]
  simp

end Store

end ScopedAccess
