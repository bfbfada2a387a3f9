import ScopedAccess.Proofs.Authorizer.Agreement
import ScopedAccess.Proofs.Walk.Chain

namespace ScopedAccess

-- The tables of all declared types are tables of the application, not the store's own.
def Model.OverApplication (m : Model) : Prop :=
  ∀ t resource, m.resources.find? t = some resource → OwnTable.named? resource.instances.table = none

theorem Model.overApplication_of_entries {m : Model}
    (listed : (m.resources.entries.all fun e => (OwnTable.named? e.2.instances.table).isNone) = true) : m.OverApplication := by
  intro t resource place
  exact Option.isNone_iff_eq_none.mp (List.all_eq_true.mp listed (t, resource) (OrderedMap.find?_eq_some_iff.mp place))

theorem Model.OverApplication.links {m : Model} {d : Declarations} (foreign : m.OverApplication) (reflects : m.Reflects d)
    {t : String} {link : ParentLink} (found : m.links.find? t = some link) :
    OwnTable.named? link.child.table = none ∧ OwnTable.named? link.parent.table = none := by
  obtain ⟨child, parent, childFound, parentFound, sameChild, sameParent⟩ := reflects.link found
  rw [sameChild, sameParent]
  exact ⟨foreign _ child childFound, foreign _ parent parentFound⟩

namespace Store

variable {s next : Store} {o : OwnTable} {name : String}

theorem catalogEntries_congr {t u : Table} (left : t.Is o) (right : u.Is o) : catalogEntries t = catalogEntries u := by
  simp only [catalogEntries, keyIndexes, left.name, left.schema, right.name, right.schema]

-- The catalog lists names and schemas, and no rows.
theorem catalog_congr (intact : s.Intact) (intactNext : next.Intact) (application : next.application = s.application) :
    next.catalog = s.catalog := by
  have own : ∀ l : List OwnTable, (l.filterMap next.own).flatMap catalogEntries = (l.filterMap s.own).flatMap catalogEntries := by
    intro l
    induction l with
    | nil => rfl
    | cons o rest ih =>
      obtain ⟨t, here, is⟩ := intact o
      obtain ⟨u, there, isNext⟩ := intactNext o
      rw [List.filterMap_cons_some here, List.filterMap_cons_some there, List.flatMap_cons, List.flatMap_cons, ih,
        catalogEntries_congr isNext is]
  have entries : next.tables.flatMap catalogEntries = s.tables.flatMap catalogEntries := by
    rw [tables, tables, List.flatMap_append, List.flatMap_append, application, ownTables, ownTables, own]
  rw [catalog, catalog, entries]

theorem database_congr (intact : s.Intact) (intactNext : next.Intact) (application : next.application = s.application)
    (foreign : OwnTable.named? name = none) : next.database name = s.database name := by
  unfold database
  split
  · rw [catalog_congr intact intactNext application]
  · rw [find?, find?, foreign, application]

theorem columns_congr (intact : s.Intact) (intactNext : next.Intact) (application : next.application = s.application)
    (name : String) : (next.database name).map (·.columns) = (s.database name).map (·.columns) := by
  cases named : OwnTable.named? name with
  | none => rw [database_congr intact intactNext application named]
  | some o =>
    obtain ⟨t, here, is⟩ := intact o
    obtain ⟨u, there, isNext⟩ := intactNext o
    unfold database
    split
    · rw [catalog_congr intact intactNext application]
    · simp only [find?, named, here, there, Option.map_some, Table.relation, is.schema, isNext.schema]

end Store

namespace AncestorWalk

open Query Query.Resolution

variable {db : Database} {steps : List WalkStep} {user type id : String} {roles : List String}

-- The chain refers to the walk only, as the point check does and more.
theorem chain_quiet (quiet : (pointCheck steps user type id roles).fault? db = none) :
    (chain steps type id).fault? db = none := by
  obtain ⟨_, tables, stepped, begun, _⟩ := fault?_eq_none_iff.mp quiet
  have walked : sameName name name = true := sameName_self
  have listed : sources (chain steps type id).body = [⟨name, none⟩] := rfl
  have clear : tableFault? db (chain steps type id) = none := by
    rw [tableFault?, listed, List.findSome?_eq_none_iff]
    intro source member
    cases List.mem_singleton.mp member
    simp only [chain, walk, walked, if_true]
    exact tables
  have body : selectFault? db (chain steps type id).walk (chain steps type id).body = none := by
    simp [selectFault?, chain, walk, scopeOf, columnNames, sources, outputFault?, conditionFault?, termFault?, Source.label,
      resourceType, resourceId, depth, sameName_eq]
  simp only [Statement.fault?, Option.orElse_eq_none, columnFault?]
  exact ⟨clear, stepped, begun, body⟩

end AncestorWalk

namespace Authorizer

open AncestorWalk Query.Resolution

variable {a b : Authorizer} {s : Snapshot} {user action t : String} {i j : Instance} {deadline : Option Duration}
  {statement : Query.Statement} {rows : List Row} {roles : OrderedSet String}

theorem run_eq :
    a.run deadline statement =
      if (deadline.getD a.options.timeout).isZero then .error (.deadlineExceeded (deadline.getD a.options.timeout))
      else match statement.fault? a.store.database with
        | some fault => .error (.store (.refused .query fault))
        | none => .ok (statement.body.rows (statement.walk.shadow a.store.database (statement.walk.rows a.store.database))) := by
  simp only [run, Store.query, Query.Statement.rows]
  split
  · rfl
  · cases statement.fault? a.store.database <;> rfl

theorem run_eq_ok_iff :
    (∃ rows, a.run deadline statement = .ok rows) ↔
      (deadline.getD a.options.timeout).isZero = false ∧ statement.fault? a.store.database = none := by
  rw [run_eq]
  split
  · rename_i zero
    simp [zero]
  · rename_i time
    cases statement.fault? a.store.database <;> simp [time]

theorem ancestors_asked (inForce : a.snapshot = some s) (declared : s.model.resources.contains i.resourceType = true) :
    a.ancestors i = a.run none (chain s.walk i.resourceType i.id) >>= instancesOf := by
  simp only [ancestors, current, inForce, requireType, declared, bind, Except.bind, if_true]

section

variable {spots : List Spot} {listed : List Instance} {failure : Failure}

theorem instanceOfRow_eq (spot : Spot) : instanceOfRow (spotRow spot) =
    (Store.textOf "resource_id" spot.id.cell).map fun id => ⟨spot.resourceType, id⟩ := by
  cases spot with
  | mk type id =>
    cases id with
    | plain => rfl
    | garbled => rfl

theorem instanceOfRow_eq_ok_iff {spot : Spot} : instanceOfRow (spotRow spot) = .ok i ↔ spot = i := by
  rw [instanceOfRow_eq, map_eq_ok_iff]
  constructor
  · intro given
    obtain ⟨id, read, rfl⟩ := given
    rw [Instance.spot, ← textOf_cell_iff.mp read]
  · rintro rfl
    exact ⟨i.id, rfl, rfl⟩

theorem instancesOf_eq_ok_iff : instancesOf (spots.map spotRow) = .ok listed ↔ spots = listed.map Instance.spot := by
  rw [instancesOf, mapError_eq_ok_iff]
  exact mapM_rows_iff fun _ _ => instanceOfRow_eq_ok_iff

theorem instancesOf_error (failed : instancesOf (spots.map spotRow) = .error failure) :
    ∃ spot ∈ spots, ∃ g : Garbled, spot.id = .garbled g ∧
      failure = .store (.undecodable "resource_id" (Utf8.break? g.bytes)) := by
  unfold instancesOf at failed
  cases read : (spots.map spotRow).mapM instanceOfRow with
  | ok instances =>
    rw [read] at failed
    cases failed
  | error fault =>
    rw [read] at failed
    cases failed
    obtain ⟨row, member, stopped⟩ := mapM_error read
    obtain ⟨spot, here, rfl⟩ := List.mem_map.mp member
    rw [instanceOfRow_eq] at stopped
    obtain ⟨g, garbled, same⟩ := textOf_cell_error (map_eq_error_iff.mp stopped)
    exact ⟨spot, here, g, garbled, congrArg _ same⟩

end

structure Alike (s : Snapshot) (a b : Authorizer) : Prop where
  compiled : s.Compiled
  left : a.snapshot = some s
  right : b.snapshot = some s
  timeout : a.options.timeout = b.options.timeout
  shapes : SameShapes a.store.database b.store.database
  leftRoster : ∃ held, a.store.Roster held
  rightRoster : ∃ held, b.store.Roster held

theorem run_alike (alike : Alike s a b) (deadline : Option Duration) (statement : Query.Statement) :
    (∃ failure, a.run deadline statement = .error failure ∧ b.run deadline statement = .error failure) ∨
      ∃ rows others, a.run deadline statement = .ok rows ∧ b.run deadline statement = .ok others := by
  rw [run_eq, run_eq, alike.timeout, fault?_congr alike.shapes]
  split
  · exact .inl ⟨_, rfl, rfl⟩
  · cases statement.fault? b.store.database with
    | some fault => exact .inl ⟨_, rfl, rfl⟩
    | none => exact .inr ⟨_, _, rfl, rfl⟩

structure Checked (a : Authorizer) (s : Snapshot) (user action : String) (i : Instance) (deadline : Option Duration)
    (b : Bool) : Prop where
  answered : a.check user action i deadline = .ok b
  entitled : b = true ↔ Entitled a.store s.model user action i
  quiet : ∃ roles rows, a.run deadline (pointCheck s.walk user i.resourceType i.id roles) = .ok rows

theorem checked_of_run (compiled : s.Compiled) (inForce : a.snapshot = some s) (roster : ∃ held, a.store.Roster held)
    (declared : s.model.resources.contains i.resourceType = true) (relevant : s.relevantRoles? i.resourceType action = some roles)
    (wanted : roles.toList ≠ []) (ran : a.run deadline (pointCheck s.walk user i.resourceType i.id roles.toList) = .ok rows) :
    Checked a s user action i deadline !rows.isEmpty := by
  refine ⟨?_, ?_, _, _, ran⟩
  · rw [check_asked inForce declared relevant wanted, ran]
    rfl
  · exact rows_iff_entitled compiled roster relevant ran

-- A permission without relevant roles asks nothing of the store. Otherwise its statement, for these roles, is answered.
def Askable (a : Authorizer) (s : Snapshot) (t action : String) (deadline : Option Duration)
    (statement : List String → Query.Statement) : Prop :=
  s.Idle t action ∨ ∃ roles, s.relevantRoles? t action = some roles ∧ roles.toList ≠ [] ∧
    ∃ rows, a.run deadline (statement roles.toList) = .ok rows

section

variable (compiled : s.Compiled) (inForce : a.snapshot = some s) (roster : ∃ held, a.store.Roster held)

include compiled inForce roster

theorem check_eq_ok_iff {yes : Bool} :
    a.check user action i deadline = .ok yes ↔
      s.model.resources.contains i.resourceType = true ∧
        Askable a s i.resourceType action deadline (pointCheck s.walk user i.resourceType i.id) ∧
        (yes = true ↔ Entitled a.store s.model user action i) := by
  constructor
  · intro answered
    obtain ⟨other, same, declared⟩ := inForce_of_check answered
    cases inForce.symm.trans same
    rcases idle_or_asked s i.resourceType action with idle | ⟨roles, relevant, wanted⟩
    · rw [check_idle inForce declared idle] at answered
      cases answered
      have never : ¬ Entitled a.store s.model user action i := not_entitled compiled idle
      exact ⟨declared, .inl idle, by simp [never]⟩
    · have asked := answered
      rw [check_asked inForce declared relevant wanted] at asked
      obtain ⟨rows, ran, rfl⟩ := map_eq_ok_iff.mp asked
      have checked := checked_of_run compiled inForce roster declared relevant wanted ran
      exact ⟨declared, .inr ⟨roles, relevant, wanted, rows, ran⟩, checked.entitled⟩
  · intro given
    obtain ⟨declared, idle | ⟨roles, relevant, wanted, rows, ran⟩, entitled⟩ := given
    · have denied : yes = false := Bool.eq_false_iff.mpr fun allowed => not_entitled compiled idle (entitled.mp allowed)
      rw [check_idle inForce declared idle, denied]
    · have checked := checked_of_run compiled inForce roster declared relevant wanted ran
      have same : yes = !rows.isEmpty := Bool.eq_iff_iff.mpr (entitled.trans checked.entitled.symm)
      rw [checked.answered, same]

end

theorem check_alike (alike : Alike s a b) (user action : String) (i : Instance) (deadline : Option Duration) :
    a.check user action i deadline = b.check user action i deadline ∨
      ∃ x y, Checked a s user action i deadline x ∧ Checked b s user action i deadline y := by
  cases declared : s.model.resources.contains i.resourceType with
  | false =>
    left
    simp only [check, current, alike.left, alike.right, bind, Except.bind, requireType, declared, Bool.false_eq_true, if_false]
  | true =>
    rcases idle_or_asked s i.resourceType action with idle | ⟨roles, relevant, wanted⟩
    · left
      rw [check_idle alike.left declared idle, check_idle alike.right declared idle]
    · rcases run_alike alike deadline (pointCheck s.walk user i.resourceType i.id roles.toList) with
        ⟨failure, left, right⟩ | ⟨rows, others, left, right⟩
      · left
        rw [check_asked alike.left declared relevant wanted, check_asked alike.right declared relevant wanted, left, right]
      · right
        exact ⟨_, _, checked_of_run alike.compiled alike.left alike.leftRoster declared relevant wanted left,
          checked_of_run alike.compiled alike.right alike.rightRoster declared relevant wanted right⟩

-- A filter whose statement was answered, with ids that need not be texts that can be read.
structure Filtered (a : Authorizer) (s : Snapshot) (user action t : String) (deadline : Option Duration) (resource : Resource)
    (ids : List Text) : Prop where
  answered : a.filter user action t deadline = idsOf (ids.map idRow)
  ascending : Ascending ids
  members : ∀ id, id ∈ ids ↔ Lists a.store.database (.ofResource resource) id ∧ Entitled a.store s.model user action ⟨t, id⟩

theorem filtered_of_run (compiled : s.Compiled) (inForce : a.snapshot = some s) (roster : ∃ held, a.store.Roster held)
    {resource : Resource} (place : s.model.resources.find? t = some resource) (relevant : s.relevantRoles? t action = some roles)
    (wanted : roles.toList ≠ []) (ran : a.run deadline (bulkFilter s.walk (.ofResource resource) user roles.toList) = .ok rows) :
    ∃ ids, Filtered a s user action t deadline resource ids := by
  obtain ⟨kept, roster⟩ := roster
  obtain ⟨held, found, textual, seen⟩ := roster.seen
  have answered := run_eq_ok ran
  rw [compiled.walk_eq] at answered
  obtain ⟨ids, rfl, ascending, members⟩ := bulkFilter_ids compiled.resolved found textual answered
  refine ⟨ids, ?_, ascending, fun id => ?_⟩
  · rw [filter_asked inForce (compiled.table_of_resource place) relevant wanted, ran]
    rfl
  · have entitled : Permits a.store.database s.model held user roles.toList ⟨t, id⟩ ↔
        Entitled a.store s.model user action ⟨t, id⟩ := permits_iff_entitled compiled seen relevant
    rw [members, Snapshot.targetName compiled.resolved place, entitled]

section

variable (compiled : s.Compiled) (inForce : a.snapshot = some s) (roster : ∃ held, a.store.Roster held)

include compiled inForce roster

theorem filter_eq_ok_iff {found : OrderedSet String} :
    a.filter user action t deadline = .ok found ↔
      ∃ resource, s.model.resources.find? t = some resource ∧
        Askable a s t action deadline (bulkFilter s.walk (.ofResource resource) user) ∧
        ∀ id, Lists a.store.database (.ofResource resource) id ∧ Entitled a.store s.model user action ⟨t, id⟩ ↔
          ∃ text ∈ found, Text.plain text = id := by
  constructor
  · intro answered
    cases place : s.model.resources.find? t with
    | none =>
      have refused : a.filter user action t deadline = .error (.unknownResourceType t) := (undeclared compiled inForce place t).1
      rw [refused] at answered
      cases answered
    | some resource =>
      have table := compiled.table_of_resource place
      refine ⟨resource, rfl, ?_⟩
      rcases idle_or_asked s t action with idle | ⟨roles, relevant, wanted⟩
      · rw [filter_idle inForce table idle] at answered
        cases answered
        refine ⟨.inl idle, fun id => ?_⟩
        have never : ¬ Entitled a.store s.model user action ⟨t, id⟩ := not_entitled compiled idle
        simp [OrderedSet.not_mem_empty, never]
      · have asked := answered
        rw [filter_asked inForce table relevant wanted] at asked
        obtain ⟨rows, ran, _⟩ := bind_eq_ok_iff.mp asked
        obtain ⟨ids, filtered⟩ := filtered_of_run compiled inForce roster place relevant wanted ran
        rw [filtered.answered, idsOf_eq_ok_iff] at answered
        exact ⟨.inr ⟨roles, relevant, wanted, rows, ran⟩, fun id => (filtered.members id).symm.trans (answered id)⟩
  · intro given
    obtain ⟨resource, place, idle | ⟨roles, relevant, wanted, rows, ran⟩, members⟩ := given
    · have none : found = .empty := by
        refine OrderedSet.ext fun text => iff_of_false (fun member => ?_) OrderedSet.not_mem_empty
        exact not_entitled compiled idle ((members text).mpr ⟨text, member, rfl⟩).2
      rw [filter_idle inForce (compiled.table_of_resource place) idle, none]
    · obtain ⟨ids, filtered⟩ := filtered_of_run compiled inForce roster place relevant wanted ran
      rw [filtered.answered, idsOf_eq_ok_iff]
      exact fun id => (filtered.members id).trans (members id)

end

theorem filter_alike (alike : Alike s a b) (user action t : String) (deadline : Option Duration) :
    a.filter user action t deadline = b.filter user action t deadline ∨
      ∃ resource few many, s.model.resources.find? t = some resource ∧ Filtered a s user action t deadline resource few ∧
        Filtered b s user action t deadline resource many := by
  cases place : s.model.resources.find? t with
  | none =>
    left
    have left : a.filter user action t deadline = .error (.unknownResourceType t) :=
      (undeclared alike.compiled alike.left place t).1
    have right : b.filter user action t deadline = .error (.unknownResourceType t) :=
      (undeclared alike.compiled alike.right place t).1
    rw [left, right]
  | some resource =>
    have table := alike.compiled.table_of_resource place
    rcases idle_or_asked s t action with idle | ⟨roles, relevant, wanted⟩
    · left
      rw [filter_idle alike.left table idle, filter_idle alike.right table idle]
    · rcases run_alike alike deadline (bulkFilter s.walk (.ofResource resource) user roles.toList) with
        ⟨failure, left, right⟩ | ⟨rows, others, left, right⟩
      · left
        rw [filter_asked alike.left table relevant wanted, filter_asked alike.right table relevant wanted, left, right]
      · right
        obtain ⟨few, filtered⟩ := filtered_of_run alike.compiled alike.left alike.leftRoster place relevant wanted left
        obtain ⟨many, filteredMore⟩ := filtered_of_run alike.compiled alike.right alike.rightRoster place relevant wanted right
        exact ⟨resource, few, many, rfl, filtered, filteredMore⟩

theorem ancestors_of_run (compiled : s.Compiled) (inForce : a.snapshot = some s)
    (declared : s.model.resources.contains i.resourceType = true)
    (ran : a.run none (chain s.walk i.resourceType i.id) = .ok rows) :
    ∃ steps, Lineage a.store.database s.model i steps ∧ a.ancestors i = instancesOf ((steps.map (·.2)).map spotRow) := by
  have answered := run_eq_ok ran
  rw [compiled.walk_eq] at answered
  obtain ⟨steps, lineage, rfl⟩ := chain_lineage compiled.resolved answered
  refine ⟨steps, lineage, ?_⟩
  rw [ancestors_asked inForce declared, ran, List.map_map]
  rfl

theorem ancestors_eq_ok_iff (compiled : s.Compiled) (inForce : a.snapshot = some s) {listed : List Instance} :
    a.ancestors i = .ok listed ↔
      s.model.resources.contains i.resourceType = true ∧
        (∃ rows, a.run none (chain s.walk i.resourceType i.id) = .ok rows) ∧
        ∃ steps, Lineage a.store.database s.model i steps ∧ steps.map (·.2) = listed.map Instance.spot := by
  constructor
  · intro answered
    have walked := answered
    rw [ancestors, bind_eq_ok_iff] at walked
    obtain ⟨other, current, walked⟩ := walked
    cases inForce.symm.trans (current_eq_ok_iff.mp current)
    rw [bind_eq_ok_iff] at walked
    obtain ⟨_, contains, walked⟩ := walked
    have declared := requireType_eq_ok_iff.mp contains
    rw [bind_eq_ok_iff] at walked
    obtain ⟨rows, ran, _⟩ := walked
    obtain ⟨steps, lineage, same⟩ := ancestors_of_run compiled inForce declared ran
    rw [same, instancesOf_eq_ok_iff] at answered
    exact ⟨declared, ⟨rows, ran⟩, steps, lineage, answered⟩
  · intro given
    obtain ⟨declared, ⟨rows, ran⟩, steps, lineage, read⟩ := given
    obtain ⟨more, lineageMore, answered⟩ := ancestors_of_run compiled inForce declared ran
    rw [answered, ← lineage.unique lineageMore fun _ _ => Iff.rfl, instancesOf_eq_ok_iff]
    exact read

theorem ancestors_alike (alike : Alike s a b) (i : Instance) :
    a.ancestors i = b.ancestors i ∨
      ∃ steps more, Lineage a.store.database s.model i steps ∧ Lineage b.store.database s.model i more ∧
        a.ancestors i = instancesOf ((steps.map (·.2)).map spotRow) ∧
        b.ancestors i = instancesOf ((more.map (·.2)).map spotRow) := by
  cases declared : s.model.resources.contains i.resourceType with
  | false =>
    left
    simp only [ancestors, current, alike.left, alike.right, bind, Except.bind, requireType, declared, Bool.false_eq_true,
      if_false]
  | true =>
    rcases run_alike alike none (chain s.walk i.resourceType i.id) with ⟨failure, left, right⟩ | ⟨rows, others, left, right⟩
    · left
      rw [ancestors_asked alike.left declared, ancestors_asked alike.right declared, left, right]
    · right
      obtain ⟨steps, lineage, answered⟩ := ancestors_of_run alike.compiled alike.left declared left
      obtain ⟨more, lineageMore, answeredMore⟩ := ancestors_of_run alike.compiled alike.right declared right
      exact ⟨steps, more, lineage, lineageMore, answered, answeredMore⟩

end Authorizer

end ScopedAccess
