import ScopedAccess.Proofs.Authorizer.Answered
import ScopedAccess.Proofs.Walk.Furnished

namespace ScopedAccess

def WalkStep.child (l : WalkStep) : FilterTarget := ⟨l.childType, l.childTable, l.childId⟩

def WalkStep.parent (l : WalkStep) : FilterTarget := ⟨l.parentType, l.parentTable, l.parentId⟩

namespace AncestorWalk

open Query

theorem lists_of_parentStep {db : Database} {m : Model} {i j : Spot} (step : ParentStep db m i j) :
    ∃ t link, m.links.find? t = some link ∧ Lists db (WalkStep.ofLink link).parent j.id := by
  cases step with
  | @along t id parent link declared found =>
    refine ⟨t, link, declared, ?_⟩
    simp only [ParentLink.parentId?, Option.bind_eq_bind, Option.bind_eq_some_iff] at found
    obtain ⟨children, _, parents, place, pair, first, read⟩ := found
    obtain ⟨c, _, belongs⟩ := List.mem_flatMap.mp (List.mem_of_find?_eq_some first)
    obtain ⟨p, chosen, rfl⟩ := List.mem_map.mp belongs
    exact ⟨parents, place, p, (List.mem_filter.mp chosen).1, read⟩

end AncestorWalk

namespace Store

open AncestorWalk

theorem Intact.enrols {s : Store} (intact : s.Intact) : Enrols s.database := by
  obtain ⟨t, here, is⟩ := intact .assignments
  have other : isCatalog "user_roles" = false := OwnTable.not_catalog (o := .assignments)
  have found : s.find? "user_roles" = some t := (find?_own (o := .assignments)).trans here
  have seen : s.database "user_roles" = some t.relation := by
    simp only [database, other, found]
    rfl
  have columns : t.relation.columns = heldColumns := by
    rw [Table.relation, is.schema]
    rfl
  have listed : ∀ column ∈ ["user_id", "resource_type", "resource_id", "role"], column ∈ heldColumns.map (·.name) := by
    decide
  intro column member
  refine ⟨t.relation, seen, List.any_eq_true.mpr ⟨column, ?_, sameName_self⟩⟩
  rw [columns]
  exact listed column member

end Store

namespace Authorizer

open AncestorWalk Query

variable {a : Authorizer} {s : Snapshot} {user action t id : String} {deadline : Option Duration} {roles : OrderedSet String}

-- The tables of the policy are there, with the columns that the policy names.
structure Furnished (a : Authorizer) (s : Snapshot) : Prop where
  tables : ∀ t table, s.tables.find? t = some table → Provides a.store.database table.table table.idColumn
  fields : ∀ l ∈ s.walk, Provides a.store.database l.childTable l.field
  references : ∀ l ∈ s.walk, Provides a.store.database l.parentTable l.references

-- Every id that a table of the policy holds is a text that can be read.
def Legible (a : Authorizer) (s : Snapshot) : Prop :=
  ∀ t table, s.tables.find? t = some table → ∀ g, ¬ Lists a.store.database table (.garbled g)

-- No table of the policy has the name of the walk.
def Apart (s : Snapshot) : Prop := ∀ t table, s.tables.find? t = some table → sameName table.table name = false

theorem declared_of_step (compiled : s.Compiled) {l : WalkStep} (member : l ∈ s.walk) :
    (∃ t, s.tables.find? t = some l.child) ∧ ∃ t, s.tables.find? t = some l.parent := by
  rw [compiled.walk_eq] at member
  obtain ⟨link, listed, rfl⟩ := List.mem_map.mp member
  obtain ⟨t, place⟩ := OrderedMap.mem_values.mp listed
  obtain ⟨d, reflects⟩ := compiled.reflects
  obtain ⟨child, parent, childFound, parentFound, sameChild, sameParent⟩ := reflects.link place
  have ends : (WalkStep.ofLink link).child = .ofResource child ∧ (WalkStep.ofLink link).parent = .ofResource parent := by
    simp only [WalkStep.child, WalkStep.parent, WalkStep.ofLink, FilterTarget.ofResource, sameChild, sameParent, and_self]
  rw [ends.1, ends.2]
  exact ⟨⟨_, compiled.table_of_resource childFound⟩, _, compiled.table_of_resource parentFound⟩

theorem Apart.clear (apart : Apart s) (compiled : s.Compiled) : Clear s.walk := by
  intro l member
  obtain ⟨⟨t, child⟩, u, parent⟩ := declared_of_step compiled member
  exact ⟨apart t _ child, apart u _ parent⟩

theorem Furnished.furnishes (furnished : a.Furnished s) (compiled : s.Compiled) {l : WalkStep} (member : l ∈ s.walk) :
    Furnishes a.store.database l := by
  obtain ⟨⟨t, child⟩, u, parent⟩ := declared_of_step compiled member
  exact ⟨furnished.tables t _ child, furnished.tables u _ parent, furnished.fields l member, furnished.references l member⟩

-- Then the filter of every declared type is free of faults, and so are the check and the chain, which refer to less.
theorem Furnished.quiet (furnished : a.Furnished s) (compiled : s.Compiled) (intact : a.store.Intact) (apart : Apart s)
    {table : FilterTarget} (found : s.tables.find? t = some table) (names : List String) :
    (bulkFilter s.walk table user names).fault? a.store.database = none :=
  bulkFilter_quiet intact.enrols (fun _ member => furnished.furnishes compiled member) (apart.clear compiled)
    (furnished.tables t table found) (apart t table found)

section

variable {rows : List Row}

theorem filter_answers (compiled : s.Compiled) (inForce : a.snapshot = some s) (roster : ∃ held, a.store.Roster held)
    {resource : Resource} (place : s.model.resources.find? t = some resource) (relevant : s.relevantRoles? t action = some roles)
    (wanted : roles.toList ≠ []) (ran : a.run deadline (bulkFilter s.walk (.ofResource resource) user roles.toList) = .ok rows) :
    (∃ found, a.filter user action t deadline = .ok found) ∨ ∃ g, Lists a.store.database (.ofResource resource) (.garbled g) := by
  obtain ⟨ids, filtered⟩ := filtered_of_run compiled inForce roster place relevant wanted ran
  cases answered : a.filter user action t deadline with
  | ok found => exact .inl ⟨found, rfl⟩
  | error failure =>
    rw [filtered.answered] at answered
    obtain ⟨g, member, _⟩ := idsOf_error answered
    exact .inr ⟨g, ((filtered.members (.garbled g)).mp member).1⟩

theorem ancestors_answer (compiled : s.Compiled) (inForce : a.snapshot = some s)
    (declared : s.model.resources.contains t = true) (ran : a.run none (chain s.walk t id) = .ok rows) :
    (∃ listed, a.ancestors ⟨t, id⟩ = .ok listed) ∨ ∃ u table g, s.tables.find? u = some table ∧
      Lists a.store.database table (.garbled g) := by
  have walked : ∃ steps, Lineage a.store.database s.model (Instance.mk t id) steps ∧
      a.ancestors ⟨t, id⟩ = instancesOf ((steps.map (·.2)).map spotRow) := ancestors_of_run compiled inForce declared ran
  obtain ⟨steps, lineage, same⟩ := walked
  cases answered : a.ancestors ⟨t, id⟩ with
  | ok listed => exact .inl ⟨listed, rfl⟩
  | error failure =>
    rw [same] at answered
    obtain ⟨spot, member, g, garbled, _⟩ := instancesOf_error answered
    obtain ⟨⟨n, spot⟩, step, rfl⟩ := List.mem_map.mp member
    have path := ((lineage.reached n spot).mp step).path
    -- The start is asked for by a text, so what cannot be read lies further up.
    rcases path.cases_tail with rfl | ⟨below, _, last⟩
    · cases garbled
    · obtain ⟨u, link, linked, lists⟩ := lists_of_parentStep last
      obtain ⟨_, v, there⟩ := declared_of_step compiled (l := .ofLink link) <| by
        rw [compiled.walk_eq]
        exact List.mem_map_of_mem (OrderedMap.mem_values.mpr ⟨u, linked⟩)
      exact .inr ⟨v, _, g, there, garbled ▸ lists⟩

end

theorem furnished_policy_answers (reachable : Reachable a) (inForce : a.snapshot = some s) (furnished : a.Furnished s)
    (apart : Apart s) (declared : s.model.resources.contains t = true) :
    (∀ user action id deadline, (deadline.getD a.options.timeout).isZero = false →
      ∃ yes, a.check user action ⟨t, id⟩ deadline = .ok yes) ∧
    (a.Legible s → ∀ user action deadline, (deadline.getD a.options.timeout).isZero = false →
      ∃ found, a.filter user action t deadline = .ok found) ∧
    (a.Legible s → a.options.timeout.isZero = false → ∀ id, ∃ listed, a.ancestors ⟨t, id⟩ = .ok listed) ∧
    ∀ links start rows u table, s.tables.find? u = some table →
      (walk links start).shadow a.store.database rows table.table = a.store.database table.table := by
  obtain ⟨published, consistent⟩ := reachable.consistent
  have compiled := consistent.compiled inForce
  obtain ⟨resource, place⟩ := Option.isSome_iff_exists.mp declared
  have found := compiled.table_of_resource place
  have quiet : ∀ user names, (bulkFilter s.walk (.ofResource resource) user names).fault? a.store.database = none :=
    fun _ names => furnished.quiet compiled consistent.intact apart found names
  refine ⟨?_, ?_, ?_, fun _ _ _ u table there => shadow_other (apart u table there)⟩
  · intro user action id deadline time
    rcases idle_or_asked s t action with idle | ⟨roles, relevant, wanted⟩
    · exact ⟨false, check_idle inForce declared idle⟩
    · have pointQuiet : (pointCheck s.walk user t id roles.toList).fault? a.store.database = none :=
        pointCheck_quiet wanted (quiet user roles.toList)
      obtain ⟨rows, ran⟩ := run_eq_ok_iff.mpr ⟨time, pointQuiet⟩
      exact ⟨!rows.isEmpty, by rw [check_asked inForce declared relevant wanted, ran]; rfl⟩
  · intro legible user action deadline time
    rcases idle_or_asked s t action with idle | ⟨roles, relevant, wanted⟩
    · exact ⟨.empty, filter_idle inForce found idle⟩
    · obtain ⟨rows, ran⟩ := run_eq_ok_iff.mpr ⟨time, quiet user roles.toList⟩
      have roster : ∃ held, a.store.Roster held := consistent.declared.imp fun _ given => given.1
      rcases filter_answers compiled inForce roster place relevant wanted ran with answered | ⟨g, lists⟩
      · exact answered
      · exact absurd lists (legible t (.ofResource resource) found g)
  · intro legible time id
    have pointQuiet : (pointCheck s.walk "user" t id ["role"]).fault? a.store.database = none :=
      pointCheck_quiet (List.cons_ne_nil _ _) (quiet "user" ["role"])
    have ran : ∃ rows, a.run none (chain s.walk t id) = .ok rows := run_eq_ok_iff.mpr ⟨time, chain_quiet pointQuiet⟩
    obtain ⟨rows, ran⟩ := ran
    rcases ancestors_answer compiled inForce declared ran with answered | ⟨u, table, g, there, lists⟩
    · exact answered
    · exact absurd lists (legible u table there g)

theorem run_refused {statement : Statement} (time : (deadline.getD a.options.timeout).isZero = false)
    (faulty : statement.fault? a.store.database ≠ none) : ∃ fault, a.run deadline statement = .error (.store fault) := by
  obtain ⟨fault, found⟩ := Option.ne_none_iff_exists'.mp faulty
  exact ⟨.refused .query fault, by rw [run_eq, time, found]; rfl⟩

theorem garbled_id_refuses (compiled : s.Compiled) (inForce : a.snapshot = some s) (roster : ∃ held, a.store.Roster held)
    {resource : Resource} (place : s.model.resources.find? t = some resource) {g : Garbled}
    (lists : Lists a.store.database (.ofResource resource) (.garbled g))
    (entitled : Entitled a.store s.model user action ⟨t, .garbled g⟩) (found : OrderedSet String) :
    a.filter user action t deadline ≠ .ok found := by
  intro answered
  obtain ⟨other, here, _, members⟩ := (filter_eq_ok_iff compiled inForce roster).mp answered
  cases place.symm.trans here
  obtain ⟨text, _, same⟩ := (members (.garbled g)).mp ⟨lists, entitled⟩
  cases same

-- The walk stands before such a table in every statement, whatever type is asked about.
theorem hidden_link_refuses (inForce : a.snapshot = some s) (hidden : ¬ Clear s.walk)
    (declared : s.model.resources.contains t = true) :
    (∀ user action id deadline roles, s.relevantRoles? t action = some roles → roles.toList ≠ [] →
      (deadline.getD a.options.timeout).isZero = false →
        ∃ fault, a.check user action ⟨t, id⟩ deadline = .error (.store fault)) ∧
    (a.options.timeout.isZero = false → ∀ id, ∃ fault, a.ancestors ⟨t, id⟩ = .error (.store fault)) := by
  constructor
  · intro user action id deadline roles relevant wanted time
    have faulty : (pointCheck s.walk user t id roles.toList).fault? a.store.database ≠ none :=
      fun quiet => hidden (clear_of_walkTableFault? (fault?_eq_none_iff.mp quiet).2.1)
    obtain ⟨fault, refused⟩ := run_refused time faulty
    exact ⟨fault, by rw [check_asked inForce declared relevant wanted, refused]; rfl⟩
  · intro time id
    have faulty : (chain s.walk t id).fault? a.store.database ≠ none := fun quiet => hidden (clear_of_chain quiet)
    have refused : ∃ fault, a.run none (chain s.walk t id) = .error (.store fault) := run_refused time faulty
    obtain ⟨fault, refused⟩ := refused
    have answered : a.ancestors ⟨t, id⟩ = a.run none (chain s.walk t id) >>= instancesOf := ancestors_asked inForce declared
    rw [refused] at answered
    exact ⟨fault, answered⟩

theorem hidden_table_refuses (inForce : a.snapshot = some s) {table : FilterTarget} (found : s.tables.find? t = some table)
    (hidden : sameName table.table name = true) (relevant : s.relevantRoles? t action = some roles) (wanted : roles.toList ≠ [])
    (time : (deadline.getD a.options.timeout).isZero = false) :
    ∃ fault, a.filter user action t deadline = .error (.store fault) := by
  have faulty : (bulkFilter s.walk table user roles.toList).fault? a.store.database ≠ none := by
    intro quiet
    have tables := (fault?_eq_none_iff.mp quiet).2.1
    rw [Resolution.walkTableFault?, Option.orElse_eq_none, List.findSome?_eq_none_iff] at tables
    have apart := (sourceFault?_eq_none (tables.1 ⟨table.table, some "r"⟩ (by simp [Resolution.sources, walk, startAll]))).1
    rw [hidden] at apart
    cases apart
  obtain ⟨fault, refused⟩ := run_refused time faulty
  exact ⟨fault, by rw [filter_asked inForce found relevant wanted, refused]; rfl⟩

instance {a : Authorizer} {s : Snapshot} : Decidable (a.Furnished s) :=
  decidable_of_iff ((∀ table ∈ s.tables.values, Provides a.store.database table.table table.idColumn) ∧
      (∀ l ∈ s.walk, Provides a.store.database l.childTable l.field) ∧
      ∀ l ∈ s.walk, Provides a.store.database l.parentTable l.references) <| by
    constructor
    · intro given
      obtain ⟨tables, fields, references⟩ := given
      exact ⟨fun t table found => tables table (OrderedMap.mem_values.mpr ⟨t, found⟩), fields, references⟩
    · intro given
      refine ⟨fun table member => ?_, given.fields, given.references⟩
      obtain ⟨t, found⟩ := OrderedMap.mem_values.mp member
      exact given.tables t table found

def isPlain : Text → Bool
  | .plain _ => true
  | .garbled _ => false

instance {a : Authorizer} {s : Snapshot} : Decidable (a.Legible s) :=
  decidable_of_iff (∀ table ∈ s.tables.values, ∀ r ∈ a.store.database table.table, ∀ row ∈ r.rows,
      ∀ id ∈ textAt r.columns table.idColumn row, isPlain id = true) <| by
    constructor
    · intro given t table found g lists
      obtain ⟨r, place, row, member, read⟩ := lists
      exact Bool.noConfusion (given table (OrderedMap.mem_values.mpr ⟨t, found⟩) r place row member _ read)
    · intro given table member r place row here id read
      obtain ⟨t, found⟩ := OrderedMap.mem_values.mp member
      cases id with
      | plain => rfl
      | garbled g => exact absurd ⟨r, place, row, here, read⟩ (given t table found g)

instance {s : Snapshot} : Decidable (Apart s) :=
  decidable_of_iff (∀ table ∈ s.tables.values, sameName table.table name = false) <| by
    constructor
    · intro given t table found
      exact given table (OrderedMap.mem_values.mpr ⟨t, found⟩)
    · intro given table member
      obtain ⟨t, found⟩ := OrderedMap.mem_values.mp member
      exact given t table found

theorem shelf_answers : ∃ s, shelfRun.snapshot = some s ∧ shelfRun.Furnished s ∧ Apart s ∧ shelfRun.Legible s ∧
    (∃ yes, shelfRun.check "bob" "read" ⟨"Note", "m"⟩ none = .ok yes) ∧
    (∃ found, shelfRun.filter "bob" "read" "Note" none = .ok found) ∧
    ∃ listed, shelfRun.ancestors ⟨"Note", "m"⟩ = .ok listed := by
  have answers : shelfRun.options.timeout.isZero = false ∧ shelfRun.snapshot.any
      (fun s => shelfRun.Furnished s ∧ Apart s ∧ shelfRun.Legible s ∧ s.model.resources.contains "Note" = true) = true := by
    decide +kernel
  obtain ⟨time, placed⟩ := answers
  obtain ⟨s, inForce, here⟩ := (Option.any_eq_true _ _).mp placed
  obtain ⟨furnished, apart, legible, declared⟩ := of_decide_eq_true here
  obtain ⟨checks, filters, ancestors, _⟩ := furnished_policy_answers shelfRun_reachable inForce furnished apart declared
  exact ⟨s, inForce, furnished, apart, legible, checks "bob" "read" "m" none time, filters legible "bob" "read" none time,
    ancestors legible time "m"⟩

-- Walks through parks, where the table of the walks goes by the name of the walk itself.
def trail : Declarations :=
  { resources :=
      [⟨"Park", "parks", "id", .unrestricted, .unrestricted⟩,
        ⟨"Walk", "walk", "id", .only ["read"], .only [⟨"walker", some ["read"], none⟩]⟩]
    links := [⟨"Walk", "Park", "park_id", none⟩] }

def trailTables : List Table :=
  [⟨"parks", ⟨[.free "id" (some .text)], [], [], false⟩, [⟨1, [.text "p"]⟩]⟩,
    ⟨"walk", ⟨[.free "id" (some .text), .free "park_id" (some .text)], [], [], false⟩, [⟨1, [.text "w", .text "p"]⟩]⟩]

def trailRun : Authorizer :=
  (begin trailTables (.declared .empty) ⟨.ofMillis 1, .reject⟩).followAll
    [.ask (.compileDeclarations trail), .ask (.assign ⟨"ann", "Walk", "w", "walker"⟩)]

theorem trail_refused : ∃ s, trailRun.snapshot = some s ∧ trailRun.Furnished s ∧
    trailRun.check "ann" "read" ⟨"Walk", "w"⟩ none = .error (.store (.refused .query (.repeatedReference "walk"))) ∧
    trailRun.filter "ann" "read" "Walk" none = .error (.store (.refused .query (.circularReference "walk"))) := by
  have answers : trailRun.snapshot.any (fun s => trailRun.Furnished s) = true ∧
      trailRun.check "ann" "read" ⟨"Walk", "w"⟩ none = .error (.store (.refused .query (.repeatedReference "walk"))) ∧
      trailRun.filter "ann" "read" "Walk" none = .error (.store (.refused .query (.circularReference "walk"))) := by
    decide +kernel
  obtain ⟨placed, refused⟩ := answers
  obtain ⟨s, inForce, here⟩ := (Option.any_eq_true _ _).mp placed
  exact ⟨s, inForce, of_decide_eq_true here, refused⟩

end Authorizer

end ScopedAccess
