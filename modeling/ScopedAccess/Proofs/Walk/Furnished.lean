import ScopedAccess.Proofs.Walk.Congruence

namespace ScopedAccess

namespace AncestorWalk

open Query Query.Resolution

variable {db : Database} {steps : List WalkStep} {l : WalkStep} {start : Select} {user : String} {roles : List String}
  {t : FilterTarget} {w : Walk} {scope : Scope} {source column table : String} {columns : List String}

def Provides (db : Database) (table column : String) : Prop :=
  ∃ r, db table = some r ∧ (r.columns.map (·.name)).any (sameName column) = true

instance : Decidable (Provides db table column) :=
  match found : db table with
  | none => .isFalse fun provides => by
    obtain ⟨_, there, _⟩ := provides
    rw [found] at there
    cases there
  | some r => decidable_of_iff ((r.columns.map (·.name)).any (sameName column) = true) <| by
    simp [Provides, found]

structure Furnishes (db : Database) (l : WalkStep) : Prop where
  childId : Provides db l.childTable l.childId
  parentId : Provides db l.parentTable l.parentId
  field : Provides db l.childTable l.field
  references : Provides db l.parentTable l.references

theorem Provides.isSome (provides : Provides db table column) : (db table).isSome = true := by
  obtain ⟨r, found, _⟩ := provides
  rw [found]
  rfl

theorem Provides.named (provides : Provides db table column) (apart : sameName table w.name = false) :
    (columnNames db w table).any (sameName column) = true := by
  obtain ⟨r, found, named⟩ := provides
  rw [columnNames, apart, found]
  exact named

theorem termFault?_column (here : (scope.find? fun e => sameName e.1 source).map (·.2) = some columns)
    (named : columns.any (sameName column) = true) : termFault? scope (.column source column) = none := by
  obtain ⟨e, found, rfl⟩ := Option.map_eq_some_iff.mp here
  rw [termFault?, found]
  simp [named]

theorem sourceFault?_of_isSome {s : Source} {onWalk : Option DatabaseFault} (apart : sameName s.table name = false)
    (there : (db s.table).isSome = true) : sourceFault? db name onWalk s = none := by
  simp [sourceFault?, apart, there]

theorem labels_apart : sameName "c" "p" = false ∧ sameName "c" "walk" = false ∧ sameName "p" "walk" = false ∧
    sameName "ur" "walk" = false := by
  simp [sameName_eq]

theorem lookupFault?_quiet (furnished : Furnishes db l) (child : sameName l.childTable name = false)
    (parent : sameName l.parentTable name = false) :
    lookupFault? db (walk steps start) [(name, (walk steps start).columns)] (parentLookup l) = none := by
  obtain ⟨cp, cw, pw, _⟩ := labels_apart
  obtain ⟨scope, same⟩ : ∃ scope : Scope, scope = [("c", columnNames db (walk steps start) l.childTable),
      ("p", columnNames db (walk steps start) l.parentTable), (name, (walk steps start).columns)] := ⟨_, rfl⟩
  have childNamed : ∀ column, Provides db l.childTable column → termFault? scope (.column "c" column) = none :=
    fun column provides => termFault?_column (by simp [same, sameName_self]) (provides.named (w := walk steps start) child)
  have parentNamed : ∀ column, Provides db l.parentTable column → termFault? scope (.column "p" column) = none :=
    fun column provides => termFault?_column (by simp [same, sameName_self, cp]) (provides.named (w := walk steps start) parent)
  have walked : (scope.find? fun e => sameName e.1 name).map (·.2) = some (walk steps start).columns := by
    simp [same, sameName_self, cw, pw, name]
  have reached : termFault? scope resourceId = none := termFault?_column walked (by simp [walk, sameName_eq])
  have value := parentNamed _ furnished.parentId
  have condition := childNamed _ furnished.childId
  have field := childNamed _ furnished.field
  have references := parentNamed _ furnished.references
  have within : scopeOf db (walk steps start) [(parentLookup l).source, (parentLookup l).join.source] ++
      [(name, (walk steps start).columns)] = scope := same.symm
  simp only [lookupFault?, within, Option.orElse_eq_none, List.findSome?_eq_none_iff]
  refine ⟨value, ?_, ?_⟩
  · exact (Option.orElse_eq_none ..).mpr ⟨condition, reached⟩
  · intro c member
    cases List.mem_singleton.mp member
    exact (Option.orElse_eq_none ..).mpr ⟨field, references⟩

theorem selectFault?_step (furnished : ∀ l ∈ steps, Furnishes db l) (clear : Clear steps) :
    selectFault? db (walk steps start) (step steps) = none := by
  have within : scopeOf db (walk steps start) (sources (step steps)) = [(name, (walk steps start).columns)] := by
    simp [scopeOf, sources, step, Source.label, columnNames, walk, sameName_self]
  have walked : ([(name, (walk steps start).columns)].find? fun e => sameName e.1 name).map (·.2) =
      some (walk steps start).columns := by
    simp [sameName_self]
  have known : ∀ column ∈ (walk steps start).columns,
      termFault? [(name, (walk steps start).columns)] (.column name column) = none :=
    fun column member => termFault?_column walked (List.any_eq_true.mpr ⟨column, member, sameName_self⟩)
  have origins := known "origin" (by simp [walk])
  have ids := known "resource_id" (by simp [walk])
  have types := known "resource_type" (by simp [walk])
  have depths := known "depth" (by simp [walk])
  have child : ∀ l, conditionFault? [(name, (walk steps start).columns)] (isChild l) = none :=
    fun l => (Option.orElse_eq_none ..).mpr ⟨types, rfl⟩
  simp only [selectFault?, within, Option.orElse_eq_none, List.findSome?_eq_none_iff]
  refine ⟨?_, ?_, by simp [step], rfl⟩
  · simp only [step, List.forall_mem_cons, List.not_mem_nil, false_implies, implies_true, and_true]
    refine ⟨origins, ?_, ?_, (Option.orElse_eq_none ..).mpr ⟨depths, rfl⟩⟩
    · refine List.findSome?_eq_none_iff.mpr fun arm member => ?_
      obtain ⟨l, linked, rfl⟩ := List.mem_map.mp member
      refine (Option.orElse_eq_none ..).mpr ⟨child l, ?_⟩
      exact lookupFault?_quiet (furnished l linked) (clear l linked).1 (clear l linked).2
    · refine List.findSome?_eq_none_iff.mpr fun arm member => ?_
      obtain ⟨l, linked, rfl⟩ := List.mem_map.mp member
      exact (Option.orElse_eq_none ..).mpr ⟨child l, rfl⟩
  · simp only [step, List.forall_mem_cons, List.not_mem_nil, false_implies, implies_true, and_true]
    refine ⟨ids, ?_⟩
    cases steps with
    | nil => rfl
    | cons l rest => exact types

theorem mem_lookups_step {u : Lookup} (member : u ∈ lookups (step steps)) : ∃ l ∈ steps, u = parentLookup l := by
  simp only [lookups, step, List.flatMap_cons, List.flatMap_nil, List.nil_append, List.append_nil, List.mem_append,
    List.mem_filterMap, List.mem_map] at member
  rcases member with ⟨arm, ⟨l, linked, rfl⟩, same⟩ | ⟨arm, ⟨l, linked, rfl⟩, other⟩
  · cases same
    exact ⟨l, linked, rfl⟩
  · cases other

theorem walkTableFault?_quiet (furnished : ∀ l ∈ steps, Furnishes db l) (clear : Clear steps)
    (begins : ∀ s ∈ sources start, sameName s.table name = false ∧ (db s.table).isSome = true) :
    walkTableFault? db (walk steps start) = none := by
  rw [walkTableFault?, Option.orElse_eq_none, List.findSome?_eq_none_iff]
  refine ⟨fun s member => sourceFault?_of_isSome (begins s member).1 (begins s member).2, ?_⟩
  cases given : (walk steps start).step with
  | none => rfl
  | some s =>
    have onward : stepTableFault? db (walk steps start) (step steps) = none := by
      rw [stepTableFault?, Option.orElse_eq_none, List.findSome?_eq_none_iff, List.findSome?_eq_none_iff]
      constructor
      · intro source member
        cases List.mem_singleton.mp member
        simp [sourceFault?, walk, sameName_self]
      · intro source member
        obtain ⟨u, looked, here⟩ := List.mem_flatMap.mp member
        obtain ⟨l, linked, rfl⟩ := mem_lookups_step looked
        have tables := furnished l linked
        rcases List.mem_cons.mp here with rfl | here
        · exact sourceFault?_of_isSome (clear l linked).1 tables.childId.isSome
        · cases List.mem_singleton.mp here
          exact sourceFault?_of_isSome (clear l linked).2 tables.parentId.isSome
    rw [step_of_walk given]
    exact onward

theorem selectFault?_startAll (provides : Provides db t.table t.idColumn) (apart : sameName t.table name = false) :
    selectFault? db (walk steps (startAll t)) (startAll t) = none := by
  have within : scopeOf db (walk steps (startAll t)) (sources (startAll t)) =
      [("r", columnNames db (walk steps (startAll t)) t.table)] := rfl
  have id : termFault? [("r", columnNames db (walk steps (startAll t)) t.table)] (.column "r" t.idColumn) = none :=
    termFault?_column (by simp [sameName_self]) (provides.named (w := walk steps (startAll t)) apart)
  simp only [selectFault?, within, Option.orElse_eq_none, List.findSome?_eq_none_iff]
  refine ⟨?_, by simp [startAll], by simp [startAll], rfl⟩
  simp only [startAll, List.forall_mem_cons, List.not_mem_nil, false_implies, implies_true, and_true]
  exact ⟨id, id, rfl, rfl⟩

def Enrols (db : Database) : Prop :=
  ∀ column ∈ ["user_id", "resource_type", "resource_id", "role"], Provides db "user_roles" column

theorem selectFault?_body (enrols : Enrols db) :
    selectFault? db (walk steps (startAll t)) (bulkFilter steps t user roles).body = none := by
  obtain ⟨_, _, _, uw⟩ := labels_apart
  obtain ⟨scope, same⟩ : ∃ scope : Scope, scope = [("ur", columnNames db (walk steps (startAll t)) "user_roles"),
      (name, (walk steps (startAll t)).columns)] := ⟨_, rfl⟩
  have within : scopeOf db (walk steps (startAll t)) (sources (bulkFilter steps t user roles).body) = scope := by
    rw [same]
    simp [scopeOf, sources, bulkFilter, matching, assignments, Source.label, columnNames, walk, sameName_self]
  have held : ∀ column ∈ ["user_id", "resource_type", "resource_id", "role"], termFault? scope (assigned column) = none := by
    intro column member
    have apart : sameName "user_roles" (walk steps (startAll t)).name = false := by simp [walk, name, sameName_eq]
    exact termFault?_column (by simp [same, sameName_self, assignments, Source.label]) ((enrols column member).named apart)
  have walked : (scope.find? fun e => sameName e.1 name).map (·.2) = some (walk steps (startAll t)).columns := by
    simp [same, sameName_self, uw, name]
  have known : ∀ column ∈ (walk steps (startAll t)).columns, termFault? scope (.column name column) = none :=
    fun column member => termFault?_column walked (List.any_eq_true.mpr ⟨column, member, sameName_self⟩)
  have origins := known "origin" (by simp [walk])
  have ids := known "resource_id" (by simp [walk])
  have types := known "resource_type" (by simp [walk])
  simp only [selectFault?, within, Option.orElse_eq_none, List.findSome?_eq_none_iff]
  refine ⟨?_, ?_, ?_, origins⟩
  · intro o member
    cases List.mem_singleton.mp member
    exact origins
  · simp only [bulkFilter, matching, List.forall_mem_cons, List.not_mem_nil, false_implies, implies_true, and_true]
    refine ⟨(Option.orElse_eq_none ..).mpr ⟨held _ (by simp), rfl⟩, ?_⟩
    cases roles with
    | nil => rfl
    | cons role rest => exact held _ (by simp)
  · simp only [bulkFilter, matching, Option.toList_some, List.flatMap_cons, List.flatMap_nil, List.append_nil,
      List.forall_mem_cons, List.not_mem_nil, false_implies, implies_true, and_true]
    exact ⟨(Option.orElse_eq_none ..).mpr ⟨held _ (by simp), types⟩, (Option.orElse_eq_none ..).mpr ⟨held _ (by simp), ids⟩⟩

theorem bulkFilter_quiet (enrols : Enrols db) (furnished : ∀ l ∈ steps, Furnishes db l) (clear : Clear steps)
    (provides : Provides db t.table t.idColumn) (apart : sameName t.table name = false) :
    (bulkFilter steps t user roles).fault? db = none := by
  refine fault?_eq_none_iff.mpr
    ⟨(enrols "role" (by simp)).isSome, ?_, ?_, selectFault?_startAll provides apart, selectFault?_body enrols⟩
  · refine walkTableFault?_quiet furnished clear fun s member => ?_
    cases List.mem_singleton.mp member
    exact ⟨apart, provides.isSome⟩
  · cases given : (walk steps (startAll t)).step with
    | none => rfl
    | some s =>
      rw [step_of_walk given]
      exact selectFault?_step furnished clear

end AncestorWalk

end ScopedAccess
