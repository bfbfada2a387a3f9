import Mathlib.Data.Set.List
import ScopedAccess.Proofs.Authorizer.Entitlement

namespace ScopedAccess

namespace Authorizer

open AncestorWalk

variable {a : Authorizer} {s : Snapshot} {user action t id : String} {deadline : Option Duration} {found : OrderedSet String}
  {table : FilterTarget} {roles : OrderedSet String} {failure : Failure}

-- Failures that do not come from the store.
inductive Early : Failure → Prop where
  | notConfigured : Early .notConfigured
  | unknownResourceType (t : String) : Early (.unknownResourceType t)
  | deadlineExceeded (limit : Duration) : Early (.deadlineExceeded limit)

theorem filter_idle (inForce : a.snapshot = some s) (declared : s.tables.find? t = some table) (idle : s.Idle t action) :
    a.filter user action t deadline = .ok .empty := by
  cases relevant : s.relevantRoles? t action with
  | none => simp only [filter, current, inForce, bind, Except.bind, declared, relevant, Option.map_none]
  | some roles => simp only [filter, current, inForce, bind, Except.bind, declared, relevant, Option.map_some, idle roles relevant]

theorem filter_asked (inForce : a.snapshot = some s) (declared : s.tables.find? t = some table)
    (relevant : s.relevantRoles? t action = some roles) (wanted : roles.toList ≠ []) :
    a.filter user action t deadline = a.run deadline (bulkFilter s.walk table user roles.toList) >>= idsOf := by
  cases listed : roles.toList with
  | nil => exact absurd listed wanted
  | cons role rest =>
    simp only [filter, current, inForce, bind, Except.bind, declared, relevant, Option.map_some, listed]

section

variable {ids : List Text}

theorem textOf_cell_iff {column : ResultColumn} {t : Text} {s : String} : Store.textOf column t.cell = .ok s ↔ t = .plain s :=
  Store.textOf_eq_ok_iff.trans (cell_inj (b := s))

theorem textOf_cell_error {column : ResultColumn} {t : Text} {fault : StoreFault}
    (failed : Store.textOf column t.cell = .error fault) :
    ∃ g, t = .garbled g ∧ fault = .undecodable column (Utf8.break? g.bytes) := by
  cases t with
  | plain s => cases failed
  | garbled g =>
    cases failed
    exact ⟨g, rfl, rfl⟩

theorem idsOf_eq_ok_iff : idsOf (ids.map idRow) = .ok found ↔ ∀ id : Text, id ∈ ids ↔ ∃ s ∈ found, Text.plain s = id := by
  have read : ∀ texts, (ids.map idRow).mapM idOfRow = .ok texts ↔ ids = texts.map Text.plain :=
    fun _ => mapM_rows_iff fun _ _ => textOf_cell_iff
  simp only [idsOf, map_eq_ok_iff, mapError_eq_ok_iff, read]
  constructor
  · rintro ⟨texts, rfl, rfl⟩ id
    simp only [List.mem_map, OrderedSet.mem_ofList]
  · intro members
    obtain ⟨texts, rfl⟩ : ids ∈ Set.range (List.map Text.plain) := by
      rw [Set.range_list_map]
      intro id member
      obtain ⟨s, _, same⟩ := (members id).mp member
      exact ⟨s, same⟩
    refine ⟨texts, rfl, OrderedSet.ext fun s => ?_⟩
    have listed := members s
    rw [OrderedSet.mem_ofList]
    simpa using listed

theorem idsOf_error (failed : idsOf (ids.map idRow) = .error failure) :
    ∃ g : Garbled, .garbled g ∈ ids ∧ failure = .store (.undecodable "resource_id" (Utf8.break? g.bytes)) := by
  unfold idsOf at failed
  cases read : (ids.map idRow).mapM idOfRow with
  | ok texts =>
    rw [read] at failed
    cases failed
  | error fault =>
    rw [read] at failed
    cases failed
    obtain ⟨row, member, stopped⟩ := mapM_error read
    obtain ⟨id, here, rfl⟩ := List.mem_map.mp member
    obtain ⟨g, rfl, same⟩ := textOf_cell_error stopped
    exact ⟨g, here, congrArg _ same⟩

end

theorem unconfigured (none : a.snapshot = none) (i : Instance) :
    a.filter user action t deadline = .error .notConfigured ∧ a.check user action i deadline = .error .notConfigured := by
  simp only [filter, check, current, none, bind, Except.bind, and_self]

theorem undeclared (compiled : s.Compiled) (inForce : a.snapshot = some s) (missing : s.model.resources.find? t = none)
    (id : String) :
    a.filter user action t deadline = .error (.unknownResourceType t) ∧
      a.check user action ⟨t, id⟩ deadline = .error (.unknownResourceType t) := by
  have noTable : s.tables.find? t = none := by
    rw [compiled.find?_tables, missing]
    rfl
  have unknown : s.model.resources.contains t = false := by
    rw [OrderedMap.contains, missing]
    rfl
  simp only [filter, check, current, inForce, bind, Except.bind, noTable, requireType, unknown, Bool.false_eq_true, if_false,
    and_self]

-- Whatever is asked of the store: without time it is not asked, and its own failures are none of those.
theorem run_early_iff {statement : Query.Statement} (early : Early failure) :
    a.run deadline statement = .error failure ↔
      (deadline.getD a.options.timeout).isZero = true ∧ failure = .deadlineExceeded (deadline.getD a.options.timeout) := by
  simp only [run]
  split
  · rename_i zero
    simp only [zero, true_and, Except.error.injEq]
    exact eq_comm
  · rename_i time
    simp only [time, Bool.false_eq_true, false_and, iff_false]
    intro failed
    cases asked : a.store.query statement with
    | ok rows =>
      rw [asked] at failed
      cases failed
    | error fault =>
      rw [asked] at failed
      cases failed
      cases early

theorem idsOf_not_early {rows : List Row} (early : Early failure) : idsOf rows ≠ .error failure := by
  unfold idsOf
  cases rows.mapM idOfRow with
  | ok ids => exact fun impossible => nomatch impossible
  | error fault =>
    rintro ⟨⟩
    cases early

theorem bind_idsOf_early_iff {x : Except Failure (List Row)} (early : Early failure) :
    x >>= idsOf = .error failure ↔ x = .error failure := by
  cases x with
  | error other =>
    constructor
    · rintro ⟨⟩
      rfl
    · rintro ⟨⟩
      rfl
  | ok rows => exact iff_of_false (idsOf_not_early early) fun impossible => nomatch impossible

theorem fail_alike (reachable : Reachable a) (early : Early failure) :
    a.filter user action t deadline = .error failure ↔ a.check user action ⟨t, id⟩ deadline = .error failure := by
  obtain ⟨published, consistent⟩ := reachable.consistent
  cases inForce : a.snapshot with
  | none =>
    obtain ⟨filtered, checked⟩ : a.filter user action t deadline = .error .notConfigured ∧
        a.check user action ⟨t, id⟩ deadline = .error .notConfigured := unconfigured inForce ⟨t, id⟩
    simp only [filtered, checked, Except.error.injEq]
  | some s =>
    have compiled := consistent.compiled inForce
    cases place : s.model.resources.find? t with
    | none =>
      obtain ⟨filtered, checked⟩ : a.filter user action t deadline = .error (.unknownResourceType t) ∧
          a.check user action ⟨t, id⟩ deadline = .error (.unknownResourceType t) := undeclared compiled inForce place id
      simp only [filtered, checked, Except.error.injEq]
    | some resource =>
      have declared : s.model.resources.contains t = true := OrderedMap.contains_of_find? place
      have tableFound : s.tables.find? t = some (.ofResource resource) := compiled.table_of_resource place
      rcases idle_or_asked s t action with idle | ⟨roles, relevant, wanted⟩
      · rw [filter_idle inForce tableFound idle, check_idle inForce declared idle]
        simp
      · rw [filter_asked inForce tableFound relevant wanted, check_asked inForce declared relevant wanted,
          bind_idsOf_early_iff early, map_eq_error_iff, run_early_iff early, run_early_iff early]

theorem run_of_quiet {first second : Query.Statement} {rows : List Row} (ran : a.run deadline first = .ok rows)
    (quiet : second.fault? a.store.database = none) : ∃ rows, a.run deadline second = .ok rows := by
  simp only [run] at ran ⊢
  split at ran
  · cases ran
  · rename_i time
    refine ⟨second.body.rows (second.walk.shadow a.store.database (second.walk.rows a.store.database)), ?_⟩
    rw [if_neg time, Store.query, Query.Statement.rows, quiet]
    rfl

theorem checked_of_filtered (compiled : s.Compiled) (inForce : a.snapshot = some s)
    (declared : s.model.resources.contains t = true) (relevant : s.relevantRoles? t action = some roles)
    (wanted : roles.toList ≠ []) {listed : List Row}
    (ran : a.run deadline (bulkFilter s.model.links.values table user roles.toList) = .ok listed) (id : String) :
    ∃ rows, a.check user action ⟨t, id⟩ deadline = .ok !rows.isEmpty ∧
      (pointCheck s.model.links.values user t id roles.toList).rows a.store.database = .ok rows := by
  have quiet := (rows_of_ran (run_eq_ok ran)).1
  have pointQuiet : (pointCheck s.model.links.values user t id roles.toList).fault? a.store.database = none :=
    pointCheck_quiet wanted quiet
  obtain ⟨rows, pointRan⟩ := run_of_quiet ran pointQuiet
  refine ⟨rows, ?_, run_eq_ok pointRan⟩
  rw [check_asked inForce declared relevant wanted, compiled.walk_eq, pointRan]
  rfl

def Agrees (a : Authorizer) (user action t : String) (deadline : Option Duration) (table : FilterTarget)
    (found : OrderedSet String) : Prop :=
  (∀ id : String, id ∈ found ↔ Lists a.store.database table id ∧ a.check user action ⟨t, id⟩ deadline = .ok true) ∧
    ∀ id, ∃ b, a.check user action ⟨t, id⟩ deadline = .ok b

theorem agrees_idle (inForce : a.snapshot = some s) (declared : s.model.resources.contains t = true)
    (tableFound : s.tables.find? t = some table) (idle : s.Idle t action)
    (filtered : a.filter user action t deadline = .ok found) : a.Agrees user action t deadline table found := by
  have checked : ∀ id, a.check user action ⟨t, id⟩ deadline = .ok false := fun id => check_idle inForce declared idle
  rw [filter_idle inForce tableFound idle] at filtered
  cases filtered
  refine ⟨?_, fun id => ⟨false, checked id⟩⟩
  intro id
  rw [checked id]
  simp [OrderedSet.not_mem_empty]

theorem agrees_asked (compiled : s.Compiled) (roster : ∃ kept, a.store.Roster kept) (inForce : a.snapshot = some s)
    {resource : Resource} (place : s.model.resources.find? t = some resource)
    (relevant : s.relevantRoles? t action = some roles) (wanted : roles.toList ≠ [])
    (filtered : a.filter user action t deadline = .ok found) :
    a.Agrees user action t deadline (.ofResource resource) found := by
  have resolved := compiled.resolved
  have declared : s.model.resources.contains t = true := OrderedMap.contains_of_find? place
  rw [filter_asked inForce (compiled.table_of_resource place) relevant wanted, compiled.walk_eq] at filtered
  obtain ⟨rows, ran, read⟩ := bind_eq_ok_iff.mp filtered
  obtain ⟨kept, roster⟩ := roster
  obtain ⟨held, heldFound, textual, _⟩ := roster.seen
  have checked := checked_of_filtered compiled inForce declared relevant wanted ran
  obtain ⟨ids, rfl, _, allowed⟩ := bulkFilter_ids resolved heldFound textual (run_eq_ok ran)
  have members := idsOf_eq_ok_iff.mp read
  constructor
  · intro id
    obtain ⟨pointRows, answered, pointRan⟩ := checked id
    have plain : id ∈ found ↔ ∃ s ∈ found, Text.plain s = id := by simp
    rw [plain, ← members, allowed, Snapshot.targetName resolved place, answered,
      ← pointCheck_iff resolved heldFound textual pointRan]
    simp
  · intro id
    obtain ⟨pointRows, answered, _⟩ := checked id
    exact ⟨_, answered⟩

theorem filtered_iff_checked (reachable : Reachable a) (filtered : a.filter user action t deadline = .ok found) :
    ∃ s resource, a.snapshot = some s ∧ s.model.resources.find? t = some resource ∧
      a.Agrees user action t deadline (.ofResource resource) found := by
  obtain ⟨published, consistent⟩ := reachable.consistent
  cases inForce : a.snapshot with
  | none =>
    rw [(unconfigured inForce ⟨t, t⟩).1] at filtered
    cases filtered
  | some s =>
    have compiled := consistent.compiled inForce
    cases place : s.model.resources.find? t with
    | none =>
      have refused : a.filter user action t deadline = .error (.unknownResourceType t) := (undeclared compiled inForce place t).1
      rw [refused] at filtered
      cases filtered
    | some resource =>
      have declared : s.model.resources.contains t = true := OrderedMap.contains_of_find? place
      have tableFound : s.tables.find? t = some (.ofResource resource) := compiled.table_of_resource place
      refine ⟨s, resource, rfl, place, ?_⟩
      rcases idle_or_asked s t action with idle | ⟨roles, relevant, wanted⟩
      · exact agrees_idle inForce declared tableFound idle filtered
      · obtain ⟨kept, roster, _⟩ := consistent.declared
        exact agrees_asked compiled ⟨kept, roster⟩ inForce place relevant wanted filtered

theorem filter_matches_checks (reachable : Reachable a) (user action t : String) (deadline : Option Duration) :
    (∀ found, a.filter user action t deadline = .ok found → ∃ s resource, a.snapshot = some s ∧
      s.model.resources.find? t = some resource ∧
      (∀ id : String, id ∈ found ↔
        Lists a.store.database (.ofResource resource) id ∧ a.check user action ⟨t, id⟩ deadline = .ok true) ∧
      ∀ id, ∃ b, a.check user action ⟨t, id⟩ deadline = .ok b) ∧
    (∀ id failure, Early failure →
      (a.filter user action t deadline = .error failure ↔ a.check user action ⟨t, id⟩ deadline = .error failure)) ∧
    ∀ s, a.snapshot = some s → s.model.resources.contains t = true → s.Idle t action →
      a.filter user action t deadline = .ok .empty ∧ ∀ id, a.check user action ⟨t, id⟩ deadline = .ok false := by
  refine ⟨fun found filtered => filtered_iff_checked reachable filtered, fun id failure early => fail_alike reachable early, ?_⟩
  intro s inForce declared idle
  obtain ⟨published, consistent⟩ := reachable.consistent
  obtain ⟨resource, place⟩ := Option.isSome_iff_exists.mp declared
  have tableFound : s.tables.find? t = some (.ofResource resource) := (consistent.compiled inForce).table_of_resource place
  exact ⟨filter_idle inForce tableFound idle, fun id => check_idle inForce declared idle⟩

theorem keeper_finds_note : ∃ s resource, shelfRun.snapshot = some s ∧ s.model.resources.find? "Note" = some resource ∧
    Lists shelfRun.store.database (.ofResource resource) "n" ∧ shelfRun.check "ann" "read" ⟨"Note", "n"⟩ none = .ok true := by
  obtain ⟨found, filtered, listed⟩ := Option.map_eq_some_iff.mp shelfRun_answers.2.2.2.1
  obtain ⟨s, resource, inForce, place, members, _⟩ :=
    (filter_matches_checks shelfRun_reachable "ann" "read" "Note" none).1 found (toOption_eq_some_iff.mp filtered)
  have member : "n" ∈ found := by
    rw [← OrderedSet.mem_toList, listed]
    exact List.mem_singleton_self _
  exact ⟨s, resource, inForce, place, (members "n").mp member⟩

end Authorizer

end ScopedAccess
