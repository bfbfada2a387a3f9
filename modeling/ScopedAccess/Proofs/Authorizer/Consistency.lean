import ScopedAccess.Proofs.Authorizer.Run
import ScopedAccess.Proofs.CompiledSnapshot
import ScopedAccess.Proofs.Store.Enrolment
import ScopedAccess.Proofs.Store.RoleIndex

namespace ScopedAccess

namespace Authorizer

-- Before the first policy nothing is in force; afterwards the latest one is, numbered by how many there were.
def InForce (published : List Declarations) (a : Authorizer) : Prop :=
  match published.getLast? with
  | none => a.snapshot = none ∧ a.store.Blank
  | some d => ∃ s, a.snapshot = some s ∧ Snapshot.compile d published.length = .ok s ∧ a.store.Describes s.model

def Declares (a : Authorizer) (x : Assignment) : Prop :=
  ∃ s, a.snapshot = some s ∧ s.model.declaresRole x.role x.resourceType = true

structure Consistent (published : List Declarations) (a : Authorizer) : Prop where
  intact : a.store.Intact
  version : a.version = published.length
  inForce : InForce published a
  declared : ∃ held, a.store.Roster held ∧ ∀ e ∈ held, a.Declares e.2

variable {a next : Authorizer} {published : List Declarations} {d : Option Declarations} {s : Snapshot}
  {application : List Table} {source : PolicySource} {options : AuthorizerOptions}

theorem begin_consistent : Consistent [] (begin application source options) :=
  ⟨Store.fresh_intact, rfl, ⟨rfl, Store.fresh_blank⟩, [], Store.fresh_roster, by simp⟩

theorem InForce.congr {store : Store} (inForce : InForce published a)
    (same : ∀ o ∈ Store.roleTables, store.contents o = a.store.contents o) : InForce published { a with store } := by
  unfold InForce at inForce ⊢
  split at inForce
  · exact ⟨inForce.1, inForce.2.congr same⟩
  · obtain ⟨s, snapshot, compiled, describes⟩ := inForce
    exact ⟨s, snapshot, compiled, describes.congr same⟩

theorem InForce.of_agrees {changed : List OwnTable} {store : Store} (inForce : InForce published a)
    (agrees : Store.AgreesOff changed a.store store) (away : ∀ o ∈ Store.roleTables, o ∉ changed) :
    InForce published { a with store } :=
  inForce.congr fun o member => Store.contents_of_agrees agrees (away o member)

theorem consistent_published {d : Declarations} {store : Store} {report : SyncReport} (consistent : Consistent published a)
    (compiled : Snapshot.compile d (a.version + 1) = .ok s)
    (synchronized : a.store.synchronize s.model a.options.orphans = .ok (store, report)) :
    Consistent (published ++ [d]) { a with store, snapshot := some s, version := s.version } := by
  obtain ⟨held, roster, _⟩ := consistent.declared
  have resolved : s.model.Resolved := (Snapshot.compiled_of_compile compiled).resolved
  obtain ⟨describes, roster, _, intact⟩ := Store.synchronize_eq_ok consistent.intact roster resolved synchronized
  rw [consistent.version] at compiled
  refine ⟨intact, ?_, ?_, _, roster, ?_⟩
  · rw [List.length_append, List.length_singleton]
    exact (Snapshot.compile_eq_ok compiled).1
  · simp only [InForce, List.getLast?_append, List.getLast?_singleton, Option.some_or, List.length_append,
      List.length_singleton]
    exact ⟨s, rfl, compiled, describes⟩
  · intro e member
    exact ⟨s, rfl, (List.mem_filter.mp member).2⟩

theorem consistent_assigned {x : Assignment} {role : Role} {store : Store} {created : Bool} (consistent : Consistent published a)
    (inForce : a.snapshot = some s) (declared : s.model.roles.find? x.role = some role)
    (typed : role.resourceType = x.resourceType) (wrote : a.store.insertAssignment x = .ok (store, created)) :
    Consistent published { a with store } := by
  obtain ⟨held, roster, declares⟩ := consistent.declared
  obtain ⟨outcome, agrees, intact⟩ := Store.insertAssignment_eq_ok consistent.intact roster wrote
  refine ⟨intact, consistent.version, consistent.inForce.of_agrees agrees (by decide), ?_⟩
  rcases outcome with ⟨_, _, n, _, roster⟩ | ⟨_, _, roster⟩
  · refine ⟨_, roster, ?_⟩
    intro e member
    rcases List.mem_append.mp member with old | last
    · exact declares e old
    · cases List.mem_singleton.mp last
      exact ⟨s, inForce, by simp [Model.declaresRole, declared, typed]⟩
  · exact ⟨held, roster, declares⟩

theorem consistent_revoked {x : Assignment} {store : Store} {removed : Bool} (consistent : Consistent published a)
    (deleted : a.store.deleteAssignment x = .ok (store, removed)) : Consistent published { a with store } := by
  obtain ⟨held, roster, declares⟩ := consistent.declared
  obtain ⟨roster, _, agrees, intact⟩ := Store.deleteAssignment_eq_ok consistent.intact roster deleted
  refine ⟨intact, consistent.version, consistent.inForce.of_agrees agrees (by decide), _, roster, ?_⟩
  intro e member
  exact declares e (List.mem_filter.mp member).1

theorem consistent_written (consistent : Consistent published a) :
    Consistent published { a with store := { a.store with application } } := by
  obtain ⟨held, roster, declares⟩ := consistent.declared
  refine ⟨consistent.intact, consistent.version, consistent.inForce.congr ?_, held,
    ⟨roster.rows, roster.ascending, roster.distinct⟩, declares⟩
  intro o _
  rfl

theorem consistent_edited (consistent : Consistent published a) : Consistent published { a with source } :=
  ⟨consistent.intact, consistent.version, consistent.inForce, consistent.declared⟩

theorem change_consistent (consistent : Consistent published a) (change : Change a d next) :
    Consistent (published ++ d.toList) next := by
  cases change with
  | published compiled synchronized => exact consistent_published consistent compiled synchronized
  | nothing =>
    rw [Option.toList_none, List.append_nil]
    exact consistent
  | assigned inForce declared typed wrote =>
    rw [Option.toList_none, List.append_nil]
    exact consistent_assigned consistent inForce declared typed wrote
  | revoked deleted =>
    rw [Option.toList_none, List.append_nil]
    exact consistent_revoked consistent deleted
  | written =>
    rw [Option.toList_none, List.append_nil]
    exact consistent_written consistent
  | edited =>
    rw [Option.toList_none, List.append_nil]
    exact consistent_edited consistent

theorem run_consistent (application : List Table) (source : PolicySource) (options : AuthorizerOptions) (events : List Event) :
    Consistent ((begin application source options).publishedAll events) ((begin application source options).followAll events) :=
  run_preserves (fun _ _ _ _ consistent change => change_consistent consistent change) begin_consistent events

theorem Consistent.compiled (consistent : Consistent published a) (inForce : a.snapshot = some s) : s.Compiled := by
  have latest := consistent.inForce
  unfold InForce at latest
  split at latest
  · rw [inForce] at latest
    cases latest.1
  · obtain ⟨other, snapshot, compiled, _⟩ := latest
    rw [inForce] at snapshot
    cases snapshot
    exact Snapshot.compiled_of_compile compiled

theorem Reachable.consistent (reachable : Reachable a) : ∃ published, Consistent published a := by
  obtain ⟨application, source, options, events, rfl⟩ := reachable
  exact ⟨_, run_consistent application source options events⟩

theorem no_orphan_row {a : Authorizer} {t : Table} {r : NumberedRow} (reachable : Reachable a)
    (kept : a.store.own .assignments = some t) (member : r ∈ t.rows) :
    ∃ x : Assignment, t.Records r x ∧ ∃ s role, a.snapshot = some s ∧ s.model.resources.contains x.resourceType = true ∧
      s.model.roles.find? x.role = some role ∧ role.resourceType = x.resourceType := by
  obtain ⟨published, consistent⟩ := reachable.consistent
  obtain ⟨held, roster, declares⟩ := consistent.declared
  obtain ⟨table, found, is, rows⟩ := roster.rows
  rw [kept] at found
  cases found
  rw [rows] at member
  obtain ⟨e, listed, rfl⟩ := List.mem_map.mp member
  obtain ⟨s, inForce, declared⟩ := declares e listed
  obtain ⟨role, found, typed⟩ := Model.declaresRole_iff.mp declared
  have resolved : s.model.Resolved := (consistent.compiled inForce).resolved
  refine ⟨e.2, (Store.records_kept_iff is).mpr rfl, s, role, inForce, ?_, found, typed⟩
  rw [← typed]
  exact resolved.roleType _ _ found

theorem keeper_not_orphaned : ∃ t r, shelfRun.store.own .assignments = some t ∧ r ∈ t.rows ∧
    ∃ x : Assignment, t.Records r x ∧ ∃ s role, shelfRun.snapshot = some s ∧
      s.model.resources.contains x.resourceType = true ∧ s.model.roles.find? x.role = some role ∧
      role.resourceType = x.resourceType := by
  obtain ⟨t, kept, count⟩ := Option.map_eq_some_iff.mp shelfRun_answers.2.2.2.2
  obtain ⟨r, only⟩ := List.length_eq_one_iff.mp count
  have member : r ∈ t.rows := by
    rw [only]
    exact List.mem_singleton_self _
  exact ⟨t, r, kept, member, no_orphan_row shelfRun_reachable kept member⟩

-- With the declarations that were put in force, the latest last: before the first the tables are empty,
-- afterwards they and the index say what the model of the latest says.
theorem tables_follow_publication (application : List Table) (source : PolicySource) (options : AuthorizerOptions)
    (events : List Event) :
    let first := begin application source options
    let last := first.followAll events
    let published := first.publishedAll events
    match published.getLast? with
    | none => last.snapshot = none ∧ last.version = 0 ∧ last.store.Blank
    | some d => ∃ s, last.snapshot = some s ∧ Snapshot.compile d published.length = .ok s ∧ s.version = published.length ∧
        last.version = s.version ∧ last.store.Describes s.model ∧ last.roleIndex = .ok s.model.summaries := by
  intro first last published
  have consistent : Consistent published last := run_consistent application source options events
  have latest := consistent.inForce
  unfold InForce at latest
  cases ended : published.getLast? with
  | none =>
    rw [ended] at latest
    have counted := consistent.version
    rw [List.getLast?_eq_none_iff.mp ended] at counted
    exact ⟨latest.1, counted, latest.2⟩
  | some d =>
    rw [ended] at latest
    obtain ⟨s, inForce, compiled, describes⟩ := latest
    have resolved : s.model.Resolved := (consistent.compiled inForce).resolved
    have index : last.store.roleIndex = .ok s.model.summaries :=
      Store.roleIndex_of_describes consistent.intact describes resolved
    have numbered := (Snapshot.compile_eq_ok compiled).1
    refine ⟨s, inForce, compiled, numbered, consistent.version.trans numbered.symm, describes, ?_⟩
    rw [roleIndex, index]
    rfl

-- The shelf is put in force, taken away in vain while a keeper is entered, and put in force again.
def shelfHistory : List Event := shelfEvents ++ [.ask (.compileDeclarations .empty), .ask (.compileDeclarations shelf)]

theorem shelfHistory_published :
    (begin shelfTables (.declared .empty) ⟨.ofMillis 1, .reject⟩).publishedAll shelfHistory = [shelf, shelf] := by
  decide +kernel

theorem shelf_followed :
    let last := (begin shelfTables (.declared .empty) ⟨.ofMillis 1, .reject⟩).followAll shelfHistory
    ∃ s, last.snapshot = some s ∧ Snapshot.compile shelf 2 = .ok s ∧ s.version = 2 ∧ last.version = 2 ∧
      last.store.Describes s.model ∧ last.roleIndex = .ok s.model.summaries := by
  have followed := tables_follow_publication shelfTables (.declared .empty) ⟨.ofMillis 1, .reject⟩ shelfHistory
  simp only [shelfHistory_published] at followed
  obtain ⟨s, inForce, compiled, numbered, counted, describes, index⟩ := followed
  exact ⟨s, inForce, compiled, numbered, counted.trans numbered, describes, index⟩

end Authorizer

inductive Operation.Compiles : Operation → Prop where
  | source : Compiles .compile
  | declarations (d : Declarations) : Compiles (.compileDeclarations d)

namespace Authorizer

variable {a : Authorizer} {operation : Operation} {failure : Failure}

def answers (a : Authorizer) : List Event → List (Except Failure Answer)
  | [] => []
  | .ask operation :: rest => (a.perform operation).2 :: (a.perform operation).1.answers rest
  | event :: rest => (a.follow event).answers rest

theorem failed_compilation_leaves_no_trace (compiles : operation.Compiles)
    (failed : (a.perform operation).2 = .error failure) :
    let next := (a.perform operation).1
    next.snapshot = a.snapshot ∧ next.version = a.version ∧ (∀ o, next.store.own o = a.store.own o) ∧
      next.store.application = a.store.application ∧ ∀ later : List Event, next.answers later = a.answers later := by
  intro next
  have same : next = a := by
    cases compiles with
    | source => exact compile_failed (answering_failed failed)
    | declarations d => exact compileDeclarations_failed (answering_failed failed)
  rw [same]
  exact ⟨rfl, rfl, fun _ => rfl, rfl, fun _ => rfl⟩

-- The shelf with a table gone, and with orphans to be deleted.
def brokenShelf : Authorizer :=
  { shelfRun with store := shelfRun.store.remove "role_implications", options := ⟨.ofMillis 1, .prune⟩ }

def bareShelf : Declarations :=
  { shelf with
    resources :=
      [⟨"Folder", "folders", "id", .unrestricted, .only []⟩, ⟨"Note", "notes", "id", .only ["read"], .unrestricted⟩] }

-- The working copy where the transaction stops.
def strandedCopy : Option Store :=
  (Snapshot.compile bareShelf (brokenShelf.version + 1)).toOption.map fun s =>
    (Transaction.replaceRoles s.model .prune ⟨brokenShelf.store, brokenShelf.store⟩).2.working

def rowCount (s : Store) (o : OwnTable) : Option Nat := (s.own o).map (·.rows.length)

theorem brokenShelf_answers :
    (brokenShelf.perform (.compileDeclarations bareShelf)).2.toOption.isNone = true ∧
      strandedCopy.bind (rowCount · .assignments) = some 0 ∧ strandedCopy.bind (rowCount · .grants) = some 0 ∧
      rowCount brokenShelf.store .assignments = some 1 ∧ rowCount brokenShelf.store .grants = some 1 := by
  decide +kernel

-- Assignment and grant are gone in the copy where the missing table is met, and there again when it is rolled back.
theorem interrupted_pruning_undone :
    strandedCopy.bind (rowCount · .assignments) = some 0 ∧ strandedCopy.bind (rowCount · .grants) = some 0 ∧
      ∃ failure, (brokenShelf.perform (.compileDeclarations bareShelf)).2 = .error failure ∧
        let next := (brokenShelf.perform (.compileDeclarations bareShelf)).1
        next.snapshot = brokenShelf.snapshot ∧ rowCount next.store .assignments = some 1 ∧
          rowCount next.store .grants = some 1 ∧ ∀ later : List Event, next.answers later = brokenShelf.answers later := by
  obtain ⟨refused, noAssignment, noGrant, assignment, grant⟩ := brokenShelf_answers
  cases ran : (brokenShelf.perform (.compileDeclarations bareShelf)).2 with
  | ok answer =>
    rw [ran] at refused
    cases refused
  | error failure =>
    obtain ⟨snapshot, _, own, _, later⟩ := failed_compilation_leaves_no_trace (.declarations bareShelf) ran
    refine ⟨noAssignment, noGrant, failure, rfl, snapshot, ?_, ?_, later⟩
    · rw [rowCount, own]
      exact assignment
    · rw [rowCount, own]
      exact grant

end Authorizer

end ScopedAccess
