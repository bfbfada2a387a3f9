import ScopedAccess.Authorizer
import ScopedAccess.Proofs.Store.Transaction

namespace ScopedAccess

inductive Event where
  | ask (operation : Operation)
  | write (application : List Table)
  | edit (source : PolicySource)

namespace Authorizer

def follow (a : Authorizer) : Event → Authorizer
  | .ask operation => (a.perform operation).1
  | .write application => { a with store := { a.store with application } }
  | .edit source => { a with source }

def followAll (a : Authorizer) (events : List Event) : Authorizer := events.foldl follow a

def begin (application : List Table) (source : PolicySource) (options : AuthorizerOptions) : Authorizer :=
  start (Store.fresh application) source options

def Reachable (a : Authorizer) : Prop :=
  ∃ application source options events, a = (begin application source options).followAll events

def succeeds (a : Authorizer) (operation : Operation) : Bool :=
  match (a.perform operation).2 with
  | .ok _ => true
  | .error _ => false

def published? (a : Authorizer) : Event → Option Declarations
  | .ask .compile => if a.succeeds .compile then a.source.load.toOption else none
  | .ask (.compileDeclarations d) => if a.succeeds (.compileDeclarations d) then some d else none
  | _ => none

def publishedAll (a : Authorizer) : List Event → List Declarations
  | [] => []
  | event :: rest => (a.published? event).toList ++ (a.follow event).publishedAll rest

inductive Change (a : Authorizer) : Option Declarations → Authorizer → Prop where
  | nothing : Change a none a
  | published {d : Declarations} {s : Snapshot} {store : Store} {report : SyncReport}
      (compiled : Snapshot.compile d (a.version + 1) = .ok s)
      (synchronized : a.store.synchronize s.model a.options.orphans = .ok (store, report)) :
      Change a (some d) { a with store, snapshot := some s, version := s.version }
  | assigned {x : Assignment} {s : Snapshot} {role : Role} {store : Store} {created : Bool} (inForce : a.snapshot = some s)
      (declared : s.model.roles.find? x.role = some role) (typed : role.resourceType = x.resourceType)
      (wrote : a.store.insertAssignment x = .ok (store, created)) : Change a none { a with store }
  | revoked {x : Assignment} {store : Store} {removed : Bool} (deleted : a.store.deleteAssignment x = .ok (store, removed)) :
      Change a none { a with store }
  | written {application : List Table} : Change a none { a with store := { a.store with application } }
  | edited {source : PolicySource} : Change a none { a with source }

variable {a next : Authorizer} {d : Declarations} {s : Snapshot} {x : Assignment} {created removed : Bool} {failure : Failure}
  {operation : Operation}

theorem current_eq_ok_iff : a.current = .ok s ↔ a.snapshot = some s := by
  unfold current
  cases a.snapshot <;> simp

section

variable {α : Type} {statement : Store → Except StoreFault (Store × α)} {r : α}

theorem execute_eq : a.execute statement = match statement a.store with
    | .ok (store, r) => ({ a with store }, .ok r)
    | .error fault => (a, .error (.store fault)) := by
  rw [execute, Store.transact_eq (Transaction.follows_execute statement)]
  cases statement a.store with
  | error fault => rfl
  | ok written => rfl

theorem execute_eq_ok_iff :
    a.execute statement = (next, .ok r) ↔ ∃ store, statement a.store = .ok (store, r) ∧ next = { a with store } := by
  rw [execute_eq]
  cases written : statement a.store with
  | error fault => simp
  | ok result =>
    constructor
    · rintro ⟨⟩
      exact ⟨_, rfl, rfl⟩
    · rintro ⟨store, same, rfl⟩
      cases same
      rfl

theorem execute_failed (failed : (a.execute statement).2 = .error failure) : (a.execute statement).1 = a := by
  rw [execute_eq] at failed ⊢
  cases written : statement a.store with
  | error fault => rfl
  | ok result =>
    rw [written] at failed
    cases failed

end

theorem compileDeclarations_eq : a.compileDeclarations d = match Snapshot.compile d (a.version + 1) with
    | .error fault => (a, .error (refusal fault))
    | .ok s => match a.store.synchronize s.model a.options.orphans with
      | .error failure => (a, .error failure)
      | .ok (store, _) => ({ a with store, snapshot := some s, version := s.version }, .ok s) := by
  unfold compileDeclarations
  cases Snapshot.compile d (a.version + 1) with
  | error fault => rfl
  | ok s =>
    simp only [Store.transact_eq Transaction.replaceRoles_follows]
    cases a.store.synchronize s.model a.options.orphans with
    | error failure => rfl
    | ok result => rfl

theorem compileDeclarations_eq_ok (ran : a.compileDeclarations d = (next, .ok s)) :
    ∃ store report, Snapshot.compile d (a.version + 1) = .ok s ∧
      a.store.synchronize s.model a.options.orphans = .ok (store, report) ∧
      next = { a with store, snapshot := some s, version := s.version } := by
  rw [compileDeclarations_eq] at ran
  cases made : Snapshot.compile d (a.version + 1) with
  | error fault =>
    rw [made] at ran
    cases ran
  | ok snapshot =>
    cases synchronized : a.store.synchronize snapshot.model a.options.orphans with
    | error failure =>
      simp only [made, synchronized] at ran
      cases ran
    | ok result =>
      simp only [made, synchronized] at ran
      cases ran
      exact ⟨_, _, rfl, synchronized, rfl⟩

theorem compileDeclarations_failed (failed : (a.compileDeclarations d).2 = .error failure) :
    (a.compileDeclarations d).1 = a := by
  rw [compileDeclarations_eq] at failed ⊢
  cases made : Snapshot.compile d (a.version + 1) with
  | error fault => rfl
  | ok s =>
    cases synchronized : a.store.synchronize s.model a.options.orphans with
    | error failure => simp only [synchronized]
    | ok result =>
      simp only [made, synchronized] at failed
      cases failed

theorem compile_eq_ok (ran : a.compile = (next, .ok s)) :
    ∃ d, a.source.load = .ok d ∧ a.compileDeclarations d = (next, .ok s) := by
  unfold compile at ran
  cases loaded : a.source.load with
  | error failure =>
    rw [loaded] at ran
    cases ran
  | ok d =>
    rw [loaded] at ran
    exact ⟨d, rfl, ran⟩

theorem compile_failed (failed : a.compile.2 = .error failure) : a.compile.1 = a := by
  unfold compile at failed ⊢
  cases loaded : a.source.load with
  | error failure => rfl
  | ok d =>
    rw [loaded] at failed
    exact compileDeclarations_failed failed

theorem requireType_eq_ok_iff {t : String} : requireType s t = .ok () ↔ s.model.resources.contains t = true := by
  unfold requireType
  split
  · rename_i contains
    simp [contains]
  · rename_i missing
    simp [missing]

theorem approve_eq_ok_iff :
    a.approve x = .ok () ↔ ∃ s role, a.snapshot = some s ∧ s.model.resources.contains x.resourceType = true ∧
      s.model.roles.find? x.role = some role ∧ role.resourceType = x.resourceType := by
  constructor
  · intro admitted
    rw [approve, bind_eq_ok_iff] at admitted
    obtain ⟨s, inForce, admitted⟩ := admitted
    rw [bind_eq_ok_iff] at admitted
    obtain ⟨_, contains, admitted⟩ := admitted
    split at admitted
    · cases admitted
    · rename_i role declared
      split at admitted
      · cases admitted
      · rename_i typed
        exact ⟨s, role, current_eq_ok_iff.mp inForce, requireType_eq_ok_iff.mp contains, declared, Decidable.not_not.mp typed⟩
  · intro given
    obtain ⟨s, role, inForce, contains, declared, typed⟩ := given
    simp only [approve, current_eq_ok_iff.mpr inForce, requireType_eq_ok_iff.mpr contains, bind, Except.bind, declared, typed,
      ne_eq, not_true_eq_false, if_false]

theorem assign_eq_ok_iff :
    a.assign x = (next, .ok created) ↔
      ∃ s role store, a.snapshot = some s ∧ s.model.resources.contains x.resourceType = true ∧
        s.model.roles.find? x.role = some role ∧ role.resourceType = x.resourceType ∧
        a.store.insertAssignment x = .ok (store, created) ∧ next = { a with store } := by
  unfold assign
  constructor
  · intro assigned
    cases admitted : a.approve x with
    | error failure =>
      rw [admitted] at assigned
      cases assigned
    | ok _ =>
      obtain ⟨s, role, inForce, contains, declared, typed⟩ := approve_eq_ok_iff.mp admitted
      rw [admitted] at assigned
      obtain ⟨store, wrote, same⟩ := execute_eq_ok_iff.mp assigned
      exact ⟨s, role, store, inForce, contains, declared, typed, wrote, same⟩
  · intro given
    obtain ⟨s, role, store, inForce, contains, declared, typed, wrote, same⟩ := given
    rw [approve_eq_ok_iff.mpr ⟨s, role, inForce, contains, declared, typed⟩]
    exact execute_eq_ok_iff.mpr ⟨store, wrote, same⟩

theorem assign_failed (failed : (a.assign x).2 = .error failure) : (a.assign x).1 = a := by
  unfold assign at failed ⊢
  cases admitted : a.approve x with
  | error failure => rfl
  | ok _ =>
    rw [admitted] at failed
    exact execute_failed failed

theorem revoke_eq_ok_iff :
    a.revoke x = (next, .ok removed) ↔
      ∃ store, a.store.deleteAssignment x = .ok (store, removed) ∧ next = { a with store } := execute_eq_ok_iff

section

variable {α : Type} {write : α → Answer} {outcome : Authorizer × Except Failure α} {answer : Answer}

theorem answering_eq_ok (answered : (answering write outcome).2 = .ok answer) :
    ∃ value, outcome = ((answering write outcome).1, .ok value) ∧ write value = answer := by
  obtain ⟨value, given, same⟩ := map_eq_ok_iff.mp answered
  exact ⟨value, Prod.ext rfl given, same⟩

theorem answering_failed (failed : (answering write outcome).2 = .error failure) : outcome.2 = .error failure := by
  obtain ⟨next, result⟩ := outcome
  cases result with
  | error other =>
    cases failed
    rfl
  | ok value => cases failed

end

-- Whatever fails leaves the authorizer as it was.
theorem perform_failed (failed : (a.perform operation).2 = .error failure) : (a.perform operation).1 = a := by
  cases operation with
  | compile => exact compile_failed (answering_failed failed)
  | compileDeclarations d => exact compileDeclarations_failed (answering_failed failed)
  | assign x => exact assign_failed (answering_failed failed)
  | revoke x => exact execute_failed (answering_failed failed)
  | snapshot => rfl
  | check user action i deadline => rfl
  | filter user action resourceType deadline => rfl
  | list user => rfl
  | roles => rfl
  | ancestors i => rfl

theorem published?_of_failed (failed : (a.perform operation).2 = .error failure) : a.published? (.ask operation) = none := by
  cases operation with
  | compile => simp only [published?, succeeds, failed, Bool.false_eq_true, if_false]
  | compileDeclarations d => simp only [published?, succeeds, failed, Bool.false_eq_true, if_false]
  | _ => rfl

theorem published_change (ran : a.compileDeclarations d = (next, .ok s)) : Change a (some d) next := by
  obtain ⟨store, report, compiled, synchronized, rfl⟩ := compileDeclarations_eq_ok ran
  exact .published compiled synchronized

theorem follow_change (a : Authorizer) (event : Event) : Change a (a.published? event) (a.follow event) := by
  cases event with
  | write application => exact .written
  | edit source => exact .edited
  | ask operation =>
    cases answered : (a.perform operation).2 with
    | error failure =>
      rw [published?_of_failed answered, follow, perform_failed answered]
      exact .nothing
    | ok answer =>
      cases operation with
      | compile =>
        obtain ⟨s, ran, _⟩ := answering_eq_ok answered
        obtain ⟨d, loaded, compiled⟩ := compile_eq_ok ran
        simp only [published?, succeeds, answered, if_true, loaded]
        exact published_change compiled
      | compileDeclarations d =>
        obtain ⟨s, ran, _⟩ := answering_eq_ok answered
        simp only [published?, succeeds, answered, if_true]
        exact published_change ran
      | assign x =>
        obtain ⟨created, ran, _⟩ := answering_eq_ok answered
        obtain ⟨s, role, store, inForce, _, declared, typed, wrote, same⟩ := assign_eq_ok_iff.mp ran
        simp only [published?, follow, perform, same]
        exact .assigned inForce declared typed wrote
      | revoke x =>
        obtain ⟨removed, ran, _⟩ := answering_eq_ok answered
        obtain ⟨store, deleted, same⟩ := revoke_eq_ok_iff.mp ran
        simp only [published?, follow, perform, same]
        exact .revoked deleted
      | snapshot => exact .nothing
      | check user action i deadline => exact .nothing
      | filter user action resourceType deadline => exact .nothing
      | list user => exact .nothing
      | roles => exact .nothing
      | ancestors i => exact .nothing

-- `holds` speaks of what was put in force so far and of the state.
theorem run_preserves {holds : List Declarations → Authorizer → Prop}
    (step : ∀ earlier a d next, holds earlier a → Change a d next → holds (earlier ++ d.toList) next)
    {earlier : List Declarations} (start : holds earlier a) (events : List Event) :
    holds (earlier ++ a.publishedAll events) (a.followAll events) := by
  induction events generalizing earlier a with
  | nil =>
    rw [publishedAll, List.append_nil]
    exact start
  | cons event rest ih =>
    rw [publishedAll, ← List.append_assoc]
    exact ih (step earlier a _ _ start (a.follow_change event))

theorem Reachable.follow (reachable : Reachable a) (event : Event) : Reachable (a.follow event) := by
  obtain ⟨application, source, options, events, rfl⟩ := reachable
  refine ⟨application, source, options, events ++ [event], ?_⟩
  rw [followAll, followAll, List.foldl_append]
  rfl

-- A small run: notes lie in folders, and a keeper of a folder may read what lies in it.
def shelf : Declarations :=
  { resources :=
      [⟨"Folder", "folders", "id", .unrestricted, .only [⟨"keeper", some ["Note:read"], none⟩]⟩,
        ⟨"Note", "notes", "id", .only ["read"], .unrestricted⟩]
    links := [⟨"Note", "Folder", "folder_id", none⟩] }

def shelfTables : List Table :=
  [⟨"folders", ⟨[.free "id" (some .text)], [], [], false⟩, [⟨1, [.text "f"]⟩]⟩,
    ⟨"notes", ⟨[.free "id" (some .text), .free "folder_id" (some .text)], [], [], false⟩, [⟨1, [.text "n", .text "f"]⟩]⟩]

def shelfEvents : List Event := [.ask (.compileDeclarations shelf), .ask (.assign ⟨"ann", "Folder", "f", "keeper"⟩)]

def shelfRun : Authorizer := (begin shelfTables (.declared .empty) ⟨.ofMillis 1, .reject⟩).followAll shelfEvents

theorem shelfRun_reachable : Reachable shelfRun := ⟨_, _, _, _, rfl⟩

theorem shelfRun_answers :
    shelfRun.snapshot.isSome = true ∧ (shelfRun.check "ann" "read" ⟨"Note", "n"⟩ none).toOption = some true ∧
      (shelfRun.check "ann" "read" ⟨"Note", "m"⟩ none).toOption = some false ∧
      (shelfRun.filter "ann" "read" "Note" none).toOption.map (·.toList) = some ["n"] ∧
      (shelfRun.store.own .assignments).map (·.rows.length) = some 1 := by
  decide +kernel

end Authorizer

end ScopedAccess
