import ScopedAccess.Proofs.Authorizer.Answered
import ScopedAccess.Proofs.Extension
import ScopedAccess.Proofs.Store.Replacement

namespace ScopedAccess

namespace Store

variable {s next : Store} {m : Model}

theorem Keeps.of_agrees {changed : List OwnTable} (keeps : s.Keeps m) (agrees : AgreesOff changed s next)
    (away : ∀ o ∈ roleTables, o ∉ changed) : next.Keeps m :=
  fun o member => (agrees.own o (away o member)).trans (keeps o member)

theorem Keeps.intact (keeps : next.Keeps m) (intact : s.Intact) (agrees : AgreesOff roleTables s next) : next.Intact := by
  intro o
  by_cases member : o ∈ roleTables
  · exact ⟨_, keeps o member, OwnTable.filled_is⟩
  · rw [agrees.own o member]
    exact intact o

theorem Keeps.unique (left : s.Keeps m) (right : next.Keeps m) (agrees : AgreesOff roleTables s next) : next = s := by
  have own : next.own = s.own := by
    funext o
    by_cases member : o ∈ roleTables
    · rw [left o member, right o member]
    · exact agrees.own o member
  obtain ⟨_, _⟩ := s
  obtain ⟨_, _⟩ := next
  cases own
  cases agrees.application
  rfl

end Store

namespace Authorizer

open AncestorWalk Store Query.Resolution

variable {a b next : Authorizer} {s u : Snapshot} {user action t : String} {i j : Spot} {deadline : Option Duration}
  {published : List Declarations} {d e : Declarations}

def Keeps (a : Authorizer) : Prop := ∀ s, a.snapshot = some s → a.store.Keeps s.model

theorem keeps_of_change {d : Option Declarations} (consistent : Consistent published a) (keeps : a.Keeps)
    (change : Change a d next) : next.Keeps := by
  obtain ⟨held, roster, _⟩ := consistent.declared
  cases change with
  | nothing => exact keeps
  | edited => exact keeps
  | written => exact keeps
  | published compiled synchronized =>
    intro s inForce
    cases inForce
    obtain ⟨d, reflects⟩ := (Snapshot.compiled_of_compile compiled).reflects
    exact (keeps_of_synchronize consistent.intact reflects synchronized).1
  | assigned _ _ _ wrote =>
    obtain ⟨_, agrees, _⟩ := insertAssignment_eq_ok consistent.intact roster wrote
    exact fun s inForce => (keeps s inForce).of_agrees agrees (by decide)
  | revoked deleted =>
    obtain ⟨_, _, agrees, _⟩ := deleteAssignment_eq_ok consistent.intact roster deleted
    exact fun s inForce => (keeps s inForce).of_agrees agrees (by decide)

theorem Reachable.keeps (reachable : Reachable a) : a.Keeps := by
  obtain ⟨application, source, options, events, rfl⟩ := reachable
  have unconfigured : (begin application source options).Keeps := by
    intro s inForce
    cases inForce
  have step : ∀ published a d next, Consistent published a ∧ a.Keeps → Change a d next →
      Consistent (published ++ d.toList) next ∧ next.Keeps := by
    intro published a d next before change
    exact ⟨change_consistent before.1 change, keeps_of_change before.1 before.2 change⟩
  exact (run_preserves step ⟨begin_consistent, unconfigured⟩ events).2

-- One policy in force and then another that extends it, with nothing else changed than the role tables.
structure Widens (a b : Authorizer) (s u : Snapshot) : Prop where
  compiled : s.Compiled
  compiledMore : u.Compiled
  left : a.snapshot = some s
  right : b.snapshot = some u
  timeout : b.options.timeout = a.options.timeout
  intact : a.store.Intact
  intactMore : b.store.Intact
  agrees : AgreesOff roleTables a.store b.store
  roster : ∃ held, a.store.Roster held ∧ ∀ e ∈ held, s.model.declaresRole e.2.role e.2.resourceType = true
  grows : s.model.Extends u.model
  foreign : s.model.OverApplication

section

variable (widens : Widens a b s u)

include widens

theorem Widens.database {name : String} (foreign : OwnTable.named? name = none) :
    b.store.database name = a.store.database name :=
  database_congr widens.intact widens.intactMore widens.agrees.application foreign

theorem Widens.shapes : SameShapes b.store.database a.store.database :=
  columns_congr widens.intact widens.intactMore widens.agrees.application

theorem Widens.leftRoster : ∃ held, a.store.Roster held := by
  obtain ⟨held, roster, _⟩ := widens.roster
  exact ⟨held, roster⟩

theorem Widens.rightRoster : ∃ held, b.store.Roster held := by
  obtain ⟨held, roster, _⟩ := widens.roster
  exact ⟨held, roster.of_agrees widens.agrees (by decide)⟩

theorem Widens.steps_iff {k : Nat} (declared : s.model.resources.contains i.resourceType = true) :
    StepsIn (ParentStep a.store.database s.model) k i j ↔ StepsIn (ParentStep b.store.database u.model) k i j := by
  obtain ⟨d, reflects⟩ := widens.compiled.reflects
  refine widens.grows.steps_iff ?_ declared
  intro t link found
  obtain ⟨child, parent⟩ := widens.foreign.links reflects found
  exact ⟨(widens.database child).symm, (widens.database parent).symm⟩

-- Only old roles are held, and these confer what they did.
theorem Widens.entitled_iff (declared : s.model.resources.contains i.resourceType = true) :
    Entitled a.store s.model user action i ↔ Entitled b.store u.model user action i := by
  obtain ⟨held, roster, known⟩ := widens.roster
  obtain ⟨d, reflects⟩ := widens.compiled.reflects
  have rosterMore : b.store.Roster held := roster.of_agrees widens.agrees (by decide)
  have confers : ∀ {x : Assignment}, a.store.Holds x →
      (ImplicationGraph.Confers s.model.roles x.role ⟨i.resourceType, action⟩ ↔
        ImplicationGraph.Confers u.model.roles x.role ⟨i.resourceType, action⟩) := by
    intro x holds
    obtain ⟨e, member, rfl⟩ := roster.holds_iff.mp holds
    obtain ⟨role, found, _⟩ := Model.declaresRole_iff.mp (known e member)
    exact widens.grows.confers_iff reflects (OrderedMap.contains_of_find? found)
  have holds : ∀ x, a.store.Holds x ↔ b.store.Holds x := fun x => roster.holds_iff.trans rosterMore.holds_iff.symm
  have path : ∀ j, Relation.ReflTransGen (ParentStep a.store.database s.model) i j ↔
      Relation.ReflTransGen (ParentStep b.store.database u.model) i j := by
    intro j
    rw [← exists_stepsIn_iff, ← exists_stepsIn_iff]
    exact exists_congr fun k => widens.steps_iff declared
  constructor
  · intro entitled
    obtain ⟨j, role, reached, held, conferred⟩ := entitled
    exact ⟨j, role, (path j).mp reached, (holds _).mp held, (confers held).mp conferred⟩
  · intro entitled
    obtain ⟨j, role, reached, held, conferred⟩ := entitled
    have before := (holds _).mpr held
    exact ⟨j, role, (path j).mpr reached, before, (confers before).mpr conferred⟩

-- A statement over the longer walk that is answered is answered over the shorter one.
theorem Widens.run {start body wider : Query.Select} (sameSources : sources body = sources wider)
    (sameColumns : ∀ w, selectFault? a.store.database w body = selectFault? a.store.database w wider)
    (ran : ∃ rows, b.run deadline ⟨walk u.walk start, wider⟩ = .ok rows) :
    ∃ rows, a.run deadline ⟨walk s.walk start, body⟩ = .ok rows := by
  obtain ⟨time, quiet⟩ := run_eq_ok_iff.mp ran
  rw [widens.timeout] at time
  rw [fault?_congr widens.shapes] at quiet
  refine run_eq_ok_iff.mpr ⟨time, fault?_of_more_steps ?_ sameSources sameColumns quiet⟩
  rw [widens.compiled.walk_eq, widens.compiledMore.walk_eq]
  exact List.map_subset _ widens.grows.links_kept

-- Also with other roles to be looked for. Where there are none now there were none before.
theorem Widens.askable {start base : Query.Select}
    (asked : Askable b u t action deadline fun roles => ⟨walk u.walk start, matching user roles base⟩) :
    Askable a s t action deadline fun roles => ⟨walk s.walk start, matching user roles base⟩ := by
  rcases idle_or_asked s t action with idle | ⟨roles, relevant, wanted⟩
  · exact .inl idle
  · obtain ⟨role, member⟩ := List.exists_mem_of_ne_nil _ wanted
    have confers := widens.compiled.relevant_confers_iff.mp ⟨roles, relevant, OrderedSet.mem_toList.mp member⟩
    rcases asked with idle | ⟨more, _, wantedMore, ran⟩
    · exact absurd (widens.grows.confers confers) (widens.compiledMore.not_confers idle)
    · have sameSources : sources (matching user roles.toList base) = sources (matching user more.toList base) := rfl
      exact .inr ⟨roles, relevant, wanted, widens.run sameSources (matching_fault? wanted wantedMore base) ran⟩

theorem Widens.check {i : Instance} {yes : Bool} (declared : s.model.resources.contains i.resourceType = true)
    (answered : b.check user action i deadline = .ok yes) : a.check user action i deadline = .ok yes := by
  obtain ⟨_, asked, entitled⟩ := (check_eq_ok_iff widens.compiledMore widens.right widens.rightRoster).mp answered
  refine (check_eq_ok_iff widens.compiled widens.left widens.leftRoster).mpr ⟨declared, widens.askable asked, ?_⟩
  have same : Entitled a.store s.model user action i ↔ Entitled b.store u.model user action i := widens.entitled_iff declared
  exact entitled.trans same.symm

theorem Widens.filter {found : OrderedSet String} (declared : s.model.resources.contains t = true)
    (answered : b.filter user action t deadline = .ok found) : a.filter user action t deadline = .ok found := by
  obtain ⟨resource, place⟩ := Option.isSome_iff_exists.mp declared
  obtain ⟨same, placeMore, asked, members⟩ := (filter_eq_ok_iff widens.compiledMore widens.right widens.rightRoster).mp answered
  cases (widens.grows.resources t resource place).symm.trans placeMore
  refine (filter_eq_ok_iff widens.compiled widens.left widens.leftRoster).mpr ⟨resource, place, widens.askable asked, ?_⟩
  intro id
  have entitled : Entitled a.store s.model user action ⟨t, id⟩ ↔ Entitled b.store u.model user action ⟨t, id⟩ :=
    widens.entitled_iff declared
  rw [← members id, entitled, lists_congr (widens.database (widens.foreign t resource place))]

theorem Widens.ancestors {i : Instance} {listed : List Instance} (declared : s.model.resources.contains i.resourceType = true)
    (answered : b.ancestors i = .ok listed) : a.ancestors i = .ok listed := by
  obtain ⟨_, ran, steps, lineage, read⟩ := (ancestors_eq_ok_iff widens.compiledMore widens.right).mp answered
  obtain ⟨rows, before⟩ := widens.run rfl (fun _ => rfl) ran
  obtain ⟨fewer, lineageBefore, _⟩ := ancestors_of_run widens.compiled widens.left declared before
  have same : fewer = steps := lineageBefore.unique lineage fun k j => widens.steps_iff (i := i.spot) declared
  exact (ancestors_eq_ok_iff widens.compiled widens.left).mpr ⟨declared, ⟨rows, before⟩, fewer, lineageBefore, same ▸ read⟩

end

def under (a : Authorizer) (policy : OrphanPolicy) : Authorizer := { a with options := { a.options with orphans := policy } }

-- Whatever is answered later about the types of a model was answered just so before.
structure Conserves (m : Model) (before later : Authorizer) : Prop where
  check : ∀ user action i deadline yes, m.resources.contains i.resourceType = true →
    later.check user action i deadline = .ok yes → before.check user action i deadline = .ok yes
  filter : ∀ user action t deadline found, m.resources.contains t = true →
    later.filter user action t deadline = .ok found → before.filter user action t deadline = .ok found
  ancestors : ∀ i listed, m.resources.contains i.resourceType = true →
    later.ancestors i = .ok listed → before.ancestors i = .ok listed

theorem Widens.conserves (widens : Widens a b s u) : Conserves s.model a b :=
  ⟨fun _ _ _ _ _ declared answered => widens.check declared answered,
    fun _ _ _ _ _ declared answered => widens.filter declared answered,
    fun _ _ declared answered => widens.ancestors declared answered⟩

theorem compileDeclarations_ok (consistent : Consistent published a) (made : Snapshot.compile e (a.version + 1) = .ok u)
    {held : List (Int × Assignment)} (roster : a.store.Roster held)
    (declared : ∀ e ∈ held, u.model.declaresRole e.2.role e.2.resourceType = true) (policy : OrphanPolicy) :
    ∃ store,
      (a.under policy).compileDeclarations e =
        ({ a.under policy with store, snapshot := some u, version := a.version + 1 }, .ok u) ∧
      store.Keeps u.model ∧ AgreesOff roleTables a.store store := by
  obtain ⟨d, reflects⟩ := (Snapshot.compiled_of_compile made).reflects
  obtain ⟨store, report, synchronized, _, keeps, agrees⟩ := synchronize_ok consistent.intact roster reflects declared policy
  refine ⟨store, ?_, keeps, agrees⟩
  have same : (a.under policy).version + 1 = a.version + 1 := rfl
  have ran : (a.under policy).store.synchronize u.model (a.under policy).options.orphans = .ok (store, report) := synchronized
  simp only [compileDeclarations_eq, same, made, ran, (Snapshot.compile_eq_ok made).1]

theorem extension_is_conservative (reachable : Reachable a) (inForce : a.snapshot = some s)
    (compiled : Snapshot.compile d s.version = .ok s) :
    (∀ e version u, d.Extends e → s.model.OverApplication → Snapshot.compile e version = .ok u → ∀ policy, ∃ next,
      (a.under policy).compileDeclarations e = (next, .ok { u with version := a.version + 1 }) ∧
        next.store.own .assignments = a.store.own .assignments ∧ Conserves s.model a next) ∧
      ∀ policy, (a.under policy).compileDeclarations d =
        ({ a.under policy with snapshot := some { s with version := a.version + 1 }, version := a.version + 1 },
          .ok { s with version := a.version + 1 }) := by
  obtain ⟨published, consistent⟩ := reachable.consistent
  obtain ⟨held, roster, declares⟩ := consistent.declared
  have known : ∀ e ∈ held, s.model.declaresRole e.2.role e.2.resourceType = true := by
    intro e member
    obtain ⟨other, same, declared⟩ := declares e member
    cases inForce.symm.trans same
    exact declared
  constructor
  · intro e version u more foreign accepted policy
    have made := Snapshot.compile_version accepted (a.version + 1)
    have grows : s.model.Extends u.model :=
      Model.extends_of_declarations (Model.reflects (Snapshot.compile_eq_ok compiled).2.1)
        (Model.reflects (Snapshot.compile_eq_ok accepted).2.1) more
    have stillKnown : ∀ e ∈ held, u.model.declaresRole e.2.role e.2.resourceType = true :=
      fun x member => grows.declaresRole (known x member)
    obtain ⟨store, done, keeps, agrees⟩ := compileDeclarations_ok consistent made roster stillKnown policy
    have widens : Widens a
        { a.under policy with store, snapshot := some { u with version := a.version + 1 }, version := a.version + 1 } s
        { u with version := a.version + 1 } :=
      { compiled := consistent.compiled inForce
        compiledMore := Snapshot.compiled_of_compile made
        left := inForce
        right := rfl
        timeout := rfl
        intact := consistent.intact
        intactMore := keeps.intact consistent.intact agrees
        agrees
        roster := ⟨held, roster, known⟩
        grows
        foreign }
    exact ⟨_, done, agrees.own _ (by decide), widens.conserves⟩
  · intro policy
    have made := Snapshot.compile_version compiled (a.version + 1)
    obtain ⟨store, done, keeps, agrees⟩ := compileDeclarations_ok consistent made roster known policy
    have same : store = a.store := (reachable.keeps s inForce).unique keeps agrees
    rw [done, same]
    rfl

-- Pages lie in notes, and who reads a page may read notes and does what a keeper does.
def pages : Declarations :=
  { resources := [⟨"Page", "pages", "id", .unrestricted, .only [⟨"reader", some ["Note:read"], some ["keeper"]⟩]⟩]
    links := [⟨"Page", "Note", "note_id", none⟩] }

def pageTable : Table := ⟨"pages", ⟨[.free "id" (some .text), .free "note_id" (some .text)], [], [], false⟩, []⟩

def pagedRun : Authorizer := shelfRun.follow (.write (shelfTables ++ [pageTable]))

theorem pagedRun_reachable : Reachable pagedRun := shelfRun_reachable.follow _

theorem pagedRun_answers :
    (begin shelfTables (.declared .empty) ⟨.ofMillis 1, .reject⟩).publishedAll shelfEvents = [shelf] ∧
      pagedRun.version + 1 = 2 ∧
      (pagedRun.snapshot.all fun s =>
        s.model.resources.entries.all fun e => (OwnTable.named? e.2.instances.table).isNone) = true ∧
      ((Snapshot.compile (shelf ++ pages) 1).toOption.map fun _ => ()) = some () ∧
      (((pagedRun.under .prune).compileDeclarations (shelf ++ pages)).1.check "ann" "read" ⟨"Note", "n"⟩ none).toOption =
        some true := by
  decide +kernel

theorem pages_extend_shelf : shelf.Extends (shelf ++ pages) := by
  refine ⟨pages, .refl _, .refl _, ?_, ?_⟩ <;> decide

-- The assignment is kept under a policy with pages, though orphans are deleted, and the keeper read the note before.
theorem pages_leave_notes_alone : ∃ s next, pagedRun.snapshot = some s ∧
    (∃ u, (pagedRun.under .prune).compileDeclarations (shelf ++ pages) = (next, .ok u)) ∧
    next.store.own .assignments = pagedRun.store.own .assignments ∧
    next.check "ann" "read" ⟨"Note", "n"⟩ none = .ok true ∧ pagedRun.check "ann" "read" ⟨"Note", "n"⟩ none = .ok true ∧
    pagedRun.compileDeclarations shelf =
      ({ pagedRun with snapshot := some { s with version := 2 }, version := 2 }, .ok { s with version := 2 }) := by
  obtain ⟨published, second, tables, accepted, answered⟩ := pagedRun_answers
  obtain ⟨s, inForce, compiled, _⟩ : ∃ s, pagedRun.snapshot = some s ∧ Snapshot.compile shelf 1 = .ok s ∧
      shelfRun.store.Describes s.model := by
    have latest : InForce _ shelfRun :=
      (run_consistent shelfTables (.declared .empty) ⟨.ofMillis 1, .reject⟩ shelfEvents).inForce
    rw [published] at latest
    exact latest
  have numbered : s.version = 1 := (Snapshot.compile_eq_ok compiled).1
  have foreign : s.model.OverApplication := by
    rw [inForce, Option.all_some] at tables
    exact Model.overApplication_of_entries tables
  obtain ⟨u, made, _⟩ := Option.map_eq_some_iff.mp accepted
  obtain ⟨extended, again⟩ := extension_is_conservative pagedRun_reachable inForce (numbered ▸ compiled)
  obtain ⟨next, done, kept, conserves⟩ := extended _ 1 u pages_extend_shelf foreign (toOption_eq_some_iff.mp made) .prune
  have after : next.check "ann" "read" ⟨"Note", "n"⟩ none = .ok true := by
    rw [done] at answered
    exact toOption_eq_some_iff.mp answered
  have declared : s.model.resources.contains "Note" = true :=
    (Model.reflects (Snapshot.compile_eq_ok compiled).2.1).contains (List.mem_cons_of_mem _ (List.mem_singleton_self _))
  rw [second] at again
  exact ⟨s, next, inForce, ⟨_, done⟩, kept, after, conserves.check _ _ _ _ _ declared after, again pagedRun.options.orphans⟩

end Authorizer

end ScopedAccess
