import ScopedAccess.Proofs.Authorizer.Ancestry

namespace ScopedAccess

namespace Store

-- `more` holds what `less` does and at most one assignment besides; otherwise they are alike.
structure GrowsBy (x : Assignment) (less more : Store) : Prop where
  intact : less.Intact
  intactMore : more.Intact
  agrees : AgreesOff [.assignments, .counters] less more
  roster : ∃ held, less.Roster held
  rosterMore : ∃ held, more.Roster held
  kept : ∀ y, less.Holds y → more.Holds y
  only : ∀ y, more.Holds y → less.Holds y ∨ y = x

variable {s next less more : Store} {x : Assignment} {held : List (Int × Assignment)} {created removed : Bool} {m : Model}
  {name : String} {t : FilterTarget}

theorem grows_of_insert (intact : s.Intact) (roster : s.Roster held) (wrote : s.insertAssignment x = .ok (next, created)) :
    GrowsBy x s next := by
  obtain ⟨outcome, agrees, intactNext⟩ := insertAssignment_eq_ok intact roster wrote
  rcases outcome with ⟨_, _, n, _, after⟩ | ⟨_, _, after⟩
  · refine ⟨intact, intactNext, agrees, ⟨held, roster⟩, ⟨_, after⟩, ?_, ?_⟩
    · intro y holds
      obtain ⟨e, member, same⟩ := roster.holds_iff.mp holds
      exact after.holds_iff.mpr ⟨e, List.mem_append_left _ member, same⟩
    · intro y holds
      obtain ⟨e, member, same⟩ := after.holds_iff.mp holds
      rcases List.mem_append.mp member with old | last
      · exact .inl (roster.holds_iff.mpr ⟨e, old, same⟩)
      · cases List.mem_singleton.mp last
        exact .inr same.symm
  · refine ⟨intact, intactNext, agrees, ⟨held, roster⟩, ⟨held, after⟩, ?_, ?_⟩
    · intro y holds
      exact after.holds_iff.mpr (roster.holds_iff.mp holds)
    · intro y holds
      exact .inl (roster.holds_iff.mpr (after.holds_iff.mp holds))

theorem grows_of_delete (intact : s.Intact) (roster : s.Roster held) (deleted : s.deleteAssignment x = .ok (next, removed)) :
    GrowsBy x next s := by
  obtain ⟨after, _, agrees, intactNext⟩ := deleteAssignment_eq_ok intact roster deleted
  refine ⟨intactNext, intact, (agrees.mono (by simp)).symm, ⟨_, after⟩, ⟨held, roster⟩, ?_, ?_⟩
  · intro y holds
    obtain ⟨e, member, same⟩ := after.holds_iff.mp holds
    exact roster.holds_iff.mpr ⟨e, (List.mem_filter.mp member).1, same⟩
  · intro y holds
    obtain ⟨e, member, same⟩ := roster.holds_iff.mp holds
    by_cases changed : y = x
    · exact .inr changed
    · refine .inl (after.holds_iff.mpr ⟨e, List.mem_filter.mpr ⟨member, ?_⟩, same⟩)
      exact decide_eq_true fun equal => changed (same.symm.trans equal)

section

variable (grows : GrowsBy x less more)

include grows

theorem GrowsBy.shapes : Query.Resolution.SameShapes less.database more.database := fun name =>
  columns_congr grows.intactMore grows.intact grows.agrees.symm.application name

theorem GrowsBy.database (foreign : OwnTable.named? name = none) : less.database name = more.database name :=
  database_congr grows.intactMore grows.intact grows.agrees.symm.application foreign

end

end Store

namespace Authorizer

open AncestorWalk Store

variable {a less more next : Authorizer} {s : Snapshot} {x : Assignment} {i j : Spot} {m : Model} {user action : String}
  {deadline : Option Duration} {published : List Declarations} {b c : Bool} {d : Declarations}

section

variable (grows : GrowsBy x less.store more.store) (reflects : m.Reflects d) (foreign : m.OverApplication)

include grows reflects foreign

-- No step leads through the assignments.
theorem parentStep_iff : ParentStep less.store.database m i j ↔ ParentStep more.store.database m i j := by
  constructor
  · intro step
    refine step.transfer fun link found => ?_
    obtain ⟨child, parent⟩ := foreign.links reflects found
    exact ⟨found, grows.database child, grows.database parent⟩
  · intro step
    refine step.transfer fun link found => ?_
    obtain ⟨child, parent⟩ := foreign.links reflects found
    exact ⟨found, (grows.database child).symm, (grows.database parent).symm⟩

theorem path_iff : Relation.ReflTransGen (ParentStep less.store.database m) i j ↔
    Relation.ReflTransGen (ParentStep more.store.database m) i j := by
  have same : ParentStep less.store.database m = ParentStep more.store.database m := by
    funext i j
    exact propext (parentStep_iff grows reflects foreign)
  rw [same]

theorem entitled_mono (entitled : Entitled less.store m user action i) : Entitled more.store m user action i := by
  obtain ⟨j, role, path, holds, confers⟩ := entitled
  exact ⟨j, role, (path_iff grows reflects foreign).mp path, grows.kept _ holds, confers⟩

theorem entitled_by (entitled : Entitled more.store m user action i) (before : ¬ Entitled less.store m user action i) :
    user = x.user ∧ Relation.ReflTransGen (ParentStep less.store.database m) i (Instance.mk x.resourceType x.resourceId) ∧
      ImplicationGraph.Confers m.roles x.role ⟨i.resourceType, action⟩ := by
  obtain ⟨j, role, path, holds, confers⟩ := entitled
  have path := (path_iff grows reflects foreign).mpr path
  rcases grows.only _ holds with held | rfl
  · exact absurd ⟨j, role, path, held, confers⟩ before
  · exact ⟨rfl, path, confers⟩

end

def within (a : Authorizer) (deadline : Option Duration) : Authorizer :=
  { a with options := { a.options with timeout := deadline.getD a.options.timeout } }

-- An answer that could not be read, for an id in it that is no text.
def Unread {α : Type} (answer : Except Failure α) : Prop :=
  ∃ g : Garbled, answer = .error (.store (.undecodable "resource_id" (Utf8.break? g.bytes)))

-- The assignment is held on the instance or above it. It is listed with the ancestors whenever these can be read.
structure Covers (x : Assignment) (a : Authorizer) (s : Snapshot) (i : Instance) : Prop where
  path : Relation.ReflTransGen (ParentStep a.store.database s.model) i (Instance.mk x.resourceType x.resourceId)
  listed : ∀ chain, a.ancestors i = .ok chain → ⟨x.resourceType, x.resourceId⟩ ∈ chain
  answered : (∃ chain, a.ancestors i = .ok chain) ∨ Unread (a.ancestors i)

-- Every check and every filter allows with the assignment what it allows without it, and fails alike. What is allowed only
-- with it is asked for its user, of an instance whose ancestors it names one of, and for an action its role is relevant to.
structure GrowsAt (x : Assignment) (less more : Authorizer) : Prop where
  check : ∀ user action i deadline, less.check user action i deadline = more.check user action i deadline ∨
    less.check user action i deadline = .ok false ∧ more.check user action i deadline = .ok true ∧ user = x.user ∧
      ∃ s roles, less.snapshot = some s ∧ Covers x (less.within deadline) s i ∧
        s.relevantRoles? i.resourceType action = some roles ∧ x.role ∈ roles
  filter : ∀ user action t deadline, less.filter user action t deadline = more.filter user action t deadline ∨
    user = x.user ∧
      ((∃ few many, less.filter user action t deadline = .ok few ∧ more.filter user action t deadline = .ok many ∧
          ∀ id ∈ few, id ∈ many) ∨
        Unread (more.filter user action t deadline))
  ancestors : ∀ i, less.ancestors i = more.ancestors i
  roleIndex : less.roleIndex = more.roleIndex

theorem roleIndex_congr (same : ∀ o ∈ roleTables, more.store.own o = less.store.own o) : less.roleIndex = more.roleIndex := by
  have roles := same .roles (by simp [roleTables])
  have permissions := same .permissions (by simp [roleTables])
  have grants := same .grants (by simp [roleTables])
  have implications := same .implications (by simp [roleTables])
  simp only [roleIndex, Store.roleIndex, rolesByName, numberedPermissions, heldGrants, heldImplications, readAll, Store.read,
    roles, permissions, grants, implications]

theorem roleIndex_of_grows (grows : GrowsBy x less.store more.store) : less.roleIndex = more.roleIndex := by
  refine roleIndex_congr fun o member => grows.agrees.own o ?_
  simp only [roleTables, List.mem_cons, List.not_mem_nil, or_false] at member
  rcases member with rfl | rfl | rfl | rfl <;> simp

section

variable {steps : List (Nat × Spot)} {k : Instance}

theorem chain_of_checked (compiled : s.Compiled) (inForce : a.snapshot = some s)
    (declared : s.model.resources.contains k.resourceType = true) (checked : Checked a s user action k deadline b) :
    ∃ steps, Lineage a.store.database s.model k steps ∧
      (a.within deadline).ancestors k = instancesOf ((steps.map (·.2)).map spotRow) := by
  obtain ⟨roles, rows, ran⟩ := checked.quiet
  obtain ⟨time, quiet⟩ := run_eq_ok_iff.mp ⟨rows, ran⟩
  have onward : ∃ rows, (a.within deadline).run none (chain s.walk k.resourceType k.id) = .ok rows :=
    run_eq_ok_iff.mpr ⟨time, chain_quiet quiet⟩
  obtain ⟨found, chained⟩ := onward
  exact ancestors_of_run compiled (a := a.within deadline) inForce declared chained

theorem covers_of_path
    (path : Relation.ReflTransGen (ParentStep a.store.database s.model) k (Instance.mk x.resourceType x.resourceId))
    (lineage : Lineage a.store.database s.model k steps) (listed : a.ancestors k = instancesOf ((steps.map (·.2)).map spotRow)) :
    Covers x a s k := by
  refine ⟨path, ?_, ?_⟩
  · intro chain answered
    rw [listed, instancesOf_eq_ok_iff] at answered
    have member := lineage.mem_iff.mpr path
    rw [answered] at member
    obtain ⟨j, here, same⟩ := List.mem_map.mp member
    exact Instance.spot_inj same ▸ here
  · rw [listed]
    cases answered : instancesOf ((steps.map (·.2)).map spotRow) with
    | ok chain => exact .inl ⟨chain, rfl⟩
    | error failure =>
      obtain ⟨_, _, g, _, rfl⟩ := instancesOf_error answered
      exact .inr ⟨g, rfl⟩

end

section

variable {few many : List Text}

theorem idsOf_mono (within : ∀ id ∈ few, id ∈ many) :
    (∃ found others, idsOf (few.map idRow) = .ok found ∧ idsOf (many.map idRow) = .ok others ∧ ∀ id ∈ found, id ∈ others) ∨
      Unread (idsOf (many.map idRow)) := by
  cases readMore : idsOf (many.map idRow) with
  | error failure =>
    obtain ⟨g, _, rfl⟩ := idsOf_error readMore
    exact .inr ⟨g, rfl⟩
  | ok others =>
    have plain := idsOf_eq_ok_iff.mp readMore
    cases read : idsOf (few.map idRow) with
    | error failure =>
      obtain ⟨g, member, _⟩ := idsOf_error read
      obtain ⟨text, _, same⟩ := (plain _).mp (within _ member)
      cases same
    | ok found =>
      refine .inl ⟨found, others, rfl, rfl, fun id member => ?_⟩
      have listed : Text.plain id ∈ few := (idsOf_eq_ok_iff.mp read _).mpr ⟨id, member, rfl⟩
      obtain ⟨text, here, same⟩ := (plain _).mp (within _ listed)
      cases same
      exact here

end

section

variable {k : Instance} {t : String} (alike : Alike s less more) (grows : GrowsBy x less.store more.store)
  (foreign : s.model.OverApplication)

include alike grows foreign

theorem check_opened (denied : Checked less s user action k deadline false) (allowed : Checked more s user action k deadline true) :
    user = x.user ∧ ∃ s roles, less.snapshot = some s ∧ Covers x (less.within deadline) s k ∧
      s.relevantRoles? k.resourceType action = some roles ∧ x.role ∈ roles := by
  obtain ⟨d, reflects⟩ := alike.compiled.reflects
  have before : ¬ Entitled less.store s.model user action k := fun entitled => Bool.false_ne_true (denied.entitled.mpr entitled)
  obtain ⟨sameUser, path, confers⟩ := entitled_by grows reflects foreign (allowed.entitled.mp rfl) before
  obtain ⟨other, inForce, declared⟩ := inForce_of_check denied.answered
  cases alike.left.symm.trans inForce
  obtain ⟨steps, lineage, listed⟩ := chain_of_checked alike.compiled alike.left declared denied
  have covers : Covers x (less.within deadline) s k := covers_of_path path lineage listed
  obtain ⟨roles, relevant, member⟩ := alike.compiled.relevant_confers_iff.mpr confers
  exact ⟨sameUser, s, roles, alike.left, covers, relevant, member⟩

theorem check_kept {b : Bool} (checked : Checked less s user action k deadline true)
    (checkedMore : Checked more s user action k deadline b) : b = true := by
  obtain ⟨d, reflects⟩ := alike.compiled.reflects
  exact checkedMore.entitled.mpr (entitled_mono grows reflects foreign (checked.entitled.mp rfl))

-- Nothing is lost from a filter, and for other users nothing comes in.
theorem filtered_grows {resource : Resource} {few many : List Text} (place : s.model.resources.find? t = some resource)
    (filtered : Filtered less s user action t deadline resource few)
    (filteredMore : Filtered more s user action t deadline resource many) :
    (∀ id ∈ few, id ∈ many) ∧ (user ≠ x.user → few = many) := by
  obtain ⟨d, reflects⟩ := alike.compiled.reflects
  have listed : ∀ id, Lists less.store.database (.ofResource resource) id ↔ Lists more.store.database (.ofResource resource) id :=
    fun id => lists_congr (grows.database (foreign t resource place))
  have within : ∀ id ∈ few, id ∈ many := by
    intro id member
    obtain ⟨lists, entitled⟩ := (filtered.members id).mp member
    exact (filteredMore.members id).mpr ⟨(listed id).mp lists, entitled_mono grows reflects foreign entitled⟩
  refine ⟨within, fun otherUser => ?_⟩
  refine filtered.ascending.unique filteredMore.ascending fun id => ⟨within id, fun member => ?_⟩
  obtain ⟨lists, entitled⟩ := (filteredMore.members id).mp member
  refine (filtered.members id).mpr ⟨(listed id).mpr lists, ?_⟩
  refine Classical.byContradiction fun before => ?_
  exact otherUser (entitled_by grows reflects foreign entitled before).1

theorem ancestors_kept (i : Instance) : less.ancestors i = more.ancestors i := by
  obtain ⟨d, reflects⟩ := alike.compiled.reflects
  rcases ancestors_alike alike i with same | ⟨steps, others, lineage, lineageMore, answered, answeredMore⟩
  · exact same
  · have same : ParentStep less.store.database s.model = ParentStep more.store.database s.model := by
      funext i j
      exact propext (parentStep_iff grows reflects foreign)
    rw [answered, answeredMore, lineage.unique lineageMore fun k j => by rw [same]]

theorem grows_at : GrowsAt x less more := by
  refine ⟨?_, ?_, ancestors_kept alike grows foreign, roleIndex_of_grows grows⟩
  · intro user action i deadline
    rcases check_alike alike user action i deadline with same | ⟨b, c, checked, checkedMore⟩
    · exact .inl same
    · cases b with
      | true =>
        cases check_kept alike grows foreign checked checkedMore
        exact .inl (checked.answered.trans checkedMore.answered.symm)
      | false =>
        cases c with
        | false => exact .inl (checked.answered.trans checkedMore.answered.symm)
        | true =>
          exact .inr ⟨checked.answered, checkedMore.answered, check_opened alike grows foreign checked checkedMore⟩
  · intro user action t deadline
    rcases filter_alike alike user action t deadline with same | ⟨resource, few, many, place, filtered, filteredMore⟩
    · exact .inl same
    · obtain ⟨within, kept⟩ := filtered_grows alike grows foreign place filtered filteredMore
      rw [filtered.answered, filteredMore.answered]
      by_cases sameUser : user = x.user
      · exact .inr ⟨sameUser, idsOf_mono within⟩
      · rw [kept sameUser]
        exact .inl rfl

end

theorem grows_at_unconfigured (none : less.snapshot = none) (noneMore : more.snapshot = .none)
    (grows : GrowsBy x less.store more.store) : GrowsAt x less more := by
  refine ⟨?_, ?_, ?_, roleIndex_of_grows grows⟩
  · intro user action i deadline
    left
    simp only [check, current, none, noneMore, bind, Except.bind]
  · intro user action t deadline
    left
    simp only [filter, current, none, noneMore, bind, Except.bind]
  · intro i
    simp only [ancestors, current, none, noneMore, bind, Except.bind]

theorem grows_at_of_stores {store : Store} (compiled : ∀ s, a.snapshot = some s → s.Compiled)
    (foreign : ∀ s, a.snapshot = some s → s.model.OverApplication) :
    (GrowsBy x a.store store → GrowsAt x a { a with store }) ∧ (GrowsBy x store a.store → GrowsAt x { a with store } a) := by
  cases inForce : a.snapshot with
  | none => exact ⟨fun grows => grows_at_unconfigured inForce rfl grows, fun grows => grows_at_unconfigured rfl inForce grows⟩
  | some s =>
    have ready := compiled s inForce
    constructor
    · intro grows
      exact grows_at ⟨ready, inForce, rfl, rfl, grows.shapes, grows.roster, grows.rosterMore⟩ grows (foreign s inForce)
    · intro grows
      exact grows_at ⟨ready, rfl, inForce, rfl, grows.shapes, grows.roster, grows.rosterMore⟩ grows (foreign s inForce)

theorem assignment_changes_are_local (reachable : Reachable a)
    (foreign : ∀ s, a.snapshot = some s → s.model.OverApplication) (x : Assignment) :
    (∀ next created, a.assign x = (next, .ok created) → GrowsAt x a next) ∧
      ∀ next removed, a.revoke x = (next, .ok removed) → GrowsAt x next a := by
  obtain ⟨published, consistent⟩ := reachable.consistent
  obtain ⟨held, roster, _⟩ := consistent.declared
  have compiled : ∀ s, a.snapshot = some s → s.Compiled := fun _ => consistent.compiled
  constructor
  · intro next created assigned
    obtain ⟨_, _, store, _, _, _, _, wrote, rfl⟩ := assign_eq_ok_iff.mp assigned
    exact (grows_at_of_stores compiled foreign).1 (grows_of_insert consistent.intact roster wrote)
  · intro next removed revoked
    obtain ⟨store, deleted, rfl⟩ := revoke_eq_ok_iff.mp revoked
    exact (grows_at_of_stores compiled foreign).2 (grows_of_delete consistent.intact roster deleted)

def secondKeeper : Assignment := ⟨"bob", "Folder", "f", "keeper"⟩

theorem secondKeeper_answers :
    (shelfRun.snapshot.all fun s => s.model.resources.entries.all fun e => (OwnTable.named? e.2.instances.table).isNone) = true ∧
      (shelfRun.check "bob" "read" ⟨"Note", "n"⟩ none).toOption = some false ∧
      (shelfRun.assign secondKeeper).2.toOption.isSome = true ∧
      ((shelfRun.assign secondKeeper).1.check "bob" "read" ⟨"Note", "n"⟩ none).toOption = some true := by
  decide +kernel

theorem note_opened_by_folder : ∃ next created, shelfRun.assign secondKeeper = (next, .ok created) ∧
    GrowsAt secondKeeper shelfRun next ∧ next.check "bob" "read" ⟨"Note", "n"⟩ none = .ok true ∧
    ∃ chain, shelfRun.ancestors ⟨"Note", "n"⟩ = .ok chain ∧ ⟨"Folder", "f"⟩ ∈ chain := by
  obtain ⟨tables, denied, entered, allowed⟩ := secondKeeper_answers
  have foreign : ∀ s, shelfRun.snapshot = some s → s.model.OverApplication := by
    intro s inForce
    rw [inForce, Option.all_some] at tables
    exact Model.overApplication_of_entries tables
  obtain ⟨created, answered⟩ := Option.isSome_iff_exists.mp entered
  rcases assigned : shelfRun.assign secondKeeper with ⟨next, answer⟩
  rw [assigned] at answered allowed
  cases toOption_eq_some_iff.mp answered
  have after := toOption_eq_some_iff.mp allowed
  have before := toOption_eq_some_iff.mp denied
  have grows := (assignment_changes_are_local shelfRun_reachable foreign secondKeeper).1 next created assigned
  refine ⟨next, created, rfl, grows, after, ?_⟩
  rcases grows.check "bob" "read" ⟨"Note", "n"⟩ none with same | ⟨_, _, _, s, roles, _, covers, _⟩
  · rw [before, after] at same
    cases same
  · exact ⟨_, shelfRun_ancestors, covers.listed _ shelfRun_ancestors⟩

end Authorizer

end ScopedAccess
