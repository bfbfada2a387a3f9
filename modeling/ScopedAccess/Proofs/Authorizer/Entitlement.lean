import ScopedAccess.Proofs.Authorizer.Consistency
import ScopedAccess.Proofs.Walk.Answers

namespace ScopedAccess

namespace AncestorWalk

def heldColumns : List Column := OwnTable.assignments.columns.map ColumnSchema.column ++ Table.numberNames.map (⟨·, some .integer⟩)

theorem cellAt_held (row : Row) :
    cellAt heldColumns "user_id" row = (row.getD 1 .null, some .text) ∧
      cellAt heldColumns "resource_type" row = (row.getD 2 .null, some .text) ∧
      cellAt heldColumns "resource_id" row = (row.getD 3 .null, some .text) ∧
      cellAt heldColumns "role" row = (row.getD 4 .null, some .text) := by
  have places : Relation.columnIndex? heldColumns "user_id" = some 1 ∧
      Relation.columnIndex? heldColumns "resource_type" = some 2 ∧ Relation.columnIndex? heldColumns "resource_id" = some 3 ∧
      Relation.columnIndex? heldColumns "role" = some 4 := by
    simp [Relation.columnIndex?, heldColumns, OwnTable.columns, ColumnSchema.column, ColumnSchema.key, ColumnSchema.plain,
      List.findIdx?_cons, sameName_eq]
  obtain ⟨user, type, id, role⟩ := places
  simp only [cellAt, user, type, id, role]
  exact ⟨rfl, rfl, rfl, rfl⟩

variable {held : Relation} {row : Row} {user role : String} {i : Spot}

theorem textual_of_columns (columns : held.columns = heldColumns) : Textual held := by
  intro column member row
  obtain ⟨user, type, id, role⟩ := cellAt_held row
  rw [columns]
  simp only [List.mem_cons, List.not_mem_nil, or_false] at member
  rcases member with rfl | rfl | rfl | rfl
  · rw [user]
  · rw [type]
  · rw [id]
  · rw [role]

theorem assigns_iff (columns : held.columns = heldColumns) :
    Assigns held row user i role ↔ row.getD 1 .null = .text user ∧ row.getD 2 .null = .text i.resourceType ∧
      row.getD 3 .null = i.id.cell ∧ row.getD 4 .null = .text role := by
  obtain ⟨userCell, typeCell, idCell, roleCell⟩ := cellAt_held row
  rw [Assigns, columns, userCell, typeCell, idCell, roleCell]

end AncestorWalk

namespace Store

open AncestorWalk

variable {s : Store} {held : List (Int × Assignment)} {x : Assignment} {e : Int × Assignment}

-- Only instances whose id can be read have assignments.
theorem Roster.seen (roster : s.Roster held) :
    ∃ r, s.database "user_roles" = some r ∧ Textual r ∧ ∀ user i role,
      (∃ row ∈ r.rows, Assigns r row user i role) ↔ ∃ j : Instance, j.spot = i ∧ s.Holds ⟨user, j.resourceType, j.id, role⟩ := by
  obtain ⟨t, here, is, rows⟩ := roster.rows
  have columns : t.relation.columns = heldColumns := by
    rw [Table.relation, is.schema]
    rfl
  have listed : t.relation.rows = held.map fun e => (keptRow e).cells ++ Table.numberNames.map fun _ => .integer e.1 := by
    rw [Table.relation, rows, List.map_map]
    rfl
  refine ⟨t.relation, ?_, textual_of_columns columns, ?_⟩
  · have other : isCatalog "user_roles" = false := OwnTable.not_catalog (o := .assignments)
    have found : s.find? "user_roles" = some t := (find?_own (o := .assignments)).trans here
    simp only [database, other, found]
    rfl
  · intro user i role
    have assigns : ∀ e : Int × Assignment,
        Assigns t.relation ((keptRow e).cells ++ Table.numberNames.map fun _ => .integer e.1) user i role ↔
          e.2.user = user ∧ e.2.resourceType = i.resourceType ∧ .plain e.2.resourceId = i.id ∧ e.2.role = role := by
      intro e
      rw [assigns_iff columns]
      have id : Cell.text e.2.resourceId = i.id.cell ↔ .plain e.2.resourceId = i.id := cell_inj (a := e.2.resourceId)
      simp [keptRow, id]
    simp only [roster.holds_iff, listed]
    constructor
    · intro found
      obtain ⟨row, member, gives⟩ := found
      obtain ⟨e, there, rfl⟩ := List.mem_map.mp member
      obtain ⟨rfl, type, id, rfl⟩ := (assigns e).mp gives
      refine ⟨⟨e.2.resourceType, e.2.resourceId⟩, ?_, e, there, rfl⟩
      rw [Instance.spot, type, id]
    · intro found
      obtain ⟨j, rfl, e, there, same⟩ := found
      refine ⟨_, List.mem_map_of_mem there, (assigns e).mpr ?_⟩
      rw [same]
      exact ⟨rfl, rfl, rfl, rfl⟩

end Store

-- The user holds, on the instance or on an ancestor, a role that confers the permission.
def Entitled (store : Store) (m : Model) (user action : String) (i : Spot) : Prop :=
  ∃ (j : Instance) (role : String), Relation.ReflTransGen (ParentStep store.database m) i j ∧
    store.Holds ⟨user, j.resourceType, j.id, role⟩ ∧ ImplicationGraph.Confers m.roles role ⟨i.resourceType, action⟩

namespace Authorizer

open AncestorWalk

variable {a : Authorizer} {s : Snapshot} {user action : String} {i : Instance} {deadline : Option Duration} {b : Bool}
  {statement : Query.Statement} {rows : List Row} {roles : OrderedSet String} {held : Relation} {published : List Declarations}

theorem run_eq_ok (ran : a.run deadline statement = .ok rows) : statement.rows a.store.database = .ok rows := by
  simp only [run] at ran
  split at ran
  · cases ran
  · have answered := mapError_eq_ok_iff.mp ran
    rw [Store.query] at answered
    exact mapError_eq_ok_iff.mp answered

theorem idle_or_asked (s : Snapshot) (t action : String) :
    s.Idle t action ∨ ∃ roles, s.relevantRoles? t action = some roles ∧ roles.toList ≠ [] := by
  cases relevant : s.relevantRoles? t action with
  | none =>
    left
    intro roles found
    rw [relevant] at found
    cases found
  | some roles =>
    by_cases empty : roles.toList = []
    · left
      intro other found
      rw [relevant] at found
      cases found
      exact empty
    · exact .inr ⟨roles, rfl, empty⟩

theorem check_idle (inForce : a.snapshot = some s) (declared : s.model.resources.contains i.resourceType = true)
    (idle : s.Idle i.resourceType action) : a.check user action i deadline = .ok false := by
  cases found : s.relevantRoles? i.resourceType action with
  | none =>
    simp only [check, current, inForce, requireType, declared, bind, Except.bind, if_true, found, Option.map_none]
  | some roles =>
    simp only [check, current, inForce, requireType, declared, bind, Except.bind, if_true, found, Option.map_some,
      idle roles found]

theorem check_asked (inForce : a.snapshot = some s) (declared : s.model.resources.contains i.resourceType = true)
    (relevant : s.relevantRoles? i.resourceType action = some roles) (wanted : roles.toList ≠ []) :
    a.check user action i deadline =
      (a.run deadline (pointCheck s.walk user i.resourceType i.id roles.toList)).map fun rows => !rows.isEmpty := by
  cases listed : roles.toList with
  | nil => exact absurd listed wanted
  | cons role rest =>
    simp only [check, current, inForce, requireType, declared, bind, Except.bind, if_true, relevant, Option.map_some, listed]
    cases a.run deadline (pointCheck s.walk user i.resourceType i.id (role :: rest)) with
    | error failure => rfl
    | ok rows => rfl

theorem inForce_of_check (answered : a.check user action i deadline = .ok b) :
    ∃ s, a.snapshot = some s ∧ s.model.resources.contains i.resourceType = true := by
  rw [check, bind_eq_ok_iff] at answered
  obtain ⟨s, inForce, answered⟩ := answered
  rw [bind_eq_ok_iff] at answered
  obtain ⟨_, declared, _⟩ := answered
  refine ⟨s, current_eq_ok_iff.mp inForce, ?_⟩
  unfold requireType at declared
  split at declared
  · rename_i contains
    exact contains
  · cases declared

theorem permits_iff_entitled (compiled : s.Compiled) {store : Store} {i : Spot}
    (seen : ∀ user i role, (∃ row ∈ held.rows, Assigns held row user i role) ↔
      ∃ j : Instance, j.spot = i ∧ store.Holds ⟨user, j.resourceType, j.id, role⟩)
    (relevant : s.relevantRoles? i.resourceType action = some roles) :
    Permits store.database s.model held user roles.toList i ↔ Entitled store s.model user action i := by
  have confers : ∀ role, role ∈ roles.toList ↔ ImplicationGraph.Confers s.model.roles role ⟨i.resourceType, action⟩ := by
    intro role
    rw [← compiled.relevant_confers_iff, relevant]
    simp
  unfold Permits Entitled
  constructor
  · intro permits
    obtain ⟨_, role, path, wanted, assigned⟩ := permits
    obtain ⟨j, rfl, holds⟩ := (seen user _ role).mp assigned
    exact ⟨j, role, path, holds, (confers role).mp wanted⟩
  · intro entitled
    obtain ⟨j, role, path, holds, conferred⟩ := entitled
    exact ⟨j, role, path, (confers role).mpr conferred, (seen user j role).mpr ⟨j, rfl, holds⟩⟩

theorem not_entitled (compiled : s.Compiled) {store : Store} {t : String} {id : Text} (idle : s.Idle t action) :
    ¬ Entitled store s.model user action ⟨t, id⟩ := by
  intro entitled
  obtain ⟨j, role, _, _, conferred⟩ := entitled
  exact compiled.not_confers idle conferred

theorem rows_iff_entitled (compiled : s.Compiled) (roster : ∃ kept, a.store.Roster kept)
    (relevant : s.relevantRoles? i.resourceType action = some roles)
    (ran : a.run deadline (pointCheck s.walk user i.resourceType i.id roles.toList) = .ok rows) :
    (!rows.isEmpty) = true ↔ Entitled a.store s.model user action i := by
  obtain ⟨kept, roster⟩ := roster
  obtain ⟨held, found, textual, seen⟩ := roster.seen
  have answered := run_eq_ok ran
  rw [compiled.walk_eq] at answered
  rw [← permits_iff_entitled (i := i) compiled seen relevant]
  refine Iff.trans ?_ (pointCheck_iff compiled.resolved found textual answered)
  simp

theorem check_iff_entitled (reachable : Reachable a) (inForce : a.snapshot = some s)
    (answered : a.check user action i deadline = .ok b) : b = true ↔ Entitled a.store s.model user action i := by
  obtain ⟨published, consistent⟩ := reachable.consistent
  have compiled := consistent.compiled inForce
  obtain ⟨other, same, declared⟩ := inForce_of_check answered
  rw [inForce] at same
  cases same
  rcases idle_or_asked s i.resourceType action with idle | ⟨roles, relevant, wanted⟩
  · rw [check_idle inForce declared idle] at answered
    cases answered
    constructor
    · intro impossible
      cases impossible
    · intro entitled
      exact absurd entitled (not_entitled compiled idle)
  · rw [check_asked inForce declared relevant wanted] at answered
    obtain ⟨rows, ran, rfl⟩ := map_eq_ok_iff.mp answered
    obtain ⟨kept, roster, _⟩ := consistent.declared
    exact rows_iff_entitled compiled ⟨kept, roster⟩ relevant ran

theorem keeper_entitled : ∃ s, shelfRun.snapshot = some s ∧ Entitled shelfRun.store s.model "ann" "read" ⟨"Note", "n"⟩ ∧
    ¬ Entitled shelfRun.store s.model "ann" "read" ⟨"Note", "m"⟩ := by
  obtain ⟨configured, granted, denied, _⟩ := shelfRun_answers
  obtain ⟨s, inForce⟩ := Option.isSome_iff_exists.mp configured
  refine ⟨s, inForce, ?_, ?_⟩
  · exact (check_iff_entitled shelfRun_reachable inForce (toOption_eq_some_iff.mp granted)).mp rfl
  · intro entitled
    have allowed := (check_iff_entitled shelfRun_reachable inForce (toOption_eq_some_iff.mp denied)).mpr entitled
    cases allowed

end Authorizer

end ScopedAccess
