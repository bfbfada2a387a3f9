import ScopedAccess.Proofs.Store.Pruning

namespace ScopedAccess

theorem Model.declaresRole_iff {m : Model} {role resourceType : String} :
    m.declaresRole role resourceType = true ↔ ∃ r, m.roles.find? role = some r ∧ r.resourceType = resourceType := by
  simp [Model.declaresRole, Option.any_eq_true]

-- A row that gives a role to a user on an instance, by the names of its columns.
def Table.Records (t : Table) (r : NumberedRow) (x : Assignment) : Prop :=
  t.cell "user_id" r = .text x.user ∧ t.cell "resource_type" r = .text x.resourceType ∧
    t.cell "resource_id" r = .text x.resourceId ∧ t.cell "role" r = .text x.role

namespace Store

def Holds (s : Store) (x : Assignment) : Prop := ∃ t, s.own .assignments = some t ∧ ∃ r ∈ t.rows, t.Records r x

def keptRow (e : Int × Assignment) : NumberedRow :=
  ⟨e.1, [.integer e.1, .text e.2.user, .text e.2.resourceType, .text e.2.resourceId, .text e.2.role, .integer 0]⟩

structure Roster (s : Store) (held : List (Int × Assignment)) : Prop where
  rows : ∃ t, s.own .assignments = some t ∧ t.Is .assignments ∧ t.rows = held.map keptRow
  ascending : held.Pairwise fun a b => a.1 < b.1
  distinct : (held.map (·.2)).Nodup

variable {s next : Store} {t : Table} {held : List (Int × Assignment)} {e f : Int × Assignment} {x : Assignment} {n : Nat}
  {role resourceType : String}

theorem fresh_roster {application : List Table} : (fresh application).Roster [] :=
  ⟨⟨_, rfl, ⟨rfl, rfl⟩, rfl⟩, .nil, .nil⟩

theorem Roster.of_agrees {changed : List OwnTable} (roster : s.Roster held) (agrees : AgreesOff changed s next)
    (away : .assignments ∉ changed) : next.Roster held := by
  obtain ⟨t, here, is, rows⟩ := roster.rows
  exact ⟨⟨t, (agrees.own _ away).trans here, is, rows⟩, roster.ascending, roster.distinct⟩

theorem Roster.filter (roster : s.Roster held) (here : s.own .assignments = some t) {gone : NumberedRow → Bool}
    {stays : Int × Assignment → Bool} (same : ∀ e ∈ held, gone (keptRow e) = !stays e) :
    (s.put { t with rows := t.rows.filter fun r => !gone r }).Roster (held.filter stays) := by
  obtain ⟨table, found, is, rows⟩ := roster.rows
  rw [here] at found
  cases found
  refine ⟨⟨_, put_here is.name, ⟨is.name, is.schema⟩, ?_⟩, roster.ascending.filter _, ?_⟩
  · dsimp only
    rw [rows, List.filter_map]
    refine congrArg _ (List.filter_congr ?_)
    intro e member
    rw [Function.comp_apply, same e member, Bool.not_not]
  · exact roster.distinct.sublist (List.Sublist.map _ List.filter_sublist)

-- A row of an assignment that is not held, numbered above all others, goes to the end.
theorem Roster.append (roster : s.Roster held) (here : s.own .assignments = some t) {number : Int}
    (fresh : ∀ e ∈ held, e.2 ≠ x) (above : ∀ r ∈ t.rows, r.number < number)
    (place : next.own .assignments = some (t.add (keptRow (number, x)))) : next.Roster (held ++ [(number, x)]) := by
  obtain ⟨table, found, is, rows⟩ := roster.rows
  rw [here] at found
  cases found
  refine ⟨⟨_, place, ⟨is.name, is.schema⟩, ?_⟩, ?_, ?_⟩
  · rw [Table.add_last above, rows, List.map_append]
    rfl
  · rw [List.pairwise_append]
    refine ⟨roster.ascending, by simp, ?_⟩
    intro e member f last
    cases List.mem_singleton.mp last
    exact above (keptRow e) (rows ▸ List.mem_map_of_mem member)
  · rw [List.map_append, List.nodup_append]
    refine ⟨roster.distinct, by simp, ?_⟩
    intro y member z last
    obtain ⟨e, held, rfl⟩ := List.mem_map.mp member
    cases List.mem_singleton.mp last
    exact fresh e held

section

variable (is : t.Is .assignments)

include is

theorem user_of_kept : t.cell "user_id" (keptRow e) = .text e.2.user :=
  Table.cell_own (i := 1) (c := .plain "user_id" .varchar) is rfl

theorem type_of_kept : t.cell "resource_type" (keptRow e) = .text e.2.resourceType :=
  Table.cell_own (i := 2) (c := .plain "resource_type" .varchar) is rfl

theorem id_of_kept : t.cell "resource_id" (keptRow e) = .text e.2.resourceId :=
  Table.cell_own (i := 3) (c := .plain "resource_id" .varchar) is rfl

theorem role_of_kept : t.cell "role" (keptRow e) = .text e.2.role :=
  Table.cell_own (i := 4) (c := .plain "role" .varchar) is rfl

theorem records_kept_iff : t.Records (keptRow e) x ↔ e.2 = x := by
  obtain ⟨_, _, _, _, _⟩ := e
  obtain ⟨_, _, _, _⟩ := x
  simp only [Table.Records, user_of_kept is, type_of_kept is, id_of_kept is, role_of_kept is, Cell.text.injEq,
    Assignment.mk.injEq]

theorem agree_kept_iff : t.agree (x.values.map (·.1)) (keptRow e) (keptRow f) = true ↔ e.2 = f.2 := by
  obtain ⟨_, _, _, _, _⟩ := e
  obtain ⟨_, _, _, _, _⟩ := f
  simp only [Table.agree, Assignment.values, List.map_cons, List.map_nil, List.all_cons, List.all_nil, user_of_kept is,
    type_of_kept is, id_of_kept is, role_of_kept is, Cell.same, Bool.and_true, Bool.and_eq_true, decide_eq_true_eq,
    Assignment.mk.injEq]

theorem holds_user_iff {r : NumberedRow} {text : String} :
    t.holds "user_id" (.text text) r = true ↔ t.cell "user_id" r = .text text :=
  Table.holds_text_iff (i := 1) (c := .plain "user_id" .varchar) is rfl rfl

theorem holds_id_iff {r : NumberedRow} {text : String} :
    t.holds "resource_id" (.text text) r = true ↔ t.cell "resource_id" r = .text text :=
  Table.holds_text_iff (i := 3) (c := .plain "resource_id" .varchar) is rfl rfl

theorem selects_kept_iff : Selects t x.values (keptRow e) = true ↔ e.2 = x := by
  obtain ⟨_, _, _, _, _⟩ := e
  obtain ⟨_, _, _, _⟩ := x
  simp only [Selects, Assignment.values, List.all_cons, List.all_nil, Bool.and_true, Bool.and_eq_true, holds_user_iff is,
    holds_type_iff is, holds_id_iff is, holds_role_iff is, user_of_kept is, type_of_kept is, id_of_kept is, role_of_kept is,
    Cell.text.injEq, Assignment.mk.injEq]

theorem pair_of_kept : t.pair? (keptRow e) = some ⟨e.2.role, e.2.resourceType⟩ :=
  Table.pair?_eq_some_iff.mpr ⟨role_of_kept is, type_of_kept is⟩

end

theorem Roster.holds_iff (roster : s.Roster held) : s.Holds x ↔ ∃ e ∈ held, e.2 = x := by
  obtain ⟨t, here, is, rows⟩ := roster.rows
  constructor
  · intro holds
    obtain ⟨table, found, r, member, records⟩ := holds
    rw [here] at found
    cases found
    rw [rows] at member
    obtain ⟨e, listed, rfl⟩ := List.mem_map.mp member
    exact ⟨e, listed, (records_kept_iff is).mp records⟩
  · intro found
    obtain ⟨e, listed, same⟩ := found
    refine ⟨t, here, keptRow e, ?_, (records_kept_iff is).mpr same⟩
    rw [rows]
    exact List.mem_map_of_mem listed

variable {m : Model} {policy : OrphanPolicy}

theorem Roster.paired (roster : s.Roster held) (here : s.own .assignments = some t) : t.Paired := by
  obtain ⟨table, found, is, rows⟩ := roster.rows
  rw [here] at found
  cases found
  intro r member
  rw [rows] at member
  obtain ⟨e, _, rfl⟩ := List.mem_map.mp member
  exact ⟨_, pair_of_kept is⟩

theorem orphaned_kept (is : t.Is .assignments) : t.orphaned m (keptRow e) = !m.declaresRole e.2.role e.2.resourceType := by
  rw [Table.orphaned, pair_of_kept is, Option.any_some, Bool.eq_iff_iff, decide_eq_true_eq, Model.strays_iff,
    Bool.not_eq_true']

theorem reconcile_eq_ok (intact : s.Intact) (roster : s.Roster held) (ran : s.reconcile m policy = .ok (next, n)) :
    next.Roster (held.filter fun e => m.declaresRole e.2.role e.2.resourceType) ∧ AgreesOff [.assignments] s next ∧
      next.Intact := by
  obtain ⟨t, here, is, _⟩ := roster.rows
  have left : (s.put (t.without (t.orphaned m))).Roster (held.filter fun e => m.declaresRole e.2.role e.2.resourceType) :=
    roster.filter here fun e _ => orphaned_kept is
  obtain ⟨rfl, _⟩ := reconcile_exact intact here ran
  exact ⟨left, reconcile_agrees intact ran⟩

-- Where every role is declared on the type that it is held on, there is nothing to do.
theorem Roster.reconcile_clean (roster : s.Roster held)
    (declared : ∀ e ∈ held, m.declaresRole e.2.role e.2.resourceType = true) (policy : OrphanPolicy) :
    s.reconcile m policy = .ok (s, 0) := by
  obtain ⟨t, here, is, rows⟩ := roster.rows
  refine Store.reconcile_clean here is (roster.paired here) ?_ policy
  intro r member
  rw [rows] at member
  obtain ⟨e, listed, rfl⟩ := List.mem_map.mp member
  rw [orphaned_kept is, declared e listed]
  rfl

end Store

end ScopedAccess
