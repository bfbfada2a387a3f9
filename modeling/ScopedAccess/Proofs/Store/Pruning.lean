import Mathlib.Data.List.Nodup
import ScopedAccess.Proofs.Lists
import ScopedAccess.Proofs.Store.Admission

namespace ScopedAccess

-- The role is not there, or it is a role on another type.
def Model.Strays (m : Model) (o : Orphan) : Prop :=
  m.roles.find? o.role = none ∨ ∃ role, m.roles.find? o.role = some role ∧ role.resourceType ≠ o.resourceType

theorem Model.strays_iff {m : Model} {o : Orphan} : m.Strays o ↔ m.declaresRole o.role o.resourceType = false := by
  unfold Model.Strays Model.declaresRole
  cases m.roles.find? o.role with
  | none => simp
  | some role => simp

instance {m : Model} {o : Orphan} : Decidable (m.Strays o) := decidable_of_iff _ Model.strays_iff.symm

def pairOf? : Row → Option Orphan
  | [.text role, .text resourceType] => some ⟨role, resourceType⟩
  | _ => none

namespace Table

variable {t : Table} {u : OwnTable} {r : NumberedRow} {o : Orphan} {m : Model} {orphans : List Orphan}

def pair? (t : Table) (r : NumberedRow) : Option Orphan := pairOf? [t.cell "role" r, t.cell "resource_type" r]

-- Every row names a role and a type, as texts that can be read.
def Paired (t : Table) : Prop := ∀ r ∈ t.rows, ∃ o, t.pair? r = some o

instance : Decidable t.Paired :=
  decidable_of_iff (∀ r ∈ t.rows, (t.pair? r).isSome = true) <|
    forall_congr' fun _ => imp_congr_right fun _ => Option.isSome_iff_exists

def orphaned (t : Table) (m : Model) (r : NumberedRow) : Bool := (t.pair? r).any fun o => decide (m.Strays o)

def names (t : Table) (orphans : List Orphan) (r : NumberedRow) : Bool := (t.pair? r).any fun o => decide (o ∈ orphans)

def without (t : Table) (gone : NumberedRow → Bool) : Table := { t with rows := t.rows.filter fun r => !gone r }

structure Orphans (t : Table) (m : Model) (orphans : List Orphan) : Prop where
  distinct : orphans.Nodup
  members : ∀ o, o ∈ orphans ↔ (∃ r ∈ t.rows, t.pair? r = some o) ∧ m.Strays o

theorem pairOf?_eq_some_iff {row : Row} : pairOf? row = some o ↔ row = [.text o.role, .text o.resourceType] := by
  constructor
  · intro found
    unfold pairOf? at found
    split at found
    · cases found
      rfl
    · cases found
  · rintro rfl
    rfl

theorem pair?_eq_some_iff :
    t.pair? r = some o ↔ t.cell "role" r = .text o.role ∧ t.cell "resource_type" r = .text o.resourceType := by
  simp [pair?, pairOf?_eq_some_iff]

theorem orphaned_iff : t.orphaned m r = true ↔ ∃ o, t.pair? r = some o ∧ m.Strays o := by
  simp [orphaned, Option.any_eq_true]

theorem clean_of_not (clean : ¬ ∃ r ∈ t.rows, t.orphaned m r = true) : ∀ r ∈ t.rows, t.orphaned m r = false :=
  fun r member => Bool.eq_false_iff.mpr fun orphaned => clean ⟨r, member, orphaned⟩

theorem names_iff : t.names orphans r = true ↔ ∃ o, t.pair? r = some o ∧ o ∈ orphans := by
  simp [names, Option.any_eq_true]

theorem names_nil : t.names [] = fun _ => false := by
  funext r
  simp [← Bool.not_eq_true, names_iff]

theorem names_append {more : List Orphan} : t.names (orphans ++ more) = fun r => t.names orphans r || t.names more r := by
  funext r
  rw [Bool.eq_iff_iff, Bool.or_eq_true]
  simp only [names_iff, List.mem_append, and_or_left, exists_or]

-- What is gone does not matter for what the other rows name.
theorem names_without {gone : NumberedRow → Bool} : (t.without gone).names orphans = t.names orphans := rfl

theorem without_without {gone also : NumberedRow → Bool} :
    (t.without gone).without also = t.without fun r => gone r || also r := by
  simp only [without, List.filter_filter, Bool.not_or]
  simp only [Bool.and_comm]

theorem without_none : (t.without fun _ => false) = t := by
  simp [without]

theorem without_congr {gone also : NumberedRow → Bool} (same : ∀ r ∈ t.rows, gone r = also r) :
    t.without gone = t.without also := by
  unfold without
  rw [List.filter_congr fun r member => congrArg not (same r member)]

theorem Is.without (is : t.Is u) (gone : NumberedRow → Bool) : (t.without gone).Is u := ⟨is.name, is.schema⟩

theorem Orphans.names_eq (found : t.Orphans m orphans) (member : r ∈ t.rows) : t.names orphans r = t.orphaned m r := by
  rw [Bool.eq_iff_iff, names_iff, Table.orphaned_iff]
  refine exists_congr fun o => and_congr_right fun pair => ?_
  rw [found.members]
  exact and_iff_right ⟨r, member, pair⟩

theorem Orphans.eq_nil_iff (found : t.Orphans m orphans) : orphans = [] ↔ ∀ r ∈ t.rows, t.orphaned m r = false := by
  rw [List.eq_nil_iff_forall_not_mem]
  constructor
  · intro none r member
    rw [← found.names_eq member, ← Bool.not_eq_true, names_iff]
    rintro ⟨o, _, listed⟩
    exact none o listed
  · intro clean o listed
    obtain ⟨⟨r, member, pair⟩, strays⟩ := (found.members o).mp listed
    have dirty : t.orphaned m r = true := Table.orphaned_iff.mpr ⟨o, pair, strays⟩
    rw [clean r member] at dirty
    cases dirty

end Table

namespace Store

variable {s next : Store} {t table other : Table} {m : Model} {u : OwnTable} {r : NumberedRow} {o : Orphan}
  {orphans : List Orphan} {policy : OrphanPolicy} {n : Nat}

theorem put_same (here : s.own u = some t) (named : t.name = u.name) : s.put t = s := by
  rw [put_own named]
  have own : (fun v => if v = u then some t else s.own v) = s.own := by
    funext v
    split
    · rename_i same
      rw [same, here]
    · rfl
  rw [own]

theorem put_put (named : table.name = u.name) (again : other.name = u.name) : (s.put table).put other = s.put other := by
  rw [put_own named, put_own again, put_own again]
  refine congrArg (fun own => { s with own := own }) ?_
  funext v
  by_cases same : v = u
  · simp [same]
  · simp [same]

theorem holds_type_iff (is : t.Is .assignments) {text : String} :
    t.holds "resource_type" (.text text) r = true ↔ t.cell "resource_type" r = .text text :=
  Table.holds_text_iff (i := 2) (c := .plain "resource_type" .varchar) is rfl rfl

theorem holds_role_iff (is : t.Is .assignments) {text : String} :
    t.holds "role" (.text text) r = true ↔ t.cell "role" r = .text text :=
  Table.holds_text_iff (i := 4) (c := .plain "role" .varchar) is rfl rfl

theorem selects_pair_iff (is : t.Is .assignments) :
    Selects t [("role", o.role), ("resource_type", o.resourceType)] r = true ↔ t.pair? r = some o := by
  simp only [Selects, List.all_cons, List.all_nil, Bool.and_true, Bool.and_eq_true, holds_role_iff is, holds_type_iff is,
    Table.pair?_eq_some_iff]

theorem pair_columns_known : ∀ name ∈ ["role", "resource_type"], OwnTable.assignments.schema.hasColumn name = true := by
  intro name member
  refine OwnTable.hasColumn_listed ?_
  simp only [List.mem_cons, List.not_mem_nil, or_false] at member
  rcases member with rfl | rfl <;> simp [OwnTable.columns, ColumnSchema.key, ColumnSchema.plain]

theorem read_pairs (here : s.own .assignments = some t) (is : t.Is .assignments) :
    s.read .assignments ["role", "resource_type"] (fun _ _ => true) =
      .ok (t.rows.map fun r => [t.cell "role" r, t.cell "resource_type" r]) := by
  rw [read_own here is pair_columns_known, List.filter_eq_self.mpr fun _ _ => rfl]
  rfl

theorem orphanOfRow_eq_ok_iff {first second : Cell} :
    orphanOfRow [first, second] = .ok o ↔ pairOf? [first, second] = some o := by
  rw [Table.pairOf?_eq_some_iff]
  simp only [orphanOfRow, bind_eq_ok_iff, textOf_eq_ok_iff, List.cons.injEq, and_true]
  constructor
  · rintro ⟨role, rfl, resourceType, rfl, same⟩
    cases same
    exact ⟨rfl, rfl⟩
  · rintro ⟨rfl, rfl⟩
    exact ⟨o.role, rfl, o.resourceType, rfl, rfl⟩

-- Each pair is read once, however many rows have it.
theorem orphans_ok (here : s.own .assignments = some t) (is : t.Is .assignments) (paired : t.Paired) (m : Model) :
    ∃ orphans, s.orphans m = .ok orphans ∧ t.Orphans m orphans := by
  let rows : List Row := (t.rows.map fun r => [t.cell "role" r, t.cell "resource_type" r]).eraseDups
  have mem_pairs : ∀ o, o ∈ rows.filterMap pairOf? ↔ ∃ r ∈ t.rows, t.pair? r = some o := by
    intro o
    simp only [rows, List.mem_filterMap, List.mem_eraseDups, List.mem_map, exists_exists_and_eq_and]
    exact Iff.rfl
  have read : rows.mapM orphanOfRow = .ok (rows.filterMap pairOf?) := by
    refine mapM_eq_ok_filterMap ?_
    intro row member
    obtain ⟨r, there, rfl⟩ := List.mem_map.mp (List.mem_eraseDups.mp member)
    obtain ⟨o, pair⟩ := paired r there
    exact ⟨o, pair, orphanOfRow_eq_ok_iff.mpr pair⟩
  have distinct : (rows.filterMap pairOf?).Nodup := by
    refine List.Nodup.filterMap ?_ (firstOccurrences_eraseDups _).nodup
    intro row again o first second
    rw [Table.pairOf?_eq_some_iff.mp first, Table.pairOf?_eq_some_iff.mp second]
  refine ⟨(rows.filterMap pairOf?).filter fun o => !m.declaresRole o.role o.resourceType, ?_, distinct.filter _, ?_⟩
  · simp only [Store.orphans, read_pairs here is, bind, Except.bind, rows, read]
  · intro o
    rw [List.mem_filter, mem_pairs, Model.strays_iff, Bool.not_eq_true']

-- One row that names no role or no type, and none is read.
theorem orphans_unread (here : s.own .assignments = some t) (is : t.Is .assignments) (unpaired : ¬ t.Paired) (m : Model) :
    ∃ fault, s.orphans m = .error fault := by
  simp only [Store.orphans, read_pairs here is, bind, Except.bind]
  cases read : ((t.rows.map fun r => [t.cell "role" r, t.cell "resource_type" r]).eraseDups).mapM orphanOfRow with
  | error fault => exact ⟨fault, rfl⟩
  | ok pairs =>
    refine absurd (fun r member => ?_) unpaired
    have listed : [t.cell "role" r, t.cell "resource_type" r] ∈
        (t.rows.map fun r => [t.cell "role" r, t.cell "resource_type" r]).eraseDups :=
      List.mem_eraseDups.mpr (List.mem_map_of_mem member)
    obtain ⟨o, decoded⟩ := mapM_ok_iff.mp ⟨pairs, read⟩ _ listed
    exact ⟨o, orphanOfRow_eq_ok_iff.mp decoded⟩

theorem forget_ok (intact : s.Intact) (here : s.own .assignments = some t) (n : Nat) (o : Orphan) :
    forget (s, n) o = .ok (s.put (t.without (t.names [o])), n + (t.rows.filter (t.names [o])).length) := by
  have is := intact.is here
  have unreferenced : ∀ r ∈ t.rows, s.isReferenced t r = false := by
    intro r _
    refine isReferenced_eq_false intact is ?_
    intro u child _ refers
    simp [OwnTable.refers_iff] at refers
  have known : ∀ c ∈ [("role", o.role), ("resource_type", o.resourceType)], OwnTable.assignments.schema.hasColumn c.1 = true :=
    fun c member => pair_columns_known c.1 (List.mem_map_of_mem (f := Prod.fst) member)
  have selects : Selects t [("role", o.role), ("resource_type", o.resourceType)] = t.names [o] := by
    funext r
    rw [Bool.eq_iff_iff, selects_pair_iff is, Table.names_iff]
    simp
  rw [forget, deleteMatching_ok intact here known unreferenced, selects]
  rfl

theorem filter_or_length {α : Type} (p q : α → Bool) (l : List α) :
    (l.filter fun a => p a || q a).length = (l.filter p).length + ((l.filter fun a => !p a).filter q).length := by
  induction l with
  | nil => rfl
  | cons a rest ih =>
    cases first : p a <;> cases second : q a <;> simp [first, second] at ih ⊢ <;> omega

theorem forget_each (intact : s.Intact) (here : s.own .assignments = some t) (orphans : List Orphan) :
    orphans.foldlM forget (s, 0) = .ok (s.put (t.without (t.names orphans)), (t.rows.filter (t.names orphans)).length) := by
  have is := intact.is here
  have run : ∃ last, orphans.foldlM forget (s, 0) = .ok last ∧
      last = (s.put (t.without (t.names orphans)), (t.rows.filter (t.names orphans)).length) := by
    refine foldlM_ok (fun done (progress : Store × Nat) =>
      progress = (s.put (t.without (t.names done)), (t.rows.filter (t.names done)).length)) ?_ ?_
    · simp [Table.names_nil, Table.without_none, put_same here is.name]
    · rintro done o rest _ split rfl
      have left := is.without (t.names done)
      refine ⟨_, forget_ok (intact.put left) (put_here left.name) _ o, ?_⟩
      rw [Table.names_without, Table.without_without, put_put left.name (is.without _).name, Table.names_append, filter_or_length]
      rfl
  obtain ⟨last, ran, same⟩ := run
  rw [ran, same]

theorem reconcile_prune (intact : s.Intact) (here : s.own .assignments = some t) (paired : t.Paired) (m : Model) :
    s.reconcile m .prune = .ok (s.put (t.without (t.orphaned m)), (t.rows.filter (t.orphaned m)).length) := by
  have is := intact.is here
  obtain ⟨orphans, read, found⟩ := orphans_ok here is paired m
  have gone : t.rows.filter (t.orphaned m) = t.rows.filter (t.names orphans) :=
    List.filter_congr fun r member => (found.names_eq member).symm
  have left : t.without (t.orphaned m) = t.without (t.names orphans) :=
    Table.without_congr fun r member => (found.names_eq member).symm
  rw [gone, left, reconcile, read, mapError_ok]
  have each := forget_each intact here orphans
  cases orphans with
  | nil =>
    rw [Table.names_nil, Table.without_none, put_same here is.name]
    simp [bind, Except.bind]
  | cons o rest =>
    simp only [bind, Except.bind, each, mapError_ok]

theorem reconcile_clean (here : s.own .assignments = some t) (is : t.Is .assignments) (paired : t.Paired)
    (clean : ∀ r ∈ t.rows, t.orphaned m r = false) (policy : OrphanPolicy) : s.reconcile m policy = .ok (s, 0) := by
  obtain ⟨orphans, read, found⟩ := orphans_ok here is paired m
  rw [reconcile, read, found.eq_nil_iff.mpr clean]
  rfl

theorem reconcile_reject (here : s.own .assignments = some t) (is : t.Is .assignments) (paired : t.Paired)
    (dirty : ∃ r ∈ t.rows, t.orphaned m r = true) :
    ∃ orphans, t.Orphans m orphans ∧ s.reconcile m .reject = .error (.orphanedAssignments orphans) := by
  obtain ⟨orphans, read, found⟩ := orphans_ok here is paired m
  refine ⟨orphans, found, ?_⟩
  rw [reconcile, read]
  cases orphans with
  | nil =>
    obtain ⟨r, member, orphaned⟩ := dirty
    rw [found.eq_nil_iff.mp rfl r member] at orphaned
    cases orphaned
  | cons o rest => rfl

theorem reconcile_unread (here : s.own .assignments = some t) (is : t.Is .assignments) (unpaired : ¬ t.Paired) (m : Model)
    (policy : OrphanPolicy) : ∃ fault, s.reconcile m policy = .error (.store fault) := by
  obtain ⟨fault, unread⟩ := orphans_unread here is unpaired m
  exact ⟨fault, by rw [reconcile, unread]; rfl⟩

theorem paired_of_reconcile (here : s.own .assignments = some t) (is : t.Is .assignments)
    (ran : ∀ fault, s.reconcile m policy ≠ .error (.store fault)) : t.Paired := by
  refine Classical.byContradiction fun unpaired => ?_
  obtain ⟨fault, unread⟩ := reconcile_unread here is unpaired m policy
  exact ran fault unread

-- Under either policy, what goes through has left no orphaned row and changed no other.
theorem reconcile_exact (intact : s.Intact) (here : s.own .assignments = some t)
    (ran : s.reconcile m policy = .ok (next, n)) :
    next = s.put (t.without (t.orphaned m)) ∧ n = (t.rows.filter (t.orphaned m)).length := by
  have is := intact.is here
  have paired : t.Paired := paired_of_reconcile here is fun fault failed => by
    rw [ran] at failed
    cases failed
  cases policy with
  | prune =>
    rw [reconcile_prune intact here paired] at ran
    cases ran
    exact ⟨rfl, rfl⟩
  | reject =>
    by_cases dirty : ∃ r ∈ t.rows, t.orphaned m r = true
    · obtain ⟨orphans, _, refused⟩ := reconcile_reject here is paired dirty
      rw [refused] at ran
      cases ran
    · have clean := Table.clean_of_not dirty
      rw [reconcile_clean here is paired clean] at ran
      cases ran
      rw [Table.without_congr clean, Table.without_none, put_same here is.name]
      refine ⟨rfl, ?_⟩
      rw [List.filter_congr clean]
      simp

-- Nothing but orphaned rows is a reason to refuse with orphans, and only where they may not be deleted.
theorem reconcile_refused (intact : s.Intact) (here : s.own .assignments = some t)
    (failed : s.reconcile m policy = .error (.orphanedAssignments orphans)) :
    policy = .reject ∧ t.Orphans m orphans ∧ ∃ r ∈ t.rows, t.orphaned m r = true := by
  have is := intact.is here
  have paired : t.Paired := paired_of_reconcile here is fun fault unread => by
    rw [failed] at unread
    cases unread
  cases policy with
  | prune =>
    rw [reconcile_prune intact here paired] at failed
    cases failed
  | reject =>
    by_cases dirty : ∃ r ∈ t.rows, t.orphaned m r = true
    · obtain ⟨listed, found, refused⟩ := reconcile_reject here is paired dirty
      rw [refused] at failed
      cases failed
      exact ⟨rfl, found, dirty⟩
    · rw [reconcile_clean here is paired (Table.clean_of_not dirty)] at failed
      cases failed

theorem reconcile_agrees (intact : s.Intact) (ran : s.reconcile m policy = .ok (next, n)) :
    AgreesOff [.assignments] s next ∧ next.Intact := by
  rw [reconcile, bind_eq_ok_iff] at ran
  obtain ⟨orphans, _, ran⟩ := ran
  split at ran
  · cases ran
    exact ⟨.refl, intact⟩
  · cases ran
  · rw [mapError_eq_ok_iff] at ran
    refine foldlM_invariant (fun _ (progress : Store × Nat) => AgreesOff [.assignments] s progress.1 ∧ progress.1.Intact)
      ⟨.refl, intact⟩ ?_ ran
    rintro done o rest ⟨before, count⟩ ⟨after, _⟩ split ⟨agrees, intact⟩ stepped
    rw [forget, bind_eq_ok_iff] at stepped
    obtain ⟨⟨emptied, _⟩, deleted, same⟩ := stepped
    cases same
    obtain ⟨t, here, rfl, _⟩ := deleteMatching_eq_ok deleted
    have is := intact.is here
    exact ⟨agrees.trans (put_agrees is.name), intact.put ⟨is.name, is.schema⟩⟩

end Store

end ScopedAccess
