import ScopedAccess.Proofs.ByteOrder
import ScopedAccess.Proofs.DeclaredModel
import ScopedAccess.Proofs.Store.Replacement

namespace ScopedAccess

def Permission.SplitFrom (p : Permission) (text : String) : Prop :=
  splitAtLast ':' text.toList = some (p.resourceType.toList, p.action.toList)

structure RoleSummary.Tells (summary : RoleSummary) (role : Role) : Prop where
  name : summary.name = role.name
  resourceType : summary.resourceType = role.resourceType
  impliesOrdered : summary.implies.toList.Pairwise fun a b => Utf8.bytes a < Utf8.bytes b
  implies : ∀ n, n ∈ summary.implies.toList ↔ n ∈ role.implies
  permissionsOrdered : summary.permissions.toList.Pairwise fun a b => Utf8.bytes a < Utf8.bytes b
  splits : ∀ text ∈ summary.permissions.toList, ∃ p : Permission, p.SplitFrom text
  permissions : ∀ p, (∃ text ∈ summary.permissions.toList, p.SplitFrom text) ↔ p ∈ role.permissions
  count : summary.permissions.toList.length = role.permissions.length

theorem splitFrom_iff {p : Permission} {text : String} : p.SplitFrom text ↔ text = p.describe ∧ ':' ∉ p.action.toList := by
  rw [Permission.SplitFrom, splitAtLast_eq_some_iff, ← toList_describe, String.toList_inj]

theorem OrderedSet.bytes_ordered (s : OrderedSet String) : s.toList.Pairwise fun a b => Utf8.bytes a < Utf8.bytes b :=
  s.sorted.imp Utf8.bytes_lt_iff.mpr

theorem OrderedSet.length_ofList {α : Type} [Key α] {items : List α} (distinct : items.Nodup) :
    (OrderedSet.ofList items).toList.length = items.length := by
  have sorted : (OrderedSet.ofList items).toList.Nodup := (OrderedSet.ofList items).sorted.imp Key.ne_of_lt
  exact ((List.perm_ext_iff_of_nodup sorted distinct).mpr fun _ => OrderedSet.mem_ofList).length_eq

theorem Permission.SplitFrom.unique {p q : Permission} {text : String} (first : p.SplitFrom text) (second : q.SplitFrom text) :
    p = q := by
  have same := first.symm.trans second
  rw [Option.some.injEq, Prod.mk.injEq, String.toList_inj, String.toList_inj] at same
  obtain ⟨_, _⟩ := p
  obtain ⟨_, _⟩ := q
  obtain ⟨rfl, rfl⟩ := same
  rfl

namespace Model

variable {d : Declarations} {m : Model} {role : Role} {n : String} {p q : Permission}

theorem Keeps.plain_of_grants (kept : m.Keeps d) (grants : ImplicationGraph.Grants m.roles n p) : ':' ∉ p.action.toList := by
  obtain ⟨_, _, _, _, reads⟩ := kept.grants_iff.mp ⟨n, grants⟩
  exact readFrom_plain reads

theorem Keeps.split_of_grants (kept : m.Keeps d) (grants : ImplicationGraph.Grants m.roles n p) : p.SplitFrom p.describe :=
  splitFrom_iff.mpr ⟨rfl, kept.plain_of_grants grants⟩

theorem Keeps.describe_inj {other : String} (kept : m.Keeps d) (left : ImplicationGraph.Grants m.roles n p)
    (right : ImplicationGraph.Grants m.roles other q) (same : p.describe = q.describe) : p = q :=
  ScopedAccess.describe_inj (kept.plain_of_grants left) (kept.plain_of_grants right) same

theorem tells_of_summary (kept : m.Keeps d) (resolved : m.Resolved) {summary : RoleSummary} (member : summary ∈ m.summaries) :
    ∃ role, m.roles.find? summary.name = some role ∧ summary.Tells role := by
  obtain ⟨role, value, rfl⟩ := List.mem_map.mp member
  obtain ⟨n, place⟩ := OrderedMap.mem_values.mp value
  have named : role.name = n := resolved.roleName n role place
  have grants : ∀ p ∈ role.permissions, ImplicationGraph.Grants m.roles n p := fun p granted => ⟨role, place, granted⟩
  have listed : ∀ text, text ∈ (OrderedSet.ofList (role.permissions.map Permission.describe)).toList ↔
      ∃ p ∈ role.permissions, p.describe = text := by
    intro text
    rw [OrderedSet.mem_toList, OrderedSet.mem_ofList, List.mem_map]
  refine ⟨role, named.symm ▸ place, rfl, rfl, role.implies.bytes_ordered, fun n => OrderedSet.mem_toList,
    OrderedSet.bytes_ordered _, ?_, ?_, ?_⟩
  · intro text member
    obtain ⟨p, granted, rfl⟩ := (listed text).mp member
    exact ⟨p, kept.split_of_grants (grants p granted)⟩
  · intro p
    constructor
    · intro given
      obtain ⟨text, member, splits⟩ := given
      obtain ⟨q, granted, rfl⟩ := (listed text).mp member
      rw [splits.unique (kept.split_of_grants (grants q granted))]
      exact granted
    · intro granted
      exact ⟨p.describe, (listed _).mpr ⟨p, granted, rfl⟩, kept.split_of_grants (grants p granted)⟩
  · obtain ⟨e, _, _, keeps⟩ := kept.roles.only n role place
    obtain ⟨read, _, first⟩ := keeps.permissions
    have distinct : (role.permissions.map Permission.describe).Nodup :=
      first.nodup.map_on fun p left q right same => kept.describe_inj (grants p left) (grants q right) same
    exact (OrderedSet.length_ofList distinct).trans (List.length_map _)

end Model

namespace Store

variable {s next : Store} {d : Declarations} {m : Model} {policy : OrphanPolicy} {report : SyncReport}

theorem roleIndex_of_synchronize (intact : s.Intact) (resolved : m.Resolved)
    (ran : s.synchronize m policy = .ok (next, report)) : next.roleIndex = .ok m.summaries := by
  obtain ⟨describes, intact⟩ := describes_of_synchronize intact resolved ran
  exact roleIndex_of_describes intact describes resolved

theorem written_roles_read_back (intact : s.Intact) (made : Model.ofDeclarations d = .ok m)
    (ran : s.synchronize m policy = .ok (next, report)) :
    ∃ index, next.roleIndex = .ok index ∧ index.map (·.name) = m.roles.keys ∧
      (index.map (·.name)).Pairwise (fun a b => Utf8.bytes a < Utf8.bytes b) ∧
      (∀ summary ∈ index, ∃ role, m.roles.find? summary.name = some role ∧ summary.Tells role) ∧
      ∀ a b p q, ImplicationGraph.Grants m.roles a p → ImplicationGraph.Grants m.roles b q → p.describe = q.describe → p = q := by
  have resolved := (Model.reflects made).resolved
  have kept := (Model.checked made).keeps
  have names : m.summaries.map (·.name) = m.roles.keys := by
    rw [Model.summaries, List.map_map]
    exact Model.role_names resolved.roleName
  refine ⟨m.summaries, roleIndex_of_synchronize intact resolved ran, names, ?_,
    fun summary member => Model.tells_of_summary kept resolved member, fun a b p q => kept.describe_inj⟩
  rw [names]
  exact m.roles.keys_sorted.imp Utf8.bytes_lt_iff.mpr

-- A type whose tag looks like a permission of the other.
def colons : Declarations :=
  { resources :=
      [⟨"app", "apps", "id", .unrestricted, .only
          [⟨"writer", some ["Doc", "app:Doc:edit", "app:edit", "edit"], some ["reader"]⟩, ⟨"reader", none, none⟩]⟩,
        ⟨"app:Doc", "docs", "id", .only ["edit"], .unrestricted⟩]
    links := [] }

def staleStore : Store :=
  ((fresh []).put (OwnTable.roles.filled [[.text "ghost", .text "gone"]])).put
    (OwnTable.permissions.filled [[.integer 1, .text "gone", .text "haunt"]])

theorem staleStore_intact : staleStore.Intact := (fresh_intact.put OwnTable.filled_is).put OwnTable.filled_is

theorem staleStore_assignments : staleStore.own .assignments = some (OwnTable.assignments.filled []) := by
  rw [staleStore, (put_agrees (o := .permissions) rfl).own _ (by simp), (put_agrees (o := .roles) rfl).own _ (by simp)]
  rfl

theorem colons_written : ∃ m next report, Model.ofDeclarations colons = .ok m ∧
    staleStore.synchronize m .reject = .ok (next, report) ∧ m.roles.keys = ["reader", "writer"] ∧
    (m.roles.find? "writer").map (·.permissions) = some [⟨"app", "Doc"⟩, ⟨"app:Doc", "edit"⟩, ⟨"app", "edit"⟩] := by
  have resolved : (Model.ofDeclarations colons).toOption.map (fun m =>
      (m.roles.keys, (m.roles.find? "writer").map (·.permissions))) =
      some (["reader", "writer"], some [⟨"app", "Doc"⟩, ⟨"app:Doc", "edit"⟩, ⟨"app", "edit"⟩]) := by
    decide +kernel
  obtain ⟨m, made, same⟩ := Option.map_eq_some_iff.mp resolved
  rw [toOption_eq_some_iff] at made
  rw [Prod.mk.injEq] at same
  have settled : staleStore.reconcile m .reject = .ok (staleStore, 0) :=
    reconcile_clean staleStore_assignments OwnTable.filled_is (fun _ none => nomatch none) (fun _ none => nomatch none) .reject
  obtain ⟨next, report, renewed, _⟩ := renewRoles_ok staleStore_intact (Model.reflects made) 0
  refine ⟨m, next, report, made, ?_, same⟩
  rw [synchronize_eq, settled]
  exact renewed

-- The ghost is gone, and the writer has three texts, which split into the three permissions.
theorem colons_read_back : ∃ m next report index, Model.ofDeclarations colons = .ok m ∧
    staleStore.synchronize m .reject = .ok (next, report) ∧ next.roleIndex = .ok index ∧
    index.map (·.name) = ["reader", "writer"] ∧
    ∃ summary ∈ index, summary.name = "writer" ∧ summary.permissions.toList.length = 3 ∧
      ∀ p ∈ ([⟨"app", "Doc"⟩, ⟨"app:Doc", "edit"⟩, ⟨"app", "edit"⟩] : List Permission),
        ∃ text ∈ summary.permissions.toList, p.SplitFrom text := by
  obtain ⟨m, next, report, made, ran, names, granted⟩ := colons_written
  obtain ⟨index, read, same, _, tells, _⟩ := written_roles_read_back staleStore_intact made ran
  refine ⟨m, next, report, index, made, ran, read, same.trans names, ?_⟩
  have writer : "writer" ∈ index.map (·.name) := by
    rw [same, names]
    simp
  obtain ⟨summary, member, named⟩ := List.mem_map.mp writer
  obtain ⟨role, place, told⟩ := tells summary member
  rw [show summary.name = "writer" from named] at place
  rw [place, Option.map_some, Option.some.injEq] at granted
  refine ⟨summary, member, named, ?_, ?_⟩
  · rw [told.count, granted]
    rfl
  · intro p listed
    exact (told.permissions p).mpr (granted.symm ▸ listed)

end Store

end ScopedAccess
