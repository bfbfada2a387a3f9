import Mathlib.Data.List.Forall2
import ScopedAccess.Proofs.Authorizer.Consistency
import ScopedAccess.Proofs.Store.Replacement

namespace ScopedAccess

theorem forall₂_mapIdx {α β : Type} {related : α → β → Prop} {f : Nat → α → β} {l : List α}
    (each : ∀ i a, l[i]? = some a → related a (f i a)) : List.Forall₂ related l (l.mapIdx f) := by
  rw [List.forall₂_iff_get]
  refine ⟨List.length_mapIdx.symm, ?_⟩
  intro i left right
  rw [List.get_eq_getElem, List.get_eq_getElem, List.getElem_mapIdx]
  exact each i l[i] (List.getElem?_eq_getElem left)

structure Numbered (rows : List Row) : Prop where
  ids : rows.map (·.getD 0 .null) = (List.range rows.length).map fun i : Nat => .integer (i + 1)
  distinct : (rows.map (·.getD 0 .null)).Nodup

theorem numbered_mapIdx {α : Type} {cells : α → Row} {l : List α} :
    Numbered (l.mapIdx fun i a => .integer (i + 1) :: cells a) := by
  have ids : (l.mapIdx fun i a => (.integer (i + 1) :: cells a : Row)).map (·.getD 0 .null) =
      (List.range l.length).map fun i : Nat => .integer (i + 1) := by
    apply List.ext_getElem
    · simp
    · intro i left right
      simp
  constructor
  · rw [ids, List.length_mapIdx]
  · rw [ids]
    refine List.nodup_range.map ?_
    intro i j same
    have sums := Cell.integer.inj same
    omega

namespace Model

-- The rows that stand for a model, by the keys they have and the keys they refer to. Each grant has its row.
structure Keyed (m : Model) (grants : List Row) : Prop where
  roleNames : (m.roleRows.map (·.getD 0 .null)).Nodup
  permissionIds : Numbered m.permissionRows
  permissionPairs : (m.permissionRows.map (·.drop 1)).Nodup
  grantIds : Numbered grants
  implicationIds : Numbered m.implicationRows
  granted : ∀ name p, (name, p) ∈ m.grants ↔ ImplicationGraph.Grants m.roles name p
  grants : List.Forall₂ (fun g row => ∃ id k : Int, row = [.integer id, .text g.1, .integer k] ∧
    (∃ resourceType, [.text g.1, .text resourceType] ∈ m.roleRows) ∧
    [.integer k, .text g.2.resourceType, .text g.2.action] ∈ m.permissionRows) m.grants grants
  implications : ∀ row ∈ m.implicationRows, ∃ id : Int, ∃ a b, row = [.integer id, .text a, .text b] ∧
    ImplicationGraph.Implies m.roles a b ∧ (∃ resourceType, [.text a, .text resourceType] ∈ m.roleRows) ∧
    ∃ resourceType, [.text b, .text resourceType] ∈ m.roleRows

variable {m : Model} {d : Declarations}

theorem keyed (reflects : m.Reflects d) : m.Keyed m.placedGrants := by
  have resolved := reflects.resolved
  refine ⟨?_, numbered_mapIdx, ?_, numbered_mapIdx, numbered_mapIdx, fun name p => mem_grants_iff resolved.roleName, ?_, ?_⟩
  · have names : m.roleRows.map (·.getD 0 .null) = m.roles.keys.map Cell.text := by
      rw [← role_names resolved.roleName, roleRows, List.map_map, List.map_map]
      rfl
    have distinct : m.roles.keys.Nodup := m.roles.keys_sorted.imp Key.ne_of_lt
    rw [names]
    exact distinct.map fun a b same => Cell.text.inj same
  · have pairs : m.permissionRows.map (·.drop 1) = m.permissions.toList.map fun p => [.text p.resourceType, .text p.action] := by
      apply List.ext_getElem
      · simp [permissionRows]
      · intro i left right
        simp [permissionRows]
    have distinct : m.permissions.toList.Nodup := m.permissions.sorted.imp Key.ne_of_lt
    rw [pairs]
    refine distinct.map ?_
    rintro ⟨_, _⟩ ⟨_, _⟩ same
    simp only [List.cons.injEq, Cell.text.injEq, and_true] at same
    obtain ⟨rfl, rfl⟩ := same
    rfl
  · refine forall₂_mapIdx ?_
    intro i g place
    obtain ⟨r, found, granted⟩ := (mem_grants_iff resolved.roleName).mp (List.mem_of_getElem? place)
    exact ⟨_, _, rfl, role_row resolved (OrderedMap.contains_of_find? found),
      permission_row (resolved.granted _ r _ found granted)⟩
  · intro row member
    obtain ⟨i, bound, rfl⟩ := List.mem_mapIdx.mp member
    generalize entry : (m.roles.values.flatMap fun r => r.implies.toList.map (r.name, ·))[i] = e
    have listed := entry ▸ List.getElem_mem bound
    obtain ⟨r, value, other, inside, rfl⟩ := by simpa only [List.mem_flatMap, List.mem_map] using listed
    obtain ⟨n, found⟩ := OrderedMap.mem_values.mp value
    have named : m.roles.find? r.name = some r := (resolved.roleName n r found).symm ▸ found
    exact ⟨_, _, _, rfl, ⟨r, named, inside⟩, role_row resolved (OrderedMap.contains_of_find? named),
      role_row resolved (reflects.implied n r other found inside)⟩

end Model

namespace Authorizer

variable {a : Authorizer} {d : Declarations} {m : Model} {policy : OrphanPolicy} {settled : Store} {pruned : Nat}

theorem renewal_goes_through (reachable : Reachable a) (made : Model.ofDeclarations d = .ok m)
    (reconciled : a.store.reconcile m policy = .ok (settled, pruned)) :
    ∃ grants next report, m.grantRows = .ok grants ∧ m.Keyed grants ∧
      Store.Sequence settled (Store.clearing ++ Store.writing m grants) next ∧ next.Keeps m ∧
      a.store.synchronize m policy = .ok (next, report) := by
  obtain ⟨published, consistent⟩ := reachable.consistent
  have reflects := Model.reflects made
  have intact := (Store.reconcile_agrees consistent.intact reconciled).2
  have placed := Model.grantRows_eq reflects.resolved
  obtain ⟨next, sequence, keeps, _⟩ := Store.renewal_sequence intact reflects
  obtain ⟨report, renewed, _⟩ := Store.renewRoles_of_sequence placed sequence pruned
  refine ⟨m.placedGrants, next, report, placed, Model.keyed reflects, sequence, keeps, ?_⟩
  rw [Store.synchronize_eq, reconciled]
  exact renewed

def wardens : Declarations :=
  { shelf with
    resources :=
      [⟨"Folder", "folders", "id", .unrestricted, .only
          [⟨"warden", some ["Note:read", "sweep"], some ["guest"]⟩, ⟨"guest", some ["enter", "Note:read"], none⟩]⟩,
        ⟨"Note", "notes", "id", .only ["read"], .unrestricted⟩] }

theorem wardens_settled : ∃ m settled, Model.ofDeclarations wardens = .ok m ∧
    shelfRun.store.reconcile m .prune = .ok (settled, 1) ∧ m.grants.length = 4 ∧ m.implicationRows.length = 1 := by
  have answers : (Model.ofDeclarations wardens).toOption.bind (fun m =>
      (shelfRun.store.reconcile m .prune).toOption.map fun result =>
        (result.2, m.grants.length, m.implicationRows.length)) = some (1, 4, 1) := by
    decide +kernel
  obtain ⟨m, made, answers⟩ := Option.bind_eq_some_iff.mp answers
  obtain ⟨⟨settled, pruned⟩, reconciled, same⟩ := Option.map_eq_some_iff.mp answers
  simp only [Prod.mk.injEq] at same
  obtain ⟨rfl, grants, implications⟩ := same
  exact ⟨m, settled, toOption_eq_some_iff.mp made, toOption_eq_some_iff.mp reconciled, grants, implications⟩

-- The keeper's assignment is pruned, and the tables of the shelf take the four grants and the implication.
theorem wardens_replace_keepers : ∃ m settled grants next report, Model.ofDeclarations wardens = .ok m ∧
    shelfRun.store.reconcile m .prune = .ok (settled, 1) ∧ m.Keyed grants ∧ grants.length = 4 ∧
    m.implicationRows.length = 1 ∧ Store.Sequence settled (Store.clearing ++ Store.writing m grants) next ∧
    shelfRun.store.synchronize m .prune = .ok (next, report) := by
  obtain ⟨m, settled, made, reconciled, granted, implications⟩ := wardens_settled
  obtain ⟨grants, next, report, _, keyed, sequence, _, ran⟩ := renewal_goes_through shelfRun_reachable made reconciled
  exact ⟨m, settled, grants, next, report, made, reconciled, keyed, keyed.grants.length_eq.symm.trans granted, implications,
    sequence, ran⟩

end Authorizer

end ScopedAccess
