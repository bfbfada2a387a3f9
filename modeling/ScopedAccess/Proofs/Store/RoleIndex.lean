import Mathlib.Data.List.Basic
import ScopedAccess.Proofs.Store.RoleRows

namespace ScopedAccess

theorem find?_numbered {β : Type} (l : List β) (n k : Nat) :
    ((l.zipIdx n).map fun e => ((e.2 : Int) + 1, e.1)).find? (fun e => decide (e.1 = ((n + k : Nat) : Int) + 1)) =
      l[k]?.map fun b => (((n + k : Nat) : Int) + 1, b) := by
  induction l generalizing n k with
  | nil => rfl
  | cons a rest ih =>
    rw [List.zipIdx_cons, List.map_cons, List.find?_cons]
    cases k with
    | zero => simp
    | succ k =>
      have other : decide ((n : Int) + 1 = ((n + (k + 1) : Nat) : Int) + 1) = false := decide_eq_false (by omega)
      rw [other, show n + (k + 1) = n + 1 + k by omega, ih (n + 1) k]
      rfl

namespace Model

variable {m : Model} {r : Role}

def summaries (m : Model) : List RoleSummary :=
  m.roles.values.map fun r =>
    { name := r.name
      resourceType := r.resourceType
      permissions := .ofList (r.permissions.map Permission.describe)
      implies := r.implies }

-- The permission with the number that a grant names is the one that was granted.
theorem permission_of_place {p : Permission} (known : p ∈ m.permissions) :
    (((m.permissions.toList.zipIdx 0).map fun e => ((e.2 : Int) + 1, e.1)).find? fun e =>
      decide (e.1 = (m.placeOf p : Int) + 1)).map (·.2) = some p := by
  have found := find?_numbered m.permissions.toList 0 (m.placeOf p)
  rw [Nat.zero_add] at found
  rw [found, permission_at_place known]
  rfl

theorem role_names (named : ∀ n r, m.roles.find? n = some r → r.name = n) : m.roles.values.map (·.name) = m.roles.keys := by
  rw [OrderedMap.values, OrderedMap.keys, List.map_map]
  apply List.map_congr_left
  intro e member
  exact named e.1 e.2 (OrderedMap.find?_eq_some_iff.mpr member)

theorem role_names_ordered (named : ∀ n r, m.roles.find? n = some r → r.name = n) :
    m.roles.values.Pairwise fun a b => a.name < b.name := by
  have ordered := m.roles.keys_sorted
  rw [← role_names named] at ordered
  exact List.pairwise_map.mp ordered

end Model

-- What each of several roles contributes is found again under its name.
theorem contributions_of {β : Type} {roles : List Role} {r : Role} (of : Role → List β)
    (ordered : roles.Pairwise fun a b => a.name < b.name) (member : r ∈ roles) :
    ((roles.flatMap fun a => (of a).map (a.name, ·)).filter (·.1 = r.name)).map (·.2) = of r := by
  have own : ∀ a : Role, a.name = r.name → (((of a).map (a.name, ·)).filter (·.1 = r.name)) = (of a).map (a.name, ·) := by
    intro a same
    refine List.filter_eq_self.mpr ?_
    intro e listed
    obtain ⟨b, _, rfl⟩ := List.mem_map.mp listed
    exact decide_eq_true same
  have foreign : ∀ a : Role, a.name ≠ r.name → (((of a).map (a.name, ·)).filter (·.1 = r.name)) = [] := by
    intro a different
    refine List.filter_eq_nil_iff.mpr ?_
    intro e listed same
    obtain ⟨b, _, rfl⟩ := List.mem_map.mp listed
    exact different (of_decide_eq_true same)
  induction roles with
  | nil => cases member
  | cons a rest ih =>
    obtain ⟨below, ordered⟩ := List.pairwise_cons.mp ordered
    rw [List.flatMap_cons, List.filter_append, List.map_append]
    rcases List.mem_cons.mp member with rfl | later
    · have none : (rest.flatMap fun a => (of a).map (a.name, ·)).filter (·.1 = r.name) = [] := by
        rw [List.filter_flatMap, List.flatMap_eq_nil_iff]
        intro b listed
        exact foreign b (Key.ne_of_lt (below b listed)).symm
      rw [own r rfl, none, List.map_nil, List.append_nil, List.map_map]
      exact List.map_id _
    · rw [foreign a (Key.ne_of_lt (below r later)), List.map_nil, List.nil_append, ih ordered later]

theorem mapM_mapIdx {α β : Type} {decode : Row → Except StoreFault β} {encode : Nat → α → Row} {value : α → β}
    (each : ∀ i a, decode (encode i a) = .ok (value a)) (l : List α) : (l.mapIdx encode).mapM decode = .ok (l.map value) := by
  rw [List.mapIdx_eq_zipIdx_map, List.mapM_map, mapM_eq_ok_map fun e _ => each e.2 e.1]
  have same : (l.zipIdx.map fun e => value e.1) = (l.zipIdx.map Prod.fst).map value := by
    rw [List.map_map]
    rfl
  rw [same, List.zipIdx_map_fst]

namespace Store

variable {s : Store} {m : Model} {o : OwnTable} {rows : List Row}

theorem readAll_eq (intact : s.Intact) (held : s.contents o = some rows)
    (fits : ∀ i row, rows[i]? = some row → Fits o i row) : s.readAll o = .ok rows := by
  obtain ⟨t, here, is⟩ := intact o
  rw [contents, here, Option.map_some, Option.some.injEq] at held
  have cells : ∀ r ∈ t.rows, ((o.columns.map (·.name)).map fun c => t.cell c r) = r.cells := by
    intro r member
    obtain ⟨i, place⟩ := List.mem_iff_getElem?.mp (held ▸ List.mem_map_of_mem member : r.cells ∈ rows)
    exact Table.cells_own is (fits i r.cells place).full
  rw [readAll, read_own here is fun _ => OwnTable.hasColumn_listed, List.filter_eq_self.mpr fun _ _ => rfl, ← held,
    List.map_congr_left cells]

theorem granted_eq (resolved : m.Resolved) {r : Role} (member : r ∈ m.roles.values) :
    ((m.grants.map fun g => (g.1, (m.placeOf g.2 : Int) + 1)).filter (·.1 = r.name)).filterMap (fun g =>
      (((m.permissions.toList.zipIdx 0).map fun e => ((e.2 : Int) + 1, e.1)).find? (·.1 = g.2)).map (·.2)) = r.permissions := by
  rw [List.filter_map, List.filterMap_map]
  have looked : ∀ g ∈ m.grants.filter (·.1 = r.name),
      (((m.permissions.toList.zipIdx 0).map fun e => ((e.2 : Int) + 1, e.1)).find? fun e =>
        decide (e.1 = (m.placeOf g.2 : Int) + 1)).map (·.2) = some g.2 := by
    intro g listed
    obtain ⟨name, p⟩ := g
    obtain ⟨role, place, granted⟩ := (Model.mem_grants_iff resolved.roleName).mp (List.mem_filter.mp listed).1
    exact Model.permission_of_place (resolved.granted name role p place granted)
  have collected := contributions_of Role.permissions (Model.role_names_ordered resolved.roleName) member
  rw [← collected]
  exact (List.filterMap_congr looked).trans (congrFun List.filterMap_eq_map' _)

section

variable (intact : s.Intact) (describes : s.Describes m)

include intact describes

theorem rolesByName_eq (resolved : m.Resolved) :
    s.rolesByName = .ok (m.roles.values.map fun r => (r.name, r.resourceType)) := by
  have read := readAll_eq intact describes.roles fun _ _ => Model.roleRows_fit
  have decoded : m.roleRows.mapM (pairOf "name" "resource_type") = .ok (m.roles.values.map fun r => (r.name, r.resourceType)) := by
    rw [Model.roleRows, List.mapM_map]
    exact mapM_eq_ok_map fun r _ => rfl
  have ordered : (m.roles.values.map fun r => (r.name, r.resourceType)).Pairwise fun a b => decide (a.1 ≤ b.1) = true := by
    rw [List.pairwise_map]
    exact (Model.role_names_ordered resolved.roleName).imp fun below => decide_eq_true (String.not_lt.mp (Key.not_lt_of_lt below))
  rw [rolesByName, read]
  change (m.roleRows.mapM (pairOf "name" "resource_type") >>= _) = _
  rw [decoded]
  exact congrArg Except.ok (List.mergeSort_of_pairwise ordered)

theorem numberedPermissions_eq :
    s.numberedPermissions = .ok ((m.permissions.toList.zipIdx 0).map fun e => ((e.2 : Int) + 1, e.1)) := by
  have read := readAll_eq intact describes.permissions fun _ _ => Model.permissionRows_fit
  have decoded : m.permissionRows.mapM (numberedPairOf "resource_type" "name") =
      .ok (m.permissions.toList.zipIdx.map fun e => ((e.2 : Int) + 1, e.1.resourceType, e.1.action)) := by
    rw [Model.permissionRows, List.mapIdx_eq_zipIdx_map, List.mapM_map]
    exact mapM_eq_ok_map fun e _ => rfl
  rw [numberedPermissions, read]
  change (m.permissionRows.mapM (numberedPairOf "resource_type" "name") >>= _) = _
  rw [decoded]
  change Except.ok _ = _
  rw [List.map_map]
  rfl

theorem heldGrants_eq : s.heldGrants = .ok (m.grants.map fun g => (g.1, (m.placeOf g.2 : Int) + 1)) := by
  have read := readAll_eq intact describes.grants fun _ _ => Model.placedGrants_fit
  have each : ∀ (i : Nat) (g : String × Permission),
      grantOf [.integer (i + 1), .text g.1, .integer (m.placeOf g.2 + 1)] = .ok (g.1, (m.placeOf g.2 : Int) + 1) := fun _ _ => rfl
  rw [heldGrants, read]
  exact mapM_mapIdx each m.grants

theorem heldImplications_eq :
    s.heldImplications = .ok (m.roles.values.flatMap fun r => r.implies.toList.map (r.name, ·)) := by
  have read := readAll_eq intact describes.implications fun _ _ => Model.implicationRows_fit
  let pairs := m.roles.values.flatMap fun r => r.implies.toList.map (r.name, ·)
  have decoded : m.implicationRows.mapM (numberedPairOf "from_role" "to_role") =
      .ok (pairs.zipIdx.map fun e => ((e.2 : Int) + 1, e.1)) := by
    rw [Model.implicationRows, List.mapIdx_eq_zipIdx_map, List.mapM_map]
    exact mapM_eq_ok_map fun e _ => rfl
  rw [heldImplications, read]
  change (m.implicationRows.mapM (numberedPairOf "from_role" "to_role") >>= _) = _
  rw [decoded]
  change Except.ok _ = _
  rw [List.map_map]
  exact congrArg _ (List.zipIdx_map_fst 0 pairs)

theorem roleIndex_of_describes (resolved : m.Resolved) : s.roleIndex = .ok m.summaries := by
  rw [roleIndex, rolesByName_eq intact describes resolved, numberedPermissions_eq intact describes,
    heldGrants_eq intact describes, heldImplications_eq intact describes]
  change Except.ok _ = _
  refine congrArg _ ?_
  rw [List.map_map, Model.summaries]
  apply List.map_congr_left
  intro r member
  have permissions := granted_eq resolved member
  have implied : OrderedSet.ofList (((m.roles.values.flatMap fun a => a.implies.toList.map (a.name, ·)).filter
      (·.1 = r.name)).map (·.2)) = r.implies := by
    rw [contributions_of (fun a => a.implies.toList) (Model.role_names_ordered resolved.roleName) member]
    exact OrderedSet.ext fun x => OrderedSet.mem_ofList
  simp only [Function.comp_apply, permissions, implied]

end

end Store

end ScopedAccess
