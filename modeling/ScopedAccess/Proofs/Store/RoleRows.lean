import ScopedAccess.Proofs.ResolvedModel
import ScopedAccess.Proofs.Store.Roster

namespace ScopedAccess

namespace Model

variable {m : Model} {i : Nat} {row : Row}

def placeOf (m : Model) (p : Permission) : Nat := m.permissions.toList.findIdx (· = p)

def placedGrants (m : Model) : List Row :=
  m.grants.mapIdx fun i g => [.integer (i + 1), .text g.1, .integer (m.placeOf g.2 + 1)]

theorem mem_grants_iff (named : ∀ n r, m.roles.find? n = some r → r.name = n) {name : String} {p : Permission} :
    (name, p) ∈ m.grants ↔ ∃ r, m.roles.find? name = some r ∧ p ∈ r.permissions := by
  simp only [grants, List.mem_flatMap, List.mem_map, Prod.mk.injEq, OrderedMap.mem_values]
  constructor
  · intro found
    obtain ⟨r, ⟨n, place⟩, q, granted, same, rfl⟩ := found
    have key := named n r place
    rw [same] at key
    exact ⟨r, key ▸ place, granted⟩
  · intro found
    obtain ⟨r, place, granted⟩ := found
    exact ⟨r, ⟨name, place⟩, p, granted, named name r place, rfl⟩

-- No grant of a resolved model is of a permission that it does not have.
theorem grantRows_eq (resolved : m.Resolved) : m.grantRows = .ok m.placedGrants := by
  have placed : m.placedGrants = m.grants.zipIdx.map fun e =>
      ([.integer (e.2 + 1), .text e.1.1, .integer (m.placeOf e.1.2 + 1)] : Row) := by
    rw [placedGrants, List.mapIdx_eq_zipIdx_map]
  rw [placed, grantRows]
  apply mapM_eq_ok_map
  intro e member
  obtain ⟨⟨name, p⟩, i⟩ := e
  have listed : (name, p) ∈ m.grants := (List.mem_zipIdx_iff_getElem?.mp member) |> List.mem_of_getElem?
  obtain ⟨r, place, granted⟩ := (mem_grants_iff resolved.roleName).mp listed
  have known : ∃ q ∈ m.permissions.toList, decide (q = p) = true :=
    ⟨p, OrderedSet.mem_toList.mpr (resolved.granted name r p place granted), decide_eq_true rfl⟩
  have found : m.permissions.toList.findIdx? (· = p) = some (m.placeOf p) := by
    rw [List.findIdx?_eq_some_of_exists known]
    rfl
  simp only [found]

theorem permission_at_place {p : Permission} (known : p ∈ m.permissions) : m.permissions.toList[m.placeOf p]? = some p := by
  have listed : ∃ q ∈ m.permissions.toList, decide (q = p) = true := ⟨p, OrderedSet.mem_toList.mpr known, decide_eq_true rfl⟩
  have bound : m.placeOf p < m.permissions.toList.length := List.findIdx_lt_length_of_exists listed
  rw [List.getElem?_eq_getElem bound]
  exact congrArg some (of_decide_eq_true (List.findIdx_getElem (w := bound)))

-- The number that a grant gives for a permission is that of the permission's row.
theorem permission_row {p : Permission} (known : p ∈ m.permissions) :
    [.integer (m.placeOf p + 1), .text p.resourceType, .text p.action] ∈ m.permissionRows := by
  refine List.mem_of_getElem? (i := m.placeOf p) ?_
  rw [permissionRows, List.getElem?_mapIdx, permission_at_place known]
  rfl

theorem role_row (resolved : m.Resolved) {name : String} (known : m.roles.contains name = true) :
    ∃ resourceType, [.text name, .text resourceType] ∈ m.roleRows := by
  obtain ⟨r, found⟩ := Option.isSome_iff_exists.mp known
  refine ⟨r.resourceType, ?_⟩
  rw [← resolved.roleName name r found]
  exact List.mem_map_of_mem (OrderedMap.mem_values.mpr ⟨name, found⟩)

theorem permissionRows_fit (place : m.permissionRows[i]? = some row) : Store.Fits .permissions i row := by
  rw [permissionRows, List.getElem?_mapIdx] at place
  obtain ⟨p, _, rfl⟩ := Option.map_eq_some_iff.mp place
  exact ⟨rfl, rfl, fun _ => rfl⟩

theorem roleRows_fit (place : m.roleRows[i]? = some row) : Store.Fits .roles i row := by
  rw [roleRows, List.getElem?_map] at place
  obtain ⟨r, _, rfl⟩ := Option.map_eq_some_iff.mp place
  refine ⟨rfl, rfl, ?_⟩
  intro key
  cases key

theorem placedGrants_fit (place : m.placedGrants[i]? = some row) : Store.Fits .grants i row := by
  rw [placedGrants, List.getElem?_mapIdx] at place
  obtain ⟨g, _, rfl⟩ := Option.map_eq_some_iff.mp place
  exact ⟨rfl, rfl, fun _ => rfl⟩

theorem implicationRows_fit (place : m.implicationRows[i]? = some row) : Store.Fits .implications i row := by
  rw [implicationRows, List.getElem?_mapIdx] at place
  obtain ⟨e, _, rfl⟩ := Option.map_eq_some_iff.mp place
  exact ⟨rfl, rfl, fun _ => rfl⟩

end Model

namespace Store

variable {s next : Store} {m : Model} {policy : OrphanPolicy} {report : SyncReport} {held : List (Int × Assignment)} {n : Nat}
  {grants : List Row}

def roleTables : List OwnTable := [.grants, .implications, .roles, .permissions]

def Blank (s : Store) : Prop := ∀ o ∈ roleTables, s.contents o = some []

structure Describes (s : Store) (m : Model) : Prop where
  permissions : s.contents .permissions = some m.permissionRows
  roles : s.contents .roles = some m.roleRows
  grants : s.contents .grants = some m.placedGrants
  implications : s.contents .implications = some m.implicationRows

theorem fresh_blank {application : List Table} : (fresh application).Blank := by
  intro o member
  simp only [roleTables, List.mem_cons, List.not_mem_nil, or_false] at member
  rcases member with rfl | rfl | rfl | rfl <;> rfl

theorem Blank.congr (blank : s.Blank) (same : ∀ o ∈ roleTables, next.contents o = s.contents o) : next.Blank := by
  intro o member
  rw [same o member]
  exact blank o member

theorem Describes.congr (describes : s.Describes m) (same : ∀ o ∈ roleTables, next.contents o = s.contents o) :
    next.Describes m := by
  refine ⟨?_, ?_, ?_, ?_⟩
  · rw [same _ (by simp [roleTables])]
    exact describes.permissions
  · rw [same _ (by simp [roleTables])]
    exact describes.roles
  · rw [same _ (by simp [roleTables])]
    exact describes.grants
  · rw [same _ (by simp [roleTables])]
    exact describes.implications

def clearing : List TableWrite := [.empty .grants, .empty .implications, .empty .roles, .empty .permissions]

def writing (m : Model) (grants : List Row) : List TableWrite :=
  [.fill .permissions m.permissionRows, .fill .roles m.roleRows, .fill .grants grants, .fill .implications m.implicationRows]

theorem clearRoles_eq_foldlM : s.clearRoles = clearing.foldlM write s := by
  simp [clearRoles, clearing, write]

theorem writeRoles_eq_foldlM : s.writeRoles m grants = (writing m grants).foldlM write s := by
  simp [writeRoles, writing, write]

theorem roleTables_uncounted : ∀ o ∈ roleTables, o.schema.isCounted = false := by
  decide

theorem clearRoles_agrees (intact : s.Intact) (cleared : s.clearRoles = .ok next) : AgreesOff roleTables s next ∧ next.Intact := by
  rw [clearRoles_eq_foldlM] at cleared
  have within : ∀ w ∈ clearing, w.table ∈ roleTables := by
    simp [clearing, TableWrite.table, roleTables]
  exact writes_agree intact (fun w member => ⟨roleTables_uncounted _ (within w member), within w member⟩) cleared

theorem writeRoles_agrees (intact : s.Intact) (wrote : s.writeRoles m grants = .ok next) :
    AgreesOff roleTables s next ∧ next.Intact := by
  rw [writeRoles_eq_foldlM] at wrote
  have within : ∀ w ∈ writing m grants, w.table ∈ roleTables := by
    simp [writing, TableWrite.table, roleTables]
  exact writes_agree intact (fun w member => ⟨roleTables_uncounted _ (within w member), within w member⟩) wrote

theorem clearRoles_eq_ok (intact : s.Intact) (cleared : s.clearRoles = .ok next) :
    next.Blank ∧ AgreesOff roleTables s next ∧ next.Intact := by
  refine ⟨?_, clearRoles_agrees intact cleared⟩
  rw [clearRoles, bind_eq_ok_iff] at cleared
  obtain ⟨a, first, cleared⟩ := cleared
  rw [bind_eq_ok_iff] at cleared
  obtain ⟨b, second, cleared⟩ := cleared
  rw [bind_eq_ok_iff] at cleared
  obtain ⟨c, third, fourth⟩ := cleared
  obtain ⟨noGrants, toA, intactA⟩ := clear_leaves_none intact first
  obtain ⟨noImplications, toB, intactB⟩ := clear_leaves_none intactA second
  obtain ⟨noRoles, toC, intactC⟩ := clear_leaves_none intactB third
  obtain ⟨noPermissions, toEnd, _⟩ := clear_leaves_none intactC fourth
  intro o member
  simp only [roleTables, List.mem_cons, List.not_mem_nil, or_false] at member
  rcases member with rfl | rfl | rfl | rfl
  · rw [contents_of_agrees toEnd (by simp), contents_of_agrees toC (by simp), contents_of_agrees toB (by simp)]
    exact noGrants
  · rw [contents_of_agrees toEnd (by simp), contents_of_agrees toC (by simp)]
    exact noImplications
  · rw [contents_of_agrees toEnd (by simp)]
    exact noRoles
  · exact noPermissions

theorem writeRoles_eq_ok (intact : s.Intact) (blank : s.Blank) (wrote : s.writeRoles m m.placedGrants = .ok next) :
    next.Describes m := by
  rw [writeRoles, bind_eq_ok_iff] at wrote
  obtain ⟨a, first, wrote⟩ := wrote
  rw [bind_eq_ok_iff] at wrote
  obtain ⟨b, second, wrote⟩ := wrote
  rw [bind_eq_ok_iff] at wrote
  obtain ⟨c, third, fourth⟩ := wrote
  obtain ⟨permissions, toA, intactA⟩ := fill_eq_ok intact rfl (blank .permissions (by simp [roleTables]))
    (fun _ _ => Model.permissionRows_fit) first
  have noRoles : a.contents .roles = some [] := (contents_of_agrees toA (by simp)).trans (blank .roles (by simp [roleTables]))
  obtain ⟨roles, toB, intactB⟩ := fill_eq_ok intactA rfl noRoles (fun _ _ => Model.roleRows_fit) second
  have noGrants : b.contents .grants = some [] :=
    (contents_of_agrees toB (by simp)).trans
      ((contents_of_agrees toA (by simp)).trans (blank .grants (by simp [roleTables])))
  obtain ⟨grants, toC, intactC⟩ := fill_eq_ok intactB rfl noGrants (fun _ _ => Model.placedGrants_fit) third
  have noImplications : c.contents .implications = some [] :=
    (contents_of_agrees toC (by simp)).trans
      ((contents_of_agrees toB (by simp)).trans
        ((contents_of_agrees toA (by simp)).trans (blank .implications (by simp [roleTables]))))
  obtain ⟨implications, toEnd, _⟩ := fill_eq_ok intactC rfl noImplications (fun _ _ => Model.implicationRows_fit) fourth
  refine ⟨?_, ?_, ?_, implications⟩
  · rw [contents_of_agrees toEnd (by simp), contents_of_agrees toC (by simp), contents_of_agrees toB (by simp)]
    exact permissions
  · rw [contents_of_agrees toEnd (by simp), contents_of_agrees toC (by simp)]
    exact roles
  · rw [contents_of_agrees toEnd (by simp)]
    exact grants

-- What is left to do of a synchronization once no assignment is orphaned.
def renewRoles (s : Store) (m : Model) (pruned : Nat) : Except Failure (Store × SyncReport) := do
  let s ← s.clearRoles.mapError .store
  let grants ← m.grantRows
  let s ← (s.writeRoles m grants).mapError .store
  .ok (s, { roles := m.roleRows.length
            permissions := m.permissionRows.length
            grants := grants.length
            implications := m.implicationRows.length
            pruned })

theorem synchronize_eq : s.synchronize m policy = s.reconcile m policy >>= fun (s, pruned) => s.renewRoles m pruned := rfl

theorem synchronize_parts (ran : s.synchronize m policy = .ok (next, report)) :
    ∃ reconciled pruned, s.reconcile m policy = .ok (reconciled, pruned) ∧ reconciled.renewRoles m pruned = .ok (next, report) := by
  rw [synchronize_eq, bind_eq_ok_iff] at ran
  obtain ⟨⟨reconciled, pruned⟩, first, second⟩ := ran
  exact ⟨reconciled, pruned, first, second⟩

theorem renewRoles_parts (ran : s.renewRoles m n = .ok (next, report)) :
    ∃ cleared grants, s.clearRoles = .ok cleared ∧ m.grantRows = .ok grants ∧ cleared.writeRoles m grants = .ok next ∧
      report.pruned = n := by
  rw [renewRoles, bind_eq_ok_iff] at ran
  obtain ⟨cleared, first, ran⟩ := ran
  rw [bind_eq_ok_iff] at ran
  obtain ⟨grants, placed, ran⟩ := ran
  rw [bind_eq_ok_iff] at ran
  obtain ⟨written, second, ended⟩ := ran
  cases ended
  exact ⟨cleared, grants, mapError_eq_ok_iff.mp first, placed, mapError_eq_ok_iff.mp second, rfl⟩

theorem renewRoles_agrees (intact : s.Intact) (ran : s.renewRoles m n = .ok (next, report)) :
    AgreesOff roleTables s next ∧ next.Intact := by
  obtain ⟨cleared, grants, first, _, second, _⟩ := renewRoles_parts ran
  obtain ⟨toCleared, intactCleared⟩ := clearRoles_agrees intact first
  obtain ⟨toNext, intactNext⟩ := writeRoles_agrees intactCleared second
  exact ⟨toCleared.trans toNext, intactNext⟩

theorem renewRoles_eq_ok (intact : s.Intact) (resolved : m.Resolved) (ran : s.renewRoles m n = .ok (next, report)) :
    next.Describes m := by
  obtain ⟨cleared, grants, first, placed, second, _⟩ := renewRoles_parts ran
  rw [Model.grantRows_eq resolved] at placed
  cases placed
  obtain ⟨blank, _, intactCleared⟩ := clearRoles_eq_ok intact first
  exact writeRoles_eq_ok intactCleared blank second

theorem describes_of_synchronize (intact : s.Intact) (resolved : m.Resolved)
    (ran : s.synchronize m policy = .ok (next, report)) : next.Describes m ∧ next.Intact := by
  obtain ⟨reconciled, pruned, first, second⟩ := synchronize_parts ran
  have intactReconciled := (reconcile_agrees intact first).2
  exact ⟨renewRoles_eq_ok intactReconciled resolved second, (renewRoles_agrees intactReconciled second).2⟩

theorem synchronize_eq_ok (intact : s.Intact) (roster : s.Roster held) (resolved : m.Resolved)
    (ran : s.synchronize m policy = .ok (next, report)) :
    next.Describes m ∧ next.Roster (held.filter fun e => m.declaresRole e.2.role e.2.resourceType) ∧
      next.application = s.application ∧ next.Intact := by
  obtain ⟨reconciled, pruned, first, second⟩ := synchronize_parts ran
  obtain ⟨roster, toReconciled, intactReconciled⟩ := reconcile_eq_ok intact roster first
  obtain ⟨toNext, intactNext⟩ := renewRoles_agrees intactReconciled second
  exact ⟨renewRoles_eq_ok intactReconciled resolved second, roster.of_agrees toNext (by simp [roleTables]),
    toNext.application.trans toReconciled.application, intactNext⟩

end Store

end ScopedAccess
