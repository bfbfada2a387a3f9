import ScopedAccess.Proofs.Store.RoleIndex

namespace ScopedAccess

theorem pairwise_mapIdx {α β : Type} {f : Nat → α → β} {l : List α} {r : β → β → Prop}
    (each : ∀ i j (left : i < l.length) (right : j < l.length), i < j → r (f i l[i]) (f j l[j])) : (l.mapIdx f).Pairwise r := by
  rw [List.pairwise_iff_getElem]
  intro i j left right before
  rw [List.length_mapIdx] at left right
  rw [List.getElem_mapIdx, List.getElem_mapIdx]
  exact each i j left right before

namespace OwnTable

variable {o : OwnTable} {c : ColumnSchema} {cell : Cell} {row : Row} {rows : List Row}

theorem entry_first (first : o.columns[0]? = some c) : o.entry c.name row = (row.getD 0 .null, c.column.affinity) :=
  entry_of_place first

-- Where nothing but the key has to be unique, rows with different keys are apart.
theorem apart_of_keys (first : o.columns[0]? = some c) (only : o.unique = [[c.name]])
    (differ : rows.Pairwise fun a b => Cell.same (b.getD 0 .null) (a.getD 0 .null) = false) :
    rows.Pairwise fun a b => ∀ columns ∈ o.unique, ∃ column ∈ columns,
      Cell.same (o.entry column b).1 (o.entry column a).1 = false := by
  refine differ.imp ?_
  intro a b apart columns unique
  rw [only, List.mem_singleton] at unique
  subst unique
  refine ⟨c.name, List.mem_singleton_self _, ?_⟩
  rw [entry_first first, entry_first first]
  exact apart

end OwnTable

namespace Model

variable {m : Model} {s : Store} {i j : Nat} {row : Row} {name : String}

def rowsOf (m : Model) : OwnTable → List Row
  | .permissions => m.permissionRows
  | .roles => m.roleRows
  | .grants => m.placedGrants
  | .implications => m.implicationRows
  | _ => []

theorem numbers_apart (before : i < j) : Cell.same (.integer (j + 1)) (.integer (i + 1)) = false := by
  simp only [Cell.same, decide_eq_false_iff_not]
  omega

theorem permissionRows_admissible : Store.Admissible s .permissions m.permissionRows := by
  refine ⟨fun i row => permissionRows_fit, ?_, ?_, by simp [OwnTable.foreignKeys]⟩
  · intro row member
    obtain ⟨i, bound, rfl⟩ := List.mem_mapIdx.mp member
    simp only [List.mem_cons, List.not_mem_nil, reduceCtorEq, or_self, not_false_iff]
  · refine pairwise_mapIdx ?_
    intro i j left right before columns unique
    have keys : columns = ["id"] ∨ columns = ["resource_type", "name"] := by
      simpa [OwnTable.unique, OwnTable.columns, OwnTable.indexes, ColumnSchema.key, ColumnSchema.plain] using unique
    rcases keys with rfl | rfl
    · refine ⟨"id", by simp, ?_⟩
      have idEntry : ∀ row, (OwnTable.permissions.entry "id" row).1 = row.getD 0 .null := fun row =>
        congrArg Prod.fst (OwnTable.entry_first (c := .key "id" .integer) rfl)
      rw [idEntry, idEntry]
      exact numbers_apart before
    · have different : m.permissions.toList[i] ≠ m.permissions.toList[j] :=
        Key.ne_of_lt (List.pairwise_iff_getElem.mp m.permissions.sorted i j left right before)
      have typeEntry : ∀ row, (OwnTable.permissions.entry "resource_type" row).1 = row.getD 1 .null := fun row =>
        congrArg Prod.fst (OwnTable.entry_of_place (o := .permissions) (i := 1) (c := .plain "resource_type" .varchar) rfl)
      have nameEntry : ∀ row, (OwnTable.permissions.entry "name" row).1 = row.getD 2 .null := fun row =>
        congrArg Prod.fst (OwnTable.entry_of_place (o := .permissions) (i := 2) (c := .plain "name" .varchar) rfl)
      generalize m.permissions.toList[i] = p at different
      generalize m.permissions.toList[j] = q at different
      by_cases sameType : p.resourceType = q.resourceType
      · have actions : q.action ≠ p.action := by
          intro sameAction
          obtain ⟨_, _⟩ := p
          obtain ⟨_, _⟩ := q
          cases sameType
          cases sameAction
          exact different rfl
        refine ⟨"name", by simp, ?_⟩
        rw [nameEntry, nameEntry]
        exact decide_eq_false actions
      · refine ⟨"resource_type", by simp, ?_⟩
        rw [typeEntry, typeEntry]
        exact decide_eq_false (Ne.symm sameType)

theorem roleRows_admissible (resolved : m.Resolved) : Store.Admissible s .roles m.roleRows := by
  refine ⟨fun i row => roleRows_fit, ?_, ?_, by simp [OwnTable.foreignKeys]⟩
  · intro row member
    obtain ⟨r, _, rfl⟩ := List.mem_map.mp member
    simp only [List.mem_cons, List.not_mem_nil, reduceCtorEq, or_self, not_false_iff]
  · refine OwnTable.apart_of_keys (c := .key "name" .varchar) rfl rfl ?_
    rw [roleRows, List.pairwise_map]
    exact (role_names_ordered resolved.roleName).imp fun below => decide_eq_false (Key.ne_of_lt below).symm

theorem role_row_found (resolved : m.Resolved) (known : m.roles.contains name = true) :
    ∃ parent ∈ m.roleRows, Cell.equal (.text name, some .text) (OwnTable.roles.entry "name" parent) = true := by
  obtain ⟨resourceType, row⟩ := role_row resolved known
  refine ⟨_, row, ?_⟩
  have entry : OwnTable.roles.entry "name" [.text name, .text resourceType] = (.text name, some .text) :=
    OwnTable.entry_first (c := .key "name" .varchar) rfl
  rw [entry]
  simp [Cell.equal, Cell.same]

theorem permission_row_found {p : Permission} (known : p ∈ m.permissions) :
    ∃ parent ∈ m.permissionRows,
      Cell.equal (.integer (m.placeOf p + 1), some .integer) (OwnTable.permissions.entry "id" parent) = true := by
  refine ⟨_, permission_row known, ?_⟩
  have entry : ∀ cell rest, OwnTable.permissions.entry "id" (cell :: rest) = (cell, some .integer) := fun cell rest =>
    OwnTable.entry_first (c := .key "id" .integer) rfl
  rw [entry]
  simp [Cell.equal, Cell.same]

theorem placedGrants_admissible (resolved : m.Resolved) (permissions : s.contents .permissions = some m.permissionRows)
    (roles : s.contents .roles = some m.roleRows) : Store.Admissible s .grants m.placedGrants := by
  refine ⟨fun i row => placedGrants_fit, ?_, ?_, ?_⟩
  · intro row member
    obtain ⟨i, bound, rfl⟩ := List.mem_mapIdx.mp member
    simp only [List.mem_cons, List.not_mem_nil, reduceCtorEq, or_self, not_false_iff]
  · refine OwnTable.apart_of_keys (c := .key "id" .integer) rfl rfl (pairwise_mapIdx ?_)
    intro i j _ _ before
    exact numbers_apart before
  · intro k listed
    simp only [OwnTable.foreignKeys, List.mem_cons, List.not_mem_nil, or_false] at listed
    rcases listed with rfl | rfl
    · refine ⟨.permissions, _, rfl, by simp, permissions, ?_⟩
      intro row member
      obtain ⟨i, bound, rfl⟩ := List.mem_mapIdx.mp member
      obtain ⟨r, place, granted⟩ := (mem_grants_iff resolved.roleName).mp (List.getElem_mem bound)
      have entry : ∀ row, OwnTable.grants.entry "permission_id" row = (row.getD 2 .null, some .integer) := fun row =>
        OwnTable.entry_of_place (o := .grants) (i := 2) (c := .plain "permission_id" .integer) rfl
      rw [entry]
      exact permission_row_found (resolved.granted _ r _ place granted)
    · refine ⟨.roles, _, rfl, by simp, roles, ?_⟩
      intro row member
      obtain ⟨i, bound, rfl⟩ := List.mem_mapIdx.mp member
      obtain ⟨r, place, _⟩ := (mem_grants_iff resolved.roleName).mp (List.getElem_mem bound)
      have entry : ∀ row, OwnTable.grants.entry "role" row = (row.getD 1 .null, some .text) := fun row =>
        OwnTable.entry_of_place (o := .grants) (i := 1) (c := .plain "role" .varchar) rfl
      rw [entry]
      exact role_row_found resolved (OrderedMap.contains_of_find? place)

theorem implicationRows_admissible (resolved : m.Resolved)
    (implied : ∀ n r other, m.roles.find? n = some r → other ∈ r.implies → m.roles.contains other = true)
    (roles : s.contents .roles = some m.roleRows) : Store.Admissible s .implications m.implicationRows := by
  have declared : ∀ e ∈ m.roles.values.flatMap (fun r => r.implies.toList.map (r.name, ·)),
      m.roles.contains e.1 = true ∧ m.roles.contains e.2 = true := by
    intro e member
    obtain ⟨r, listed, other, inside, rfl⟩ := by simpa only [List.mem_flatMap, List.mem_map] using member
    obtain ⟨n, found⟩ := OrderedMap.mem_values.mp listed
    have named := resolved.roleName n r found
    exact ⟨OrderedMap.contains_of_find? (named ▸ found), implied n r other found inside⟩
  refine ⟨fun i row => implicationRows_fit, ?_, ?_, ?_⟩
  · intro row member
    obtain ⟨i, bound, rfl⟩ := List.mem_mapIdx.mp member
    simp only [List.mem_cons, List.not_mem_nil, reduceCtorEq, or_self, not_false_iff]
  · refine OwnTable.apart_of_keys (c := .key "id" .integer) rfl rfl (pairwise_mapIdx ?_)
    intro i j _ _ before
    exact numbers_apart before
  · intro k listed
    simp only [OwnTable.foreignKeys, List.mem_cons, List.not_mem_nil, or_false] at listed
    have source : ∀ row, OwnTable.implications.entry "from_role" row = (row.getD 1 .null, some .text) := fun row =>
      OwnTable.entry_of_place (o := .implications) (i := 1) (c := .plain "from_role" .varchar) rfl
    have target : ∀ row, OwnTable.implications.entry "to_role" row = (row.getD 2 .null, some .text) := fun row =>
      OwnTable.entry_of_place (o := .implications) (i := 2) (c := .plain "to_role" .varchar) rfl
    rcases listed with rfl | rfl
    · refine ⟨.roles, _, rfl, by simp, roles, ?_⟩
      intro row member
      obtain ⟨i, bound, rfl⟩ := List.mem_mapIdx.mp member
      rw [source]
      exact role_row_found resolved (declared _ (List.getElem_mem bound)).1
    · refine ⟨.roles, _, rfl, by simp, roles, ?_⟩
      intro row member
      obtain ⟨i, bound, rfl⟩ := List.mem_mapIdx.mp member
      rw [target]
      exact role_row_found resolved (declared _ (List.getElem_mem bound)).2

end Model

namespace Store

variable {s next : Store} {m : Model} {d : Declarations} {o : OwnTable} {rows : List Row} {held : List (Int × Assignment)}
  {policy : OrphanPolicy} {report : SyncReport}

def Keeps (s : Store) (m : Model) : Prop := ∀ o ∈ roleTables, s.own o = some (o.filled (m.rowsOf o))

theorem contents_filled (place : s.own o = some (o.filled rows)) : s.contents o = some rows := by
  rw [contents, place, Option.map_some, cells_filled]

theorem Intact.of_filled (intact : s.Intact) (place : next.own o = some (o.filled rows)) (agrees : AgreesOff [o] s next) :
    next.Intact := by
  intro u
  by_cases same : u = o
  · subst same
    exact ⟨_, place, OwnTable.filled_is⟩
  · rw [agrees.own u (by simpa using same)]
    exact intact u

def Referred (s : Store) (o : OwnTable) (r : NumberedRow) : Prop :=
  ∃ u : OwnTable, ∃ k ∈ u.foreignKeys, k.parent = o.name ∧ ∃ t, s.own u = some t ∧
    ∃ c ∈ t.rows, Cell.equal (u.entry k.column c.cells) (o.entry k.references r.cells) = true

-- What the schema asks of a write at the time at which it is done: that no row is deleted under one that names it, and
-- that new rows are whole, differ where they have to and name rows that are there.
def Lawful (s : Store) : TableWrite → Prop
  | .empty o => ∀ t, s.own o = some t → ∀ r ∈ t.rows, ¬ s.Referred o r
  | .fill o rows => s.contents o = some [] ∧ s.Admissible o rows

inductive Sequence : Store → List TableWrite → Store → Prop where
  | nil {s : Store} : Sequence s [] s
  | cons {s next last : Store} {w : TableWrite} {rest : List TableWrite} (lawful : s.Lawful w) (ran : s.write w = .ok next)
      (onward : Sequence next rest last) : Sequence s (w :: rest) last

theorem Sequence.append {middle last : Store} {first second : List TableWrite} (one : Sequence s first middle)
    (two : Sequence middle second last) : Sequence s (first ++ second) last := by
  induction one with
  | nil => exact two
  | cons lawful ran _ ih => exact .cons lawful ran (ih two)

theorem Sequence.ran {last : Store} {writes : List TableWrite} (sequence : Sequence s writes last) :
    writes.foldlM write s = .ok last := by
  induction sequence with
  | nil => rfl
  | cons _ ran _ ih =>
    rw [List.foldlM_cons, ran]
    exact ih

theorem lawful_empty (unused : ∀ u : OwnTable, (∃ k ∈ u.foreignKeys, k.parent = o.name) → s.contents u = some []) :
    s.Lawful (.empty o) := by
  intro t _ r _ referred
  obtain ⟨u, k, listed, named, child, place, c, inside, _⟩ := referred
  have none : child.rows = [] := by
    simpa [contents, place] using unused u ⟨k, listed, named⟩
  rw [none] at inside
  cases inside

-- The tables that refer to others are emptied before those.
theorem clearing_sequence (intact : s.Intact) :
    ∃ next, Sequence s clearing next ∧ next.Blank ∧ AgreesOff roleTables s next ∧ next.Intact := by
  have grantsFree : ∀ u : OwnTable, (∃ k ∈ u.foreignKeys, k.parent = OwnTable.grants.name) → s.contents u = some [] := by
    simp [OwnTable.refers_iff]
  obtain ⟨a, first⟩ := clear_ok intact grantsFree
  obtain ⟨noGrants, _, intactA⟩ := clear_leaves_none intact first
  have implicationsFree : ∀ u : OwnTable, (∃ k ∈ u.foreignKeys, k.parent = OwnTable.implications.name) →
      a.contents u = some [] := by
    simp [OwnTable.refers_iff]
  obtain ⟨b, second⟩ := clear_ok intactA implicationsFree
  obtain ⟨noImplications, toB, intactB⟩ := clear_leaves_none intactA second
  have grantsB : b.contents .grants = some [] := (contents_of_agrees toB (by simp)).trans noGrants
  have rolesFree : ∀ u : OwnTable, (∃ k ∈ u.foreignKeys, k.parent = OwnTable.roles.name) → b.contents u = some [] := by
    simp [OwnTable.refers_iff, grantsB, noImplications]
  obtain ⟨c, third⟩ := clear_ok intactB rolesFree
  obtain ⟨_, toC, intactC⟩ := clear_leaves_none intactB third
  have grantsC : c.contents .grants = some [] := (contents_of_agrees toC (by simp)).trans grantsB
  have permissionsFree : ∀ u : OwnTable, (∃ k ∈ u.foreignKeys, k.parent = OwnTable.permissions.name) →
      c.contents u = some [] := by
    simp [OwnTable.refers_iff, grantsC]
  obtain ⟨next, fourth⟩ := clear_ok intactC permissionsFree
  have sequence : Sequence s clearing next :=
    .cons (lawful_empty grantsFree) first
      (.cons (lawful_empty implicationsFree) second
        (.cons (lawful_empty rolesFree) third (.cons (lawful_empty permissionsFree) fourth .nil)))
  exact ⟨next, sequence, clearRoles_eq_ok intact (clearRoles_eq_foldlM.trans sequence.ran)⟩

theorem writing_sequence (intact : s.Intact) (blank : s.Blank) (reflects : m.Reflects d) :
    ∃ next, Sequence s (writing m m.placedGrants) next ∧ next.Keeps m ∧ AgreesOff roleTables s next := by
  have resolved := reflects.resolved
  have noPermissions := blank .permissions (by simp [roleTables])
  obtain ⟨a, first, permissions, toA⟩ := fill_ok intact rfl noPermissions Model.permissionRows_admissible
  have intactA := intact.of_filled permissions toA
  have noRoles : a.contents .roles = some [] := (contents_of_agrees toA (by simp)).trans (blank .roles (by simp [roleTables]))
  obtain ⟨b, second, roles, toB⟩ := fill_ok intactA rfl noRoles (Model.roleRows_admissible resolved)
  have intactB := intactA.of_filled roles toB
  have noGrants : b.contents .grants = some [] :=
    (contents_of_agrees toB (by simp)).trans
      ((contents_of_agrees toA (by simp)).trans (blank .grants (by simp [roleTables])))
  have permissionsB : b.contents .permissions = some m.permissionRows :=
    (contents_of_agrees toB (by simp)).trans (contents_filled permissions)
  have grantsFit := Model.placedGrants_admissible resolved permissionsB (contents_filled roles)
  obtain ⟨c, third, grants, toC⟩ := fill_ok intactB rfl noGrants grantsFit
  have intactC := intactB.of_filled grants toC
  have noImplications : c.contents .implications = some [] :=
    (contents_of_agrees toC (by simp)).trans
      ((contents_of_agrees toB (by simp)).trans
        ((contents_of_agrees toA (by simp)).trans (blank .implications (by simp [roleTables]))))
  have rolesC : c.contents .roles = some m.roleRows := (contents_of_agrees toC (by simp)).trans (contents_filled roles)
  have implicationsFit := Model.implicationRows_admissible resolved reflects.implied rolesC
  obtain ⟨next, fourth, implications, toNext⟩ := fill_ok intactC rfl noImplications implicationsFit
  have sequence : Sequence s (writing m m.placedGrants) next :=
    .cons ⟨noPermissions, Model.permissionRows_admissible⟩ first
      (.cons ⟨noRoles, Model.roleRows_admissible resolved⟩ second
        (.cons ⟨noGrants, grantsFit⟩ third (.cons ⟨noImplications, implicationsFit⟩ fourth .nil)))
  refine ⟨next, sequence, ?_, (writeRoles_agrees intact (writeRoles_eq_foldlM.trans sequence.ran)).1⟩
  intro o member
  simp only [roleTables, List.mem_cons, List.not_mem_nil, or_false] at member
  rcases member with rfl | rfl | rfl | rfl
  · rw [toNext.own _ (by simp)]
    exact grants
  · exact implications
  · rw [toNext.own _ (by simp), toC.own _ (by simp)]
    exact roles
  · rw [toNext.own _ (by simp), toC.own _ (by simp), toB.own _ (by simp)]
    exact permissions

theorem renewal_sequence (intact : s.Intact) (reflects : m.Reflects d) :
    ∃ next, Sequence s (clearing ++ writing m m.placedGrants) next ∧ next.Keeps m ∧ AgreesOff roleTables s next := by
  obtain ⟨cleared, emptied, blank, toCleared, intactCleared⟩ := clearing_sequence intact
  obtain ⟨next, wrote, keeps, toNext⟩ := writing_sequence intactCleared blank reflects
  exact ⟨next, emptied.append wrote, keeps, toCleared.trans toNext⟩

theorem renewRoles_of_sequence {grants : List Row} (placed : m.grantRows = .ok grants)
    (sequence : Sequence s (clearing ++ writing m grants) next) (pruned : Nat) :
    ∃ report, s.renewRoles m pruned = .ok (next, report) ∧ report.pruned = pruned := by
  have ran := sequence.ran
  rw [List.foldlM_append, bind_eq_ok_iff] at ran
  obtain ⟨cleared, emptied, wrote⟩ := ran
  rw [← clearRoles_eq_foldlM] at emptied
  rw [← writeRoles_eq_foldlM] at wrote
  refine ⟨⟨m.roleRows.length, m.permissionRows.length, grants.length, m.implicationRows.length, pruned⟩, ?_, rfl⟩
  simp only [renewRoles, emptied, placed, wrote, bind, Except.bind, mapError_ok]

theorem renewRoles_ok (intact : s.Intact) (reflects : m.Reflects d) (pruned : Nat) :
    ∃ next report, s.renewRoles m pruned = .ok (next, report) ∧ report.pruned = pruned ∧ next.Keeps m ∧
      AgreesOff roleTables s next := by
  obtain ⟨next, sequence, keeps, agrees⟩ := renewal_sequence intact reflects
  obtain ⟨report, renewed, counted⟩ := renewRoles_of_sequence (Model.grantRows_eq reflects.resolved) sequence pruned
  exact ⟨next, report, renewed, counted, keeps, agrees⟩

theorem synchronize_ok (intact : s.Intact) (roster : s.Roster held) (reflects : m.Reflects d)
    (declared : ∀ e ∈ held, m.declaresRole e.2.role e.2.resourceType = true) (policy : OrphanPolicy) :
    ∃ next report, s.synchronize m policy = .ok (next, report) ∧ report.pruned = 0 ∧ next.Keeps m ∧
      AgreesOff roleTables s next := by
  rw [synchronize_eq, roster.reconcile_clean declared]
  exact renewRoles_ok intact reflects 0

theorem keeps_of_synchronize (intact : s.Intact) (reflects : m.Reflects d)
    (ran : s.synchronize m policy = .ok (next, report)) : next.Keeps m ∧ AgreesOff (.assignments :: roleTables) s next := by
  obtain ⟨reconciled, pruned, first, second⟩ := synchronize_parts ran
  obtain ⟨toReconciled, intactReconciled⟩ := reconcile_agrees intact first
  obtain ⟨written, _, renewed, _, keeps, toWritten⟩ := renewRoles_ok intactReconciled reflects pruned
  cases renewed.symm.trans second
  exact ⟨keeps, AgreesOff.trans (toReconciled.mono (by simp)) (toWritten.mono fun _ member => List.mem_cons_of_mem _ member)⟩

end Store

end ScopedAccess
