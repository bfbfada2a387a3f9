import ScopedAccess.Proofs.Store.Replacement

namespace ScopedAccess

namespace Store

variable {s next : Store} {t : Table} {m : Model} {policy : OrphanPolicy} {report : SyncReport} {n : Nat} {failure : Failure}

theorem grantRows_error (failed : m.grantRows = .error failure) : ∃ role p, failure = .schema (.unknownGrant role p) := by
  obtain ⟨⟨⟨role, p⟩, i⟩, _, stopped⟩ := mapM_error failed
  dsimp only at stopped
  split at stopped
  · cases stopped
  · cases stopped
    exact ⟨role, p, rfl⟩

theorem renewRoles_error (failed : s.renewRoles m n = .error failure) (orphans : List Orphan) :
    failure ≠ .orphanedAssignments orphans := by
  unfold renewRoles at failed
  cases first : s.clearRoles with
  | error fault =>
    rw [first] at failed
    cases failed
    exact Failure.noConfusion
  | ok cleared =>
    cases second : m.grantRows with
    | error other =>
      rw [first, second] at failed
      cases failed
      obtain ⟨role, p, rfl⟩ := grantRows_error second
      exact Failure.noConfusion
    | ok grants =>
      simp only [first, second, bind, Except.bind, mapError_ok] at failed
      cases third : cleared.writeRoles m grants with
      | error fault =>
        rw [third] at failed
        cases failed
        exact Failure.noConfusion
      | ok written =>
        rw [third] at failed
        cases failed

-- A failed synchronization that reports orphans was stopped by the reconciliation.
theorem synchronize_orphaned_iff {orphans : List Orphan} :
    s.synchronize m policy = .error (.orphanedAssignments orphans) ↔
      s.reconcile m policy = .error (.orphanedAssignments orphans) := by
  rw [synchronize_eq]
  cases first : s.reconcile m policy with
  | error failure => simp [bind, Except.bind]
  | ok result =>
    refine iff_of_false ?_ (fun impossible => nomatch impossible)
    intro failed
    exact renewRoles_error failed orphans rfl

theorem assignments_of_synchronize (intact : s.Intact) (here : s.own .assignments = some t)
    (ran : s.synchronize m policy = .ok (next, report)) :
    next.own .assignments = some (t.without (t.orphaned m)) ∧ report.pruned = (t.rows.filter (t.orphaned m)).length := by
  obtain ⟨reconciled, pruned, first, second⟩ := synchronize_parts ran
  obtain ⟨same, count⟩ := reconcile_exact intact here first
  obtain ⟨_, _, _, _, _, counted⟩ := renewRoles_parts second
  have agrees := (renewRoles_agrees (reconcile_agrees intact first).2 second).1
  refine ⟨?_, counted.trans count⟩
  rw [agrees.own _ (by simp [roleTables]), same]
  exact put_here ((intact.is here).without _).name

theorem synchronize_unread (here : s.own .assignments = some t) (is : t.Is .assignments) (unpaired : ¬ t.Paired) (m : Model)
    (policy : OrphanPolicy) : ∃ fault, s.synchronize m policy = .error (.store fault) := by
  obtain ⟨fault, unread⟩ := reconcile_unread here is unpaired m policy
  exact ⟨fault, by rw [synchronize_eq, unread]; rfl⟩

theorem synchronize_refused {orphans : List Orphan} (intact : s.Intact) (here : s.own .assignments = some t)
    (failed : s.synchronize m policy = .error (.orphanedAssignments orphans)) :
    policy = .reject ∧ t.Orphans m orphans ∧ ∃ r ∈ t.rows, t.orphaned m r = true :=
  reconcile_refused intact here (synchronize_orphaned_iff.mp failed)

theorem synchronize_reject (here : s.own .assignments = some t) (is : t.Is .assignments) (paired : t.Paired)
    (dirty : ∃ r ∈ t.rows, t.orphaned m r = true) :
    ∃ orphans, s.synchronize m .reject = .error (.orphanedAssignments orphans) := by
  obtain ⟨orphans, _, failed⟩ := reconcile_reject here is paired dirty
  exact ⟨orphans, synchronize_orphaned_iff.mpr failed⟩

-- What is not pruned and went through had nothing to be pruned.
theorem clean_of_synchronize (here : s.own .assignments = some t) (is : t.Is .assignments)
    (ran : s.synchronize m .reject = .ok (next, report)) : ∀ r ∈ t.rows, t.orphaned m r = false := by
  refine Table.clean_of_not fun dirty => ?_
  by_cases paired : t.Paired
  · obtain ⟨orphans, failed⟩ := synchronize_reject here is paired dirty
    rw [failed] at ran
    cases ran
  · obtain ⟨fault, unread⟩ := synchronize_unread here is paired m .reject
    rw [unread] at ran
    cases ran

theorem synchronize_renews {d : Declarations} {reconciled : Store} (made : Model.ofDeclarations d = .ok m)
    (intact : reconciled.Intact) (first : s.reconcile m policy = .ok (reconciled, n)) :
    ∃ next report, s.synchronize m policy = .ok (next, report) := by
  obtain ⟨next, report, renewed, _⟩ := renewRoles_ok intact (Model.reflects made) n
  refine ⟨next, report, ?_⟩
  rw [synchronize_eq, first]
  exact renewed

-- What a synchronization makes of the assignments `t` that are held, by the policy on orphans. Where a row cannot be
-- read, it fails with that.
structure Reconciles (s : Store) (t : Table) (m : Model) : Prop where
  refused : t.Paired → ((∃ orphans, s.synchronize m .reject = .error (.orphanedAssignments orphans)) ↔
    ∃ r ∈ t.rows, t.orphaned m r = true)
  unread : ¬ t.Paired → ∀ policy, ∃ fault, s.synchronize m policy = .error (.store fault)
  listed : ∀ orphans, s.synchronize m .reject = .error (.orphanedAssignments orphans) → t.Orphans m orphans
  untouched : ∀ next report, s.synchronize m .reject = .ok (next, report) →
    next.own .assignments = some t ∧ (∀ r ∈ t.rows, t.orphaned m r = false) ∧ report.pruned = 0
  accepted : ∀ orphans, s.synchronize m .prune ≠ .error (.orphanedAssignments orphans)
  removed : ∀ next report, s.synchronize m .prune = .ok (next, report) →
    next.own .assignments = some (t.without (t.orphaned m)) ∧ report.pruned = (t.rows.filter (t.orphaned m)).length

theorem orphans_reconciled (intact : s.Intact) (here : s.own .assignments = some t) (m : Model) :
    s.Reconciles t m ∧ ∀ d, Model.ofDeclarations d = .ok m → t.Paired →
      (∃ next report, s.synchronize m .prune = .ok (next, report)) ∧
        ((∀ r ∈ t.rows, t.orphaned m r = false) → ∃ next report, s.synchronize m .reject = .ok (next, report)) := by
  have is := intact.is here
  refine ⟨⟨fun paired => ⟨?_, synchronize_reject here is paired⟩, fun unpaired => synchronize_unread here is unpaired m, ?_, ?_,
    ?_, fun next report ran => assignments_of_synchronize intact here ran⟩, ?_⟩
  · intro failed
    obtain ⟨orphans, failed⟩ := failed
    exact (synchronize_refused intact here failed).2.2
  · intro orphans failed
    exact (synchronize_refused intact here failed).2.1
  · intro next report ran
    obtain ⟨left, count⟩ := assignments_of_synchronize intact here ran
    have clean := clean_of_synchronize here is ran
    rw [Table.without_congr clean, Table.without_none] at left
    rw [List.filter_congr clean, List.filter_false] at count
    exact ⟨left, clean, count⟩
  · intro orphans failed
    cases (synchronize_refused intact here failed).1
  · intro d made paired
    have pruned := reconcile_prune intact here paired m
    refine ⟨synchronize_renews made (reconcile_agrees intact pruned).2 pruned, fun clean => ?_⟩
    exact synchronize_renews made intact (reconcile_clean here is paired clean .reject)

-- Keepers are on folders and readers on notes; there are no clerks any more.
def rota : Declarations :=
  { resources :=
      [⟨"Folder", "folders", "id", .unrestricted, .only [⟨"keeper", none, none⟩]⟩,
        ⟨"Note", "notes", "id", .unrestricted, .only [⟨"reader", none, none⟩]⟩]
    links := [] }

-- Each orphaned row shares its role or its type with one that is not orphaned, and two of them share both.
def mixedTable : Table :=
  { name := OwnTable.assignments.name
    schema := OwnTable.assignments.schema
    rows :=
      [(1, ⟨"ann", "Folder", "f", "keeper"⟩), (2, ⟨"bob", "Note", "n", "keeper"⟩), (3, ⟨"cid", "Folder", "f", "clerk"⟩),
        (4, ⟨"dan", "Folder", "g", "clerk"⟩), (5, ⟨"eve", "Note", "n", "reader"⟩)].map keptRow }

def mixedStore : Store := (fresh []).put mixedTable

theorem mixedTable_is : mixedTable.Is .assignments := ⟨rfl, rfl⟩

theorem mixedTable_paired : mixedTable.Paired := by decide +kernel

theorem rota_orphans : ∃ m, Model.ofDeclarations rota = .ok m ∧
    (mixedTable.rows.filter (mixedTable.orphaned m)).map (·.number) = [2, 3, 4] ∧
    (mixedTable.without (mixedTable.orphaned m)).rows.map (·.number) = [1, 5] := by
  have resolved : (Model.ofDeclarations rota).toOption.map (fun m =>
      ((mixedTable.rows.filter (mixedTable.orphaned m)).map (·.number),
        (mixedTable.without (mixedTable.orphaned m)).rows.map (·.number))) = some ([2, 3, 4], [1, 5]) := by
    decide +kernel
  obtain ⟨m, made, same⟩ := Option.map_eq_some_iff.mp resolved
  rw [Prod.mk.injEq] at same
  exact ⟨m, toOption_eq_some_iff.mp made, same⟩

-- Three rows are pruned and two stay; without pruning the synchronization is refused, for the two pairs among the three.
theorem rota_reconciled : ∃ m next report orphans, Model.ofDeclarations rota = .ok m ∧ mixedStore.Reconciles mixedTable m ∧
    mixedStore.synchronize m .prune = .ok (next, report) ∧ report.pruned = 3 ∧
    (next.own .assignments).map (·.rows.map (·.number)) = some [1, 5] ∧
    mixedStore.synchronize m .reject = .error (.orphanedAssignments orphans) ∧ mixedTable.Orphans m orphans := by
  obtain ⟨m, made, gone, left⟩ := rota_orphans
  have intact : mixedStore.Intact := fresh_intact.put mixedTable_is
  obtain ⟨reconciles, goesThrough⟩ := orphans_reconciled intact (put_here rfl) m
  obtain ⟨next, report, pruned⟩ := (goesThrough rota made mixedTable_paired).1
  obtain ⟨assignments, count⟩ := reconciles.removed next report pruned
  have dirty : ∃ r ∈ mixedTable.rows, mixedTable.orphaned m r = true := by
    have second : (2 : Int) ∈ (mixedTable.rows.filter (mixedTable.orphaned m)).map (·.number) := by
      rw [gone]
      exact List.mem_cons_self ..
    obtain ⟨r, member, _⟩ := List.mem_map.mp second
    exact ⟨r, List.mem_filter.mp member⟩
  obtain ⟨orphans, refused⟩ := (reconciles.refused mixedTable_paired).mpr dirty
  refine ⟨m, next, report, orphans, made, reconciles, pruned, ?_, ?_, refused, reconciles.listed orphans refused⟩
  · rw [count, ← List.length_map, gone]
    rfl
  · rw [assignments, Option.map_some, left]

end Store

end ScopedAccess
