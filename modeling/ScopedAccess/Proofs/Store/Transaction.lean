import ScopedAccess.Proofs.Outcome
import ScopedAccess.Store.RoleTables

namespace ScopedAccess

namespace Transaction

variable {α β : Type}

-- The transaction has the answer of the change, and on success its store as the working copy. Whatever happens, and
-- however far it comes, what is committed stays.
structure Follows (t : Transaction α) (change : Store → Except Failure (Store × α)) : Prop where
  committed : ∀ c, (t c).2.committed = c.committed
  succeeds : ∀ c next a, change c.working = .ok (next, a) → (t c).1 = .ok a ∧ (t c).2.working = next
  fails : ∀ c failure, change c.working = .error failure → (t c).1 = .error failure

theorem run_bind {t : Transaction α} {next : α → Transaction β} {c : Connection} :
    (t >>= next) c = match t c with
      | (.ok a, d) => next a d
      | (.error failure, d) => (.error failure, d) := by
  simp only [bind, ExceptT.bind, ExceptT.mk, StateT.bind, ExceptT.bindCont]
  rcases t c with ⟨_ | _, _⟩
  · rfl
  · rfl

theorem follows_pure (a : α) : Follows (pure a) fun s => .ok (s, a) where
  committed _ := rfl
  succeeds c next b same := by
    cases same
    exact ⟨rfl, rfl⟩
  fails c failure impossible := by cases impossible

theorem follows_throw (failure : Failure) : Follows (throw failure : Transaction α) fun _ => .error failure where
  committed _ := rfl
  succeeds c next a impossible := by cases impossible
  fails c other same := by
    cases same
    rfl

theorem follows_execute (statement : Store → Except StoreFault (Store × α)) :
    Follows (execute statement) fun s => (statement s).mapError .store where
  committed c := by
    unfold execute
    split <;> rfl
  succeeds c next a ran := by
    rw [mapError_eq_ok_iff] at ran
    simp only [execute, ran, and_self]
  fails c failure ran := by
    cases result : statement c.working with
    | ok pair =>
      rw [result] at ran
      cases ran
    | error fault =>
      rw [result] at ran
      cases ran
      simp only [execute, result]

theorem follows_bind {t : Transaction α} {next : α → Transaction β} {first : Store → Except Failure (Store × α)}
    {second : α → Store → Except Failure (Store × β)} (left : Follows t first) (right : ∀ a, Follows (next a) (second a)) :
    Follows (t >>= next) fun s => first s >>= fun result => second result.2 result.1 where
  committed c := by
    have kept := left.committed c
    rw [run_bind]
    cases ran : t c with
    | mk answer after =>
      rw [ran] at kept
      cases answer with
      | error failure => exact kept
      | ok a => exact ((right a).committed after).trans kept
  succeeds c last b ran := by
    obtain ⟨⟨middle, a⟩, before, onward⟩ := bind_eq_ok_iff.mp ran
    obtain ⟨answered, working⟩ := left.succeeds c middle a before
    rw [run_bind]
    cases half : t c with
    | mk answer after =>
      rw [half] at answered working
      cases answered
      cases working
      exact (right a).succeeds after last b onward
  fails c failure ran := by
    rw [run_bind]
    cases before : first c.working with
    | error fault =>
      rw [before] at ran
      cases ran
      have answered := left.fails c failure before
      cases half : t c with
      | mk answer after =>
        rw [half] at answered
        cases answered
        rfl
    | ok result =>
      obtain ⟨middle, a⟩ := result
      rw [before] at ran
      obtain ⟨answered, working⟩ := left.succeeds c middle a before
      cases half : t c with
      | mk answer after =>
        rw [half] at answered working
        cases answered
        cases working
        exact (right a).fails after failure ran

variable {t : Transaction α} {f g : Store → Except Failure (Store × α)} {m : Model} {policy : OrphanPolicy}

theorem Follows.congr (follows : Follows t f) (same : ∀ s, f s = g s) : Follows t g := by
  rw [← funext same]
  exact follows

theorem mapError_bind {x : Except StoreFault α} {next : α → Except StoreFault β} :
    (x >>= next).mapError Failure.store = x.mapError .store >>= fun a => (next a).mapError .store := by
  cases x <;> rfl

theorem forgetAll_follows (orphans : List Orphan) :
    Follows (forgetAll orphans) fun s => (orphans.foldlM Store.forget (s, 0)).mapError .store := by
  unfold forgetAll
  generalize (0 : Nat) = deleted
  induction orphans generalizing deleted with
  | nil => exact follows_pure deleted
  | cons o rest ih =>
    refine (follows_bind (follows_execute fun s => Store.forget (s, deleted) o) ih).congr ?_
    intro s
    rw [List.foldlM_cons, mapError_bind]

def settled (policy : OrphanPolicy) (orphans : List Orphan) (s : Store) : Except Failure (Store × Nat) :=
  match orphans, policy with
  | [], _ => .ok (s, 0)
  | orphans, .reject => .error (.orphanedAssignments orphans)
  | orphans, .prune => (orphans.foldlM Store.forget (s, 0)).mapError .store

theorem settle_follows (orphans : List Orphan) : Follows (settle policy orphans) (settled policy orphans) := by
  cases orphans with
  | nil => exact follows_pure 0
  | cons o rest =>
    cases policy with
    | reject => exact follows_throw _
    | prune => exact forgetAll_follows (o :: rest)

theorem reconcile_follows : Follows (reconcile m policy) fun s => s.reconcile m policy := by
  refine (follows_bind (follows_execute _) settle_follows).congr ?_
  intro s
  unfold Store.reconcile
  cases found : s.orphans m with
  | error fault =>
    simp only [found]
    rfl
  | ok orphans =>
    simp only [found]
    cases orphans with
    | nil => rfl
    | cons o rest => cases policy <;> rfl

-- The working copy after a change of the store that has no answer.
def silently (f : Store → Except StoreFault Store) (s : Store) : Except Failure (Store × Unit) :=
  ((f s).map (·, ())).mapError .store

variable {first second : Store → Except StoreFault Store}

theorem follows_change (statement : Store → Except StoreFault Store) : Follows (change statement) (silently statement) :=
  follows_execute _

theorem follows_then {t u : Transaction Unit} (left : Follows t (silently first)) (right : Follows u (silently second)) :
    Follows (t >>= fun _ => u) (silently fun s => first s >>= second) := by
  refine (follows_bind left fun _ => right).congr ?_
  intro s
  dsimp only [silently]
  cases first s <;> rfl

theorem clearRoles_follows : Follows clearRoles (silently Store.clearRoles) :=
  follows_then (follows_change _) (follows_then (follows_change _) (follows_then (follows_change _) (follows_change _)))

theorem writeRoles_follows (grants : List Row) : Follows (writeRoles m grants) (silently (·.writeRoles m grants)) :=
  follows_then (follows_change _) (follows_then (follows_change _) (follows_then (follows_change _) (follows_change _)))

theorem follows_lift (x : Except Failure α) : Follows (x : Transaction α) fun s => x.map (s, ·) := by
  cases x with
  | error failure => exact follows_throw failure
  | ok a => exact follows_pure a

theorem replaceRoles_follows : Follows (replaceRoles m policy) fun s => s.synchronize m policy := by
  refine (follows_bind reconcile_follows fun pruned => follows_bind clearRoles_follows fun _ =>
    follows_bind (follows_lift m.grantRows) fun grants => follows_bind (writeRoles_follows grants) fun _ =>
      follows_pure _).congr ?_
  intro s
  dsimp only [Store.synchronize, silently]
  rcases s.reconcile m policy with failure | ⟨reconciled, pruned⟩
  · rfl
  · change ((reconciled.clearRoles.map (·, ())).mapError Failure.store >>= _) = (reconciled.clearRoles.mapError Failure.store >>= _)
    rcases reconciled.clearRoles with fault | cleared
    · rfl
    · change (m.grantRows.map (cleared, ·) >>= _) = (m.grantRows >>= _)
      rcases m.grantRows with failure | grants
      · rfl
      · change (((cleared.writeRoles m grants).map (·, ())).mapError Failure.store >>= _) =
          ((cleared.writeRoles m grants).mapError Failure.store >>= _)
        rcases cleared.writeRoles m grants with fault | written
        · rfl
        · rfl

end Transaction

-- Committed as a whole or rolled back as a whole.
theorem Store.transact_eq {α : Type} {t : Transaction α} {change : Store → Except Failure (Store × α)}
    (follows : t.Follows change) (s : Store) :
    s.transact t = match change s with
      | .ok (next, a) => (.ok a, next)
      | .error failure => (.error failure, s) := by
  have kept := follows.committed ⟨s, s⟩
  unfold Store.transact
  rcases changed : change s with failure | ⟨next, a⟩
  · have answered := follows.fails ⟨s, s⟩ failure changed
    rcases ran : t ⟨s, s⟩ with ⟨answer, c⟩
    rw [ran] at answered kept
    cases answered
    exact congrArg (Prod.mk _) kept
  · obtain ⟨answered, working⟩ := follows.succeeds ⟨s, s⟩ next a changed
    rcases ran : t ⟨s, s⟩ with ⟨answer, c⟩
    rw [ran] at answered working
    cases answered
    exact congrArg (Prod.mk _) working

end ScopedAccess
