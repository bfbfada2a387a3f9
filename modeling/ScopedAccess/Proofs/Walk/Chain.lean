import Mathlib.Data.List.Perm.Basic
import ScopedAccess.Proofs.Walk.Answers

namespace ScopedAccess

theorem ParentStep.functional {db : Query.Database} {m : Model} {i j k : Spot} (first : ParentStep db m i j)
    (second : ParentStep db m i k) : j = k := by
  cases first with
  | along declared found =>
    cases second with
    | along again other =>
      cases declared.symm.trans again
      cases found.symm.trans other
      rfl

-- The instances that parent steps lead to, each with the number of steps.
structure Lineage (db : Query.Database) (m : Model) (i : Spot) (steps : List (Nat × Spot)) : Prop where
  ascending : steps.Pairwise fun a b => a.1 < b.1
  reached : ∀ n j, (n, j) ∈ steps ↔ StepsIn (ParentStep db m) n i j

namespace Lineage

variable {db other : Query.Database} {m n : Model} {i : Spot} {steps more : List (Nat × Spot)}

theorem unique (left : Lineage db m i steps) (right : Lineage other n i more)
    (same : ∀ k j, StepsIn (ParentStep db m) k i j ↔ StepsIn (ParentStep other n) k i j) : steps = more := by
  have members : ∀ e, e ∈ steps ↔ e ∈ more := fun e => by
    rw [left.reached e.1 e.2, same e.1 e.2, right.reached e.1 e.2]
  have distinct : ∀ l : List (Nat × Spot), l.Pairwise (fun a b => a.1 < b.1) → l.Nodup := by
    intro l ascending
    refine ascending.imp ?_
    intro a b below equal
    rw [equal] at below
    exact Nat.lt_irrefl _ below
  have permuted : steps.Perm more :=
    (List.perm_ext_iff_of_nodup (distinct _ left.ascending) (distinct _ right.ascending)).mpr members
  refine permuted.eq_of_pairwise ?_ left.ascending right.ascending
  intro a b _ _ below above
  exact absurd below (Nat.lt_asymm above)

-- Each of the pairs once, nearest first. Two instances at the same distance are one.
theorem of_pairs {pairs : List (Nat × Spot)} (distinct : pairs.Nodup)
    (reached : ∀ n j, (n, j) ∈ pairs ↔ StepsIn (ParentStep db m) n i j) :
    Lineage db m i (pairs.mergeSort fun a b => decide (a.1 ≤ b.1)) := by
  have permuted : (pairs.mergeSort fun a b => decide (a.1 ≤ b.1)).Perm pairs := List.mergeSort_perm ..
  constructor
  · have ordered : (pairs.mergeSort fun a b => decide (a.1 ≤ b.1)).Pairwise fun a b => decide (a.1 ≤ b.1) = true := by
      refine List.pairwise_mergeSort ?_ ?_ pairs
      · intro a b c first second
        simp only [decide_eq_true_eq] at first second ⊢
        omega
      · intro a b
        simp only [Bool.or_eq_true, decide_eq_true_eq]
        omega
    have apart : (pairs.mergeSort fun a b => decide (a.1 ≤ b.1)).Nodup := permuted.nodup_iff.mpr distinct
    refine (ordered.and apart).imp_of_mem ?_
    rintro ⟨n, j⟩ ⟨k, l⟩ left right ⟨near, different⟩
    rcases Nat.lt_or_eq_of_le (of_decide_eq_true near) with below | same
    · exact below
    · cases (same : n = k)
      have first := (reached n j).mp (permuted.mem_iff.mp left)
      have second := (reached n l).mp (permuted.mem_iff.mp right)
      have one : j = l := first.unique (fun _ _ _ step other => step.functional other) second
      exact absurd (by rw [one]) different
  · intro n j
    rw [permuted.mem_iff]
    exact reached n j

theorem mem_iff (lineage : Lineage db m i steps) {j : Spot} :
    j ∈ steps.map (·.2) ↔ Relation.ReflTransGen (ParentStep db m) i j := by
  rw [List.mem_map, ← exists_stepsIn_iff]
  constructor
  · rintro ⟨⟨n, _⟩, member, rfl⟩
    exact ⟨n, (lineage.reached n _).mp member⟩
  · intro given
    obtain ⟨n, path⟩ := given
    exact ⟨(n, j), (lineage.reached n j).mpr path, rfl⟩

end Lineage

namespace AncestorWalk

open Query Query.Resolution

variable {db : Database} {m : Model} {type id : String} {rows : List Row} {row : Row} {source : Option Text}

def reachedOf? : Row → Option (Nat × Spot)
  | [_, id, .text type, .integer n] => id.text?.map fun id => (n.toNat, ⟨type, id⟩)
  | _ => none

theorem reachedOf?_walkRow {reached : Option Text} {taken : Nat} :
    reachedOf? (walkRow source reached type taken) = reached.map fun id => (taken, ⟨type, id⟩) := by
  simp only [reachedOf?, walkRow, text?_cellOf, Int.toNat_natCast]

def reachedBinding (source : Option Text) (e : Nat × Spot) : Environment :=
  [walkBinding (walkRow source (some e.2.id) e.2.resourceType e.1)]

theorem chain_environments (forms : ∀ x ∈ rows, ∃ reached type taken, x = walkRow source reached type taken) :
    ((rows.map fun x => [walkBinding x]).filter fun env => Condition.holds env (.present resourceId)) =
      (rows.filterMap reachedOf?).map (reachedBinding source) := by
  induction rows with
  | nil => rfl
  | cons x rest ih =>
    obtain ⟨reached, type, taken, rfl⟩ := forms x (List.mem_cons_self ..)
    have later := ih fun y member => forms y (List.mem_cons_of_mem _ member)
    obtain ⟨_, hasId, _, _⟩ := eval_walk source reached type taken []
    have present : Condition.holds [walkBinding (walkRow source reached type taken)] (.present resourceId) = reached.isSome := by
      simp only [Condition.holds, hasId, ne_eq, cellOf_eq_null_iff]
      cases reached <;> rfl
    rw [List.map_cons, List.filter_cons, present, later, List.filterMap_cons, reachedOf?_walkRow]
    cases reached with
    | none => rfl
    | some id => rfl

-- Sorting by the depth is sorting by the number of steps.
theorem chain_sorted (steps : List (Nat × Spot)) :
    ((steps.map (reachedBinding source)).mergeSort fun a b => Cell.before (depth.eval a).1 (depth.eval b).1) =
      (steps.mergeSort fun a b => decide (a.1 ≤ b.1)).map (reachedBinding source) := by
  refine (List.map_mergeSort ?_).symm
  intro a _ b _
  have first : depth.eval (reachedBinding source a) = (.integer a.1, none) := (eval_walk source (some a.2.id) _ a.1 []).2.2.2
  have second : depth.eval (reachedBinding source b) = (.integer b.1, none) := (eval_walk source (some b.2.id) _ b.1 []).2.2.2
  rw [first, second]
  simp [Cell.before]

def spotRow (i : Spot) : Row := [.text i.resourceType, i.id.cell]

theorem chain_outputs (e : Nat × Spot) :
    [.named resourceType "resource_type", .named resourceId "resource_id"].map (Output.eval db (reachedBinding source e)) =
      spotRow e.2 := by
  obtain ⟨_, hasId, hasType, _⟩ := eval_walk source (some e.2.id) e.2.resourceType e.1 []
  simp only [List.map_cons, List.map_nil, Output.eval, reachedBinding, hasId, hasType]
  rfl

section

variable {walkSteps : List WalkStep}

theorem clear_of_chain (quiet : (chain walkSteps type id).fault? db = none) : Clear walkSteps := by
  have tables : tableFault? db (chain walkSteps type id) = none := by
    rw [Statement.fault?, Option.orElse_eq_none] at quiet
    exact quiet.1
  have walked : sameName name name = true := sameName_self
  have listed : sources (chain walkSteps type id).body = [⟨name, none⟩] := rfl
  rw [tableFault?, listed, List.findSome?_eq_none_iff] at tables
  have here := tables ⟨name, none⟩ (List.mem_singleton_self _)
  simp only [chain, walk, walked, if_true] at here
  exact clear_of_walkTableFault? here

end

theorem chainRow_of_mem (resolved : m.Resolved) (clear : Clear m.links.values)
    (member : row ∈ (walk m.links.values (startAt type id)).rows db) :
    ∃ reached last taken, row = walkRow (some ↑id) reached last taken := by
  obtain ⟨source, reached, last, taken, form, other, first, started⟩ :=
    walkRow_of_mem resolved.linkName clear begins_startAt rfl member
  rw [rows_startAt, List.mem_singleton] at started
  obtain ⟨rfl, _⟩ := walkRow_inj started
  exact ⟨reached, last, taken, form⟩

theorem mem_reached_iff (resolved : m.Resolved) (clear : Clear m.links.values) {n : Nat} {j : Spot} :
    (n, j) ∈ ((walk m.links.values (startAt type id)).rows db).filterMap reachedOf? ↔
      StepsIn (ParentStep db m) n ⟨type, id⟩ j := by
  have found : walkRow (some ↑id) (some j.id) j.resourceType n ∈ (walk m.links.values (startAt type id)).rows db ↔
      StepsIn (ParentStep db m) n ⟨type, id⟩ j := by
    rw [mem_walk_rows_iff resolved clear begins_startAt rfl]
    simp only [mem_startAt_iff, true_and, exists_eq_left]
  rw [← found, List.mem_filterMap]
  constructor
  · intro given
    obtain ⟨row, member, same⟩ := given
    obtain ⟨reached, last, taken, rfl⟩ := chainRow_of_mem resolved clear member
    rw [reachedOf?_walkRow] at same
    obtain ⟨_, rfl, same⟩ := Option.map_eq_some_iff.mp same
    cases same
    exact member
  · intro member
    exact ⟨_, member, reachedOf?_walkRow⟩

theorem nodup_reached (resolved : m.Resolved) (clear : Clear m.links.values) :
    (((walk m.links.values (startAt type id)).rows db).filterMap reachedOf?).Nodup := by
  have distinct : ((walk m.links.values (startAt type id)).rows db).Nodup :=
    Walk.nodup_rows (List.pairwise_singleton _ _)
  refine List.pairwise_filterMap.mpr (distinct.imp_of_mem ?_)
  intro x y left right different e first f second same
  obtain ⟨reached, last, taken, rfl⟩ := chainRow_of_mem resolved clear left
  obtain ⟨reached', last', taken', rfl⟩ := chainRow_of_mem resolved clear right
  rw [reachedOf?_walkRow] at first second
  obtain ⟨_, rfl, rfl⟩ := Option.map_eq_some_iff.mp first
  obtain ⟨_, rfl, rfl⟩ := Option.map_eq_some_iff.mp second
  cases same
  exact different rfl

theorem chain_lineage (resolved : m.Resolved) (ran : (chain m.links.values type id).rows db = .ok rows) :
    ∃ steps, Lineage db m ⟨type, id⟩ steps ∧ rows = steps.map fun e => spotRow e.2 := by
  obtain ⟨quiet, rfl⟩ := rows_of_ran ran
  have clear := clear_of_chain quiet
  let w := walk m.links.values (startAt type id)
  let body := (chain m.links.values type id).body
  let pairs := (w.rows db).filterMap reachedOf?
  refine ⟨pairs.mergeSort fun a b => decide (a.1 ≤ b.1), ?_, ?_⟩
  · exact .of_pairs (nodup_reached resolved clear) fun n j => mem_reached_iff resolved clear
  · have shadowed : w.shadow db (w.rows db) name = some ⟨columns, w.rows db⟩ := by
      have same : sameName name w.name = true := sameName_self
      simp only [Walk.shadow, same, if_true]
      rfl
    have bindings : Source.bindings (w.shadow db (w.rows db)) ⟨name, none⟩ = (w.rows db).map walkBinding := bindings_some shadowed
    have environments : body.environments (w.shadow db (w.rows db)) = pairs.map (reachedBinding (some ↑id)) := by
      have listed : body.environments (w.shadow db (w.rows db)) =
          ((w.rows db).map fun x => [walkBinding x]).filter fun env => Condition.holds env (.present resourceId) := by
        simp only [body, chain, Select.environments, bindings, List.map_map, List.all_cons, List.all_nil, Bool.and_true]
        rfl
      rw [listed]
      exact chain_environments fun x member => chainRow_of_mem resolved clear member
    have listed : body.rows (w.shadow db (w.rows db)) =
        ((body.environments (w.shadow db (w.rows db))).mergeSort fun a b =>
          Cell.before (depth.eval a).1 (depth.eval b).1).map fun env =>
            body.outputs.map (Output.eval (w.shadow db (w.rows db)) env) := rfl
    change body.rows (w.shadow db (w.rows db)) = _
    rw [listed, environments, chain_sorted, List.map_map]
    exact List.map_congr_left fun e _ => chain_outputs e

end AncestorWalk

end ScopedAccess
