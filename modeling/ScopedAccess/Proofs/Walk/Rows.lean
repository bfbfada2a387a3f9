import ScopedAccess.Proofs.ResolvedModel
import ScopedAccess.Proofs.Walk.ParentStep

namespace ScopedAccess.Query.Walk

section

variable {w : Walk} {db : Database} {step : Select} {rounds : Nat} {seen latest : List Row} {x y : Row}
  {leads : Row → Row → Prop}

def Pointwise (w : Walk) (db : Database) (step : Select) (leads : Row → Row → Prop) : Prop :=
  ∀ rows y, y ∈ step.rows (w.shadow db rows) ↔ ∃ x ∈ rows, leads x y

theorem mem_advance_iff (pointwise : Pointwise w db step leads) :
    y ∈ w.advance db step seen latest ↔ (∃ x ∈ latest, leads x y) ∧ y ∉ seen := by
  simp only [advance, List.mem_eraseDups, List.mem_filter, decide_eq_true_eq, pointwise latest y]

-- The rows found last are among those seen, and what was seen before them leads to nothing new.
structure Frontier (leads : Row → Row → Prop) (seen latest : List Row) : Prop where
  within : ∀ x ∈ latest, x ∈ seen
  settled : ∀ x ∈ seen, x ∉ latest → ∀ y, leads x y → y ∈ seen

theorem Frontier.onward (frontier : Frontier leads seen latest) (pointwise : Pointwise w db step leads) (here : x ∈ seen)
    (leadsTo : leads x y) : y ∈ seen ∨ y ∈ w.advance db step seen latest := by
  by_cases known : y ∈ seen
  · exact .inl known
  · by_cases new : x ∈ latest
    · exact .inr ((mem_advance_iff pointwise).mpr ⟨⟨x, new, leadsTo⟩, known⟩)
    · exact .inl (frontier.settled x here new y leadsTo)

theorem Frontier.advance (frontier : Frontier leads seen latest) (pointwise : Pointwise w db step leads) :
    Frontier leads (seen ++ w.advance db step seen latest) (w.advance db step seen latest) := by
  constructor
  · intro x new
    exact List.mem_append_right _ new
  · intro x here old y leadsTo
    rcases List.mem_append.mp here with before | new
    · rcases frontier.onward pointwise before leadsTo with known | added
      · exact List.mem_append_left _ known
      · exact List.mem_append_right _ added
    · exact absurd new old

theorem mem_of_closed (closed : ∀ x ∈ seen, ∀ y, leads x y → y ∈ seen) {n : Nat} (here : x ∈ seen)
    (path : StepsIn leads n x y) : y ∈ seen := by
  induction path with
  | stay => exact here
  | step first _ ih => exact ih (closed _ here _ first)

theorem Frontier.closed (frontier : Frontier leads seen latest) (pointwise : Pointwise w db step leads)
    (still : w.advance db step seen latest = []) : ∀ x ∈ seen, ∀ y, leads x y → y ∈ seen := by
  intro x here y leadsTo
  rcases frontier.onward pointwise here leadsTo with known | added
  · exact known
  · rw [still] at added
    cases added

-- A round takes over the first step of every path.
theorem Frontier.round (frontier : Frontier leads seen latest) (pointwise : Pointwise w db step leads) :
    (∃ x ∈ seen ++ w.advance db step seen latest, ∃ n ≤ rounds, StepsIn leads n x y) ↔
      ∃ x ∈ seen, ∃ n ≤ rounds + 1, StepsIn leads n x y := by
  constructor
  · intro given
    obtain ⟨x, here, n, few, path⟩ := given
    rcases List.mem_append.mp here with before | new
    · exact ⟨x, before, n, by omega, path⟩
    · obtain ⟨⟨source, last, leadsTo⟩, _⟩ := (mem_advance_iff pointwise).mp new
      exact ⟨source, frontier.within source last, n + 1, by omega, .step leadsTo path⟩
  · intro given
    obtain ⟨x, here, n, few, path⟩ := given
    cases path with
    | stay => exact ⟨_, List.mem_append_left _ here, 0, Nat.zero_le _, .stay⟩
    | @step _ z _ n first rest =>
      exact ⟨z, List.mem_append.mpr (frontier.onward pointwise here first), n, by omega, rest⟩

theorem mem_grow_iff (pointwise : Pointwise w db step leads) (frontier : Frontier leads seen latest) :
    y ∈ grow w db step rounds seen latest ↔ ∃ x ∈ seen, ∃ n ≤ rounds, StepsIn leads n x y := by
  induction rounds generalizing seen latest with
  | zero =>
    simp only [grow, Nat.le_zero_eq]
    constructor
    · intro here
      exact ⟨y, here, 0, rfl, .stay⟩
    · intro given
      obtain ⟨x, here, n, rfl, path⟩ := given
      cases path
      exact here
  | succ rounds ih =>
    unfold grow
    cases found : w.advance db step seen latest with
    | nil =>
      constructor
      · intro here
        exact ⟨y, here, 0, Nat.zero_le _, .stay⟩
      · intro given
        obtain ⟨x, here, n, _, path⟩ := given
        exact mem_of_closed (frontier.closed pointwise found) here path
    | cons row more =>
      have next := frontier.advance pointwise
      rw [found] at next
      rw [ih next, ← found, frontier.round pointwise]

theorem mem_rows_iff (pointwise : Pointwise w db step leads) (stepped : w.step = some step) :
    y ∈ w.rows db ↔ ∃ x ∈ w.start.rows db, ∃ n ≤ w.rounds, StepsIn leads n x y := by
  have frontier : Frontier leads (w.start.rows db).eraseDups (w.start.rows db).eraseDups :=
    ⟨fun _ here => here, fun _ here away => absurd here away⟩
  simp only [rows, stepped, mem_grow_iff pointwise frontier, List.mem_eraseDups]

-- What a round finds is new, and nothing in it is found twice.
theorem nodup_grow (distinct : seen.Nodup) : (grow w db step rounds seen latest).Nodup := by
  induction rounds generalizing seen latest with
  | zero => exact distinct
  | succ rounds ih =>
    unfold grow
    split
    · exact distinct
    · rename_i fresh _
      refine ih (List.nodup_append.mpr ⟨distinct, (firstOccurrences_eraseDups _).nodup, ?_⟩)
      intro x old y new same
      have unseen := (List.mem_filter.mp (List.mem_eraseDups.mp new)).2
      exact of_decide_eq_true unseen (same ▸ old)

theorem nodup_rows (distinct : (w.start.rows db).Nodup) : (w.rows db).Nodup := by
  unfold rows
  split
  · exact distinct
  · exact nodup_grow (firstOccurrences_eraseDups _).nodup

end

end ScopedAccess.Query.Walk

namespace ScopedAccess

namespace AncestorWalk

open Query

def columns : List Column :=
  [⟨"origin", some .text⟩, ⟨"resource_id", some .text⟩, ⟨"resource_type", some .text⟩, ⟨"depth", none⟩]

def walkRow (origin id : Option Text) (type : String) (taken : Nat) : Row :=
  [cellOf origin, cellOf id, .text type, .integer taken]

def walkBinding (row : Row) : Binding := ⟨name, columns, row⟩

variable {db : Database} {steps : List WalkStep} {start : Select} {env : Environment} {source id : Option Text}
  {type : String} {taken : Nat} {rows : List Row} {x y : Row}

theorem columnIndex?_walk :
    Relation.columnIndex? columns "origin" = some 0 ∧ Relation.columnIndex? columns "resource_id" = some 1 ∧
      Relation.columnIndex? columns "resource_type" = some 2 ∧ Relation.columnIndex? columns "depth" = some 3 := by
  simp [Relation.columnIndex?, columns, List.findIdx?_cons, sameName_eq]

theorem eval_walk (source id : Option Text) (type : String) (taken : Nat) (env : Environment) :
    Term.eval (walkBinding (walkRow source id type taken) :: env) origin = (cellOf source, some .text) ∧
    Term.eval (walkBinding (walkRow source id type taken) :: env) resourceId = (cellOf id, some .text) ∧
    Term.eval (walkBinding (walkRow source id type taken) :: env) resourceType = (.text type, some .text) ∧
    Term.eval (walkBinding (walkRow source id type taken) :: env) depth = (.integer taken, none) := by
  obtain ⟨first, second, third, fourth⟩ := columnIndex?_walk
  refine ⟨?_, ?_, ?_, ?_⟩
  · refine (eval_here sameName_self).trans ?_
    simp only [walkBinding, cellAt, first]
    rfl
  · refine (eval_here sameName_self).trans ?_
    simp only [walkBinding, cellAt, second]
    rfl
  · refine (eval_here sameName_self).trans ?_
    simp only [walkBinding, cellAt, third]
    rfl
  · refine (eval_here sameName_self).trans ?_
    simp only [walkBinding, cellAt, fourth]
    rfl

def Leads (db : Database) (steps : List WalkStep) (x y : Row) : Prop :=
  (step steps).conditions.all (Condition.holds [walkBinding x]) = true ∧
    y = (step steps).outputs.map (Output.eval db [walkBinding x])

-- No step takes the walk itself for a table.
def Clear (steps : List WalkStep) : Prop :=
  ∀ l ∈ steps, sameName l.childTable name = false ∧ sameName l.parentTable name = false

theorem shadow_other {w : Walk} {table : String} (other : sameName table w.name = false) :
    w.shadow db rows table = db table := by
  simp [Walk.shadow, other]

theorem lookup_congr {db other : Database} {l : WalkStep} (child : db l.childTable = other l.childTable)
    (parent : db l.parentTable = other l.parentTable) : (parentLookup l).eval db env = (parentLookup l).eval other env := by
  simp only [parentLookup, Lookup.eval, Source.bindings, Join.extend, child, parent]

-- The step looks up its rows in the tables of its links, which the walk does not hide.
theorem outputs_shadow {w : Walk} (named : w.name = name) (clear : Clear steps) :
    (step steps).outputs.map (Output.eval (w.shadow db rows) env) = (step steps).outputs.map (Output.eval db env) := by
  apply List.map_congr_left
  intro output member
  simp only [step, List.mem_cons, List.not_mem_nil, or_false] at member
  rcases member with rfl | rfl | rfl | rfl
  · rfl
  · simp only [Output.eval, List.find?_map]
    cases found : steps.find? ((fun a => a.1.holds env) ∘ fun l => (isChild l, Value.lookup (parentLookup l))) with
    | none => rfl
    | some l =>
      obtain ⟨child, parent⟩ := clear l (List.mem_of_find?_eq_some found)
      exact lookup_congr (shadow_other (named ▸ child)) (shadow_other (named ▸ parent))
  · simp only [Output.eval, List.find?_map]
    cases steps.find? ((fun a => a.1.holds env) ∘ fun l =>
      (isChild l, Value.term (.asText (bindText l.parentType)))) with
    | none => rfl
    | some l => rfl
  · rfl

theorem step_pointwise {w : Walk} (named : w.name = name) (shape : w.columnsOf = columns) (clear : Clear steps) :
    w.Pointwise db (step steps) (Leads db steps) := by
  intro rows y
  have found : w.shadow db rows name = some ⟨columns, rows⟩ := by
      simp [Walk.shadow, named, sameName_self, Walk.relation, shape]
  have environments : (step steps).environments (w.shadow db rows) =
      (rows.map fun row => [walkBinding row]).filter fun env => (step steps).conditions.all (Condition.holds env) := by
    have bindings : Source.bindings (w.shadow db rows) ⟨name, none⟩ = rows.map walkBinding := bindings_some found
    simp only [Select.environments, step, bindings, List.map_map]
    rfl
  have listed : (step steps).rows (w.shadow db rows) =
      ((step steps).environments (w.shadow db rows)).map fun env =>
        (step steps).outputs.map (Output.eval (w.shadow db rows) env) := rfl
  simp only [listed, environments, List.mem_map, List.mem_filter, Leads, outputs_shadow named clear]
  constructor
  · intro given
    obtain ⟨_, ⟨⟨x, member, rfl⟩, chosen⟩, rfl⟩ := given
    exact ⟨x, member, chosen, rfl⟩
  · intro given
    obtain ⟨x, member, chosen, rfl⟩ := given
    exact ⟨_, ⟨⟨x, member, rfl⟩, chosen⟩, rfl⟩

theorem step_of_walk {s : Select} (given : (walk steps start).step = some s) : s = step steps := by
  simp only [walk] at given
  split at given
  · cases given
  · exact (Option.some.inj given).symm

-- Without links the walk is its start, which no step leads on from; with links it takes at most one step for each.
theorem mem_rows_iff_leads (clear : Clear steps) (shape : (walk steps start).columnsOf = columns) :
    y ∈ (walk steps start).rows db ↔ ∃ x ∈ start.rows db, ∃ n ≤ steps.length, StepsIn (Leads db steps) n x y := by
  by_cases unlinked : steps = []
  · have still : (walk steps start).rows db = start.rows db := by
      simp [walk, Walk.rows, unlinked]
    rw [still]
    constructor
    · intro member
      exact ⟨y, member, 0, Nat.zero_le _, .stay⟩
    · intro given
      obtain ⟨x, member, n, few, path⟩ := given
      rw [unlinked, List.length_nil] at few
      cases Nat.le_zero.mp few
      cases path
      exact member
  · have stepped : (walk steps start).step = some (step steps) := by
      simp [walk, unlinked]
    exact Walk.mem_rows_iff (step_pointwise rfl shape clear) stepped

section

variable {m : Model} {taken : Nat} {i j : Spot} {link : ParentLink}

theorem isChild_holds {l : WalkStep} :
    (isChild l).holds [walkBinding (walkRow source id type taken)] = decide (l.childType = type) := by
  obtain ⟨_, _, typed, _⟩ := eval_walk source id type taken []
  rw [isChild, Condition.holds, typed]
  simp [bindText, Term.eval, Bound.cell, Cell.equal, Cell.same, Cell.written, eq_comm]

-- A dispatch over the steps takes the arm of the step that the type reached has.
theorem eval_dispatch (value : WalkStep → Value) :
    (Output.dispatch (steps.map fun l => (isChild l, value l))).eval db [walkBinding (walkRow source id type taken)] =
      ((steps.find? fun l => decide (l.childType = type)).map fun l =>
        (value l).eval db [walkBinding (walkRow source id type taken)]).getD .null := by
  have sameTest : ((fun a : Condition × Value => a.1.holds [walkBinding (walkRow source id type taken)]) ∘
      fun l => (isChild l, value l)) = fun l => decide (l.childType = type) := by
    funext l
    exact isChild_holds
  simp only [Output.eval, List.find?_map, sameTest]
  cases steps.find? fun l => decide (l.childType = type) with
  | none => rfl
  | some l => rfl

theorem step_conditions_iff :
    (step steps).conditions.all (Condition.holds [walkBinding (walkRow source id type taken)]) = true ↔
      id.isSome = true ∧ (steps.find? fun l => decide (l.childType = type)).isSome = true := by
  obtain ⟨_, reached, typed, _⟩ := eval_walk source id type taken []
  have isPresent : Condition.holds [walkBinding (walkRow source id type taken)] (.present resourceId) = id.isSome := by
    simp only [Condition.holds, reached, ne_eq, cellOf_eq_null_iff]
    cases id <;> rfl
  have isLinked : Condition.holds [walkBinding (walkRow source id type taken)]
      (.among resourceType (steps.map fun l => .text l.childType)) =
        (steps.find? fun l => decide (l.childType = type)).isSome := by
    have test : ∀ l : WalkStep,
        Cell.equal (.text type, some .text) ((Bound.text l.childType).cell, none) = true ↔ type = l.childType := by
      intro l
      simp [Bound.cell, Cell.equal, Cell.same, Cell.written]
    rw [Bool.eq_iff_iff]
    simp only [Condition.holds, typed, List.any_map, List.any_eq_true, Function.comp_apply, test, List.find?_isSome,
      decide_eq_true_eq]
    constructor
    · intro given
      obtain ⟨l, member, same⟩ := given
      exact ⟨l, member, same.symm⟩
    · intro given
      obtain ⟨l, member, same⟩ := given
      exact ⟨l, member, same.symm⟩
  simp only [step, List.all_cons, List.all_nil, isPresent, isLinked, Bool.and_true, Bool.and_eq_true]

theorem outputs_walkRow {child : Text} (chosen : (steps.find? fun l => decide (l.childType = type)) = some (.ofLink link)) :
    (step steps).outputs.map (Output.eval db [walkBinding (walkRow source (some child) type taken)]) =
      walkRow source (link.parentId? db child) link.parent.resourceType (taken + 1) := by
  obtain ⟨begun, reached, _, count⟩ := eval_walk source (some child) type taken []
  have next : ∀ value : WalkStep → Value,
      (Output.dispatch (steps.map fun l => (isChild l, value l))).eval db
        [walkBinding (walkRow source (some child) type taken)] =
          (value (.ofLink link)).eval db [walkBinding (walkRow source (some child) type taken)] := by
    intro value
    rw [eval_dispatch, chosen]
    rfl
  simp only [step, List.map_cons, List.map_nil, next fun l => .lookup (parentLookup l),
    next fun l => .term (.asText (bindText l.parentType))]
  simp only [Output.eval, Value.eval, eval_parentLookup reached, begun, Term.eval, count, bindText, Bound.cell]
  rfl

theorem length_stepsOf : (stepsOf m.links.values).length = m.links.size := by
  rw [stepsOf, OrderedMap.values, List.length_map, List.length_map, OrderedMap.size]

theorem leads_walkRow_iff (named : ∀ t l, m.links.find? t = some l → l.child.resourceType = t) :
    Leads db m.links.values (walkRow source id type taken) y ↔
      ∃ child link, id = some child ∧ m.links.find? type = some link ∧
        y = walkRow source (link.parentId? db child) link.parent.resourceType (taken + 1) := by
  have chosen : ((stepsOf m.links.values).find? fun l => decide (l.childType = type)) = (m.links.find? type).map .ofLink := by
    rw [stepsOf, List.find?_map]
    exact congrArg _ (OrderedMap.find?_values named type)
  unfold Leads
  rw [step_conditions_iff, chosen]
  cases id with
  | none => simp
  | some child =>
    cases found : m.links.find? type with
    | none => simp
    | some link =>
      have arm := chosen.trans (congrArg _ found)
      simp only [Option.map_some, Option.isSome_some, and_self, true_and, outputs_walkRow arm, Option.some.injEq]
      constructor
      · intro same
        exact ⟨child, link, rfl, rfl, same⟩
      · intro given
        obtain ⟨_, _, rfl, rfl, same⟩ := given
        exact same

theorem walkRow_inj {other reached : Option Text} {t : String} {k : Nat}
    (same : walkRow source id type taken = walkRow other reached t k) :
    source = other ∧ id = reached ∧ type = t ∧ taken = k := by
  simp only [walkRow, List.cons.injEq, Cell.text.injEq, Cell.integer.injEq, Int.natCast_inj, and_true] at same
  obtain ⟨begun, ended, typed, count⟩ := same
  exact ⟨cellOf_inj.mp begun, cellOf_inj.mp ended, typed, count⟩

-- Steps over rows that end in an instance are steps over instances, and the origin stays.
theorem parentSteps_of_leads (named : ∀ t l, m.links.find? t = some l → l.child.resourceType = t) {other : Option Text}
    {n k : Nat} (path : StepsIn (Leads db m.links.values) n x y) (first : x = walkRow source id type taken)
    (last : y = walkRow other (some j.id) j.resourceType k) :
    other = source ∧ k = taken + n ∧ ∃ child, id = some child ∧ StepsIn (ParentStep db m) n ⟨type, child⟩ j := by
  induction path generalizing id type taken with
  | stay =>
    obtain ⟨begun, reached, typed, count⟩ := walkRow_inj (first.symm.trans last)
    exact ⟨begun.symm, count.symm, j.id, reached, typed ▸ .stay⟩
  | step leads _ ih =>
    obtain ⟨child, link, here, declared, next⟩ := (leads_walkRow_iff named).mp (first ▸ leads)
    obtain ⟨begun, count, parent, found, onward⟩ := ih next last
    exact ⟨begun, by omega, child, here, .step (.along declared found) onward⟩

theorem leads_of_parentSteps (named : ∀ t l, m.links.find? t = some l → l.child.resourceType = t) {n : Nat}
    (path : StepsIn (ParentStep db m) n i j) :
    StepsIn (Leads db m.links.values) n (walkRow source (some i.id) i.resourceType taken)
      (walkRow source (some j.id) j.resourceType (taken + n)) := by
  induction path generalizing taken with
  | stay => exact .stay
  | @step a b c n first _ ih =>
    cases first with
    | along declared found =>
      refine .step ((leads_walkRow_iff named).mpr ⟨_, _, rfl, declared, by rw [found]⟩) ?_
      rw [show taken + (n + 1) = taken + 1 + n by omega]
      exact ih

-- What the start has to be for the walk to make sense of it: instances, or ids that are null, at depth 0.
def Begins (db : Database) (start : Select) : Prop := ∀ x ∈ start.rows db, ∃ source id type, x = walkRow source id type 0

theorem mem_walk_rows_iff (resolved : m.Resolved) (clear : Clear m.links.values) (begins : Begins db start)
    (shape : (walk m.links.values start).columnsOf = columns) {n : Nat} :
    walkRow source (some j.id) j.resourceType n ∈ (walk m.links.values start).rows db ↔
      ∃ i : Spot, walkRow source (some i.id) i.resourceType 0 ∈ start.rows db ∧ StepsIn (ParentStep db m) n i j := by
  rw [mem_rows_iff_leads clear shape]
  constructor
  · intro given
    obtain ⟨x, member, k, _, path⟩ := given
    obtain ⟨begun, id, type, rfl⟩ := begins x member
    obtain ⟨rfl, rfl, child, rfl, onward⟩ := parentSteps_of_leads resolved.linkName path rfl rfl
    rw [Nat.zero_add] at *
    exact ⟨⟨type, child⟩, member, onward⟩
  · intro given
    obtain ⟨i, member, path⟩ := given
    have few : n ≤ (stepsOf m.links.values).length := length_stepsOf ▸ ParentStep.steps_le_links resolved.acyclic path
    have onward : StepsIn (Leads db m.links.values) n (walkRow source (some i.id) i.resourceType 0)
        (walkRow source (some j.id) j.resourceType (0 + n)) := leads_of_parentSteps resolved.linkName path
    rw [Nat.zero_add] at onward
    exact ⟨_, member, n, few, onward⟩

end

end AncestorWalk

end ScopedAccess
