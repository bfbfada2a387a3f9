import Mathlib.Data.Option.Basic
import ScopedAccess.Proofs.Walk.Rows

namespace ScopedAccess

namespace AncestorWalk

open Query Query.Resolution

variable {db : Database} {steps : List WalkStep} {start body : Select} {user type id : String} {roles : List String}
  {t : FilterTarget} {w : Walk} {source : Source}

theorem sourceFault?_eq_none {onWalk : DatabaseFault} (quiet : sourceFault? db name (some onWalk) source = none) :
    sameName source.table name = false ∧ (db source.table).isSome = true := by
  unfold sourceFault? at quiet
  split at quiet
  · cases quiet
  · rename_i other
    split at quiet
    · rename_i there
      exact ⟨Bool.eq_false_iff.mpr other, there⟩
    · cases quiet

-- What a statement over the assignments and the walk refers to, table by table and then select by select.
theorem fault?_eq_none_iff :
    Statement.fault? db ⟨walk steps start, matching user roles body⟩ = none ↔
      (db "user_roles").isSome = true ∧ walkTableFault? db (walk steps start) = none ∧
        ((walk steps start).step >>= selectFault? db (walk steps start)) = none ∧
        selectFault? db (walk steps start) start = none ∧
        selectFault? db (walk steps start) (matching user roles body) = none := by
  have heldName : sameName "user_roles" name = false := by simp [name, sameName_eq]
  have walkName : sameName name name = true := sameName_self
  have listed : sources (matching user roles body) = [assignments, ⟨name, none⟩] := rfl
  have tables : tableFault? db ⟨walk steps start, matching user roles body⟩ = none ↔
      (db "user_roles").isSome = true ∧ walkTableFault? db (walk steps start) = none := by
    simp only [tableFault?, List.findSome?_eq_none_iff, listed, List.forall_mem_cons, List.not_mem_nil, false_implies,
      implies_true, and_true, walk, assignments, heldName, walkName, sourceFault?, if_true, Bool.false_eq_true, if_false,
      ite_eq_left_iff, reduceCtorEq, imp_false, Bool.not_eq_true, Bool.not_eq_false]
  rw [Statement.fault?, Option.orElse_eq_none, tables, columnFault?, Option.orElse_eq_none, Option.orElse_eq_none]
  exact and_assoc

theorem clear_of_walkTableFault? (quiet : walkTableFault? db (walk steps start) = none) : Clear steps := by
  intro l member
  have linked : steps.isEmpty = false := by
    cases steps with
    | nil => cases member
    | cons _ _ => rfl
  rw [walkTableFault?, Option.orElse_eq_none] at quiet
  have stepped : stepTableFault? db (walk steps start) (step steps) = none := by
    have onward := quiet.2
    simpa [walk, linked] using onward
  rw [stepTableFault?, Option.orElse_eq_none, List.findSome?_eq_none_iff] at stepped
  have inLookups : parentLookup l ∈ lookups (step steps) := by
    simp only [lookups, step, List.mem_flatMap, List.mem_cons]
    refine ⟨_, .inr (.inl rfl), ?_⟩
    simp only [List.mem_filterMap, List.mem_map]
    exact ⟨_, ⟨l, member, rfl⟩, rfl⟩
  have free : ∀ s ∈ [(parentLookup l).source, (parentLookup l).join.source], sameName s.table name = false := by
    intro s here
    exact (sourceFault?_eq_none (List.findSome?_eq_none_iff.mp stepped.2 s (List.mem_flatMap.mpr ⟨_, inLookups, here⟩))).1
  exact ⟨free _ (List.mem_cons_self ..), free _ (List.mem_cons_of_mem _ (List.mem_cons_self ..))⟩

theorem table_of_walkTableFault? (quiet : walkTableFault? db (walk steps (startAll t)) = none) :
    (db t.table).isSome = true := by
  rw [walkTableFault?, Option.orElse_eq_none, List.findSome?_eq_none_iff] at quiet
  exact (sourceFault?_eq_none (quiet.1 ⟨t.table, some "r"⟩ (by simp [sources, walk, startAll]))).2

-- The point check refers to less: its start to nothing, and its body to no origin.
theorem pointCheck_quiet (wanted : roles ≠ []) (quiet : (bulkFilter steps t user roles).fault? db = none) :
    (pointCheck steps user type id roles).fault? db = none := by
  obtain ⟨held, tables, stepped, _, selected⟩ := fault?_eq_none_iff.mp quiet
  refine fault?_eq_none_iff.mpr ⟨held, ?_, stepped, rfl, ?_⟩
  · rw [walkTableFault?, Option.orElse_eq_none] at tables ⊢
    exact ⟨rfl, tables.2⟩
  · simp only [selectFault?, Option.orElse_eq_none] at selected ⊢
    obtain ⟨_, conditions, joins, _⟩ := selected
    refine ⟨List.findSome?_eq_none_iff.mpr ?_, conditions, joins, rfl⟩
    intro output member
    cases List.mem_singleton.mp member
    -- the role is asked for by a condition too, since there is a role to compare it with
    have among := List.findSome?_eq_none_iff.mp conditions (.among (assigned "role") (roles.map .text)) (by simp [matching])
    cases roles with
    | nil => exact absurd rfl wanted
    | cons role rest => exact among

end AncestorWalk

namespace Query.Resolution

variable {db other : Database} {w : Walk} {scope : Scope}

def SameShapes (db other : Database) : Prop := ∀ name, (db name).map (·.columns) = (other name).map (·.columns)

theorem sourceFault?_congr (same : SameShapes db other) : sourceFault? db = sourceFault? other := by
  funext walk onWalk source
  have present : (db source.table).isSome = (other source.table).isSome := by
    have shapes := congrArg Option.isSome (same source.table)
    rwa [Option.isSome_map, Option.isSome_map] at shapes
  simp only [sourceFault?, present]

theorem columnNames_congr (same : SameShapes db other) : columnNames db = columnNames other := by
  funext w table
  have names : ((db table).map fun t => t.columns.map (·.name)) = (other table).map fun t => t.columns.map (·.name) := by
    have shapes := congrArg (Option.map (List.map Column.name)) (same table)
    rwa [Option.map_map, Option.map_map] at shapes
  simp only [columnNames, names]

theorem fault?_congr (same : SameShapes db other) (s : Statement) : s.fault? db = s.fault? other := by
  have steps : stepTableFault? db = stepTableFault? other := by
    funext w step
    simp only [stepTableFault?, sourceFault?_congr same]
  have tables : tableFault? db s = tableFault? other s := by
    simp only [tableFault?, walkTableFault?, steps, sourceFault?_congr same]
  have scopes : scopeOf db = scopeOf other := by
    funext w sources
    simp only [scopeOf, columnNames_congr same]
  have lookups : lookupFault? db = lookupFault? other := by
    funext w scope l
    simp only [lookupFault?, scopes]
  have outputs : outputFault? db = outputFault? other := by
    funext w scope output
    cases output with
    | term t => rfl
    | named t name => rfl
    | dispatch arms => simp only [outputFault?, lookups]
  have selects : selectFault? db = selectFault? other := by
    funext w select
    simp only [selectFault?, scopes, outputs]
  simp only [Statement.fault?, tables, columnFault?, selects]

theorem findSome?_none_of_subset {α β : Type} {f : α → Option β} {few many : List α} (within : ∀ a ∈ few, a ∈ many)
    (quiet : many.findSome? f = none) : few.findSome? f = none := by
  rw [List.findSome?_eq_none_iff] at quiet ⊢
  intro a member
  exact quiet a (within a member)

end Query.Resolution

namespace AncestorWalk

open Query Query.Resolution

variable {db : Database} {few many : List WalkStep} {start body : Select}

theorem walkTableFault?_of_more_steps (within : ∀ l ∈ few, l ∈ many) (quiet : walkTableFault? db (walk many start) = none) :
    walkTableFault? db (walk few start) = none := by
  rw [walkTableFault?, Option.orElse_eq_none] at quiet ⊢
  refine ⟨quiet.1, ?_⟩
  cases few with
  | nil => rfl
  | cons l rest =>
    have linked : many.isEmpty = false := by
      cases many with
      | nil => cases within l (List.mem_cons_self ..)
      | cons _ _ => rfl
    have stepped : stepTableFault? db (walk many start) (step many) = none := by
      have onward := quiet.2
      simpa [walk, linked] using onward
    rw [stepTableFault?, Option.orElse_eq_none] at stepped
    change stepTableFault? db (walk (l :: rest) start) (step (l :: rest)) = none
    rw [stepTableFault?, Option.orElse_eq_none]
    refine ⟨stepped.1, findSome?_none_of_subset ?_ stepped.2⟩
    have listed : ∀ steps : List WalkStep, lookups (step steps) = steps.map parentLookup := by
      intro steps
      simp [lookups, step, List.filterMap_map]
    rw [listed, listed]
    intro source member
    obtain ⟨lookup, inside, here⟩ := List.mem_flatMap.mp member
    obtain ⟨l, known, rfl⟩ := List.mem_map.mp inside
    exact List.mem_flatMap.mpr ⟨_, List.mem_map_of_mem (within l known), here⟩

-- Of the types compared with, only whether there is one matters.
theorem conditions_of_more_steps {scope : Scope} {l : WalkStep} {rest : List WalkStep} (linked : many.isEmpty = false)
    (quiet : (step many).conditions.findSome? (conditionFault? scope) = none) :
    (step (l :: rest)).conditions.findSome? (conditionFault? scope) = none := by
  cases many with
  | nil => cases linked
  | cons _ _ => exact quiet

theorem stepFault?_of_more_steps (within : ∀ l ∈ few, l ∈ many)
    (quiet : ((walk many start).step >>= selectFault? db (walk many start)) = none) :
    ((walk few start).step >>= selectFault? db (walk few start)) = none := by
  cases few with
  | nil => rfl
  | cons l rest =>
    have linked : many.isEmpty = false := by
      cases many with
      | nil => cases within l (List.mem_cons_self ..)
      | cons _ _ => rfl
    have stepped : selectFault? db (walk many start) (step many) = none := by
      simpa [walk, linked] using quiet
    change selectFault? db (walk (l :: rest) start) (step (l :: rest)) = none
    simp only [selectFault?, Option.orElse_eq_none] at stepped ⊢
    obtain ⟨outputs, conditions, _, _⟩ := stepped
    refine ⟨?_, conditions_of_more_steps linked conditions, rfl, rfl⟩
    rw [List.findSome?_eq_none_iff] at outputs ⊢
    intro output member
    simp only [step, List.mem_cons, List.not_mem_nil, or_false] at member
    rcases member with rfl | rfl | rfl | rfl
    · exact outputs (.term origin) (by simp [step])
    · have lookups := outputs (.dispatch (many.map fun l => (isChild l, .lookup (parentLookup l)))) (by simp [step])
      exact findSome?_none_of_subset (List.map_subset _ within) lookups
    · have types := outputs (.dispatch (many.map fun l => (isChild l, .term (.asText (bindText l.parentType)))))
        (by simp [step])
      exact findSome?_none_of_subset (List.map_subset _ within) types
    · exact outputs (.term (.sum depth (.bound (.number 1)))) (by simp [step])

theorem fault?_of_more_steps {wider : Select} (within : ∀ l ∈ few, l ∈ many) (sameSources : sources body = sources wider)
    (sameColumns : ∀ w, selectFault? db w body = selectFault? db w wider)
    (quiet : Statement.fault? db ⟨walk many start, wider⟩ = none) : Statement.fault? db ⟨walk few start, body⟩ = none := by
  simp only [Statement.fault?, Option.orElse_eq_none, columnFault?] at quiet ⊢
  obtain ⟨tables, stepped, begun, selected⟩ := quiet
  refine ⟨?_, stepFault?_of_more_steps within stepped, begun, (sameColumns _).trans selected⟩
  rw [tableFault?, List.findSome?_eq_none_iff] at tables ⊢
  intro source member
  have clear := tables source (sameSources ▸ member)
  by_cases walked : sameName source.table name = true
  · have there : walkTableFault? db (walk many start) = none := by
      simpa [walk, walked] using clear
    simpa [walk, walked] using walkTableFault?_of_more_steps within there
  · simpa [walk, walked] using clear

-- The roles that a statement looks for play no part in it, as long as there are some.
theorem matching_fault? {user : String} {roles more : List String} (wanted : roles ≠ []) (wantedMore : more ≠ []) (s : Select)
    (w : Walk) : selectFault? db w (matching user roles s) = selectFault? db w (matching user more s) := by
  cases roles with
  | nil => exact absurd rfl wanted
  | cons _ _ =>
    cases more with
    | nil => exact absurd rfl wantedMore
    | cons _ _ => rfl

end AncestorWalk

namespace ParentLink

variable {db other : Query.Database} {link : ParentLink}

theorem parentId?_congr (child : db link.child.table = other link.child.table)
    (parent : db link.parent.table = other link.parent.table) (id : Text) : link.parentId? db id = link.parentId? other id := by
  simp only [parentId?, child, parent]

end ParentLink

namespace ParentStep

variable {db other : Query.Database} {m n : Model} {i j : Spot}

-- A step stays one where the type has the same link and the link's tables are the same.
theorem transfer (step : ParentStep db m i j)
    (kept : ∀ link, m.links.find? i.resourceType = some link → n.links.find? i.resourceType = some link ∧
      db link.child.table = other link.child.table ∧ db link.parent.table = other link.parent.table) :
    ParentStep other n i j := by
  cases step with
  | along declared found =>
    obtain ⟨stays, child, parent⟩ := kept _ declared
    rw [ParentLink.parentId?_congr child parent] at found
    exact .along stays found

end ParentStep

end ScopedAccess
