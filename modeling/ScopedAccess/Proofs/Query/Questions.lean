import ScopedAccess.Proofs.Acceptance
import ScopedAccess.Proofs.Authorizer.Run
import ScopedAccess.Proofs.Query.Placeholders

namespace ScopedAccess

open Query

-- The table and column names of a step, without its type tags.
def WalkStep.names (l : WalkStep) : List String :=
  [l.childTable, l.childId, l.parentTable, l.parentId, l.field, l.references]

namespace AncestorWalk

variable {steps others : List WalkStep} {l m : WalkStep} {s : Snapshot} {d e : Dialect}

inductive Question where
  | point (user type id : String) (roles : List String)
  | bulk (target : FilterTarget) (user : String) (roles : List String)
  | chain (type id : String)

namespace Question

def statement (steps : List WalkStep) : Question → Statement
  | point user type id roles => pointCheck steps user type id roles
  | bulk target user roles => bulkFilter steps target user roles
  | chain type id => AncestorWalk.chain steps type id

-- Questions of one kind, about tables of the same name and for as many roles.
def Alike : Question → Question → Prop
  | point _ _ _ roles, point _ _ _ roles' => roles.length = roles'.length
  | bulk target _ roles, bulk target' _ roles' =>
    target.table = target'.table ∧ target.idColumn = target'.idColumn ∧ roles.length = roles'.length
  | chain _ _, chain _ _ => True
  | _, _ => False

def Askable (s : Snapshot) : Question → Prop
  | bulk target _ _ => ∃ t, s.tables.find? t = some target
  | _ => True

end Question

theorem map_alike {α : Type} {F : WalkStep → α} (alike : ∀ l m : WalkStep, l.names = m.names → F l = F m)
    (names : steps.map WalkStep.names = others.map WalkStep.names) : steps.map F = others.map F := by
  induction steps generalizing others with
  | nil =>
    cases others with
    | nil => rfl
    | cons m rest => cases names
  | cons l rest ih =>
    cases others with
    | nil => cases names
    | cons m others =>
      obtain ⟨here, later⟩ := List.cons.inj names
      rw [List.map_cons, List.map_cons, alike l m here, ih later]

theorem erased_parentLookup (names : l.names = m.names) : (parentLookup l).erased = (parentLookup m).erased := by
  simp only [WalkStep.names, List.cons.injEq] at names
  obtain ⟨childTable, childId, parentTable, parentId, field, references, _⟩ := names
  simp [parentLookup, Lookup.erased, Join.erased, Condition.erased, Term.erased, childTable, childId, parentTable, parentId,
    field, references]

theorem erased_step (names : steps.map WalkStep.names = others.map WalkStep.names) :
    (step steps).erased = (step others).erased := by
  have lookups : steps.map (fun l => ((isChild l).erased, (Value.lookup (parentLookup l)).erased)) =
      others.map fun l => ((isChild l).erased, (Value.lookup (parentLookup l)).erased) := by
    refine map_alike (fun l m same => ?_) names
    rw [Value.erased, Value.erased, erased_parentLookup same]
    rfl
  have types : steps.map (fun l => ((isChild l).erased, (Value.term (.asText (bindText l.parentType))).erased)) =
      others.map fun l => ((isChild l).erased, (Value.term (.asText (bindText l.parentType))).erased) :=
    map_alike (fun _ _ _ => rfl) names
  have children : steps.map (fun l => (Bound.text l.childType).erased) =
      others.map fun l => (Bound.text l.childType).erased := map_alike (fun _ _ _ => rfl) names
  have outputs : (step steps).outputs.map Output.erased = (step others).outputs.map Output.erased := by
    simp only [step, List.map_cons, List.map_nil, Output.erased, List.map_map, Function.comp_def, lookups, types]
  have conditions : (step steps).conditions.map Condition.erased = (step others).conditions.map Condition.erased := by
    simp only [step, List.map_cons, List.map_nil, Condition.erased, List.map_map, Function.comp_def, children]
  rw [Select.erased, outputs, conditions]
  rfl

theorem erased_walk {start begin : Select} (names : steps.map WalkStep.names = others.map WalkStep.names)
    (starts : start.erased = begin.erased) : (walk steps start).erased = (walk others begin).erased := by
  have many : steps.length = others.length := by simpa using congrArg List.length names
  have empty : steps.isEmpty = others.isEmpty := by
    rw [Bool.eq_iff_iff, List.isEmpty_iff_length_eq_zero, List.isEmpty_iff_length_eq_zero, many]
  cases lonely : others.isEmpty with
  | true => simp [walk, Walk.erased, starts, many, empty, lonely]
  | false => simp [walk, Walk.erased, starts, many, empty, lonely, erased_step names]

theorem erased_matching (user user' : String) {roles roles' : List String} {body : Select} (many : roles.length = roles'.length) :
    (matching user roles body).erased = (matching user' roles' body).erased := by
  have values : ∀ names : List String,
      names.map (fun name => (Bound.text name).erased) = List.replicate names.length (.number 0) := by
    intro names
    exact List.map_const' ..
  simp only [matching, Select.erased, Condition.erased, List.map_cons, List.map_map, Function.comp_def, values, many]
  rfl

theorem Question.Alike.erased {q r : Question} (alike : q.Alike r)
    (names : steps.map WalkStep.names = others.map WalkStep.names) :
    (q.statement steps).erased = (r.statement others).erased := by
  cases q with
  | point user type id roles =>
    cases r with
    | point user' type' id' roles' =>
      have walks : (walk steps (startAt type id)).erased = (walk others (startAt type' id')).erased := erased_walk names rfl
      simp only [statement, pointCheck, Statement.erased, walks, erased_matching user user' alike]
    | bulk => cases alike
    | chain => cases alike
  | bulk target user roles =>
    cases r with
    | bulk target' user' roles' =>
      obtain ⟨table, column, many⟩ := alike
      have starts : (startAll target).erased = (startAll target').erased := by
        simp [startAll, Select.erased, Output.erased, Term.erased, table, column, bindText]
        rfl
      have walks := erased_walk names starts
      simp only [statement, bulkFilter, Statement.erased, walks, erased_matching user user' many]
    | point => cases alike
    | chain => cases alike
  | chain type id =>
    cases r with
    | chain type' id' =>
      have walks : (walk steps (startAt type id)).erased = (walk others (startAt type' id')).erased := erased_walk names rfl
      simp only [statement, AncestorWalk.chain, Statement.erased, walks]
    | point => cases alike
    | bulk => cases alike

theorem named_parentLookup (plain : ∀ name ∈ l.names, IsPlainName name) : Named ((parentLookup l).fragments d) := by
  simp only [WalkStep.names, List.forall_mem_cons] at plain
  obtain ⟨childTable, childId, parentTable, parentId, field, references, _⟩ := plain
  simp +decide [parentLookup, Lookup.fragments, Join.fragments, Source.fragments, conjunction, Condition.fragments,
    Term.fragments, resourceId, name, childTable, childId, parentTable, parentId, field, references]

theorem named_walkColumn (column : String) (plain : IsPlainName column) : Named ((Term.column name column).fragments d) :=
  named_column (by decide) plain

theorem named_bindText (text : String) : Named ((bindText text).fragments d) := named_hole.mpr named_nil

theorem named_step (plain : ∀ l ∈ steps, ∀ name ∈ l.names, IsPlainName name) : Named ((step steps).fragments d) := by
  have origins : Named (origin.fragments d) := named_walkColumn _ (by decide)
  have ids : Named (resourceId.fragments d) := named_walkColumn _ (by decide)
  have types : Named (resourceType.fragments d) := named_walkColumn _ (by decide)
  have depths : Named (depth.fragments d) := named_walkColumn _ (by decide)
  have child : ∀ l, Named ((isChild l).fragments d) := fun l => named_equal types (named_bindText _)
  refine named_select ?_ ?_ ?_ ?_ ?_
  · simp only [step, List.forall_mem_cons, List.not_mem_nil, false_implies, implies_true, and_true]
    refine ⟨origins, named_dispatch ?_, named_dispatch ?_, ?_⟩
    · intro arm member
      obtain ⟨l, place, rfl⟩ := List.mem_map.mp member
      exact ⟨child l, named_parentLookup (plain l place)⟩
    · intro arm member
      obtain ⟨l, place, rfl⟩ := List.mem_map.mp member
      exact ⟨child l, named_asText (named_bindText _)⟩
    · simpa [Output.fragments, Term.fragments] using depths
  · intro x given
    cases given
    simp +decide [Source.fragments, name]
  · intro j given
    cases given
  · simp only [step, List.forall_mem_cons, List.not_mem_nil, false_implies, implies_true, and_true]
    exact ⟨by simpa [Condition.fragments] using ids, named_among types⟩
  · intro t given
    cases given

theorem named_walk {start : Select} (plain : ∀ l ∈ steps, ∀ name ∈ l.names, IsPlainName name)
    (starts : Named (start.fragments d)) :
    Named ((walk steps start).fragments d) := by
  have columns : ∀ c ∈ ["origin", "resource_id", "resource_type", "depth"], IsPlainName c := by decide
  refine Query.named_walk (show IsPlainName "walk" by decide) columns starts ?_
  intro s given
  simp only [walk] at given
  split at given
  · cases given
  · cases given
    exact named_step plain

theorem named_startAt {type id : String} : Named ((startAt type id).fragments d) := by
  simp [startAt, Select.fragments, Output.fragments, Term.fragments, clause, bindText]

theorem named_startAll {target : FilterTarget} (table : IsPlainName target.table) (column : IsPlainName target.idColumn) :
    Named ((startAll target).fragments d) := by
  simp +decide [startAll, Select.fragments, Output.fragments, Term.fragments, Source.fragments, clause, bindText, table, column]

theorem named_matching {user : String} {roles : List String} {body : Select}
    (outputs : ∀ o ∈ body.outputs, Named (o.fragments d))
    (order : ∀ t, body.order = some t → Named (t.fragments d)) : Named ((matching user roles body).fragments d) := by
  have assigns : ∀ column, IsPlainName column → Named ((assigned column).fragments d) :=
    fun _ plain => named_column (by decide) plain
  refine named_select outputs ?_ ?_ ?_ order
  · intro x given
    cases given
    simp +decide [Source.fragments, assignments]
  · intro j given
    cases given
    simp +decide [Join.fragments, Source.fragments, conjunction, Condition.fragments, Term.fragments, assigned, assignments,
      Source.label, resourceType, resourceId, name]
  · simp only [matching, List.forall_mem_cons, List.not_mem_nil, false_implies, implies_true, and_true]
    exact ⟨named_equal (assigns _ (by decide)) (named_bindText _), named_among (assigns _ (by decide))⟩

theorem named_pointCheck {user type id : String} {roles : List String}
    (plain : ∀ l ∈ steps, ∀ name ∈ l.names, IsPlainName name) :
    Named ((pointCheck steps user type id roles).fragments d) := by
  have body : Named ((pointCheck steps user type id roles).body.fragments d) := by
    refine named_matching ?_ ?_
    · simp +decide [Output.fragments, Term.fragments, assigned, assignments, Source.label]
    · simp
  simp only [Statement.fragments, named_append, named_plain]
  exact ⟨named_walk plain named_startAt, body⟩

theorem named_bulkFilter {target : FilterTarget} {user : String} {roles : List String}
    (plain : ∀ l ∈ steps, ∀ name ∈ l.names, IsPlainName name) (table : IsPlainName target.table)
    (column : IsPlainName target.idColumn) :
    Named ((bulkFilter steps target user roles).fragments d) := by
  have body : Named ((bulkFilter steps target user roles).body.fragments d) := by
    refine named_matching ?_ ?_
    · simp +decide [Output.fragments, Term.fragments, origin, name]
    · simp +decide [Term.fragments, origin, name]
  simp only [Statement.fragments, named_append, named_plain]
  exact ⟨named_walk plain (named_startAll table column), body⟩

theorem named_chain {type id : String} (plain : ∀ l ∈ steps, ∀ name ∈ l.names, IsPlainName name) :
    Named ((chain steps type id).fragments d) := by
  have body : Named ((chain steps type id).body.fragments d) := by
    simp +decide [chain, Select.fragments, Output.fragments, Condition.fragments, Term.fragments, Source.fragments,
      conjunction, clause, resourceType, resourceId, depth, name]
  simp only [Statement.fragments, named_append, named_plain]
  exact ⟨named_walk plain named_startAt, body⟩

theorem Question.Askable.named {q : Question} (askable : q.Askable s) (compiled : s.Compiled) :
    Named ((q.statement s.walk).fragments d) := by
  have plain : ∀ l ∈ s.walk, ∀ name ∈ l.names, IsPlainName name := by
    intro l member
    obtain ⟨childTable, childId, parentTable, parentId, field, references⟩ := compiled.plain_step member
    simp [WalkStep.names, childTable, childId, parentTable, parentId, field, references]
  cases q with
  | point user type id roles => exact named_pointCheck plain
  | bulk target user roles =>
    obtain ⟨t, found⟩ := askable
    obtain ⟨table, column⟩ := compiled.plain_table found
    exact named_bulkFilter plain table column
  | chain type id => exact named_chain plain

-- The text tells the names and the number of values, the values are the same in every dialect, and the text of an
-- accepted policy has one placeholder for each of them.
theorem texts_hold_no_values :
    (∀ (steps others : List WalkStep) (q r : Question) (d : Dialect),
      steps.map WalkStep.names = others.map WalkStep.names → q.Alike r →
      (q.statement steps).text d = (r.statement others).text d) ∧
    (∀ (steps : List WalkStep) (q : Question) (d e : Dialect), (q.statement steps).values d = (q.statement steps).values e) ∧
    (∀ (s : Snapshot) (q : Question), s.Compiled → q.Askable s →
      (∀ d, d ≠ .postgres → ((q.statement s.walk).text d).toList.count '?' = ((q.statement s.walk).values d).length) ∧
      numbers ((q.statement s.walk).text .postgres).toList =
        (List.range' 1 ((q.statement s.walk).values .postgres).length).map toString) := by
  refine ⟨?_, ?_, ?_⟩
  · intro steps others q r d names alike
    exact Statement.text_of_erased (alike.erased names)
  · intro steps q d e
    exact Statement.values_alike _
  · intro s q compiled askable
    refine ⟨?_, Statement.numbers_eq (askable.named compiled)⟩
    intro d asks
    exact Statement.count_marks asks (askable.named compiled)

-- An id that looks like a placeholder, asked about on the shelf, is one more value.
theorem odd_id_stays_out : ∃ s, Snapshot.compile Authorizer.shelf 1 = .ok s ∧
    ((Question.point "ann' OR ?" "Note" "$1" ["keeper"]).statement s.walk).text .sqlite =
      ((Question.point "bob" "Folder" "f" ["reader"]).statement s.walk).text .sqlite ∧
    (((Question.point "ann' OR ?" "Note" "$1" ["keeper"]).statement s.walk).text .sqlite).toList.count '?' =
      (((Question.point "ann' OR ?" "Note" "$1" ["keeper"]).statement s.walk).values .sqlite).length := by
  have compiles : (Snapshot.compile Authorizer.shelf 1).toOption.isSome = true := by decide +kernel
  obtain ⟨s, found⟩ := Option.isSome_iff_exists.mp compiles
  have compiled := toOption_eq_some_iff.mp found
  refine ⟨s, compiled, texts_hold_no_values.1 s.walk s.walk _ _ .sqlite rfl rfl, ?_⟩
  have askable : (Question.point "ann' OR ?" "Note" "$1" ["keeper"]).Askable s := trivial
  exact (texts_hold_no_values.2.2 s _ (Snapshot.compiled_of_compile compiled) askable).1 .sqlite (by decide)

end AncestorWalk

end ScopedAccess
