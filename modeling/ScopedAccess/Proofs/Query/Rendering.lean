import Mathlib.Data.List.Basic
import ScopedAccess.Query.Text

namespace ScopedAccess.Query

open Fragment (plain quoted hole)

variable {d e : Dialect} {separator text : String} {l r fs gs : List Fragment} {parts : List (List Fragment)}

-- The values of a text, which are put together as its fragments are.

@[simp] theorem holes_append : holes (l ++ r) = holes l ++ holes r := by
  induction l with
  | nil => rfl
  | cons f rest ih =>
    cases f with
    | plain s => exact ih
    | quoted s => exact ih
    | hole v => exact congrArg (v :: ·) ih

@[simp] theorem holes_plain : holes (plain text :: r) = holes r := rfl

@[simp] theorem holes_quoted : holes (quoted text :: r) = holes r := rfl

theorem holes_separated : holes (separated separator parts) = parts.flatMap holes := by
  induction parts with
  | nil => rfl
  | cons part rest ih =>
    cases rest with
    | nil => simp [separated]
    | cons next others => simp [separated, ih]

theorem holes_flatMap {α : Type} {items : List α} {write : α → List Fragment} :
    holes (items.flatMap write) = items.flatMap fun a => holes (write a) := by
  induction items with
  | nil => rfl
  | cons a rest ih => rw [List.flatMap_cons, holes_append, ih, List.flatMap_cons]

theorem Term.holes_alike (t : Term) : holes (t.fragments d) = holes (t.fragments e) := by
  induction t with
  | column source name => rfl
  | bound v => rfl
  | asText t ih => simpa [Term.fragments] using ih
  | sum left right leftAlike rightAlike => simp [Term.fragments, leftAlike, rightAlike]

theorem Condition.holes_alike (c : Condition) : holes (c.fragments d) = holes (c.fragments e) := by
  cases c with
  | equal left right =>
    have leftAlike := left.holes_alike (d := d) (e := e)
    have rightAlike := right.holes_alike (d := d) (e := e)
    simp [Condition.fragments, leftAlike, rightAlike]
  | present t =>
    have alike := t.holes_alike (d := d) (e := e)
    simp [Condition.fragments, alike]
  | among t values =>
    have alike := t.holes_alike (d := d) (e := e)
    cases values with
    | nil => rfl
    | cons v rest => simp [Condition.fragments, alike]

theorem conjunction_holes_alike (conditions : List Condition) :
    holes (conjunction d conditions) = holes (conjunction e conditions) := by
  simp only [conjunction, holes_separated, List.flatMap_map]
  exact List.flatMap_congr fun c _ => c.holes_alike

theorem Join.holes_alike (j : Join) : holes (j.fragments d) = holes (j.fragments e) := by
  have alike := conjunction_holes_alike (d := d) (e := e) j.on
  simp [Join.fragments, alike]

theorem Lookup.holes_alike (l : Lookup) : holes (l.fragments d) = holes (l.fragments e) := by
  have value := l.value.holes_alike (d := d) (e := e)
  have join := l.join.holes_alike (d := d) (e := e)
  have condition := l.condition.holes_alike (d := d) (e := e)
  simp [Lookup.fragments, value, join, condition]

theorem Value.holes_alike (v : Value) : holes (v.fragments d) = holes (v.fragments e) := by
  cases v with
  | term t => exact t.holes_alike
  | lookup l => exact l.holes_alike

theorem Output.holes_alike (o : Output) : holes (o.fragments d) = holes (o.fragments e) := by
  cases o with
  | term t => exact t.holes_alike
  | named t name =>
    have alike := t.holes_alike (d := d) (e := e)
    simp [Output.fragments, alike]
  | dispatch arms =>
    have alike : arms.flatMap (fun a => holes (arm d a)) = arms.flatMap fun a => holes (arm e a) := by
      refine List.flatMap_congr fun a _ => ?_
      have condition := a.1.holes_alike (d := d) (e := e)
      have value := a.2.holes_alike (d := d) (e := e)
      simp [arm, condition, value]
    simp [Output.fragments, holes_flatMap, alike]

theorem clause_holes_alike {α : Type} {write writeElse : α → List Fragment}
    (alike : ∀ a, holes (write a) = holes (writeElse a))
    (o : Option α) : holes (clause text write o) = holes (clause text writeElse o) := by
  cases o with
  | none => rfl
  | some a => exact alike a

theorem Select.holes_alike (s : Select) : holes (s.fragments d) = holes (s.fragments e) := by
  have outputs : (s.outputs.flatMap fun o => holes (o.fragments d)) = s.outputs.flatMap fun o => holes (o.fragments e) :=
    List.flatMap_congr fun o _ => o.holes_alike
  have conditions : holes (if s.conditions.isEmpty then [] else plain " WHERE " :: conjunction d s.conditions) =
      holes (if s.conditions.isEmpty then [] else plain " WHERE " :: conjunction e s.conditions) := by
    split
    · rfl
    · exact conjunction_holes_alike s.conditions
  have order : holes (clause " ORDER BY " (fun t => t.fragments d ++ [plain " ASC"]) s.order) =
      holes (clause " ORDER BY " (fun t => t.fragments e ++ [plain " ASC"]) s.order) :=
    clause_holes_alike (fun t => by simpa using t.holes_alike) s.order
  cases joined : s.join with
  | none =>
    simp only [Select.fragments, joined, List.cons_append, holes_plain, holes_append, holes_separated, List.flatMap_map,
      outputs, conditions, order]
  | some j =>
    simp only [Select.fragments, joined, List.cons_append, holes_plain, holes_append, holes_separated, List.flatMap_map,
      outputs, conditions, order, j.holes_alike (d := d) (e := e)]

theorem Walk.holes_alike (w : Walk) : holes (w.fragments d) = holes (w.fragments e) := by
  have start := w.start.holes_alike (d := d) (e := e)
  cases stepping : w.step with
  | none => simp [Walk.fragments, stepping, start]
  | some step =>
    have alike := step.holes_alike (d := d) (e := e)
    have union : ∀ f : Dialect, holes (w.fragments f) = holes (w.start.fragments f) ++ holes (step.fragments f) := by
      intro f
      cases grouped : f.groupsUnion with
      | true => simp [Walk.fragments, stepping, grouped, holes_separated, holes]
      | false => simp [Walk.fragments, stepping, grouped, holes_separated, holes]
    rw [union d, union e, start, alike]

theorem Statement.values_alike (s : Statement) : s.values d = s.values e := by
  have walk := s.walk.holes_alike (d := d) (e := e)
  have body := s.body.holes_alike (d := d) (e := e)
  simp [Statement.values, Statement.fragments, walk, body]

-- A statement without its values. The number of values that a term is among stays.

def Bound.erased : Bound → Bound := fun _ => .number 0

def Term.erased : Term → Term
  | .column source name => .column source name
  | .bound v => .bound v.erased
  | .asText t => .asText t.erased
  | .sum left right => .sum left.erased right.erased

def Condition.erased : Condition → Condition
  | .equal left right => .equal left.erased right.erased
  | .present t => .present t.erased
  | .among t values => .among t.erased (values.map Bound.erased)

def Join.erased (j : Join) : Join := { j with on := j.on.map Condition.erased }

def Lookup.erased (l : Lookup) : Lookup :=
  { l with value := l.value.erased, join := l.join.erased, condition := l.condition.erased }

def Value.erased : Value → Value
  | .term t => .term t.erased
  | .lookup l => .lookup l.erased

def Output.erased : Output → Output
  | .term t => .term t.erased
  | .named t name => .named t.erased name
  | .dispatch arms => .dispatch (arms.map fun a => (a.1.erased, a.2.erased))

def Select.erased (s : Select) : Select :=
  { s with
    outputs := s.outputs.map Output.erased
    join := s.join.map Join.erased
    conditions := s.conditions.map Condition.erased
    order := s.order.map Term.erased
    limit := s.limit.map fun _ => 0 }

def Walk.erased (w : Walk) : Walk := { w with start := w.start.erased, step := w.step.map Select.erased }

def Statement.erased (s : Statement) : Statement := ⟨s.walk.erased, s.body.erased⟩

-- Fragments that differ at most in the values of their holes.

def Fragment.blank : Fragment → Fragment
  | hole _ => hole (.number 0)
  | f => f

def blanked (fs : List Fragment) : List Fragment := fs.map Fragment.blank

@[simp] theorem blanked_append : blanked (l ++ r) = blanked l ++ blanked r := List.map_append ..

@[simp] theorem blanked_nil : blanked [] = [] := rfl

@[simp] theorem blanked_plain : blanked (plain text :: r) = plain text :: blanked r := rfl

@[simp] theorem blanked_quoted : blanked (quoted text :: r) = quoted text :: blanked r := rfl

@[simp] theorem blanked_hole {v : Bound} : blanked (hole v :: r) = hole (.number 0) :: blanked r := rfl

theorem assemble_blanked {position : Nat} : assemble d position (blanked fs) = assemble d position fs := by
  induction fs generalizing position with
  | nil => rfl
  | cons f rest ih =>
    cases f with
    | plain s => exact congrArg (s :: ·) ih
    | quoted s => exact congrArg (d.quoted s :: ·) ih
    | hole v => exact congrArg (d.placeholder position :: ·) ih

theorem blanked_separated : blanked (separated separator parts) = separated separator (parts.map blanked) := by
  induction parts with
  | nil => rfl
  | cons part rest ih =>
    cases rest with
    | nil => rfl
    | cons next others => simpa [separated] using ih

theorem blanked_flatMap {α : Type} {items : List α} {write : α → List Fragment} :
    blanked (items.flatMap write) = items.flatMap fun a => blanked (write a) := List.map_flatMap ..

theorem Term.blanked_erased (t : Term) : blanked (t.erased.fragments d) = blanked (t.fragments d) := by
  induction t with
  | column source name => rfl
  | bound v => rfl
  | asText t ih => simp [Term.erased, Term.fragments, ih]
  | sum left right leftAlike rightAlike => simp [Term.erased, Term.fragments, leftAlike, rightAlike]

theorem Condition.blanked_erased (c : Condition) : blanked (c.erased.fragments d) = blanked (c.fragments d) := by
  cases c with
  | equal left right => simp [Condition.erased, Condition.fragments, left.blanked_erased, right.blanked_erased]
  | present t => simp [Condition.erased, Condition.fragments, t.blanked_erased]
  | among t values =>
    cases values with
    | nil => rfl
    | cons v rest =>
      simp [Condition.erased, Condition.fragments, t.blanked_erased, blanked_separated, Function.comp_def]

theorem conjunction_blanked_erased (conditions : List Condition) :
    blanked (conjunction d (conditions.map Condition.erased)) = blanked (conjunction d conditions) := by
  simp [conjunction, blanked_separated, Function.comp_def, Condition.blanked_erased]

theorem Join.blanked_erased (j : Join) : blanked (j.erased.fragments d) = blanked (j.fragments d) := by
  simp [Join.erased, Join.fragments, conjunction_blanked_erased]

theorem Lookup.blanked_erased (l : Lookup) : blanked (l.erased.fragments d) = blanked (l.fragments d) := by
  simp [Lookup.erased, Lookup.fragments, Term.blanked_erased, Join.blanked_erased, Condition.blanked_erased]

theorem Value.blanked_erased (v : Value) : blanked (v.erased.fragments d) = blanked (v.fragments d) := by
  cases v with
  | term t => exact t.blanked_erased
  | lookup l => exact l.blanked_erased

theorem Output.blanked_erased (o : Output) : blanked (o.erased.fragments d) = blanked (o.fragments d) := by
  cases o with
  | term t => exact t.blanked_erased
  | named t name => simp [Output.erased, Output.fragments, t.blanked_erased]
  | dispatch arms =>
    simp [Output.erased, Output.fragments, arm, blanked_flatMap, List.flatMap_map, Condition.blanked_erased, Value.blanked_erased]

theorem Select.blanked_erased (s : Select) : blanked (s.erased.fragments d) = blanked (s.fragments d) := by
  have conditions : blanked
        (if s.conditions = [] then [] else plain " WHERE " :: conjunction d (s.conditions.map Condition.erased)) =
      blanked (if s.conditions = [] then [] else plain " WHERE " :: conjunction d s.conditions) := by
    split
    · rfl
    · exact congrArg (plain " WHERE " :: ·) (conjunction_blanked_erased s.conditions)
  have order : blanked (clause " ORDER BY " (fun t => t.fragments d ++ [plain " ASC"]) (s.order.map Term.erased)) =
      blanked (clause " ORDER BY " (fun t => t.fragments d ++ [plain " ASC"]) s.order) := by
    cases s.order with
    | none => rfl
    | some t => simp [clause, t.blanked_erased]
  have limit : blanked (clause " LIMIT " (fun n => [hole (.number n)]) (s.limit.map fun _ => 0)) =
      blanked (clause " LIMIT " (fun n => [hole (.number n)]) s.limit) := by
    cases s.limit with
    | none => rfl
    | some n => rfl
  cases joined : s.join with
  | none =>
    simp [Select.erased, Select.fragments, joined, blanked_separated, Function.comp_def, Output.blanked_erased, conditions,
      order, limit]
  | some j =>
    simp [Select.erased, Select.fragments, joined, blanked_separated, Function.comp_def, Output.blanked_erased,
      j.blanked_erased, conditions, order, limit]

theorem Walk.blanked_erased (w : Walk) : blanked (w.erased.fragments d) = blanked (w.fragments d) := by
  cases stepping : w.step with
  | none => simp [Walk.erased, Walk.fragments, stepping, Select.blanked_erased]
  | some step =>
    cases grouped : d.groupsUnion with
    | true => simp [Walk.erased, Walk.fragments, stepping, grouped, Select.blanked_erased]
    | false => simp [Walk.erased, Walk.fragments, stepping, grouped, Select.blanked_erased]

theorem Statement.text_of_erased {s t : Statement} (same : s.erased = t.erased) : s.text d = t.text d := by
  have blanks : ∀ u : Statement, blanked (u.erased.fragments d) = blanked (u.fragments d) := by
    intro u
    simp [Statement.erased, Statement.fragments, Walk.blanked_erased, Select.blanked_erased]
  have assembled : assemble d 1 (s.fragments d) = assemble d 1 (t.fragments d) := by
    rw [← assemble_blanked, ← blanks s, same, blanks t, assemble_blanked]
  exact congrArg String.join assembled

end ScopedAccess.Query
