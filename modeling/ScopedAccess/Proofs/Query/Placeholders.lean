import ScopedAccess.Identifier
import ScopedAccess.Proofs.Query.Rendering

namespace ScopedAccess.Query

open Fragment (plain quoted hole)

variable {d : Dialect} {separator text name : String} {l r fs : List Fragment} {parts : List (List Fragment)} {position : Nat}
  {mark : Char}

def numbers : List Char → List String
  | [] => []
  | c :: rest => if c = '$' then String.ofList (rest.takeWhile Char.isDigit) :: numbers rest else numbers rest

-- A text that neither is nor completes a placeholder.
def Unmarked (text : String) : Prop :=
  (∃ c rest, text.toList = c :: rest ∧ c.isDigit = false) ∧ '?' ∉ text.toList ∧ '$' ∉ text.toList

def Guarded : List Fragment → Prop
  | hole _ :: _ => False
  | _ => True

-- No two holes touch, and what is written is unmarked.
def Spelled : List Fragment → Prop
  | [] => True
  | plain text :: rest => Unmarked text ∧ Spelled rest
  | quoted _ :: rest => Spelled rest
  | hole _ :: rest => Guarded rest ∧ Spelled rest

theorem Guarded.append (first : Guarded l) (second : Guarded r) : Guarded (l ++ r) := by
  cases l with
  | nil => exact second
  | cons f rest => cases f <;> exact first

def Follows (fs : List Fragment) : Prop := Guarded fs ∧ Spelled fs

theorem spelled_hole (v : Bound) : Spelled [hole v] := ⟨trivial, trivial⟩

theorem follows_nil : Follows [] := ⟨trivial, trivial⟩

theorem Spelled.behind (spelled : Spelled r) (unmarked : Unmarked text) : Follows (plain text :: r) :=
  ⟨trivial, unmarked, spelled⟩

theorem Spelled.append (first : Spelled l) (second : Follows r) : Spelled (l ++ r) := by
  induction l with
  | nil => exact second.2
  | cons f rest ih =>
    cases f with
    | plain text => exact ⟨first.1, ih first.2⟩
    | quoted name => exact ih first
    | hole v => exact ⟨first.1.append second.1, ih first.2⟩

theorem Spelled.between (first : Spelled l) (unmarked : Unmarked text) (second : Spelled r) : Spelled (l ++ plain text :: r) :=
  first.append (second.behind unmarked)

theorem Spelled.closed (first : Spelled l) (unmarked : Unmarked text) : Spelled (l ++ [plain text]) :=
  first.between unmarked trivial

theorem spelled_separated (unmarked : Unmarked separator) (each : ∀ part ∈ parts, Spelled part) :
    Spelled (separated separator parts) := by
  induction parts with
  | nil => trivial
  | cons part rest ih =>
    obtain ⟨here, later⟩ := List.forall_mem_cons.mp each
    cases rest with
    | nil => exact here
    | cons next others => exact here.between unmarked (ih later)

theorem Term.spelled (t : Term) : Spelled (t.fragments d) := by
  induction t with
  | column source name => exact ⟨by simp [Unmarked], trivial⟩
  | bound v => exact spelled_hole v
  | asText t ih =>
    refine Spelled.closed (l := plain "CAST(" :: t.fragments d) ⟨by simp [Unmarked], ih⟩ ?_
    cases d <;> simp [Unmarked, Dialect.textType]
  | sum left right leftSpelled rightSpelled => exact leftSpelled.between (by simp [Unmarked]) rightSpelled

theorem spelled_list {α : Type} {write : α → List Fragment} (items : List α) (each : ∀ a, Spelled (write a)) :
    Spelled (separated ", " (items.map write)) := by
  refine spelled_separated (by simp [Unmarked]) fun part member => ?_
  obtain ⟨a, _, rfl⟩ := List.mem_map.mp member
  exact each a

theorem Condition.spelled (c : Condition) : Spelled (c.fragments d) := by
  cases c with
  | equal left right => exact left.spelled.between (by simp [Unmarked]) right.spelled
  | present t => exact t.spelled.closed (by simp [Unmarked])
  | among t values =>
    cases values with
    | nil => exact ⟨trivial, by simp [Unmarked], trivial, trivial⟩
    | cons v rest =>
      have listed : Spelled (separated ", " ((v :: rest).map fun v => [hole v])) := spelled_list _ spelled_hole
      exact (t.spelled.between (by simp [Unmarked]) listed).closed (by simp [Unmarked])

theorem conjunction_spelled (conditions : List Condition) : Spelled (conjunction d conditions) := by
  refine spelled_separated (by simp [Unmarked]) fun part member => ?_
  obtain ⟨c, _, rfl⟩ := List.mem_map.mp member
  exact c.spelled

theorem Source.spelled (s : Source) : Spelled s.fragments := by
  cases s with
  | mk table renamed =>
    cases renamed with
    | none => trivial
    | some name => exact ⟨by simp [Unmarked], trivial⟩

theorem Join.follows (j : Join) : Follows (j.fragments d) := by
  have opening : Spelled (plain " INNER JOIN " :: j.source.fragments) := ⟨by simp [Unmarked], j.source.spelled⟩
  exact ⟨trivial, opening.between (by simp [Unmarked]) (conjunction_spelled j.on)⟩

theorem Lookup.spelled (l : Lookup) : Spelled (l.fragments d) := by
  have value : Spelled (plain "(SELECT " :: l.value.fragments d) := ⟨by simp [Unmarked], l.value.spelled⟩
  have source : Spelled (plain "(SELECT " :: l.value.fragments d ++ plain " FROM " :: l.source.fragments) :=
    value.between (by simp [Unmarked]) l.source.spelled
  exact ((source.append l.join.follows).between (by simp [Unmarked]) l.condition.spelled).closed (by simp [Unmarked])

theorem Value.spelled (v : Value) : Spelled (v.fragments d) := by
  cases v with
  | term t => exact t.spelled
  | lookup l => exact l.spelled

theorem arms_follow (arms : List (Condition × Value)) : Follows (arms.flatMap (arm d)) := by
  induction arms with
  | nil => exact follows_nil
  | cons a rest ih =>
    have opening : Spelled (plain " WHEN (" :: a.1.fragments d) := ⟨by simp [Unmarked], a.1.spelled⟩
    have here : Spelled (arm d a) := opening.between (by simp [Unmarked]) a.2.spelled
    exact ⟨trivial, here.append ih⟩

theorem Output.spelled (o : Output) : Spelled (o.fragments d) := by
  cases o with
  | term t => exact t.spelled
  | named t name => exact t.spelled.between (by simp [Unmarked]) trivial
  | dispatch arms =>
    have opening : Spelled (plain "(CASE" :: arms.flatMap (arm d)) := ⟨by simp [Unmarked], (arms_follow arms).2⟩
    exact opening.closed (by simp [Unmarked])

theorem clause_follows {α : Type} {write : α → List Fragment} (unmarked : Unmarked text) (each : ∀ a, Spelled (write a))
    (o : Option α) : Follows (clause text write o) := by
  cases o with
  | none => exact follows_nil
  | some a => exact (each a).behind unmarked

theorem follows_elim {α : Type} {write : α → List Fragment} (each : ∀ a, Follows (write a)) (o : Option α) :
    Follows (o.elim [] write) := by
  cases o with
  | none => exact follows_nil
  | some a => exact each a

theorem Select.fragments_eq (s : Select) : s.fragments d =
    plain (if s.distinct then "SELECT DISTINCT " else "SELECT ") :: separated ", " (s.outputs.map (Output.fragments d)) ++
      clause " FROM " Source.fragments s.source ++ s.join.elim [] (Join.fragments d) ++
      (if s.conditions.isEmpty then [] else plain " WHERE " :: conjunction d s.conditions) ++
      clause " ORDER BY " (fun t => t.fragments d ++ [plain " ASC"]) s.order ++
      clause " LIMIT " (fun n => [hole (.number n)]) s.limit := by
  rw [Select.fragments]
  cases s.join <;> rfl

theorem Select.spelled (s : Select) : Spelled (s.fragments d) := by
  have outputs : Spelled (plain (if s.distinct then "SELECT DISTINCT " else "SELECT ") ::
      separated ", " (s.outputs.map (Output.fragments d))) := by
    refine ⟨?_, spelled_list _ Output.spelled⟩
    cases s.distinct <;> simp [Unmarked]
  have source : Follows (clause " FROM " Source.fragments s.source) := clause_follows (by simp [Unmarked]) Source.spelled _
  have join : Follows (s.join.elim [] (Join.fragments d)) := follows_elim Join.follows _
  have conditions : Follows (if s.conditions.isEmpty then [] else plain " WHERE " :: conjunction d s.conditions) := by
    split
    · exact follows_nil
    · exact (conjunction_spelled s.conditions).behind (by simp [Unmarked])
  have order : Follows (clause " ORDER BY " (fun t => t.fragments d ++ [plain " ASC"]) s.order) :=
    clause_follows (by simp [Unmarked]) (fun t => t.spelled.closed (by simp [Unmarked])) _
  have limit : Follows (clause " LIMIT " (fun n => [hole (.number n)]) s.limit) :=
    clause_follows (by simp [Unmarked]) (fun n => spelled_hole _) _
  rw [Select.fragments_eq]
  exact ((((outputs.append source).append join).append conditions).append order).append limit

theorem Walk.fragments_eq (w : Walk) : w.fragments d =
    [plain "WITH RECURSIVE ", quoted w.name, plain " ("] ++ separated ", " (w.columns.map fun c => [quoted c]) ++
      plain ") AS (" :: w.start.fragments d ++
      (w.step.elim [] fun step =>
        if d.groupsUnion then plain " UNION (" :: step.fragments d ++ [plain ")"] else plain " UNION " :: step.fragments d) ++
      [plain ")"] := by
  rw [Walk.fragments]
  cases w.step <;> rfl

theorem Walk.spelled (w : Walk) : Spelled (w.fragments d) := by
  have columns : Spelled (separated ", " (w.columns.map fun c => [quoted c])) := spelled_list _ fun _ => trivial
  have opening : Spelled ([plain "WITH RECURSIVE ", quoted w.name, plain " ("] ++
      separated ", " (w.columns.map fun c => [quoted c])) :=
    ⟨by simp [Unmarked], by simp [Unmarked], columns⟩
  have step : Follows (w.step.elim [] fun step =>
      if d.groupsUnion then plain " UNION (" :: step.fragments d ++ [plain ")"] else plain " UNION " :: step.fragments d) := by
    refine follows_elim (fun step => ?_) _
    split
    · exact (step.spelled.closed (by simp [Unmarked])).behind (by simp [Unmarked])
    · exact step.spelled.behind (by simp [Unmarked])
  rw [Walk.fragments_eq]
  exact ((opening.between (by simp [Unmarked]) w.start.spelled).append step).closed (by simp [Unmarked])

theorem Statement.spelled (s : Statement) : Spelled (s.fragments d) :=
  s.walk.spelled.between (by simp [Unmarked]) s.body.spelled

def Named (fs : List Fragment) : Prop := ∀ name, quoted name ∈ fs → IsPlainName name

@[simp] theorem named_nil : Named [] := by simp [Named]

@[simp] theorem named_plain : Named (plain text :: fs) ↔ Named fs := by simp [Named]

@[simp] theorem named_quoted : Named (quoted name :: fs) ↔ IsPlainName name ∧ Named fs := by simp [Named]

@[simp] theorem named_hole {v : Bound} : Named (hole v :: fs) ↔ Named fs := by simp [Named]

@[simp] theorem named_append : Named (l ++ r) ↔ Named l ∧ Named r := by
  simp only [Named, List.mem_append, or_imp, forall_and]

@[simp] theorem named_separated : Named (separated separator parts) ↔ ∀ part ∈ parts, Named part := by
  induction parts with
  | nil => simp [separated]
  | cons part rest ih =>
    cases rest with
    | nil => simp [separated]
    | cons next others => simp only [separated, named_append, named_plain, ih, List.forall_mem_cons]

@[simp] theorem named_flatMap {α : Type} {items : List α} {write : α → List Fragment} :
    Named (items.flatMap write) ↔ ∀ a ∈ items, Named (write a) := by
  induction items with
  | nil => simp
  | cons a rest ih => rw [List.flatMap_cons, named_append, ih, List.forall_mem_cons]

theorem named_column {source : String} (plainSource : IsPlainName source) (plainName : IsPlainName name) :
    Named ((Term.column source name).fragments d) := by
  simp [Term.fragments, plainSource, plainName]

theorem named_asText {t : Term} (named : Named (t.fragments d)) : Named ((Term.asText t).fragments d) := by
  simp [Term.fragments, named]

theorem named_equal {left right : Term} (first : Named (left.fragments d)) (second : Named (right.fragments d)) :
    Named ((Condition.equal left right).fragments d) := by
  simp [Condition.fragments, first, second]

theorem named_among {t : Term} {values : List Bound} (named : Named (t.fragments d)) :
    Named ((Condition.among t values).fragments d) := by
  cases values with
  | nil => simp [Condition.fragments]
  | cons v rest => simp [Condition.fragments, named]

theorem named_conjunction {conditions : List Condition} (each : ∀ c ∈ conditions, Named (c.fragments d)) :
    Named (conjunction d conditions) := by
  simpa [conjunction] using each

theorem named_dispatch {arms : List (Condition × Value)}
    (each : ∀ a ∈ arms, Named (a.1.fragments d) ∧ Named (a.2.fragments d)) :
    Named ((Output.dispatch arms).fragments d) := by
  simpa [Output.fragments, arm] using each

theorem named_elim {α : Type} {write : α → List Fragment} {o : Option α} (each : ∀ a, o = some a → Named (write a)) :
    Named (o.elim [] write) := by
  cases o with
  | none => exact named_nil
  | some a => exact each a rfl

theorem named_select {s : Select} (outputs : ∀ o ∈ s.outputs, Named (o.fragments d))
    (source : ∀ x, s.source = some x → Named x.fragments) (join : ∀ j, s.join = some j → Named (j.fragments d))
    (conditions : ∀ c ∈ s.conditions, Named (c.fragments d)) (order : ∀ t, s.order = some t → Named (t.fragments d)) :
    Named (s.fragments d) := by
  have listed : ∀ part ∈ s.outputs.map (Output.fragments d), Named part := by
    intro part member
    obtain ⟨o, place, rfl⟩ := List.mem_map.mp member
    exact outputs o place
  have origin : Named (clause " FROM " Source.fragments s.source) := by
    cases given : s.source with
    | none => exact named_nil
    | some x => exact named_plain.mpr (source x given)
  have filtered : Named (if s.conditions.isEmpty then [] else plain " WHERE " :: conjunction d s.conditions) := by
    split
    · exact named_nil
    · exact named_plain.mpr (named_conjunction conditions)
  have ordered : Named (clause " ORDER BY " (fun t => t.fragments d ++ [plain " ASC"]) s.order) := by
    cases given : s.order with
    | none => exact named_nil
    | some t => simpa [clause] using order t given
  have limited : Named (clause " LIMIT " (fun n => [hole (.number n)]) s.limit) := by
    cases s.limit <;> simp [clause]
  have joined : Named (s.join.elim [] (Join.fragments d)) := named_elim join
  simp only [Select.fragments_eq, named_append, named_plain, named_separated]
  exact ⟨⟨⟨⟨⟨listed, origin⟩, joined⟩, filtered⟩, ordered⟩, limited⟩

theorem named_walk {w : Walk} (plainName : IsPlainName w.name) (columns : ∀ c ∈ w.columns, IsPlainName c)
    (start : Named (w.start.fragments d)) (step : ∀ s, w.step = some s → Named (s.fragments d)) : Named (w.fragments d) := by
  have stepping : Named (w.step.elim [] fun step =>
      if d.groupsUnion then plain " UNION (" :: step.fragments d ++ [plain ")"] else plain " UNION " :: step.fragments d) := by
    refine named_elim fun s given => ?_
    have named := step s given
    cases d.groupsUnion <;> simp [named]
  have heading : Named [quoted w.name, plain " ("] := by simpa using plainName
  have listed : Named (separated ", " (w.columns.map fun c => [quoted c])) := by simpa using columns
  simp only [Walk.fragments_eq, named_append, named_plain]
  exact ⟨⟨⟨⟨heading, listed⟩, start⟩, stepping⟩, named_nil⟩

theorem Named.rest {f : Fragment} (named : Named (f :: fs)) : Named fs :=
  fun name member => named name (List.mem_cons_of_mem _ member)

theorem toList_quoted : (d.quoted name).toList =
    d.quote :: (name.toList.flatMap (fun c => if c = d.quote then [d.quote, d.quote] else [c]) ++ [d.quote]) := by
  simp [Dialect.quoted]

theorem not_mem_quoted (outside : mark ∉ name.toList) (apart : mark ≠ d.quote) : mark ∉ (d.quoted name).toList := by
  rw [toList_quoted]
  intro member
  rcases List.mem_cons.mp member with same | member
  · exact apart same
  · rcases List.mem_append.mp member with written | last
    · obtain ⟨c, place, here⟩ := List.mem_flatMap.mp written
      split at here
      · exact apart (by simpa using here)
      · exact outside (List.mem_singleton.mp here ▸ place)
    · exact apart (List.mem_singleton.mp last)

theorem quoted_free (plainName : IsPlainName name) : '?' ∉ (d.quoted name).toList ∧ '$' ∉ (d.quoted name).toList := by
  constructor
  · refine not_mem_quoted (plainName.not_mem (by decide) (by decide)) ?_
    cases d <;> decide
  · refine not_mem_quoted (plainName.not_mem (by decide) (by decide)) ?_
    cases d <;> decide

theorem count_marks_of (asks : d ≠ .postgres) (spelled : Spelled fs) (named : Named fs) :
    ((assemble d position fs).flatMap String.toList).count '?' = (holes fs).length := by
  induction fs generalizing position with
  | nil => rfl
  | cons f rest ih =>
    cases f with
    | plain text =>
      have onward : ((assemble d position rest).flatMap String.toList).count '?' = (holes rest).length := ih spelled.2 named.rest
      simp [assemble, onward, List.count_eq_zero_of_not_mem spelled.1.2.1]
    | quoted name =>
      have onward : ((assemble d position rest).flatMap String.toList).count '?' = (holes rest).length := ih spelled named.rest
      have free := quoted_free (d := d) (named name (List.mem_cons_self ..))
      simp [assemble, onward, List.count_eq_zero_of_not_mem free.1]
    | hole v =>
      have onward : ((assemble d (position + 1) rest).flatMap String.toList).count '?' = (holes rest).length :=
        ih spelled.2 named.rest
      have mark : d.placeholder position = "?" := by
        cases d with
        | postgres => exact absurd rfl asks
        | sqlite => rfl
        | mysql => rfl
      simp [assemble, holes, onward, mark, Nat.add_comm]

theorem numbers_append {front back : List Char} (free : '$' ∉ front) : numbers (front ++ back) = numbers back := by
  induction front with
  | nil => rfl
  | cons c rest ih =>
    rw [List.mem_cons, not_or] at free
    rw [List.cons_append, numbers, if_neg (Ne.symm free.1), ih free.2]

-- What may follow a hole does not go on with its number.
theorem Follows.takeWhile_digits (follows : Follows fs) :
    ((assemble .postgres position fs).flatMap String.toList).takeWhile Char.isDigit = [] := by
  cases fs with
  | nil => rfl
  | cons f rest =>
    cases f with
    | plain text =>
      obtain ⟨c, others, shape, nonDigit⟩ := follows.2.1.1
      simp [assemble, shape, nonDigit]
    | quoted name => simp [assemble, toList_quoted, Dialect.quote]
    | hole v => exact absurd follows.1 id

theorem numbers_of (spelled : Spelled fs) (named : Named fs) :
    numbers ((assemble .postgres position fs).flatMap String.toList) = (List.range' position (holes fs).length).map toString := by
  induction fs generalizing position with
  | nil => rfl
  | cons f rest ih =>
    cases f with
    | plain text =>
      rw [assemble, List.flatMap_cons, numbers_append spelled.1.2.2, ih spelled.2 named.rest, holes_plain]
    | quoted name =>
      have free := quoted_free (d := .postgres) (named name (List.mem_cons_self ..))
      rw [assemble, List.flatMap_cons, numbers_append free.2, ih spelled named.rest, holes_quoted]
    | hole v =>
      have digits : ∀ c ∈ (toString position).toList, c.isDigit = true := by
        intro c member
        rw [Nat.toString_eq_repr, Nat.toList_repr] at member
        exact Nat.isDigit_of_mem_toDigits (by decide) (by decide) member
      have free : '$' ∉ (toString position).toList := fun member => absurd (digits _ member) (by decide)
      have taken : ((toString position).toList ++
          (assemble .postgres (position + 1) rest).flatMap String.toList).takeWhile Char.isDigit =
          (toString position).toList := by
        rw [List.takeWhile_append_of_pos digits, Follows.takeWhile_digits spelled, List.append_nil]
      have shape : (assemble .postgres position (hole v :: rest)).flatMap String.toList =
          '$' :: ((toString position).toList ++ (assemble .postgres (position + 1) rest).flatMap String.toList) := by
        simp [assemble, Dialect.placeholder]
      rw [shape, numbers, if_pos rfl, taken, numbers_append free, ih spelled.2 named.rest, String.ofList_toList]
      rfl

variable {s : Statement}

theorem Statement.toList_text : (s.text d).toList = (assemble d 1 (s.fragments d)).flatMap String.toList := String.toList_join

theorem Statement.count_marks (asks : d ≠ .postgres) (named : Named (s.fragments d)) :
    (s.text d).toList.count '?' = (s.values d).length := by
  rw [toList_text, count_marks_of asks s.spelled named]
  rfl

theorem Statement.numbers_eq (named : Named (s.fragments .postgres)) :
    numbers (s.text .postgres).toList = (List.range' 1 (s.values .postgres).length).map toString := by
  rw [toList_text, numbers_of s.spelled named]
  rfl

end ScopedAccess.Query
