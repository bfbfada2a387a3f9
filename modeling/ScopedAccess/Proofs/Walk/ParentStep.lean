import ScopedAccess.Authorizer
import ScopedAccess.Proofs.Hierarchy

namespace ScopedAccess

-- What a row holds in a column, with the form that the column prefers. A column that is not there
-- holds nothing.
def cellAt (columns : List Column) (column : String) (row : Row) : Cell × Option Affinity :=
  match Relation.columnIndex? columns column with
  | some i => (row.getD i .null, (columns[i]?).bind (·.affinity))
  | none => (.null, none)

def textAt (columns : List Column) (column : String) (row : Row) : Option Text :=
  (cellAt columns column row).1.toText.text?

theorem textAt_eq_none_iff {columns : List Column} {column : String} {row : Row} :
    textAt columns column row = none ↔ (cellAt columns column row).1 = .null := by
  unfold textAt
  cases (cellAt columns column row).1 with
  | blob bytes => simp [Cell.toText, Cell.text?_cell]
  | _ => simp [Cell.toText, Cell.written, Cell.text?]

-- An instance as tables have it: the text of its id need not be one that can be read.
structure Spot where
  resourceType : String
  id : Text
deriving DecidableEq

def Instance.spot (i : Instance) : Spot := ⟨i.resourceType, i.id⟩

instance : Coe Instance Spot := ⟨Instance.spot⟩

theorem Instance.spot_inj {i j : Instance} (same : i.spot = j.spot) : i = j := by
  obtain ⟨_, _⟩ := i
  obtain ⟨_, _⟩ := j
  cases same
  rfl

namespace ParentLink

-- The pairs of a child row and a parent row that belong together, in the order of the rows.
def pairs (l : ParentLink) (child parent : Relation) : List (Row × Row) :=
  child.rows.flatMap fun c => (parent.rows.filter fun p =>
    Cell.equal (cellAt child.columns l.field c) (cellAt parent.columns l.references p)).map (c, ·)

def parentId? (db : Query.Database) (l : ParentLink) (id : Text) : Option Text := do
  let child ← db l.child.table
  let parent ← db l.parent.table
  let pair ← (l.pairs child parent).find? fun pair => textAt child.columns l.child.idColumn pair.1 = some id
  textAt parent.columns l.parent.idColumn pair.2

theorem parentId?_eq_none_iff {db : Query.Database} {link : ParentLink} {id : Text} : link.parentId? db id = none ↔
    (∀ child parent, db link.child.table = some child → db link.parent.table = some parent →
      ∀ pair ∈ link.pairs child parent, textAt child.columns link.child.idColumn pair.1 ≠ some id) ∨
    ∃ child parent pair, db link.child.table = some child ∧ db link.parent.table = some parent ∧
      (link.pairs child parent).find? (fun pair => textAt child.columns link.child.idColumn pair.1 = some id) = some pair ∧
      (cellAt parent.columns link.parent.idColumn pair.2).1 = .null := by
  constructor
  · intro nowhere
    by_cases chosen : ∃ child parent pair, db link.child.table = some child ∧ db link.parent.table = some parent ∧
        (link.pairs child parent).find? (fun pair => textAt child.columns link.child.idColumn pair.1 = some id) = some pair
    · obtain ⟨child, parent, pair, children, parents, first⟩ := chosen
      refine .inr ⟨child, parent, pair, children, parents, first, textAt_eq_none_iff.mp ?_⟩
      simpa only [parentId?, children, parents, first, Option.bind_eq_bind, Option.bind_some] using nowhere
    · refine .inl fun child parent children parents pair member same => chosen ?_
      have some : ((link.pairs child parent).find? fun pair =>
          textAt child.columns link.child.idColumn pair.1 = some id).isSome = true :=
        List.find?_isSome.mpr ⟨pair, member, decide_eq_true same⟩
      obtain ⟨first, found⟩ := Option.isSome_iff_exists.mp some
      exact ⟨child, parent, first, children, parents, found⟩
  · intro given
    rcases given with missing | ⟨child, parent, pair, children, parents, first, null⟩
    · refine Option.eq_none_iff_forall_ne_some.mpr fun parent found => ?_
      simp only [parentId?, Option.bind_eq_bind, Option.bind_eq_some_iff] at found
      obtain ⟨child, children, parent, parents, pair, first, _⟩ := found
      have here : textAt child.columns link.child.idColumn pair.1 = some id := by simpa using List.find?_some first
      exact missing child parent children parents pair (List.mem_of_find?_eq_some first) here
    · simp only [parentId?, children, parents, first, Option.bind_eq_bind, Option.bind_some]
      exact textAt_eq_none_iff.mpr null

end ParentLink

inductive ParentStep (db : Query.Database) (m : Model) : Spot → Spot → Prop where
  | along {t : String} {id parent : Text} {link : ParentLink} (declared : m.links.find? t = some link)
      (found : link.parentId? db id = some parent) :
      ParentStep db m ⟨t, id⟩ ⟨link.parent.resourceType, parent⟩

namespace ParentStep

variable {db : Query.Database} {m : Model} {i j : Spot} {n : Nat}

theorem above (step : ParentStep db m i j) : Model.Above m.links i.resourceType j.resourceType := by
  cases step with
  | along declared found => exact ⟨_, declared, rfl⟩

theorem steps_above (path : StepsIn (ParentStep db m) n i j) :
    StepsIn (Model.Above m.links) n i.resourceType j.resourceType := by
  induction path with
  | stay => exact .stay
  | step first _ ih => exact .step first.above ih

theorem steps_le_links (acyclic : ∀ t, ¬ Relation.TransGen (Model.Above m.links) t t)
    (path : StepsIn (ParentStep db m) n i j) : n ≤ m.links.size := Model.above_steps_le acyclic (steps_above path)

end ParentStep

namespace AncestorWalk

open Query

variable {b : Binding} {env : Environment} {source column : String} {db : Database} {link : ParentLink}

theorem eval_here (same : sameName b.label source = true) :
    Term.eval (b :: env) (.column source column) = cellAt b.columns column b.row := by
  simp only [Term.eval, Environment.find?, cellAt, List.find?_cons, same]
  cases found : Relation.columnIndex? b.columns column with
  | none => simp [found]
  | some i =>
    obtain ⟨bound, _⟩ := List.findIdx?_eq_some_iff_getElem.mp found
    simp [found, List.getElem?_eq_getElem bound]

theorem eval_past (other : sameName b.label source = false) :
    Term.eval (b :: env) (.column source column) = Term.eval env (.column source column) := by
  simp only [Term.eval, Environment.find?, List.find?_cons, other]

theorem eval_asText {t : Term} : Term.eval env (.asText t) = ((Term.eval env t).1.toText, some .text) := rfl

def cellOf : Option Text → Cell
  | some t => t.cell
  | none => .null

theorem text?_cellOf (o : Option Text) : (cellOf o).text? = o := by
  cases o with
  | none => rfl
  | some t => exact Cell.text?_cell t

theorem cellOf_inj {a b : Option Text} : cellOf a = cellOf b ↔ a = b :=
  ⟨fun same => by rw [← text?_cellOf a, same, text?_cellOf b], congrArg cellOf⟩

theorem cell_inj {a b : Text} : a.cell = b.cell ↔ a = b := (cellOf_inj (a := some a) (b := some b)).trans Option.some_inj

theorem cellOf_eq_null_iff {o : Option Text} : cellOf o = .null ↔ o = none := cellOf_inj (b := none)

theorem toText_eq_cellOf (c : Cell) : c.toText = cellOf c.toText.text? := by
  cases c with
  | blob bytes => rw [Cell.toText, Cell.text?_cell, cellOf]
  | _ => rfl

theorem equal_cell_iff {c : Cell} {t : Text} {form : Option Affinity} (textual : form = none ∨ form = some .text) :
    Cell.equal (c, some .text) (t.cell, form) = true ↔ c = t.cell := by
  rcases textual with rfl | rfl <;> cases t <;> cases c <;> simp [Cell.equal, Cell.same, Cell.written, Text.cell]

theorem equal_text_iff {c : Cell} {s : String} {form : Option Affinity} (textual : form = none ∨ form = some .text) :
    Cell.equal (c, some .text) (.text s, form) = true ↔ c = .text s := equal_cell_iff (t := s) textual

theorem bindings_some {t : String} {label : Option String} {r : Relation} (found : db t = some r) :
    Source.bindings db ⟨t, label⟩ = r.rows.map fun row => ⟨(Source.label ⟨t, label⟩), r.columns, row⟩ := by
  simp [Source.bindings, found]

theorem bindings_none {t : String} {label : Option String} (missing : db t = none) :
    Source.bindings db ⟨t, label⟩ = [] := by
  simp [Source.bindings, missing]

def pairBindings (child parent : Relation) (e : Row × Row) : Environment :=
  [⟨"p", parent.columns, e.2⟩, ⟨"c", child.columns, e.1⟩]

section

variable {child parent : Relation} {e : Row × Row}

theorem eval_child : Term.eval (pairBindings child parent e ++ env) (.column "c" column) = cellAt child.columns column e.1 := by
  have other : sameName "p" "c" = false := by simp [sameName_eq]
  exact (eval_past other).trans (eval_here sameName_self)

theorem eval_parent : Term.eval (pairBindings child parent e ++ env) (.column "p" column) = cellAt parent.columns column e.2 :=
  eval_here sameName_self

theorem eval_outer : Term.eval (pairBindings child parent e ++ env) (.column name column) = Term.eval env (.column name column) := by
  have notParent : sameName "p" name = false := by simp [name, sameName_eq]
  have notChild : sameName "c" name = false := by simp [name, sameName_eq]
  exact (eval_past notParent).trans (eval_past notChild)

theorem joined_eq_pairs (childFound : db link.child.table = some child) (parentFound : db link.parent.table = some parent) :
    (((parentLookup (.ofLink link)).source.bindings db).flatMap fun b => (parentLookup (.ofLink link)).join.extend db (b :: env)) =
      (link.pairs child parent).map fun e => pairBindings child parent e ++ env := by
  simp only [parentLookup, WalkStep.ofLink, bindings_some childFound, Join.extend, bindings_some parentFound, ParentLink.pairs,
    List.flatMap_map, List.map_flatMap, List.map_map, List.filter_map]
  congr 1
  funext row
  congr 1
  apply List.filter_congr
  intro other _
  have holds : Condition.holds (pairBindings child parent (row, other) ++ env)
      (.equal (.column "c" link.field) (.column "p" link.references)) =
        Cell.equal (cellAt child.columns link.field row) (cellAt parent.columns link.references other) := by
    rw [Condition.holds, eval_child, eval_parent]
  simp only [Function.comp_apply, List.all_cons, List.all_nil, Bool.and_true]
  exact holds

theorem condition_holds_iff {id : Text} (here : Term.eval env resourceId = (id.cell, some .text)) :
    (parentLookup (.ofLink link)).condition.holds (pairBindings child parent e ++ env) = true ↔
      textAt child.columns link.child.idColumn e.1 = some id := by
  have outer : Term.eval (pairBindings child parent e ++ env) resourceId = (id.cell, some .text) := eval_outer.trans here
  simp only [parentLookup, WalkStep.ofLink, Condition.holds, outer, eval_asText, eval_child]
  rw [equal_cell_iff (.inr rfl), toText_eq_cellOf]
  exact cellOf_inj (b := some id)

end

theorem eval_parentLookup {id : Text} (here : Term.eval env resourceId = (id.cell, some .text)) :
    (parentLookup (.ofLink link)).eval db env = cellOf (link.parentId? db id) := by
  unfold Lookup.eval ParentLink.parentId?
  cases childFound : db link.child.table with
  | none => simp [parentLookup, WalkStep.ofLink, bindings_none childFound, cellOf]
  | some child =>
    cases parentFound : db link.parent.table with
    | none =>
      have empty : (((parentLookup (.ofLink link)).source.bindings db).flatMap fun b =>
          (parentLookup (.ofLink link)).join.extend db (b :: env)) = [] := by
        rw [List.flatMap_eq_nil_iff]
        intro b _
        simp [parentLookup, WalkStep.ofLink, Join.extend, bindings_none parentFound]
      simp only [empty, List.find?_nil]
      rfl
    | some parent =>
      have sameTest : ((fun env => (parentLookup (.ofLink link)).condition.holds env) ∘ fun e => pairBindings child parent e ++ env) =
          fun e => decide (textAt child.columns link.child.idColumn e.1 = some id) := by
        funext e
        rw [Bool.eq_iff_iff, decide_eq_true_iff]
        exact condition_holds_iff here
      simp only [joined_eq_pairs childFound parentFound, List.find?_map, sameTest, Option.bind_eq_bind, Option.bind_some]
      cases (link.pairs child parent).find? fun e => decide (textAt child.columns link.child.idColumn e.1 = some id) with
      | none => rfl
      | some e =>
        simp only [Option.map_some, Option.bind_some]
        have value : Term.eval (pairBindings child parent e ++ env) (parentLookup (.ofLink link)).value =
            ((cellAt parent.columns link.parent.idColumn e.2).1.toText, some .text) := by
          simp only [parentLookup, WalkStep.ofLink, eval_asText, eval_parent]
        rw [value]
        exact toText_eq_cellOf _

end AncestorWalk

end ScopedAccess
