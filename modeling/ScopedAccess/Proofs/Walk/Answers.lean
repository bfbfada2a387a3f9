import ScopedAccess.Proofs.Walk.Congruence

namespace ScopedAccess

namespace AncestorWalk

open Query

variable {db : Database} {w : Walk} {held : Relation} {row : Row} {rows : List Row} {user type id column : String}
  {roles : List String} {source reached : Option Text} {taken : Nat} {env : Environment}

theorem rows_startAt : (startAt type id).rows db = [walkRow (some ↑id) (some ↑id) type 0] := rfl

theorem rows_startAll {t : FilterTarget} {r : Relation} (found : db t.table = some r) :
    (startAll t).rows db = r.rows.map fun row =>
      walkRow (textAt r.columns t.idColumn row) (textAt r.columns t.idColumn row) t.resourceType 0 := by
  have bindings : Source.bindings db ⟨t.table, some "r"⟩ = r.rows.map fun row => ⟨"r", r.columns, row⟩ := bindings_some found
  have environments : (startAll t).environments db = r.rows.map fun row => [⟨"r", r.columns, row⟩] := by
    simp only [startAll, Select.environments, bindings, List.map_map]
    exact List.filter_eq_self.mpr fun _ _ => rfl
  have listed : (startAll t).rows db = ((startAll t).environments db).map fun env =>
      (startAll t).outputs.map (Output.eval db env) := rfl
  rw [listed, environments, List.map_map]
  apply List.map_congr_left
  intro row _
  have value : Term.eval [⟨"r", r.columns, row⟩] (.column "r" t.idColumn) = cellAt r.columns t.idColumn row :=
    eval_here sameName_self
  simp only [Function.comp_apply, startAll, List.map_cons, List.map_nil, Output.eval, eval_asText, value, walkRow, textAt,
    ← toText_eq_cellOf]
  rfl

def Assigns (held : Relation) (row : Row) (user : String) (i : Spot) (role : String) : Prop :=
  (cellAt held.columns "user_id" row).1 = .text user ∧ (cellAt held.columns "resource_type" row).1 = .text i.resourceType ∧
    (cellAt held.columns "resource_id" row).1 = i.id.cell ∧ (cellAt held.columns "role" row).1 = .text role

-- The columns that say so prefer text, as the schema has it.
def Textual (held : Relation) : Prop :=
  ∀ column ∈ ["user_id", "resource_type", "resource_id", "role"], ∀ row, (cellAt held.columns column row).2 = some .text

def joined (held : Relation) (row x : Row) : Environment := [walkBinding x, ⟨"ur", held.columns, row⟩]

theorem eval_assigned {x : Row} : Term.eval (joined held row x) (assigned column) = cellAt held.columns column row := by
  have other : sameName name "ur" = false := by simp [name, sameName_eq]
  exact (eval_past other).trans (eval_here sameName_self)

theorem eval_joined (held : Relation) (row : Row) (source reached : Option Text) (type : String) (taken : Nat) :
    Term.eval (joined held row (walkRow source reached type taken)) origin = (cellOf source, some .text) ∧
      Term.eval (joined held row (walkRow source reached type taken)) resourceId = (cellOf reached, some .text) ∧
      Term.eval (joined held row (walkRow source reached type taken)) resourceType = (.text type, some .text) := by
  obtain ⟨begun, hasId, hasType, _⟩ := eval_walk source reached type taken [⟨"ur", held.columns, row⟩]
  exact ⟨begun, hasId, hasType⟩

theorem equal_cellOf_iff {c : Cell} :
    Cell.equal (c, some .text) (cellOf reached, some .text) = true ↔ ∃ id, reached = some id ∧ c = id.cell := by
  cases reached with
  | none => cases c <;> simp [Cell.equal, Cell.same, cellOf]
  | some id => simp [cellOf, equal_cell_iff]

def Matches (user : String) (roles : List String) (env : Environment) : Prop :=
  (Condition.holds env (.equal (assigned "resource_type") resourceType) = true ∧
    Condition.holds env (.equal (assigned "resource_id") resourceId) = true) ∧
    Condition.holds env (.equal (assigned "user_id") (bindText user)) = true ∧
    Condition.holds env (.among (assigned "role") (roles.map .text)) = true

theorem matches_iff (textual : Textual held) :
    Matches user roles (joined held row (walkRow source reached type taken)) ↔
      ∃ id role, reached = some id ∧ role ∈ roles ∧ Assigns held row user ⟨type, id⟩ role := by
  obtain ⟨_, hasId, hasType⟩ := eval_joined held row source reached type taken
  have cellIn : ∀ column ∈ ["user_id", "resource_type", "resource_id", "role"],
      Term.eval (joined held row (walkRow source reached type taken)) (assigned column) =
        ((cellAt held.columns column row).1, some .text) := by
    intro column member
    rw [eval_assigned]
    exact Prod.ext rfl (textual column member row)
  have typeOf := cellIn "resource_type" (by simp)
  have idOf := cellIn "resource_id" (by simp)
  have userOf := cellIn "user_id" (by simp)
  have roleOf := cellIn "role" (by simp)
  have roleAmong : Condition.holds (joined held row (walkRow source reached type taken))
      (.among (assigned "role") (roles.map .text)) = true ↔ ∃ role ∈ roles, (cellAt held.columns "role" row).1 = .text role := by
    simp only [Condition.holds, roleOf, List.any_map, List.any_eq_true, Function.comp_apply, Bound.cell,
      equal_text_iff (.inl rfl)]
  rw [Matches, roleAmong]
  simp only [Condition.holds, typeOf, idOf, userOf, hasType, hasId, bindText, Term.eval, Bound.cell,
    equal_text_iff (.inr rfl), equal_text_iff (.inl rfl), equal_cellOf_iff, Assigns]
  constructor
  · intro given
    obtain ⟨⟨hasTypeCell, id, isReached, hasIdCell⟩, hasUser, role, member, hasRole⟩ := given
    exact ⟨id, role, isReached, member, hasUser, hasTypeCell, hasIdCell, hasRole⟩
  · intro given
    obtain ⟨id, role, isReached, member, hasUser, hasTypeCell, hasIdCell, hasRole⟩ := given
    exact ⟨⟨hasTypeCell, id, isReached, hasIdCell⟩, hasUser, role, member, hasRole⟩

theorem mem_matching_iff {s : Select} (found : db "user_roles" = some held) (named : w.name = name)
    (shape : w.columnsOf = columns) :
    env ∈ (matching user roles s).environments (w.shadow db rows) ↔
      ∃ row ∈ held.rows, ∃ x ∈ rows, env = joined held row x ∧ Matches user roles env := by
  have heldBindings : Source.bindings (w.shadow db rows) assignments = held.rows.map fun row => ⟨"ur", held.columns, row⟩ := by
    have other : sameName "user_roles" w.name = false := by simp [named, name, sameName_eq]
    exact bindings_some ((shadow_other other).trans found)
  have walkBindings : Source.bindings (w.shadow db rows) ⟨name, none⟩ = rows.map walkBinding := by
    have same : sameName name w.name = true := by simp [named, sameName_self]
    have shadowed : w.shadow db rows name = some ⟨columns, rows⟩ := by
      simp [Walk.shadow, same, Walk.relation, shape]
    exact bindings_some shadowed
  simp only [Select.environments, matching, heldBindings, Join.extend, walkBindings, List.mem_filter, List.mem_flatMap,
    List.mem_map, List.all_cons, List.all_nil, Bool.and_true, Bool.and_eq_true]
  constructor
  · intro given
    obtain ⟨⟨_, ⟨_, ⟨row, there, rfl⟩, rfl⟩, ⟨_, ⟨x, here, rfl⟩, rfl⟩, joins⟩, conditions⟩ := given
    exact ⟨row, there, x, here, rfl, joins, conditions⟩
  · intro given
    obtain ⟨row, there, x, here, rfl, joins, conditions⟩ := given
    exact ⟨⟨_, ⟨_, ⟨row, there, rfl⟩, rfl⟩, ⟨_, ⟨x, here, rfl⟩, rfl⟩, joins⟩, conditions⟩

-- The user holds one of the roles on the instance or on an ancestor.
def Permits (db : Database) (m : Model) (held : Relation) (user : String) (roles : List String) (i : Spot) : Prop :=
  ∃ j role, Relation.ReflTransGen (ParentStep db m) i j ∧ role ∈ roles ∧ ∃ row ∈ held.rows, Assigns held row user j role

section

variable {m : Model} {start s : Select}

theorem walkRow_of_leads (named : ∀ t l, m.links.find? t = some l → l.child.resourceType = t) {x y : Row} {n : Nat}
    (path : StepsIn (Leads db m.links.values) n x y) (form : ∃ reached type taken, x = walkRow source reached type taken) :
    ∃ reached type taken, y = walkRow source reached type taken := by
  induction path with
  | stay => exact form
  | step leads _ ih =>
    obtain ⟨reached, type, taken, rfl⟩ := form
    obtain ⟨child, link, _, _, next⟩ := (leads_walkRow_iff named).mp leads
    exact ih ⟨_, _, _, next⟩

theorem walkRow_of_mem (named : ∀ t l, m.links.find? t = some l → l.child.resourceType = t) (clear : Clear m.links.values)
    (begins : Begins db start) (shape : (walk m.links.values start).columnsOf = columns) {x : Row}
    (member : x ∈ (walk m.links.values start).rows db) :
    ∃ source reached type taken, x = walkRow source reached type taken ∧ ∃ id first, walkRow source id first 0 ∈ start.rows db := by
  obtain ⟨first, started, n, few, path⟩ := (mem_rows_iff_leads clear shape).mp member
  obtain ⟨source, id, type, rfl⟩ := begins first started
  obtain ⟨reached, last, taken, form⟩ := walkRow_of_leads named path ⟨id, type, 0, rfl⟩
  exact ⟨source, reached, last, taken, form, id, type, started⟩

theorem origin_iff (resolved : m.Resolved) (clear : Clear m.links.values) (begins : Begins db start)
    (shape : (walk m.links.values start).columnsOf = columns) (found : db "user_roles" = some held) (textual : Textual held) :
    (∃ env ∈ (matching user roles s).environments
        ((walk m.links.values start).shadow db ((walk m.links.values start).rows db)),
      Term.eval env origin = (cellOf source, some .text)) ↔
      ∃ i : Spot, walkRow source (some i.id) i.resourceType 0 ∈ start.rows db ∧ Permits db m held user roles i := by
  constructor
  · intro given
    obtain ⟨env, member, begun⟩ := given
    obtain ⟨row, there, x, here, rfl, suits⟩ := (mem_matching_iff found rfl shape).mp member
    obtain ⟨other, reached, type, n, rfl, _⟩ := walkRow_of_mem resolved.linkName clear begins shape here
    obtain ⟨id, role, rfl, wanted, assigns⟩ := (matches_iff textual).mp suits
    rw [(eval_joined ..).1] at begun
    cases cellOf_inj.mp (Prod.mk.inj begun).1
    obtain ⟨i, first, path⟩ := (mem_walk_rows_iff (j := ⟨type, id⟩) resolved clear begins shape).mp here
    exact ⟨i, first, ⟨type, id⟩, role, path.path, wanted, row, there, assigns⟩
  · intro given
    obtain ⟨i, first, j, role, path, wanted, row, there, assigns⟩ := given
    obtain ⟨n, steps⟩ := exists_stepsIn_iff.mpr path
    have here := (mem_walk_rows_iff resolved clear begins shape).mpr ⟨i, first, steps⟩
    refine ⟨joined held row (walkRow source (some j.id) j.resourceType n), ?_, (eval_joined ..).1⟩
    exact (mem_matching_iff found rfl shape).mpr
      ⟨row, there, _, here, rfl, (matches_iff textual).mpr ⟨j.id, role, rfl, wanted, assigns⟩⟩

theorem origin_of_mem (resolved : m.Resolved) (clear : Clear m.links.values) (begins : Begins db start)
    (shape : (walk m.links.values start).columnsOf = columns) (found : db "user_roles" = some held)
    (member : env ∈ (matching user roles s).environments
      ((walk m.links.values start).shadow db ((walk m.links.values start).rows db))) :
    ∃ source, Term.eval env origin = (cellOf source, some .text) := by
  obtain ⟨row, _, x, here, rfl, _⟩ := (mem_matching_iff found rfl shape).mp member
  obtain ⟨source, reached, type, n, rfl, _⟩ := walkRow_of_mem resolved.linkName clear begins shape here
  exact ⟨source, (eval_joined ..).1⟩

end

section

variable {m : Model} {t : FilterTarget}

theorem rows_of_ran {s : Statement} (ran : s.rows db = .ok rows) :
    s.fault? db = none ∧ rows = s.body.rows (s.walk.shadow db (s.walk.rows db)) := by
  unfold Statement.rows at ran
  split at ran
  · cases ran
  · rename_i quiet
    cases ran
    exact ⟨quiet, rfl⟩

theorem begins_startAt : Begins db (startAt type id) := by
  intro x member
  rw [rows_startAt, List.mem_singleton] at member
  exact ⟨_, _, _, member⟩

theorem begins_startAll {r : Relation} (found : db t.table = some r) : Begins db (startAll t) := by
  intro x member
  rw [rows_startAll found, List.mem_map] at member
  obtain ⟨row, _, rfl⟩ := member
  exact ⟨_, _, _, rfl⟩

theorem mem_startAt_iff {i : Spot} :
    walkRow source (some i.id) i.resourceType 0 ∈ (startAt type id).rows db ↔ source = some ↑id ∧ i = ⟨type, id⟩ := by
  rw [rows_startAt, List.mem_singleton]
  constructor
  · intro same
    obtain ⟨begun, reached, typed, _⟩ := walkRow_inj same
    refine ⟨begun, ?_⟩
    rw [← typed, ← Option.some.inj reached]
  · intro given
    obtain ⟨rfl, rfl⟩ := given
    rfl

def Lists (db : Database) (t : FilterTarget) (id : Text) : Prop :=
  ∃ r, db t.table = some r ∧ ∃ row ∈ r.rows, textAt r.columns t.idColumn row = some id

theorem lists_congr {other : Database} {t : FilterTarget} {id : Text} (same : other t.table = db t.table) :
    Lists other t id ↔ Lists db t id := by
  rw [Lists, Lists, same]

theorem mem_startAll_iff {r : Relation} {reached : Text} {i : Spot} (place : db t.table = some r) :
    walkRow (some reached) (some i.id) i.resourceType 0 ∈ (startAll t).rows db ↔
      Lists db t reached ∧ i = ⟨t.resourceType, reached⟩ := by
  rw [rows_startAll place, List.mem_map]
  constructor
  · intro given
    obtain ⟨row, there, same⟩ := given
    obtain ⟨begun, reached, typed, _⟩ := walkRow_inj same
    have here : _ = i.id := Option.some.inj (begun.symm.trans reached)
    refine ⟨⟨r, place, row, there, begun⟩, ?_⟩
    rw [here, typed]
  · intro given
    obtain ⟨⟨other, again, row, there, begun⟩, rfl⟩ := given
    rw [place] at again
    cases again
    exact ⟨row, there, by rw [begun]⟩

-- At most one row is asked for, and none is left out when there is one.
theorem yields_iff {environments : List Environment} :
    ((environments.map fun env => [(Term.eval env (assigned "role")).1]).take 1).isEmpty = false ↔
      ∃ env, env ∈ environments := by
  cases environments <;> simp

theorem pointCheck_iff (resolved : m.Resolved) (found : db "user_roles" = some held) (textual : Textual held)
    (ran : (pointCheck m.links.values user type id roles).rows db = .ok rows) :
    rows.isEmpty = false ↔ Permits db m held user roles ⟨type, id⟩ := by
  obtain ⟨quiet, rfl⟩ := rows_of_ran ran
  have clear : Clear m.links.values := clear_of_walkTableFault? (fault?_eq_none_iff.mp quiet).2.1
  refine yields_iff.trans ?_
  constructor
  · intro given
    obtain ⟨env, member⟩ := given
    obtain ⟨source, begun⟩ := origin_of_mem resolved clear begins_startAt rfl found member
    obtain ⟨i, first, permits⟩ := (origin_iff resolved clear begins_startAt rfl found textual).mp ⟨env, member, begun⟩
    obtain ⟨_, rfl⟩ := mem_startAt_iff.mp first
    exact permits
  · intro permits
    obtain ⟨env, member, _⟩ := (origin_iff resolved clear begins_startAt rfl found textual).mpr
      ⟨⟨type, id⟩, mem_startAt_iff.mpr ⟨rfl, rfl⟩, permits⟩
    exact ⟨env, member⟩

theorem bytes_inj {a b : Text} (same : a.bytes = b.bytes) : a = b := by
  have encoded : ∀ (s : String) (g : Garbled), s.toUTF8.data.toList ≠ g.bytes := by
    intro s g alike
    have valid : ByteArray.IsValidUTF8 ⟨s.toUTF8.data.toList.toArray⟩ := s.isValidUTF8
    have broken := g.broken
    rw [← alike, String.fromUTF8?, dif_pos valid] at broken
    cases broken
  cases a with
  | plain s =>
    cases b with
    | plain t => exact congrArg _ (String.toByteArray_inj.mp (ByteArray.ext (Array.toList_inj.mp same)))
    | garbled g => exact absurd same (encoded s g)
  | garbled g =>
    cases b with
    | plain t => exact absurd same.symm (encoded t g)
    | garbled h =>
      obtain ⟨_, _⟩ := g
      cases same
      rfl

theorem before_cell (a b : Text) : Cell.before a.cell b.cell = decide (a.bytes ≤ b.bytes) := by
  cases a <;> cases b <;> rfl

def idRow (id : Text) : Row := [id.cell]

def Ascending (ids : List Text) : Prop := ids.Pairwise fun a b => a.bytes < b.bytes

theorem idRow_injective : Function.Injective idRow := fun _ _ same => cell_inj.mp (List.cons.inj same).1

theorem Ascending.unique {ids others : List Text} (left : Ascending ids) (right : Ascending others)
    (same : ∀ id, id ∈ ids ↔ id ∈ others) : ids = others := by
  have distinct : ∀ {l : List Text}, Ascending l → l.Nodup := by
    intro l ascending
    refine ascending.imp ?_
    rintro a b below rfl
    exact List.lt_irrefl _ below
  refine List.Perm.eq_of_pairwise ?_ left right ((List.perm_ext_iff_of_nodup (distinct left) (distinct right)).mpr same)
  intro a b _ _ below above
  exact absurd above (List.lt_asymm below)

theorem ascending_sorted (ids : List Text) : Ascending (ids.mergeSort fun a b => decide (a.bytes ≤ b.bytes)).eraseDups := by
  have ordered : (ids.mergeSort fun a b => decide (a.bytes ≤ b.bytes)).Pairwise fun a b => a.bytes ≤ b.bytes := by
    refine (List.pairwise_mergeSort ?_ ?_ _).imp of_decide_eq_true
    · intro a b c first second
      exact decide_eq_true (List.le_trans (of_decide_eq_true first) (of_decide_eq_true second))
    · intro a b
      rw [Bool.or_eq_true, decide_eq_true_eq, decide_eq_true_eq]
      exact List.le_total ..
  refine ((ordered.sublist (eraseDups_sublist _)).and (firstOccurrences_eraseDups _).nodup).imp ?_
  rintro a b ⟨le, different⟩
  rcases List.le_iff_lt_or_eq.mp le with below | same
  · exact below
  · exact absurd (bytes_inj same) different

-- Whatever order rows are found in, they are shown by the bytes of the ids, and each id once.
theorem selected_ids {environments : List Environment}
    (named : ∀ env ∈ environments, ∃ id : Text, (Term.eval env origin).1 = id.cell) :
    ∃ ids, ((environments.mergeSort fun a b => Cell.before (Term.eval a origin).1 (Term.eval b origin).1).map
        fun env => [(Term.eval env origin).1]).eraseDups = ids.map idRow ∧ Ascending ids ∧
      ∀ id : Text, id ∈ ids ↔ ∃ env ∈ environments, (Term.eval env origin).1 = id.cell := by
  let idOf (env : Environment) : Text := ((Term.eval env origin).1.text?).getD (.plain "")
  have read : ∀ env ∈ environments, (Term.eval env origin).1 = (idOf env).cell := by
    intro env member
    obtain ⟨id, same⟩ := named env member
    simp only [idOf, same, Cell.text?_cell, Option.getD_some]
  let sorted := (environments.map idOf).mergeSort fun a b => decide (a.bytes ≤ b.bytes)
  have shown : ((environments.mergeSort fun a b => Cell.before (Term.eval a origin).1 (Term.eval b origin).1).map
      fun env => [(Term.eval env origin).1]) = sorted.map idRow := by
    have ordered : sorted = (environments.mergeSort fun a b =>
        Cell.before (Term.eval a origin).1 (Term.eval b origin).1).map idOf := by
      refine (List.map_mergeSort ?_).symm
      intro a left b right
      rw [read a left, read b right, before_cell]
    rw [ordered, List.map_map]
    refine List.map_congr_left fun env member => ?_
    rw [read env (List.mem_mergeSort.mp member)]
    rfl
  refine ⟨sorted.eraseDups, by rw [shown, eraseDups_map idRow_injective], ascending_sorted _, fun id => ?_⟩
  rw [List.mem_eraseDups, List.mem_mergeSort, List.mem_map]
  constructor
  · rintro ⟨env, member, rfl⟩
    exact ⟨env, member, read env member⟩
  · rintro ⟨env, member, same⟩
    exact ⟨env, member, cell_inj.mp ((read env member).symm.trans same)⟩

-- The ids of the bulk filter are those that are allowed, whether or not they can be read.
theorem bulkFilter_ids (resolved : m.Resolved) (found : db "user_roles" = some held) (textual : Textual held)
    (ran : (bulkFilter m.links.values t user roles).rows db = .ok rows) :
    ∃ ids, rows = ids.map idRow ∧ Ascending ids ∧
      ∀ id : Text, id ∈ ids ↔ Lists db t id ∧ Permits db m held user roles ⟨t.resourceType, id⟩ := by
  obtain ⟨quiet, rfl⟩ := rows_of_ran ran
  have tables := (fault?_eq_none_iff.mp quiet).2.1
  have clear : Clear m.links.values := clear_of_walkTableFault? tables
  obtain ⟨r, place⟩ := Option.isSome_iff_exists.mp (table_of_walkTableFault? tables)
  have begins : Begins db (startAll t) := begins_startAll place
  have allowed : ∀ env ∈ (bulkFilter m.links.values t user roles).body.environments
      ((walk m.links.values (startAll t)).shadow db ((walk m.links.values (startAll t)).rows db)),
      ∃ id : Text, (Term.eval env origin).1 = id.cell ∧ Lists db t id ∧
        Permits db m held user roles ⟨t.resourceType, id⟩ := by
    intro env member
    obtain ⟨source, begun⟩ := origin_of_mem resolved clear begins rfl found member
    obtain ⟨i, first, permits⟩ := (origin_iff resolved clear begins rfl found textual).mp ⟨env, member, begun⟩
    obtain ⟨row, _, same⟩ := List.mem_map.mp ((rows_startAll place) ▸ first)
    obtain ⟨sourceText, idText, _, _⟩ := walkRow_inj same
    rw [show source = some i.id from sourceText.symm.trans idText] at first begun
    obtain ⟨listed, typed⟩ := (mem_startAll_iff place).mp first
    exact ⟨i.id, by rw [begun]; rfl, listed, typed ▸ permits⟩
  obtain ⟨ids, shown, ascending, members⟩ := selected_ids fun env member => (allowed env member).imp fun _ given => given.1
  refine ⟨ids, shown, ascending, fun id => (members id).trans ⟨?_, ?_⟩⟩
  · rintro ⟨env, member, same⟩
    obtain ⟨other, again, given⟩ := allowed env member
    cases cell_inj.mp (same.symm.trans again)
    exact given
  · rintro ⟨listed, permits⟩
    obtain ⟨env, member, begun⟩ := (origin_iff resolved clear begins rfl found textual).mpr
      ⟨_, (mem_startAll_iff place).mpr ⟨listed, rfl⟩, permits⟩
    exact ⟨env, member, by rw [begun]; rfl⟩

end

end AncestorWalk

end ScopedAccess
