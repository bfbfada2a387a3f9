import Mathlib.Data.List.Nodup
import ScopedAccess.Proofs.CompiledSnapshot
import ScopedAccess.Proofs.ImplicationCycle

namespace ScopedAccess

-- Around its last colon the text has the type and the action; without one it is an action of the role's own type.
def Permission.ReadFrom (p : Permission) (own text : String) : Prop :=
  (text = p.describe ∧ ':' ∉ p.action.toList) ∨ (':' ∉ text.toList ∧ p = ⟨own, text⟩)

structure ResourceDeclaration.WellFormed (r : ResourceDeclaration) : Prop where
  tag : IsTag r.resourceType
  table : IsPlainName r.table
  idColumn : IsPlainName r.idColumn
  actions : r.actions.items.Nodup

def InstanceTable.Plain (t : InstanceTable) : Prop := IsPlainName t.table ∧ IsPlainName t.idColumn

namespace Declarations

def Declares (d : Declarations) (t : String) : Prop := ∃ r ∈ d.resources, r.resourceType = t

def Implies (d : Declarations) (a b : String) : Prop := ∃ e ∈ d.roles, e.2.name = a ∧ b ∈ e.2.implies.getD []

def Above (d : Declarations) (t u : String) : Prop := ∃ l ∈ d.links, l.child = t ∧ l.parent = u

-- A listed set of actions is all that may be granted on the type, also when nothing is listed.
def Grantable (d : Declarations) (own text : String) : Prop :=
  ∃ p : Permission, p.ReadFrom own text ∧ p.resourceType ≠ "" ∧ p.action ≠ "" ∧
    ∃ r ∈ d.resources, r.resourceType = p.resourceType ∧ ∀ listed, r.actions = .only listed → p.action ∈ listed

structure WellFormed (d : Declarations) : Prop where
  resources : ∀ r ∈ d.resources, r.WellFormed
  types : (d.resources.map (·.resourceType)).Nodup
  roleNames : (d.roles.map (·.2.name)).Nodup
  grants : ∀ e ∈ d.roles, ∀ text ∈ e.2.permissions.getD [], d.Grantable e.1 text
  implied : ∀ a b, d.Implies a b → ∃ e ∈ d.roles, e.2.name = b
  linkTypes : ∀ l ∈ d.links, d.Declares l.child ∧ d.Declares l.parent
  linkColumns : ∀ l ∈ d.links, IsPlainName l.field ∧ ∀ column, l.references = some column → IsPlainName column
  childTypes : (d.links.map (·.child)).Nodup
  hierarchy : ∀ t, ¬ Relation.TransGen d.Above t t
  implications : ∀ n, ¬ Relation.TransGen d.Implies n n

end Declarations

theorem toList_describe {p : Permission} : p.describe.toList = p.resourceType.toList ++ ':' :: p.action.toList := by
  simp [Permission.describe]

theorem readFrom_iff {own text : String} {p : Permission} :
    p.ReadFrom own text ↔ p = match splitAtLast ':' text.toList with
      | some (before, after) => ⟨String.ofList before, String.ofList after⟩
      | none => ⟨own, text⟩ := by
  cases cut : splitAtLast ':' text.toList with
  | none =>
    have absent : ':' ∉ text.toList := splitAtLast_eq_none_iff.mp cut
    constructor
    · intro given
      rcases given with ⟨rfl, _⟩ | ⟨_, same⟩
      · exact absurd (by simp [toList_describe]) absent
      · exact same
    · intro same
      exact .inr ⟨absent, same⟩
  | some parts =>
    obtain ⟨before, after⟩ := parts
    obtain ⟨shape, later⟩ := splitAtLast_eq_some_iff.mp cut
    constructor
    · intro given
      rcases given with ⟨rfl, plain⟩ | ⟨absent, _⟩
      · rw [splitAtLast_eq_some_iff.mpr ⟨toList_describe, plain⟩] at cut
        cases cut
        simp
      · exact absurd (by rw [shape]; simp) absent
    · intro same
      refine .inl ⟨?_, by rw [same]; simpa using later⟩
      rw [← String.toList_inj, toList_describe, same]
      simpa using shape

theorem readFrom_plain {p : Permission} {own text : String} (reads : p.ReadFrom own text) : ':' ∉ p.action.toList := by
  rcases reads with ⟨_, plain⟩ | ⟨plain, rfl⟩
  · exact plain
  · exact plain

-- Texts of actions without a colon tell the permissions apart, whatever colons are in the types.
theorem describe_inj {p q : Permission} (left : ':' ∉ p.action.toList) (right : ':' ∉ q.action.toList)
    (same : p.describe = q.describe) : p = q := by
  have first : p.ReadFrom "" p.describe := .inl ⟨rfl, left⟩
  have second : q.ReadFrom "" p.describe := .inl ⟨same, right⟩
  exact (readFrom_iff.mp first).trans (readFrom_iff.mp second).symm

theorem parse?_eq_some_iff {own text : String} {p : Permission} :
    Permission.parse? own text = some p ↔ p.ReadFrom own text ∧ p.resourceType ≠ "" ∧ p.action ≠ "" := by
  have reading : ∀ parts : String × String,
      (if (parts.1.isEmpty || parts.2.isEmpty) = true then none else some (⟨parts.1, parts.2⟩ : Permission)) = some p ↔
        p = ⟨parts.1, parts.2⟩ ∧ p.resourceType ≠ "" ∧ p.action ≠ "" := by
    intro parts
    constructor
    · intro read
      split at read
      · cases read
      · rename_i filled
        cases read
        simpa using filled
    · intro given
      obtain ⟨rfl, typed, acts⟩ := given
      simp [typed, acts]
  rw [readFrom_iff, Permission.parse?]
  cases splitAtLast ':' text.toList with
  | none => exact reading (own, text)
  | some parts => exact reading (String.ofList parts.1, String.ofList parts.2)

section

variable {α β κ ε : Type} [Key κ] {key : β → κ} {good : β → Prop} {f : OrderedMap κ α → β → Except ε (OrderedMap κ α)}
  {items : List β} {first : OrderedMap κ α}

-- A pass that puts an item under its key when the item is good and the key is new, and stops at any other item.
structure Admits (key : β → κ) (good : β → Prop) (f : OrderedMap κ α → β → Except ε (OrderedMap κ α)) : Prop where
  when : ∀ m b, (∃ next, f m b = .ok next) ↔ good b ∧ m.contains (key b) = false
  places : ∀ m b next, f m b = .ok next → ∃ v, next = m.insert (key b) v

theorem Admits.fold_iff (admits : Admits key good f) :
    (∃ last, items.foldlM f first = .ok last) ↔
      (∀ b ∈ items, good b) ∧ (items.map key).Nodup ∧ ∀ b ∈ items, first.contains (key b) = false := by
  induction items generalizing first with
  | nil => simp [pure, Except.pure]
  | cons b rest ih =>
    have onward : (∃ last, (b :: rest).foldlM f first = .ok last) ↔
        ∃ next, f first b = .ok next ∧ ∃ last, rest.foldlM f next = .ok last := by
      simp only [List.foldlM_cons, bind_eq_ok_iff]
      exact exists_comm.trans (exists_congr fun _ => exists_and_left)
    have fresh : ∀ next, f first b = .ok next →
        ∀ c, next.contains (key c) = false ↔ key b ≠ key c ∧ first.contains (key c) = false := by
      intro next made c
      obtain ⟨v, rfl⟩ := admits.places first b next made
      rw [← Bool.not_eq_true, OrderedMap.contains_insert, not_or, Bool.not_eq_true]
    rw [onward]
    simp only [List.map_cons, List.nodup_cons, List.mem_map, not_exists, not_and, List.forall_mem_cons]
    constructor
    · intro given
      obtain ⟨next, made, going⟩ := given
      obtain ⟨isGood, isNew⟩ := (admits.when first b).mp ⟨next, made⟩
      obtain ⟨allGood, distinct, allNew⟩ := ih.mp going
      have apart := fun c member => (fresh next made c).mp (allNew c member)
      exact ⟨⟨isGood, allGood⟩, ⟨fun c member same => (apart c member).1 same.symm, distinct⟩, isNew,
        fun c member => (apart c member).2⟩
    · intro given
      obtain ⟨⟨isGood, allGood⟩, ⟨away, distinct⟩, isNew, allNew⟩ := given
      obtain ⟨next, made⟩ := (admits.when first b).mpr ⟨isGood, isNew⟩
      exact ⟨next, made, ih.mpr ⟨allGood, distinct, fun c member =>
        (fresh next made c).mpr ⟨fun same => away c member same.symm, allNew c member⟩⟩⟩

theorem Admits.all_iff (admits : Admits key good f) :
    (∃ last, items.foldlM f .empty = .ok last) ↔ (∀ b ∈ items, good b) ∧ (items.map key).Nodup := by
  rw [admits.fold_iff]
  exact and_congr_right fun _ => and_iff_left fun _ _ => rfl

end

theorem require_ok_iff {α ε : Type} {holds : Bool} {fault : ε} {onward : Unit → Except ε α} :
    (∃ a, (require holds fault >>= onward) = .ok a) ↔ holds = true ∧ ∃ a, onward () = .ok a := by
  cases holds with
  | false => simp [require, bind, Except.bind]
  | true => simp [require, bind, Except.bind]

theorem firstRepeat_eq_none_iff {α : Type} [DecidableEq α] {seen items : List α} :
    firstRepeat seen items = none ↔ items.Nodup ∧ ∀ a ∈ items, a ∉ seen := by
  induction items generalizing seen with
  | nil => simp [firstRepeat]
  | cons a rest ih =>
    unfold firstRepeat
    split
    · rename_i again
      simp [again]
    · rename_i fresh
      rw [ih, List.nodup_cons, List.forall_mem_cons]
      simp only [List.mem_cons, not_or]
      constructor
      · intro given
        exact ⟨⟨fun member => (given.2 a member).1 rfl, given.1⟩, fresh, fun b member => (given.2 b member).2⟩
      · intro given
        exact ⟨given.1.2, fun b member => ⟨fun same => given.1.1 (same ▸ member), given.2.2 b member⟩⟩

namespace Model

variable {d : Declarations} {resources : OrderedMap String Resource} {roles : OrderedMap String Role}
  {links : OrderedMap String ParentLink} {restricts : String → Bool} {own role text t : String}

theorem declareResource_admits : Admits (·.resourceType) ResourceDeclaration.WellFormed declareResource := by
  constructor
  · intro m r
    have distinct : firstRepeat [] r.actions.items = none ↔ r.actions.items.Nodup := by
      rw [firstRepeat_eq_none_iff]
      simp
    have passes : (∃ next, declareResource m r = .ok next) ↔ IsTag r.resourceType ∧ IsPlainName r.table ∧
        IsPlainName r.idColumn ∧ m.contains r.resourceType = false ∧ r.actions.items.Nodup := by
      simp only [declareResource, require_ok_iff, isTypeTag_iff, isIdentifier_iff, Bool.not_eq_true', ← distinct]
      cases firstRepeat [] r.actions.items with
      | none => simp
      | some action => simp
    rw [passes]
    constructor
    · intro given
      obtain ⟨tag, table, idColumn, new, actions⟩ := given
      exact ⟨⟨tag, table, idColumn, actions⟩, new⟩
    · intro given
      obtain ⟨⟨tag, table, idColumn, actions⟩, new⟩ := given
      exact ⟨tag, table, idColumn, new, actions⟩
  · intro m r next declared
    exact ⟨_, (declareResource_eq_ok declared).2⟩

theorem resolveGrant_ok_iff : (∃ p, resolveGrant resources restricts own role text = .ok p) ↔
    ∃ p target, Permission.parse? own text = some p ∧ resources.find? p.resourceType = some target ∧
      (restricts p.resourceType = true → p.action ∈ target.actions) := by
  unfold resolveGrant
  cases Permission.parse? own text with
  | none => simp
  | some p =>
    cases known : resources.find? p.resourceType with
    | none => simp [known]
    | some target =>
      by_cases listed : p.action ∈ target.actions
      · simp [known, listed]
      · cases restricted : restricts p.resourceType with
        | true => simp [known, listed, restricted]
        | false => simp [known, restricted]

def Grants (resources : OrderedMap String Resource) (restricts : String → Bool) (e : String × RoleDeclaration) : Prop :=
  ∀ text ∈ e.2.permissions.getD [], ∃ p, resolveGrant resources restricts e.1 e.2.name text = .ok p

def Joins (resources : OrderedMap String Resource) (l : LinkDeclaration) : Prop :=
  ∃ link, linkOf? resources l = some link ∧ IsPlainName link.field ∧ IsPlainName link.references

theorem declareRole_admits : Admits (·.2.name) (Grants resources restricts) (declareRole resources restricts) := by
  constructor
  · intro m e
    unfold Grants
    rw [← mapM_ok_iff]
    have passes : (∃ next, declareRole resources restricts m e = .ok next) ↔ m.contains e.2.name = false ∧
        ∃ granted, (e.2.permissions.getD []).mapM (resolveGrant resources restricts e.1 e.2.name) = .ok granted := by
      unfold declareRole
      rw [require_ok_iff, Bool.not_eq_true']
      refine and_congr_right fun _ => ?_
      simp only [bind_eq_ok_iff]
      constructor
      · intro given
        obtain ⟨_, granted, ran, _⟩ := given
        exact ⟨granted, ran⟩
      · intro given
        obtain ⟨granted, ran⟩ := given
        exact ⟨_, granted, ran, rfl⟩
    rw [passes, and_comm]
  · intro m e next declared
    exact ⟨_, (declareRole_eq_ok declared).2⟩

theorem declareLink_admits : Admits (·.child) (Joins resources) (declareLink resources) := by
  constructor
  · intro m l
    unfold declareLink Joins linkOf?
    cases resources.find? l.child with
    | none => simp
    | some child =>
      cases resources.find? l.parent with
      | none => simp
      | some parent =>
        simpa [require_ok_iff, isIdentifier_iff] using and_comm
  · intro m l next declared
    obtain ⟨link, _, _, same⟩ := declareLink_eq_ok declared
    exact ⟨link, same⟩

theorem undeclaredImplication?_eq_none_iff : undeclaredImplication? roles = none ↔
    ∀ a b, ImplicationGraph.Implies roles a b → roles.contains b = true := by
  simp only [undeclaredImplication?, List.findSome?_eq_none_iff, Option.map_eq_none_iff, List.find?_eq_none, Prod.forall]
  constructor
  · intro quiet a b implies
    obtain ⟨role, found, implied⟩ := implies
    simpa using quiet a role (OrderedMap.find?_eq_some_iff.mp found) b (OrderedSet.mem_toList.mpr implied)
  · intro declared a role entry b implied
    simpa using declared a b ⟨role, OrderedMap.find?_eq_some_iff.mpr entry, OrderedSet.mem_toList.mp implied⟩

theorem resourcesOf_ok_iff : (∃ resources, resourcesOf d = .ok resources) ↔
    (∀ r ∈ d.resources, r.WellFormed) ∧ (d.resources.map (·.resourceType)).Nodup := declareResource_admits.all_iff

-- The types are distinct, so a type is restricted by its own declaration or not at all.
theorem restricts_iff (types : (d.resources.map (·.resourceType)).Nodup) {r : ResourceDeclaration} (member : r ∈ d.resources) :
    d.restricts r.resourceType = true ↔ ∃ listed, r.actions = .only listed := by
  simp only [Declarations.restricts, List.any_eq_true, Bool.and_eq_true, decide_eq_true_eq]
  constructor
  · intro given
    obtain ⟨other, declared, same, closed⟩ := given
    cases List.inj_on_of_nodup_map types declared member same
    cases listed : r.actions with
    | unrestricted => simp [listed, Listing.isClosed] at closed
    | only items => exact ⟨items, rfl⟩
  · intro given
    obtain ⟨items, listed⟩ := given
    exact ⟨r, member, rfl, by rw [listed]; rfl⟩

theorem grants_iff (known : Collects (·.resourceType) (some ∘ resourceOf) d.resources resources)
    (types : (d.resources.map (·.resourceType)).Nodup) {e : String × RoleDeclaration} :
    Grants resources d.restricts e ↔ ∀ text ∈ e.2.permissions.getD [], d.Grantable e.1 text := by
  have listed_iff : ∀ r ∈ d.resources, ∀ action,
      (d.restricts r.resourceType = true → action ∈ (resourceOf r).actions) ↔
        ∀ listed, r.actions = .only listed → action ∈ listed := by
    intro r member action
    rw [restricts_iff types member]
    cases listed : r.actions with
    | unrestricted => simp
    | only items => simp [resourceOf, listed, Listing.items]
  refine forall₂_congr fun text _ => ?_
  rw [resolveGrant_ok_iff]
  constructor
  · intro given
    obtain ⟨p, target, read, found, listed⟩ := given
    obtain ⟨reads, typed, acts⟩ := parse?_eq_some_iff.mp read
    obtain ⟨r, member, named, same⟩ := (known.find?_iff _ target).mp found
    cases same
    refine ⟨p, reads, typed, acts, r, member, named, (listed_iff r member p.action).mp ?_⟩
    rwa [show r.resourceType = p.resourceType from named]
  · intro given
    obtain ⟨p, reads, typed, acts, r, member, named, listed⟩ := given
    refine ⟨p, resourceOf r, parse?_eq_some_iff.mpr ⟨reads, typed, acts⟩,
      (known.find?_iff _ _).mpr ⟨r, member, named, rfl⟩, ?_⟩
    rw [← named]
    exact (listed_iff r member p.action).mpr listed

theorem implies_iff (known : Collects (·.2.name) (some ∘ roleOf) d.roles roles) {a b : String} :
    ImplicationGraph.Implies roles a b ↔ d.Implies a b := by
  constructor
  · intro given
    obtain ⟨role, found, implied⟩ := given
    obtain ⟨e, member, named, same⟩ := (known.find?_iff a role).mp found
    cases same
    exact ⟨e, member, named, by simpa [roleOf] using implied⟩
  · intro given
    obtain ⟨e, member, named, implied⟩ := given
    exact ⟨roleOf e, (known.find?_iff a _).mpr ⟨e, member, named, rfl⟩, by simpa [roleOf] using implied⟩

theorem rolesOf_ok_iff : (∃ roles, rolesOf resources d = .ok roles) ↔
    (∀ e ∈ d.roles, Grants resources d.restricts e) ∧ (d.roles.map (·.2.name)).Nodup ∧
      ∀ a b, d.Implies a b → ∃ e ∈ d.roles, e.2.name = b := by
  have closed_iff : ∀ roles, d.roles.foldlM (declareRole resources d.restricts) .empty = .ok roles →
      (undeclaredImplication? roles = none ↔ ∀ a b, d.Implies a b → ∃ e ∈ d.roles, e.2.name = b) := by
    intro roles ran
    have known := declaredRoles_collect ran
    simp only [undeclaredImplication?_eq_none_iff, implies_iff known, known.contains_iff]
  constructor
  · intro given
    obtain ⟨roles, ran⟩ := given
    simp only [rolesOf, bind_eq_ok_iff] at ran
    obtain ⟨folded, ran, ended⟩ := ran
    obtain ⟨grants, names⟩ := declareRole_admits.all_iff.mp ⟨folded, ran⟩
    split at ended
    · cases ended
    · rename_i closed
      exact ⟨grants, names, (closed_iff folded ran).mp closed⟩
  · intro given
    obtain ⟨grants, names, closed⟩ := given
    have admits : Admits (·.2.name) (Grants resources d.restricts) (declareRole resources d.restricts) := declareRole_admits
    obtain ⟨folded, ran⟩ := admits.all_iff.mpr ⟨grants, names⟩
    refine ⟨folded, ?_⟩
    rw [rolesOf, ran]
    simp [bind, Except.bind, (closed_iff folded ran).mpr closed]

theorem joins_iff (known : Collects (·.resourceType) (some ∘ resourceOf) d.resources resources)
    (plain : ∀ r ∈ d.resources, IsPlainName r.idColumn) {l : LinkDeclaration} :
    Joins resources l ↔ (d.Declares l.child ∧ d.Declares l.parent) ∧ IsPlainName l.field ∧
      ∀ column, l.references = some column → IsPlainName column := by
  constructor
  · intro given
    obtain ⟨link, comes, field, references⟩ := given
    obtain ⟨child, parent, childFound, parentFound, rfl⟩ := linkOf?_eq_some comes
    refine ⟨⟨known.contains_iff.mp (OrderedMap.contains_of_find? childFound),
      known.contains_iff.mp (OrderedMap.contains_of_find? parentFound)⟩, field, ?_⟩
    intro column named
    simpa [named] using references
  · intro given
    obtain ⟨⟨⟨child, childDeclared, childNamed⟩, parent, parentDeclared, parentNamed⟩, field, references⟩ := given
    have childFound := (known.find?_iff l.child _).mpr ⟨child, childDeclared, childNamed, rfl⟩
    have parentFound := (known.find?_iff l.parent _).mpr ⟨parent, parentDeclared, parentNamed, rfl⟩
    refine ⟨⟨(resourceOf child).instances, (resourceOf parent).instances, l.field, l.references.getD parent.idColumn⟩,
      ?_, field, ?_⟩
    · simp [linkOf?, childFound, parentFound, resourceOf]
    · cases named : l.references with
      | none => exact plain parent parentDeclared
      | some column => exact references column named

theorem above_iff (known : Collects (·.resourceType) (some ∘ resourceOf) d.resources resources)
    (linked : Collects (·.child) (linkOf? resources) d.links links) {t u : String} : Above links t u ↔ d.Above t u := by
  have parent_named : ∀ l link, linkOf? resources l = some link → link.parent.resourceType = l.parent := by
    intro l link comes
    obtain ⟨child, parent, _, parentFound, rfl⟩ := linkOf?_eq_some comes
    obtain ⟨r, _, named, same⟩ := (known.find?_iff _ parent).mp parentFound
    cases same
    exact named
  constructor
  · intro given
    obtain ⟨link, found, up⟩ := given
    obtain ⟨l, member, named, comes⟩ := (linked.find?_iff t link).mp found
    exact ⟨l, member, named, (parent_named l link comes).symm.trans up⟩
  · intro given
    obtain ⟨l, member, named, up⟩ := given
    obtain ⟨link, comes⟩ := linked.comes l member
    exact ⟨link, (linked.find?_iff t link).mpr ⟨l, member, named, comes⟩, (parent_named l link comes).trans up⟩

theorem linksOf_ok_iff (known : Collects (·.resourceType) (some ∘ resourceOf) d.resources resources) :
    (∃ links, linksOf resources d = .ok links) ↔
      (∀ l ∈ d.links, Joins resources l) ∧ (d.links.map (·.child)).Nodup ∧ ∀ t, ¬ Relation.TransGen d.Above t t := by
  have acyclic_iff : ∀ links, d.links.foldlM (declareLink resources) .empty = .ok links →
      (hierarchyCycle? links = none ↔ ∀ t, ¬ Relation.TransGen d.Above t t) := by
    intro links ran
    have same : Above links = d.Above := by
      funext t u
      exact propext (above_iff known (declaredLinks_collect ran))
    rw [hierarchyCycle?_eq_none_iff, same]
  constructor
  · intro given
    obtain ⟨links, ran⟩ := given
    simp only [linksOf, bind_eq_ok_iff] at ran
    obtain ⟨folded, ran, ended⟩ := ran
    obtain ⟨joined, children⟩ := declareLink_admits.all_iff.mp ⟨folded, ran⟩
    split at ended
    · cases ended
    · rename_i quiet
      exact ⟨joined, children, (acyclic_iff folded ran).mp quiet⟩
  · intro given
    obtain ⟨joined, children, acyclic⟩ := given
    obtain ⟨folded, ran⟩ := declareLink_admits.all_iff.mpr ⟨joined, children⟩
    refine ⟨folded, ?_⟩
    rw [linksOf, ran]
    simp [bind, Except.bind, (acyclic_iff folded ran).mpr acyclic]

structure Checked (m : Model) (d : Declarations) : Prop where
  reflects : m.Reflects d
  resources : ∀ r ∈ d.resources, r.WellFormed
  grants : ∀ e ∈ d.roles, Grants m.resources d.restricts e
  joins : ∀ l ∈ d.links, Joins m.resources l
  permissions : m.permissions = permissionsOf m.resources m.roles

variable {m : Model}

theorem checked (made : Model.ofDeclarations d = .ok m) : m.Checked d := by
  have reflects := Model.reflects made
  simp only [Model.ofDeclarations, bind_eq_ok_iff] at made
  obtain ⟨resources, resourcesRan, roles, rolesRan, links, linksRan, made⟩ := made
  cases made
  obtain ⟨wellFormed, _⟩ := resourcesOf_ok_iff.mp ⟨resources, resourcesRan⟩
  obtain ⟨grants, _⟩ := rolesOf_ok_iff.mp ⟨roles, rolesRan⟩
  obtain ⟨joins, _⟩ := (linksOf_ok_iff reflects.resources).mp ⟨links, linksRan⟩
  exact ⟨reflects, wellFormed, grants, joins, rfl⟩

theorem Checked.resourceNames (checked : m.Checked d) {resource : Resource}
    (found : m.resources.find? t = some resource) : resource.instances.Plain := by
  obtain ⟨r, member, _, same⟩ := (checked.reflects.resources.find?_iff t resource).mp found
  cases same
  exact ⟨(checked.resources r member).table, (checked.resources r member).idColumn⟩

theorem Checked.linkNames (checked : m.Checked d) {link : ParentLink} (found : m.links.find? t = some link) :
    link.child.Plain ∧ link.parent.Plain ∧ IsPlainName link.field ∧ IsPlainName link.references := by
  obtain ⟨child, parent, childFound, parentFound, sameChild, sameParent⟩ := checked.reflects.link found
  obtain ⟨l, member, _, comes⟩ := (checked.reflects.links.find?_iff t link).mp found
  obtain ⟨other, again, field, references⟩ := checked.joins l member
  cases comes.symm.trans again
  rw [sameChild, sameParent]
  exact ⟨checked.resourceNames childFound, checked.resourceNames parentFound, field, references⟩

end Model

namespace Snapshot

variable {d : Declarations} {m : Model} {version : Nat} {s : Snapshot}

-- The graph finds nothing undeclared, since the pass over the roles found nothing.
theorem graphOf_ok_iff (reflects : m.Reflects d) :
    (∃ graph, graphOf m = .ok graph) ↔ ∀ n, ¬ Relation.TransGen d.Implies n n := by
  have declared : ImplicationGraph.undeclared? m.roles = none := by
    refine Model.undeclaredImplication?_eq_none_iff.mpr fun a b implies => ?_
    obtain ⟨role, found, implied⟩ := implies
    exact reflects.implied a role b found implied
  have cycle_iff : ImplicationGraph.cycle? m.roles = none ↔ ∀ n, ¬ Relation.TransGen d.Implies n n := by
    have same : ImplicationGraph.Implies m.roles = d.Implies := by
      funext a b
      exact propext (Model.implies_iff reflects.roles)
    rw [ImplicationGraph.cycle?_eq_none_iff, same]
    intro a b implies
    obtain ⟨role, found, implied⟩ := implies
    exact OrderedMap.mem_keys.mpr (Option.isSome_iff_exists.mp (reflects.implied a role b found implied))
  rw [← cycle_iff]
  constructor
  · intro given
    obtain ⟨graph, made⟩ := given
    exact graphOf_roles made ▸ graph.acyclic
  · intro acyclic
    refine ⟨⟨m.roles, declared, acyclic⟩, ?_⟩
    rw [graphOf, ImplicationGraph.ofRoles_admitted declared acyclic]

theorem wellFormed_of_compile (compiled : Snapshot.compile d version = .ok s) : d.WellFormed := by
  simp only [Snapshot.compile, bind_eq_ok_iff, mapError_eq_ok_iff] at compiled
  obtain ⟨m, resolved, graph, made, _⟩ := compiled
  have implications := (graphOf_ok_iff (Model.reflects resolved)).mp ⟨graph, made⟩
  simp only [Model.ofDeclarations, bind_eq_ok_iff] at resolved
  obtain ⟨resources, resourcesRan, roles, rolesRan, links, linksRan, _⟩ := resolved
  have known := Model.resourcesOf_collects resourcesRan
  obtain ⟨wellFormed, types⟩ := Model.resourcesOf_ok_iff.mp ⟨resources, resourcesRan⟩
  obtain ⟨grants, roleNames, implied⟩ := Model.rolesOf_ok_iff.mp ⟨roles, rolesRan⟩
  obtain ⟨joined, childTypes, hierarchy⟩ := (Model.linksOf_ok_iff known).mp ⟨links, linksRan⟩
  have parts := fun l member => (Model.joins_iff known fun r declared => (wellFormed r declared).idColumn).mp (joined l member)
  exact { resources := wellFormed
          types := types
          roleNames := roleNames
          grants := fun e member => (Model.grants_iff known types).mp (grants e member)
          implied := implied
          linkTypes := fun l member => (parts l member).1
          linkColumns := fun l member => (parts l member).2
          childTypes := childTypes
          hierarchy := hierarchy
          implications := implications }

theorem compile_of_wellFormed (wellFormed : d.WellFormed) : ∃ s, Snapshot.compile d version = .ok s := by
  obtain ⟨resources, resourcesRan⟩ := Model.resourcesOf_ok_iff.mpr ⟨wellFormed.resources, wellFormed.types⟩
  have known := Model.resourcesOf_collects resourcesRan
  have grants := fun e member => (Model.grants_iff known wellFormed.types).mpr (wellFormed.grants e member)
  have joined := fun l member => (Model.joins_iff known fun r declared => (wellFormed.resources r declared).idColumn).mpr
    ⟨wellFormed.linkTypes l member, wellFormed.linkColumns l member⟩
  obtain ⟨roles, rolesRan⟩ := Model.rolesOf_ok_iff.mpr ⟨grants, wellFormed.roleNames, wellFormed.implied⟩
  obtain ⟨links, linksRan⟩ := (Model.linksOf_ok_iff known).mpr ⟨joined, wellFormed.childTypes, wellFormed.hierarchy⟩
  have resolved : Model.ofDeclarations d =
      .ok { resources, permissions := Model.permissionsOf resources roles, roles, links } := by
    rw [Model.ofDeclarations, resourcesRan]
    simp [bind, Except.bind, rolesRan, linksRan]
  obtain ⟨graph, made⟩ := (graphOf_ok_iff (Model.reflects resolved)).mpr wellFormed.implications
  rw [Snapshot.compile, resolved]
  simp [bind, Except.bind, mapError_ok, made]

theorem compiles_iff_wellFormed (d : Declarations) (version : Nat) :
    (∃ s, Snapshot.compile d version = .ok s) ↔ d.WellFormed := by
  constructor
  · intro given
    obtain ⟨s, compiled⟩ := given
    exact wellFormed_of_compile compiled
  · exact compile_of_wellFormed

theorem Compiled.checked (compiled : s.Compiled) : ∃ d, s.model.Checked d := by
  obtain ⟨d, compiled⟩ := compiled
  exact ⟨d, Model.checked (compile_eq_ok compiled).2.1⟩

theorem Compiled.plain_table (compiled : s.Compiled) {t : String} {table : FilterTarget} (found : s.tables.find? t = some table) :
    IsPlainName table.table ∧ IsPlainName table.idColumn := by
  obtain ⟨d, checked⟩ := compiled.checked
  rw [compiled.find?_tables, Option.map_eq_some_iff] at found
  obtain ⟨resource, place, rfl⟩ := found
  exact checked.resourceNames place

theorem Compiled.plain_step (compiled : s.Compiled) {step : WalkStep} (member : step ∈ s.walk) :
    IsPlainName step.childTable ∧ IsPlainName step.childId ∧ IsPlainName step.parentTable ∧ IsPlainName step.parentId ∧
      IsPlainName step.field ∧ IsPlainName step.references := by
  obtain ⟨d, checked⟩ := compiled.checked
  rw [compiled.walk_eq] at member
  obtain ⟨link, listed, rfl⟩ := List.mem_map.mp member
  obtain ⟨t, place⟩ := OrderedMap.mem_values.mp listed
  obtain ⟨⟨childTable, childId⟩, ⟨parentTable, parentId⟩, field, references⟩ := checked.linkNames place
  exact ⟨childTable, childId, parentTable, parentId, field, references⟩

end Snapshot

end ScopedAccess
