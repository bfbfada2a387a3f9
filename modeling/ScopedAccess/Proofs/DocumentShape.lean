import ScopedAccess.Proofs.Acceptance
import ScopedAccess.Proofs.NodeReading

namespace ScopedAccess

open Kdl (Node)

def Listing.listed? {α : Type} : Listing α → Option (List α)
  | unrestricted => none
  | only items => some items

namespace PolicyDocument

structure RoleShaped (n : Node) : Prop where
  isRole : n.name = "role"
  titled : ∃ text, n.Titled text
  children : ∀ c ∈ n.inner, c.name = "permissions" ∨ c.name = "implies"
  busy : ∃ c items, (Last n.inner "permissions" c ∨ Last n.inner "implies" c) ∧ Listed c items ∧ items ≠ []

structure RoleStated (n : Node) (role : RoleDeclaration) : Prop where
  name : n.Titled role.name
  permissions : Latest Listed n.inner "permissions" none role.permissions
  implies : Latest Listed n.inner "implies" none role.implies

def RolesStated (n : Node) (roles : List RoleDeclaration) : Prop := List.Forall₂ RoleStated n.inner roles

-- A node inside a resource has its shape also when a later one of the same name counts.
structure PartShaped (n : Node) : Prop where
  kind : n.name = "actions" ∨ n.name = "roles"
  actions : n.name = "actions" → ∀ items, Listed n items → items.Nodup
  roles : n.name = "roles" → ∀ role ∈ n.inner, RoleShaped role

structure ResourceShaped (n : Node) : Prop where
  titled : ∃ text, n.Titled text
  table : ∃ text, n.Sets "table" text
  children : ∀ c ∈ n.inner, PartShaped c

structure ResourceStated (n : Node) (r : ResourceDeclaration) : Prop where
  resourceType : n.Titled r.resourceType
  table : n.Sets "table" r.table
  idColumn : n.Sets "id" r.idColumn ∨ (∀ text, ¬ n.Sets "id" text) ∧ r.idColumn = "id"
  actions : Latest Listed n.inner "actions" none r.actions.listed?
  roles : Latest RolesStated n.inner "roles" none r.roles.listed?

structure LinkShaped (n : Node) : Prop where
  child : ∃ text, n.Sets "child" text
  parent : ∃ text, n.Sets "parent" text
  field : ∃ text, n.Sets "field" text

structure LinkStated (n : Node) (l : LinkDeclaration) : Prop where
  child : n.Sets "child" l.child
  parent : n.Sets "parent" l.parent
  field : n.Sets "field" l.field
  references : ∀ text, l.references = some text ↔ n.Sets "references" text

def Shaped (nodes : List Node) : Prop :=
  ∀ n ∈ nodes, (n.name = "resource" → ResourceShaped n) ∧ (n.name = "relationship" → LinkShaped n)

structure Stated (nodes : List Node) (d : Declarations) : Prop where
  resources : List.Forall₂ ResourceStated (nodes.filter (·.name = "resource")) d.resources
  links : List.Forall₂ LinkStated (nodes.filter (·.name = "relationship")) d.links

variable {nodes children : List Node} {n c : Node} {name text t : String}

theorem required_eq_ok_iff {α : Type} {value : Option α} {fault : SchemaFault} {a : α} :
    required value fault = .ok a ↔ value = some a := by
  cases value <;> simp [required]

section

variable {role start : RoleDeclaration}

theorem readRoleChild_eq_ok_iff : readRoleChild start c = .ok role ↔
    (c.name = "permissions" ∧ role = { start with permissions := some (dashes c) }) ∨
      (c.name = "implies" ∧ role = { start with implies := some (dashes c) }) := by
  unfold readRoleChild
  split
  · rename_i named
    simp [named, eq_comm]
  · rename_i named
    simp [named, eq_comm]
  · rename_i unlisted unimplied
    have other : c.name ≠ "permissions" := unlisted
    have another : c.name ≠ "implies" := unimplied
    simp [other, another]

-- Along the children each list takes the place of the one before.
theorem readRoleChildren_iff : children.foldlM readRoleChild start = .ok role ↔
    (∀ c ∈ children, c.name = "permissions" ∨ c.name = "implies") ∧ role.name = start.name ∧
      Latest Listed children "permissions" start.permissions role.permissions ∧
      Latest Listed children "implies" start.implies role.implies := by
  induction children generalizing start with
  | nil =>
    simp only [List.foldlM_nil, latest_nil_iff]
    constructor
    · intro same
      cases same
      simp
    · intro given
      obtain ⟨_, named, permissions, implies⟩ := given
      cases start
      cases role
      cases named
      cases permissions
      cases implies
      rfl
  | cons c rest ih =>
    simp only [List.foldlM_cons, bind_eq_ok_iff, readRoleChild_eq_ok_iff, List.forall_mem_cons]
    by_cases listed : c.name = "permissions"
    · have other : c.name ≠ "implies" := by simp [listed]
      simp [listed, ih, latest_cons_named listed fun b => listed_iff, latest_cons_other other]
    · by_cases implied : c.name = "implies"
      · simp [implied, ih, latest_cons_named implied fun b => listed_iff, latest_cons_other listed]
      · simp [listed, implied]

theorem filled_iff {kind : String} {stated : Option (List String)} (latest : Latest Listed nodes kind none stated) :
    (stated.getD []).isEmpty = false ↔ ∃ c items, Last nodes kind c ∧ Listed c items ∧ items ≠ [] := by
  rw [List.isEmpty_eq_false_iff]
  constructor
  · intro filled
    cases latest with
    | stays => exact absurd rfl filled
    | said last is => exact ⟨_, _, last, is, filled⟩
  · intro given
    obtain ⟨c, items, last, listed, filled⟩ := given
    cases latest with
    | stays absent => exact absurd last.is_named.2 (absent c last.is_named.1)
    | said other is =>
      cases other.unique last
      rw [listed_iff.mp is, ← listed_iff.mp listed]
      exact filled

theorem busy_iff {role : RoleDeclaration} (stated : RoleStated n role) :
    (!((role.permissions.getD []).isEmpty && (role.implies.getD []).isEmpty)) = true ↔
      ∃ c items, (Last n.inner "permissions" c ∨ Last n.inner "implies" c) ∧ Listed c items ∧ items ≠ [] := by
  rw [Bool.not_eq_true', Bool.and_eq_false_iff, filled_iff stated.permissions, filled_iff stated.implies]
  simp only [or_and_right, exists_or]

theorem readRole_eq_ok_iff : readRole t n = .ok role ↔ RoleShaped n ∧ RoleStated n role := by
  simp only [readRole, bind_eq_ok_iff, require_eq_ok_iff, required_eq_ok_iff, Node.label?_eq_some_iff, decide_eq_true_eq]
  constructor
  · intro given
    obtain ⟨_, isRole, name, titled, read, ran, _, busy, same⟩ := given
    obtain ⟨children, rfl, permissions, implies⟩ := readRoleChildren_iff.mp ran
    cases same
    have stated : RoleStated n role := ⟨titled, permissions, implies⟩
    exact ⟨⟨isRole, ⟨_, titled⟩, children, (busy_iff stated).mp busy⟩, stated⟩
  · intro given
    obtain ⟨shaped, stated⟩ := given
    refine ⟨(), shaped.isRole, role.name, stated.name, role, ?_, (), (busy_iff stated).mpr shaped.busy, rfl⟩
    exact readRoleChildren_iff.mpr ⟨shaped.children, rfl, stated.permissions, stated.implies⟩

theorem exists_latest_listed (n : Node) (kind : String) : ∃ stated, Latest Listed n.inner kind none stated := by
  apply exists_latest
  intro c _ _
  exact ⟨dashes c, listed_iff.mpr rfl⟩

theorem exists_roleStated (shaped : RoleShaped n) : ∃ role, RoleStated n role := by
  obtain ⟨text, titled⟩ := shaped.titled
  obtain ⟨permissions, granted⟩ := exists_latest_listed n "permissions"
  obtain ⟨implies, implied⟩ := exists_latest_listed n "implies"
  exact ⟨⟨text, permissions, implies⟩, titled, granted, implied⟩

end

section

variable {r start : ResourceDeclaration} {roles : List RoleDeclaration}

theorem readRoles_eq_ok_iff : c.inner.mapM (readRole t) = .ok roles ↔
    (∀ role ∈ c.inner, RoleShaped role) ∧ RolesStated c roles := by
  simp only [mapM_eq_ok_iff, readRole_eq_ok_iff, List.forall₂_and_left, RolesStated]

theorem readRoles_of_shaped (shaped : ∀ role ∈ c.inner, RoleShaped role) (t : String) :
    ∃ roles, c.inner.mapM (readRole t) = .ok roles ∧ ∀ others, RolesStated c others ↔ others = roles := by
  have each : ∀ role ∈ c.inner, ∃ read, readRole t role = .ok read := by
    intro role member
    obtain ⟨read, stated⟩ := exists_roleStated (shaped role member)
    exact ⟨read, readRole_eq_ok_iff.mpr ⟨shaped role member, stated⟩⟩
  obtain ⟨roles, ran⟩ := mapM_ok each
  refine ⟨roles, ran, fun others => ?_⟩
  constructor
  · intro stated
    have again : c.inner.mapM (readRole t) = .ok others := readRoles_eq_ok_iff.mpr ⟨shaped, stated⟩
    rw [ran] at again
    cases again
    rfl
  · rintro rfl
    exact (readRoles_eq_ok_iff.mp ran).2

theorem readActions (named : c.name = "actions") :
    readResourceChild start c = .ok r ↔ PartShaped c ∧ r = { start with actions := .only (dashes c) } := by
  have shaped_iff : PartShaped c ↔ (dashes c).Nodup := by
    constructor
    · intro shaped
      exact shaped.actions named (dashes c) (listed_iff.mpr rfl)
    · intro distinct
      refine ⟨.inl named, fun _ items listed => listed_iff.mp listed ▸ distinct, fun other => ?_⟩
      rw [named] at other
      exact absurd other (by decide)
  have repeated_iff : firstRepeat [] (dashes c) = none ↔ (dashes c).Nodup := by
    rw [firstRepeat_eq_none_iff]
    simp
  rw [shaped_iff, ← repeated_iff]
  unfold readResourceChild
  simp only [named]
  cases firstRepeat [] (dashes c) with
  | none => simp [eq_comm]
  | some action => simp

theorem readRoles (named : c.name = "roles") : readResourceChild start c = .ok r ↔
    PartShaped c ∧ ∃ roles, RolesStated c roles ∧ r = { start with roles := .only roles } := by
  have shaped_iff : PartShaped c ↔ ∀ role ∈ c.inner, RoleShaped role := by
    constructor
    · intro shaped
      exact shaped.roles named
    · intro roles
      refine ⟨.inr named, fun other => ?_, fun _ => roles⟩
      rw [named] at other
      exact absurd other (by decide)
  unfold readResourceChild
  simp only [named, bind_eq_ok_iff]
  rw [shaped_iff]
  constructor
  · intro given
    obtain ⟨roles, ran, ended⟩ := given
    cases ended
    obtain ⟨shaped, stated⟩ := readRoles_eq_ok_iff.mp ran
    exact ⟨shaped, roles, stated, rfl⟩
  · intro given
    obtain ⟨shaped, roles, stated, rfl⟩ := given
    exact ⟨roles, readRoles_eq_ok_iff.mpr ⟨shaped, stated⟩, rfl⟩

theorem readStray (other : c.name ≠ "actions") (another : c.name ≠ "roles") : readResourceChild start c ≠ .ok r := by
  unfold readResourceChild
  split
  · rename_i named
    exact absurd named other
  · rename_i named
    exact absurd named another
  · intro impossible
    cases impossible

theorem listed?_inj {α : Type} {l m : Listing α} (same : l.listed? = m.listed?) : l = m := by
  cases l <;> cases m <;> cases same <;> rfl

theorem readResourceChildren_iff : children.foldlM readResourceChild start = .ok r ↔
    (∀ c ∈ children, PartShaped c) ∧
      (r.resourceType = start.resourceType ∧ r.table = start.table ∧ r.idColumn = start.idColumn) ∧
      Latest Listed children "actions" start.actions.listed? r.actions.listed? ∧
      Latest RolesStated children "roles" start.roles.listed? r.roles.listed? := by
  induction children generalizing start with
  | nil =>
    simp only [List.foldlM_nil, latest_nil_iff]
    constructor
    · intro same
      cases same
      simp
    · intro given
      obtain ⟨_, ⟨resourceType, table, idColumn⟩, actions, roles⟩ := given
      cases start
      cases r
      cases resourceType
      cases table
      cases idColumn
      cases listed?_inj actions
      cases listed?_inj roles
      rfl
  | cons c rest ih =>
    rw [List.foldlM_cons, bind_eq_ok_iff, List.forall_mem_cons]
    by_cases shaped : PartShaped c
    · rcases shaped.kind with named | named
      · have other : c.name ≠ "roles" := by simp [named]
        simp only [readActions named, shaped, true_and, exists_eq_left, ih, latest_cons_named named fun _ => listed_iff,
          latest_cons_other other]
        rfl
      · have other : c.name ≠ "actions" := by simp [named]
        obtain ⟨roles, _, only⟩ := readRoles_of_shaped (shaped.roles named) start.resourceType
        simp only [readRoles named, shaped, true_and, only, exists_eq_left, ih, latest_cons_named named only,
          latest_cons_other other]
        rfl
    · refine iff_of_false ?_ fun given => shaped given.1.1
      intro given
      obtain ⟨next, here, _⟩ := given
      by_cases named : c.name = "actions"
      · exact shaped ((readActions named).mp here).1
      · by_cases other : c.name = "roles"
        · exact shaped ((readRoles other).mp here).1
        · exact readStray named other here

theorem idColumn_iff {column : String} : column = (n.textProperty? "id").getD "id" ↔
    n.Sets "id" column ∨ (∀ text, ¬ n.Sets "id" text) ∧ column = "id" := by
  simp only [← Node.textProperty?_eq_some_iff]
  cases n.textProperty? "id" with
  | none => simp
  | some text => simp [eq_comm]

theorem readResource_eq_ok_iff : readResource n = .ok r ↔ ResourceShaped n ∧ ResourceStated n r := by
  simp only [readResource, bind_eq_ok_iff, required_eq_ok_iff, Node.label?_eq_some_iff, Node.textProperty?_eq_some_iff]
  constructor
  · intro given
    obtain ⟨resourceType, titled, table, sets, ran⟩ := given
    obtain ⟨children, ⟨rfl, rfl, idColumn⟩, actions, roles⟩ := readResourceChildren_iff.mp ran
    exact ⟨⟨⟨_, titled⟩, ⟨_, sets⟩, children⟩, titled, sets, idColumn_iff.mp idColumn, actions, roles⟩
  · intro given
    obtain ⟨shaped, stated⟩ := given
    refine ⟨r.resourceType, stated.resourceType, r.table, stated.table, ?_⟩
    exact readResourceChildren_iff.mpr
      ⟨shaped.children, ⟨rfl, rfl, idColumn_iff.mpr stated.idColumn⟩, stated.actions, stated.roles⟩

theorem exists_listing {α : Type} (stated : Option (List α)) : ∃ listing : Listing α, listing.listed? = stated := by
  cases stated with
  | none => exact ⟨.unrestricted, rfl⟩
  | some items => exact ⟨.only items, rfl⟩

theorem exists_resourceStated (shaped : ResourceShaped n) : ∃ r, ResourceStated n r := by
  obtain ⟨resourceType, titled⟩ := shaped.titled
  obtain ⟨table, sets⟩ := shaped.table
  obtain ⟨listed, lists⟩ := exists_latest_listed n "actions"
  have eachRoles : ∀ c ∈ n.inner, c.name = "roles" → ∃ roles, RolesStated c roles := by
    intro c member named
    obtain ⟨roles, _, only⟩ := readRoles_of_shaped ((shaped.children c member).roles named) resourceType
    exact ⟨roles, (only roles).mpr rfl⟩
  have lastRoles : ∃ stated, Latest RolesStated n.inner "roles" none stated := exists_latest eachRoles
  obtain ⟨stated, states⟩ := lastRoles
  obtain ⟨actions, rfl⟩ := exists_listing listed
  obtain ⟨roles, rfl⟩ := exists_listing stated
  exact ⟨⟨resourceType, table, (n.textProperty? "id").getD "id", actions, roles⟩, titled, sets, idColumn_iff.mp rfl,
    lists, states⟩

end

section

variable {l : LinkDeclaration}

theorem readLink_eq_ok_iff : readLink n = .ok l ↔ LinkShaped n ∧ LinkStated n l := by
  simp only [readLink, bind_eq_ok_iff, required_eq_ok_iff]
  constructor
  · intro given
    obtain ⟨child, isChild, parent, isParent, field, isField, same⟩ := given
    cases same
    have childSet := Node.textProperty?_eq_some_iff.mp isChild
    have parentSet := Node.textProperty?_eq_some_iff.mp isParent
    have fieldSet := Node.textProperty?_eq_some_iff.mp isField
    exact ⟨⟨⟨_, childSet⟩, ⟨_, parentSet⟩, ⟨_, fieldSet⟩⟩, childSet, parentSet, fieldSet,
      fun text => Node.textProperty?_eq_some_iff⟩
  · intro given
    obtain ⟨_, stated⟩ := given
    refine ⟨l.child, Node.textProperty?_eq_some_iff.mpr stated.child, l.parent,
      Node.textProperty?_eq_some_iff.mpr stated.parent, l.field, Node.textProperty?_eq_some_iff.mpr stated.field, ?_⟩
    have same : n.textProperty? "references" = l.references := by
      apply Option.ext
      intro text
      exact Node.textProperty?_eq_some_iff.trans (stated.references text).symm
    rw [same]

theorem exists_linkStated (shaped : LinkShaped n) : ∃ l, LinkStated n l := by
  obtain ⟨child, isChild⟩ := shaped.child
  obtain ⟨parent, isParent⟩ := shaped.parent
  obtain ⟨field, isField⟩ := shaped.field
  exact ⟨⟨child, parent, field, n.textProperty? "references"⟩, isChild, isParent, isField,
    fun text => Node.textProperty?_eq_some_iff⟩

end

section

variable {rest : List Node} {d start : Declarations}

theorem readNode_resource (named : n.name = "resource") :
    readNode start n = .ok d ↔ ∃ r, readResource n = .ok r ∧ d = ⟨start.resources ++ [r], start.links⟩ := by
  unfold readNode
  simp only [named, bind_eq_ok_iff, Except.ok.injEq]
  simp only [eq_comm]

theorem readNode_link (named : n.name = "relationship") :
    readNode start n = .ok d ↔ ∃ l, readLink n = .ok l ∧ d = ⟨start.resources, start.links ++ [l]⟩ := by
  unfold readNode
  simp only [named, bind_eq_ok_iff, Except.ok.injEq]
  simp only [eq_comm]

theorem readNode_other (other : n.name ≠ "resource") (another : n.name ≠ "relationship") :
    readNode start n = .ok d ↔ d = start := by
  unfold readNode
  split
  · rename_i named
    exact absurd named other
  · rename_i named
    exact absurd named another
  · rw [Except.ok.injEq]
    exact eq_comm

-- Each kind of node is read for itself, and what is read comes behind what was read before.
theorem readNodes_eq_ok_iff : nodes.foldlM readNode start = .ok d ↔ ∃ resources links,
    List.Forall₂ (fun n r => readResource n = .ok r) (nodes.filter (·.name = "resource")) resources ∧
      List.Forall₂ (fun n l => readLink n = .ok l) (nodes.filter (·.name = "relationship")) links ∧
      d = ⟨start.resources ++ resources, start.links ++ links⟩ := by
  induction nodes generalizing start with
  | nil =>
    constructor
    · intro same
      cases same
      exact ⟨[], [], .nil, .nil, by simp⟩
    · intro given
      obtain ⟨_, _, noResource, noLink, rfl⟩ := given
      cases noResource
      cases noLink
      simp [pure, Except.pure]
  | cons n rest ih =>
    rw [List.foldlM_cons, bind_eq_ok_iff]
    by_cases named : n.name = "resource"
    · have here : (n :: rest).filter (·.name = "resource") = n :: rest.filter (·.name = "resource") :=
        List.filter_cons_of_pos (by simp [named])
      have there : (n :: rest).filter (·.name = "relationship") = rest.filter (·.name = "relationship") :=
        List.filter_cons_of_neg (by simp [named])
      simp only [here, there, readNode_resource named, ih, List.forall₂_cons_left_iff]
      constructor
      · intro given
        obtain ⟨_, ⟨r, first, rfl⟩, resources, links, others, joins, rfl⟩ := given
        exact ⟨r :: resources, links, ⟨r, resources, first, others, rfl⟩, joins, by simp⟩
      · intro given
        obtain ⟨_, links, ⟨r, resources, first, others, rfl⟩, joins, rfl⟩ := given
        exact ⟨_, ⟨r, first, rfl⟩, resources, links, others, joins, by simp⟩
    · have here : (n :: rest).filter (·.name = "resource") = rest.filter (·.name = "resource") :=
        List.filter_cons_of_neg (by simp [named])
      by_cases linked : n.name = "relationship"
      · have there : (n :: rest).filter (·.name = "relationship") = n :: rest.filter (·.name = "relationship") :=
          List.filter_cons_of_pos (by simp [linked])
        simp only [here, there, readNode_link linked, ih, List.forall₂_cons_left_iff]
        constructor
        · intro given
          obtain ⟨_, ⟨l, first, rfl⟩, resources, links, others, joins, rfl⟩ := given
          exact ⟨resources, l :: links, others, ⟨l, links, first, joins, rfl⟩, by simp⟩
        · intro given
          obtain ⟨resources, _, others, ⟨l, links, first, joins, rfl⟩, rfl⟩ := given
          exact ⟨_, ⟨l, first, rfl⟩, resources, links, others, joins, by simp⟩
      · have there : (n :: rest).filter (·.name = "relationship") = rest.filter (·.name = "relationship") :=
          List.filter_cons_of_neg (by simp [linked])
        simp only [here, there, readNode_other named linked, exists_eq_left, ih]

theorem read_iff : Shaped nodes ∧ Stated nodes d ↔
    List.Forall₂ (fun n r => readResource n = .ok r) (nodes.filter (·.name = "resource")) d.resources ∧
      List.Forall₂ (fun n l => readLink n = .ok l) (nodes.filter (·.name = "relationship")) d.links := by
  simp only [readResource_eq_ok_iff, readLink_eq_ok_iff, List.forall₂_and_left, List.mem_filter, decide_eq_true_eq]
  constructor
  · intro given
    obtain ⟨shaped, stated⟩ := given
    exact ⟨⟨fun n there => (shaped n there.1).1 there.2, stated.resources⟩,
      fun n there => (shaped n there.1).2 there.2, stated.links⟩
  · intro given
    obtain ⟨⟨resourceShaped, resources⟩, linkShaped, links⟩ := given
    exact ⟨fun n member => ⟨fun named => resourceShaped n ⟨member, named⟩, fun named => linkShaped n ⟨member, named⟩⟩,
      resources, links⟩

theorem ofDocument_eq_ok_iff : Declarations.ofDocument nodes = .ok d ↔ Shaped nodes ∧ Stated nodes d := by
  unfold Declarations.ofDocument
  rw [readNodes_eq_ok_iff, read_iff]
  constructor
  · intro given
    obtain ⟨resources, links, read, joins, rfl⟩ := given
    exact ⟨read, joins⟩
  · intro given
    exact ⟨d.resources, d.links, given.1, given.2, rfl⟩

theorem exists_stated (shaped : Shaped nodes) : ∃ d, Stated nodes d := by
  have eachResource : ∀ n ∈ nodes.filter (·.name = "resource"), ∃ r, readResource n = .ok r := by
    intro n kept
    obtain ⟨member, named⟩ := List.mem_filter.mp kept
    have shape := (shaped n member).1 (of_decide_eq_true named)
    obtain ⟨r, stated⟩ := exists_resourceStated shape
    exact ⟨r, readResource_eq_ok_iff.mpr ⟨shape, stated⟩⟩
  have eachLink : ∀ n ∈ nodes.filter (·.name = "relationship"), ∃ l, readLink n = .ok l := by
    intro n kept
    obtain ⟨member, named⟩ := List.mem_filter.mp kept
    have shape := (shaped n member).2 (of_decide_eq_true named)
    obtain ⟨l, stated⟩ := exists_linkStated shape
    exact ⟨l, readLink_eq_ok_iff.mpr ⟨shape, stated⟩⟩
  obtain ⟨resources, resourcesRan⟩ := mapM_ok eachResource
  obtain ⟨links, linksRan⟩ := mapM_ok eachLink
  have read : Shaped nodes ∧ Stated nodes ⟨resources, links⟩ :=
    read_iff.mpr ⟨mapM_eq_ok_iff.mp resourcesRan, mapM_eq_ok_iff.mp linksRan⟩
  exact ⟨_, read.2⟩

end

end PolicyDocument

open PolicyDocument (Shaped Stated ofDocument_eq_ok_iff exists_stated)

theorem readDocument_eq_ok_iff {text : String} {d : Declarations} : PolicySource.readDocument text = .ok d ↔
    ∃ nodes, Kdl.parse? text = some nodes ∧ Shaped nodes ∧ Stated nodes d := by
  unfold PolicySource.readDocument
  cases Kdl.parse? text with
  | none => simp
  | some nodes => simp [mapError_eq_ok_iff, ofDocument_eq_ok_iff]

theorem document_read_iff :
    (∀ nodes, (∃ d, Declarations.ofDocument nodes = .ok d) ↔ Shaped nodes) ∧
      (∀ nodes d, Declarations.ofDocument nodes = .ok d ↔ Shaped nodes ∧ Stated nodes d) ∧
      ∀ text d, PolicySource.readDocument text = .ok d ↔
        ∃ nodes, Kdl.parse? text = some nodes ∧ Shaped nodes ∧ Stated nodes d := by
  refine ⟨fun nodes => ?_, fun nodes d => ofDocument_eq_ok_iff, fun text d => readDocument_eq_ok_iff⟩
  constructor
  · intro given
    obtain ⟨d, read⟩ := given
    exact (ofDocument_eq_ok_iff.mp read).1
  · intro shaped
    obtain ⟨d, stated⟩ := exists_stated shaped
    exact ⟨d, ofDocument_eq_ok_iff.mpr ⟨shaped, stated⟩⟩

-- The later list counts, and that it is empty is not the same as no list.
example : (PolicySource.readDocument
    "resource \"Note\" table=\"notes\" \x7b actions \x7b - \"read\" \x7d; actions \x7b \x7d; \x7d").toOption.map
      (fun d => d.resources.map fun r => (r.actions, r.roles)) = some [(.only [], .unrestricted)] := by
  decide +kernel

end ScopedAccess
