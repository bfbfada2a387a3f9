import ScopedAccess.Proofs.Acceptance

namespace ScopedAccess

def Declarations.Grants (d : Declarations) (p : Permission) : Prop :=
  ∃ e ∈ d.roles, ∃ text ∈ e.2.permissions.getD [], p.ReadFrom e.1 text

structure Resource.Keeps (resource : Resource) (r : ResourceDeclaration) : Prop where
  instances : resource.instances = ⟨r.resourceType, r.table, r.idColumn⟩
  actions : ∀ action, action ∈ resource.actions ↔ action ∈ r.actions.items

-- The grants are what their texts say, one after the other, and without those that were there before.
structure Role.Keeps (role : Role) (e : String × RoleDeclaration) : Prop where
  name : role.name = e.2.name
  type : role.resourceType = e.1
  permissions : ∃ read : List Permission,
    List.Forall₂ (fun text p => p.ReadFrom e.1 text) (e.2.permissions.getD []) read ∧ FirstOccurrences read role.permissions
  implies : ∀ n, n ∈ role.implies ↔ n ∈ e.2.implies.getD []

structure ParentLink.Keeps (resources : OrderedMap String Resource) (link : ParentLink) (l : LinkDeclaration) : Prop where
  child : ∃ resource, resources.find? l.child = some resource ∧ link.child = resource.instances
  parent : ∃ resource, resources.find? l.parent = some resource ∧ link.parent = resource.instances ∧
    link.references = l.references.getD resource.instances.idColumn
  field : link.field = l.field

section

variable {α β κ : Type} [Key κ] {key : β → κ} {value : β → Option α} {keeps : α → β → Prop} {items : List β} {m : OrderedMap κ α}

-- A map with a value under the key of each item, which keeps the item, and with nothing else.
structure Mirrors (key : β → κ) (keeps : α → β → Prop) (items : List β) (m : OrderedMap κ α) : Prop where
  each : ∀ b ∈ items, ∃ v, m.find? (key b) = some v ∧ keeps v b
  only : ∀ k v, m.find? k = some v → ∃ b ∈ items, key b = k ∧ keeps v b

theorem Collects.mirrors (collects : Collects key value items m) (kept : ∀ b ∈ items, ∀ v, value b = some v → keeps v b) :
    Mirrors key keeps items m := by
  constructor
  · intro b member
    obtain ⟨v, comes⟩ := collects.comes b member
    exact ⟨v, (collects.find?_iff _ v).mpr ⟨b, member, rfl, comes⟩, kept b member v comes⟩
  · intro k v found
    obtain ⟨b, member, named, comes⟩ := (collects.find?_iff k v).mp found
    exact ⟨b, member, named, kept b member v comes⟩

end

namespace Model

structure Keeps (m : Model) (d : Declarations) : Prop where
  resources : Mirrors (·.resourceType) Resource.Keeps d.resources m.resources
  roles : Mirrors (·.2.name) Role.Keeps d.roles m.roles
  links : Mirrors (·.child) (ParentLink.Keeps m.resources) d.links m.links
  roleNames : ∀ t resource, m.resources.find? t = some resource →
    ∀ n, n ∈ resource.roles ↔ ∃ role, m.roles.find? n = some role ∧ role.resourceType = t
  permissions : ∀ p, p ∈ m.permissions ↔
    (∃ r ∈ d.resources, r.resourceType = p.resourceType ∧ p.action ∈ r.actions.items) ∨
      ∃ n, ImplicationGraph.Grants m.roles n p

structure Closed (m : Model) : Prop extends m.Resolved where
  grantedType : ∀ n p, ImplicationGraph.Grants m.roles n p → m.resources.contains p.resourceType = true
  implied : ∀ a b, ImplicationGraph.Implies m.roles a b → m.roles.contains b = true
  linkTypes : ∀ t link, m.links.find? t = some link →
    m.resources.contains link.child.resourceType = true ∧ m.resources.contains link.parent.resourceType = true
  resourceNames : ∀ t resource, m.resources.find? t = some resource → resource.instances.Plain
  linkNames : ∀ t link, m.links.find? t = some link →
    link.child.Plain ∧ link.parent.Plain ∧ IsPlainName link.field ∧ IsPlainName link.references
  top : ∀ t, ∃ top, ∃ n ≤ m.links.size, StepsIn (Above m.links) n t top ∧ m.links.find? top = none

variable {d : Declarations} {m : Model}

theorem resourceOf_keeps (r : ResourceDeclaration) : (resourceOf r).Keeps r := ⟨rfl, fun _ => OrderedSet.mem_ofList⟩

theorem roleOf_keeps {resources : OrderedMap String Resource} {restricts : String → Bool} {e : String × RoleDeclaration}
    (grants : Grants resources restricts e) : (roleOf e).Keeps e := by
  refine ⟨rfl, rfl, ⟨_, forall₂_filterMap ?_, firstOccurrences_eraseDups _⟩, fun _ => OrderedSet.mem_ofList⟩
  intro text member
  obtain ⟨p, resolved⟩ := grants text member
  have reads : Permission.parse? e.1 text = some p := resolveGrant_eq_ok resolved
  exact ⟨p, reads, (parse?_eq_some_iff.mp reads).1⟩

theorem linkOf?_keeps {resources : OrderedMap String Resource} {l : LinkDeclaration} {link : ParentLink}
    (comes : linkOf? resources l = some link) : link.Keeps resources l := by
  obtain ⟨child, parent, childFound, parentFound, rfl⟩ := linkOf?_eq_some comes
  exact ⟨⟨child, childFound, rfl⟩, ⟨parent, parentFound, rfl, rfl⟩, rfl⟩

theorem Reflects.roleNames (reflects : m.Reflects d) {t n : String} {resource : Resource}
    (found : m.resources.find? t = some resource) :
    n ∈ resource.roles ↔ ∃ role, m.roles.find? n = some role ∧ role.resourceType = t := by
  obtain ⟨r, member, typed, same⟩ := (reflects.resources.find?_iff t resource).mp found
  cases same
  have listed : n ∈ (resourceOf r).roles ↔ ∃ role ∈ r.roles.items, role.name = n := by
    rw [resourceOf, OrderedSet.mem_ofList, List.mem_map]
  rw [listed]
  constructor
  · intro given
    obtain ⟨role, declared, named⟩ := given
    have there : (r.resourceType, role) ∈ d.roles := mem_roles_iff.mpr ⟨r, member, rfl, declared⟩
    exact ⟨roleOf (r.resourceType, role), (reflects.roles.find?_iff n _).mpr ⟨_, there, named, rfl⟩, typed⟩
  · intro given
    obtain ⟨role, place, onType⟩ := given
    obtain ⟨e, there, named, same⟩ := (reflects.roles.find?_iff n role).mp place
    cases same
    obtain ⟨other, declared, owner, lists⟩ := mem_roles_iff.mp there
    have again : m.resources.find? t = some (resourceOf other) :=
      (reflects.resources.find?_iff t _).mpr ⟨other, declared, owner.trans onType, rfl⟩
    rw [found] at again
    have roles : (resourceOf r).roles = (resourceOf other).roles := congrArg Resource.roles (Option.some.inj again)
    rw [← listed, roles, resourceOf, OrderedSet.mem_ofList]
    exact List.mem_map.mpr ⟨e.2, lists, named⟩

theorem Checked.keeps (checked : m.Checked d) : m.Keeps d := by
  have reflects := checked.reflects
  refine ⟨reflects.resources.mirrors ?_, reflects.roles.mirrors ?_, reflects.links.mirrors ?_, ?_, ?_⟩
  · rintro r _ _ ⟨⟩
    exact resourceOf_keeps r
  · rintro e member _ ⟨⟩
    exact roleOf_keeps (checked.grants e member)
  · intro l _ link comes
    exact linkOf?_keeps comes
  · intro t resource found n
    exact reflects.roleNames found
  · intro p
    rw [checked.permissions, mem_permissionsOf_iff]
    refine or_congr ?_ Iff.rfl
    constructor
    · intro given
      obtain ⟨resource, found, listed⟩ := given
      obtain ⟨r, member, typed, same⟩ := (reflects.resources.find?_iff _ resource).mp found
      cases same
      exact ⟨r, member, typed, OrderedSet.mem_ofList.mp listed⟩
    · intro given
      obtain ⟨r, member, typed, listed⟩ := given
      exact ⟨resourceOf r, (reflects.resources.find?_iff _ _).mpr ⟨r, member, typed, rfl⟩, OrderedSet.mem_ofList.mpr listed⟩

theorem Checked.granted (checked : m.Checked d) {n : String} {p : Permission} (grants : ImplicationGraph.Grants m.roles n p) :
    (∃ own text, Permission.parse? own text = some p) ∧ ∃ target, m.resources.find? p.resourceType = some target ∧
      (d.restricts p.resourceType = true → p.action ∈ target.actions) := by
  obtain ⟨role, found, granted⟩ := grants
  obtain ⟨e, member, _, same⟩ := (checked.reflects.roles.find?_iff n role).mp found
  cases same
  obtain ⟨text, listed, read⟩ := List.mem_filterMap.mp (List.mem_eraseDups.mp granted)
  obtain ⟨q, target, reads, known, lists⟩ := resolveGrant_ok_iff.mp (checked.grants e member text listed)
  cases reads.symm.trans read
  exact ⟨⟨e.1, text, read⟩, target, known, lists⟩

theorem Checked.grantedType (checked : m.Checked d) {n : String} {p : Permission}
    (grants : ImplicationGraph.Grants m.roles n p) : m.resources.contains p.resourceType = true := by
  obtain ⟨_, target, known, _⟩ := checked.granted grants
  exact OrderedMap.contains_of_find? known

theorem Checked.closed (checked : m.Checked d) : m.Closed :=
  { checked.reflects.resolved with
    grantedType := fun _ _ => checked.grantedType
    implied := by
      intro a b implies
      obtain ⟨role, found, implied⟩ := implies
      exact checked.reflects.implied a role b found implied
    linkTypes := by
      intro t link found
      obtain ⟨child, parent, childFound, parentFound, sameChild, _⟩ := checked.reflects.link found
      have named := checked.reflects.resolved.linkName t link found
      exact ⟨named ▸ OrderedMap.contains_of_find? childFound, OrderedMap.contains_of_find? parentFound⟩
    resourceNames := fun _ _ => checked.resourceNames
    linkNames := fun _ _ => checked.linkNames
    top := exists_top checked.reflects.acyclic }

theorem Keeps.grants_iff {p : Permission} (kept : m.Keeps d) : (∃ n, ImplicationGraph.Grants m.roles n p) ↔ d.Grants p := by
  constructor
  · intro given
    obtain ⟨n, role, found, granted⟩ := given
    obtain ⟨e, declared, _, keeps⟩ := kept.roles.only n role found
    obtain ⟨read, each, first⟩ := keeps.permissions
    obtain ⟨text, written, reads⟩ := exists_left_of_mem each ((first.members p).mp granted)
    exact ⟨e, declared, text, written, reads⟩
  · intro given
    obtain ⟨e, declared, text, written, reads⟩ := given
    obtain ⟨role, found, keeps⟩ := kept.roles.each e declared
    obtain ⟨read, each, first⟩ := keeps.permissions
    obtain ⟨q, member, again⟩ := exists_right_of_mem each written
    have same : p = q := (readFrom_iff.mp reads).trans (readFrom_iff.mp again).symm
    exact ⟨e.2.name, role, found, same ▸ (first.members q).mpr member⟩

theorem ofDeclarations_keeps (made : Model.ofDeclarations d = .ok m) : m.Keeps d ∧ m.Closed :=
  ⟨(checked made).keeps, (checked made).closed⟩

def archive : Declarations :=
  { resources :=
      [⟨"Note", "notes", "id", .only ["read"], .unrestricted⟩,
        ⟨"Folder", "folders", "id", .unrestricted, .only
          [⟨"keeper", some ["Note:read", "sweep", "Note:read"], some ["guest"]⟩, ⟨"guest", some ["Folder:enter"], none⟩]⟩]
    links := [⟨"Note", "Folder", "folder_id", none⟩] }

theorem archive_keeper : ∃ m, Model.ofDeclarations archive = .ok m ∧ m.Keeps archive ∧ m.Closed ∧
    (m.roles.find? "keeper").map (·.permissions) = some [⟨"Note", "read"⟩, ⟨"Folder", "sweep"⟩] := by
  have resolved : (Model.ofDeclarations archive).toOption.map (fun m => (m.roles.find? "keeper").map (·.permissions)) =
      some (some [⟨"Note", "read"⟩, ⟨"Folder", "sweep"⟩]) := by decide +kernel
  obtain ⟨m, made, granted⟩ := Option.map_eq_some_iff.mp resolved
  rw [toOption_eq_some_iff] at made
  obtain ⟨keeps, closed⟩ := ofDeclarations_keeps made
  exact ⟨m, made, keeps, closed, granted⟩

end Model

end ScopedAccess
