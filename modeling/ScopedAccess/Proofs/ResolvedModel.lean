import ScopedAccess.Proofs.Hierarchy
import ScopedAccess.Proofs.Outcome

namespace ScopedAccess

section

variable {α β κ : Type} [Key κ] {key : β → κ} {value : β → Option α} {items : List β} {m : OrderedMap κ α} {b : β} {k : κ} {v : α}

-- A map that holds under the key of each item what the item comes to, and nothing else. Every item comes to something.
structure Collects (key : β → κ) (value : β → Option α) (items : List β) (m : OrderedMap κ α) : Prop where
  find?_iff : ∀ k v, m.find? k = some v ↔ ∃ b ∈ items, key b = k ∧ value b = some v
  comes : ∀ b ∈ items, ∃ v, value b = some v

theorem collects_none : Collects key value [] .empty := ⟨by simp, by simp⟩

theorem Collects.contains_iff (collects : Collects key value items m) : m.contains k = true ↔ ∃ b ∈ items, key b = k := by
  constructor
  · intro known
    obtain ⟨v, found⟩ := Option.isSome_iff_exists.mp known
    obtain ⟨b, member, named, _⟩ := (collects.find?_iff k v).mp found
    exact ⟨b, member, named⟩
  · intro given
    obtain ⟨b, member, named⟩ := given
    obtain ⟨v, comes⟩ := collects.comes b member
    exact OrderedMap.contains_of_find? ((collects.find?_iff k v).mpr ⟨b, member, named, comes⟩)

theorem Collects.insert (collects : Collects key value items m) (new : m.contains (key b) = false) (comes : value b = some v) :
    Collects key value (items ++ [b]) (m.insert (key b) v) := by
  constructor
  · intro k w
    rw [OrderedMap.find?_insert]
    constructor
    · intro found
      split at found
      · rename_i same
        cases found
        exact ⟨b, by simp, same, comes⟩
      · obtain ⟨a, member, named, is⟩ := (collects.find?_iff k w).mp found
        exact ⟨a, List.mem_append_left _ member, named, is⟩
    · intro given
      obtain ⟨a, member, named, is⟩ := given
      rcases List.mem_append.mp member with old | last
      · have found : m.find? k = some w := (collects.find?_iff k w).mpr ⟨a, old, named, is⟩
        have other : key b ≠ k := by
          intro same
          rw [same, OrderedMap.contains_of_find? found] at new
          cases new
        rw [if_neg other]
        exact found
      · cases List.mem_singleton.mp last
        rw [if_pos named, ← comes, is]
  · intro a member
    rcases List.mem_append.mp member with old | last
    · exact collects.comes a old
    · cases List.mem_singleton.mp last
      exact ⟨v, comes⟩

theorem collects_of_foldlM {ε : Type} {f : OrderedMap κ α → β → Except ε (OrderedMap κ α)}
    (step : ∀ m b next, f m b = .ok next → ∃ v, value b = some v ∧ m.contains (key b) = false ∧ next = m.insert (key b) v)
    (ran : items.foldlM f .empty = .ok m) : Collects key value items m := by
  refine foldlM_invariant (fun done m => Collects key value done m) collects_none ?_ ran
  intro done b rest before next split held stepped
  obtain ⟨v, comes, new, rfl⟩ := step before b next stepped
  exact held.insert new comes

end

namespace Model

structure Resolved (m : Model) : Prop where
  resourceName : ∀ t r, m.resources.find? t = some r → r.instances.resourceType = t
  roleName : ∀ n r, m.roles.find? n = some r → r.name = n
  roleType : ∀ n r, m.roles.find? n = some r → m.resources.contains r.resourceType = true
  granted : ∀ n r p, m.roles.find? n = some r → p ∈ r.permissions → p ∈ m.permissions
  linkName : ∀ t l, m.links.find? t = some l → l.child.resourceType = t
  acyclic : ∀ t, ¬ Relation.TransGen (Above m.links) t t

variable {d : Declarations} {resources next : OrderedMap String Resource} {roles : OrderedMap String Role}
  {links : OrderedMap String ParentLink} {m : Model} {p : Permission} {r : ResourceDeclaration} {e : String × RoleDeclaration}
  {l : LinkDeclaration} {restricts : String → Bool}

-- What a declaration of each kind comes to. Of a grant that cannot be read nothing is left, but a model has none.
def resourceOf (d : ResourceDeclaration) : Resource :=
  { instances := ⟨d.resourceType, d.table, d.idColumn⟩
    actions := .ofList d.actions.items
    roles := .ofList (d.roles.items.map (·.name)) }

def roleOf (e : String × RoleDeclaration) : Role :=
  { name := e.2.name
    resourceType := e.1
    permissions := ((e.2.permissions.getD []).filterMap (Permission.parse? e.1)).eraseDups
    implies := .ofList (e.2.implies.getD []) }

def linkOf? (resources : OrderedMap String Resource) (d : LinkDeclaration) : Option ParentLink := do
  let child ← resources.find? d.child
  let parent ← resources.find? d.parent
  some ⟨child.instances, parent.instances, d.field, d.references.getD parent.instances.idColumn⟩

theorem declareResource_eq_ok (declared : declareResource resources r = .ok next) :
    resources.contains r.resourceType = false ∧ next = resources.insert r.resourceType (resourceOf r) := by
  simp only [declareResource, bind_eq_ok_iff] at declared
  obtain ⟨_, _, _, _, _, _, _, new, declared⟩ := declared
  refine ⟨by simpa using require_eq_ok_iff.mp new, ?_⟩
  split at declared
  · cases declared
  · cases declared
    rfl

theorem resourcesOf_collects (ran : resourcesOf d = .ok resources) :
    Collects (·.resourceType) (some ∘ resourceOf) d.resources resources :=
  collects_of_foldlM (fun _ _ _ declared => ⟨_, rfl, declareResource_eq_ok declared⟩) ran

theorem resolveGrant_eq_ok {own role text : String} (resolved : resolveGrant resources restricts own role text = .ok p) :
    Permission.parse? own text = some p := by
  unfold resolveGrant at resolved
  split at resolved
  · cases resolved
  · rename_i q read
    split at resolved
    · cases resolved
    · split at resolved
      · cases resolved
      · cases resolved
        exact read

theorem declareRole_eq_ok {next : OrderedMap String Role} (declared : declareRole resources restricts roles e = .ok next) :
    roles.contains e.2.name = false ∧ next = roles.insert e.2.name (roleOf e) := by
  simp only [declareRole, bind_eq_ok_iff] at declared
  obtain ⟨_, new, granted, ran, declared⟩ := declared
  cases declared
  have read : granted = (e.2.permissions.getD []).filterMap (Permission.parse? e.1) :=
    eq_filterMap_of_mapM (fun _ _ => resolveGrant_eq_ok) ran
  refine ⟨by simpa using require_eq_ok_iff.mp new, ?_⟩
  rw [read]
  rfl

theorem declaredRoles_collect (ran : d.roles.foldlM (declareRole resources d.restricts) .empty = .ok roles) :
    Collects (·.2.name) (some ∘ roleOf) d.roles roles :=
  collects_of_foldlM (fun _ _ _ declared => ⟨_, rfl, declareRole_eq_ok declared⟩) ran

theorem rolesOf_collects (ran : rolesOf resources d = .ok roles) :
    Collects (·.2.name) (some ∘ roleOf) d.roles roles ∧
      ∀ n r implied, roles.find? n = some r → implied ∈ r.implies → roles.contains implied = true := by
  simp only [rolesOf, bind_eq_ok_iff] at ran
  obtain ⟨folded, ran, ended⟩ := ran
  split at ended
  · cases ended
  · rename_i closed
    cases ended
    refine ⟨declaredRoles_collect ran, ?_⟩
    intro n r implied found member
    have quiet := List.findSome?_eq_none_iff.mp closed (n, r) (OrderedMap.find?_eq_some_iff.mp found)
    rw [Option.map_eq_none_iff, List.find?_eq_none] at quiet
    simpa using quiet implied member

theorem declareLink_eq_ok {next : OrderedMap String ParentLink} (declared : declareLink resources links l = .ok next) :
    ∃ link, linkOf? resources l = some link ∧ links.contains l.child = false ∧ next = links.insert l.child link := by
  unfold declareLink at declared
  split at declared
  · cases declared
  · rename_i child childFound
    split at declared
    · cases declared
    · rename_i parent parentFound
      simp only [bind_eq_ok_iff] at declared
      obtain ⟨_, new, _, _, _, _, declared⟩ := declared
      cases declared
      refine ⟨_, ?_, by simpa using require_eq_ok_iff.mp new, rfl⟩
      simp [linkOf?, childFound, parentFound]

theorem declaredLinks_collect (ran : d.links.foldlM (declareLink resources) .empty = .ok links) :
    Collects (·.child) (linkOf? resources) d.links links :=
  collects_of_foldlM (fun _ _ _ declared => declareLink_eq_ok declared) ran

theorem linksOf_collects (ran : linksOf resources d = .ok links) :
    Collects (·.child) (linkOf? resources) d.links links ∧ ∀ t, ¬ Relation.TransGen (Above links) t t := by
  simp only [linksOf, bind_eq_ok_iff] at ran
  obtain ⟨folded, ran, ended⟩ := ran
  split at ended
  · cases ended
  · rename_i quiet
    cases ended
    exact ⟨declaredLinks_collect ran, hierarchy_acyclic quiet⟩

theorem linkOf?_eq_some {link : ParentLink} (comes : linkOf? resources l = some link) :
    ∃ child parent, resources.find? l.child = some child ∧ resources.find? l.parent = some parent ∧
      link = ⟨child.instances, parent.instances, l.field, l.references.getD parent.instances.idColumn⟩ := by
  simp only [linkOf?, Option.bind_eq_bind, Option.bind_eq_some_iff, Option.some.injEq] at comes
  obtain ⟨child, childFound, parent, parentFound, same⟩ := comes
  exact ⟨child, parent, childFound, parentFound, same.symm⟩

theorem mem_permissionsOf_iff : p ∈ permissionsOf resources roles ↔
    (∃ resource, resources.find? p.resourceType = some resource ∧ p.action ∈ resource.actions) ∨
      ∃ n r, roles.find? n = some r ∧ p ∈ r.permissions := by
  simp only [permissionsOf, OrderedSet.mem_ofList, List.mem_append, List.mem_flatMap, OrderedMap.mem_values, List.mem_map,
    Prod.exists, ← OrderedMap.find?_eq_some_iff]
  refine or_congr ?_ ?_
  · constructor
    · intro given
      obtain ⟨t, resource, found, action, listed, rfl⟩ := given
      exact ⟨resource, found, listed⟩
    · intro given
      obtain ⟨resource, found, listed⟩ := given
      exact ⟨_, resource, found, p.action, listed, rfl⟩
  · constructor
    · intro given
      obtain ⟨r, ⟨n, found⟩, granted⟩ := given
      exact ⟨n, r, found, granted⟩
    · intro given
      obtain ⟨n, r, found, granted⟩ := given
      exact ⟨r, ⟨n, found⟩, granted⟩

structure Reflects (m : Model) (d : Declarations) : Prop where
  resources : Collects (·.resourceType) (some ∘ resourceOf) d.resources m.resources
  roles : Collects (·.2.name) (some ∘ roleOf) d.roles m.roles
  links : Collects (·.child) (linkOf? m.resources) d.links m.links
  implied : ∀ n r implied, m.roles.find? n = some r → implied ∈ r.implies → m.roles.contains implied = true
  granted : ∀ n r p, m.roles.find? n = some r → p ∈ r.permissions → p ∈ m.permissions
  acyclic : ∀ t, ¬ Relation.TransGen (Above m.links) t t

theorem reflects (ran : Model.ofDeclarations d = .ok m) : m.Reflects d := by
  simp only [Model.ofDeclarations, bind_eq_ok_iff] at ran
  obtain ⟨resources, resourcesRan, roles, rolesRan, links, linksRan, made⟩ := ran
  cases made
  obtain ⟨rolesCollected, implied⟩ := rolesOf_collects rolesRan
  obtain ⟨linksCollected, acyclic⟩ := linksOf_collects linksRan
  exact ⟨resourcesOf_collects resourcesRan, rolesCollected, linksCollected, implied,
    fun n r p found granted => mem_permissionsOf_iff.mpr (.inr ⟨n, r, found, granted⟩), acyclic⟩

theorem mem_roles_iff : e ∈ d.roles ↔ ∃ r ∈ d.resources, r.resourceType = e.1 ∧ e.2 ∈ r.roles.items := by
  simp only [Declarations.roles, List.mem_flatMap, List.mem_map]
  constructor
  · intro given
    obtain ⟨r, member, role, listed, rfl⟩ := given
    exact ⟨r, member, rfl, listed⟩
  · intro given
    obtain ⟨r, member, typed, listed⟩ := given
    exact ⟨r, member, e.2, listed, by rw [typed]⟩

theorem Reflects.contains (reflects : m.Reflects d) (member : r ∈ d.resources) : m.resources.contains r.resourceType = true :=
  OrderedMap.contains_of_find? ((reflects.resources.find?_iff _ _).mpr ⟨r, member, rfl, rfl⟩)

theorem Reflects.link (reflects : m.Reflects d) {t : String} {link : ParentLink} (found : m.links.find? t = some link) :
    ∃ child parent, m.resources.find? t = some child ∧ m.resources.find? link.parent.resourceType = some parent ∧
      link.child = child.instances ∧ link.parent = parent.instances := by
  obtain ⟨l, _, rfl, comes⟩ := (reflects.links.find?_iff t link).mp found
  obtain ⟨child, parent, childFound, parentFound, rfl⟩ := linkOf?_eq_some comes
  obtain ⟨r, _, named, same⟩ := (reflects.resources.find?_iff _ parent).mp parentFound
  cases same
  have place : m.resources.find? r.resourceType = some (resourceOf r) := by
    rw [show r.resourceType = l.parent from named]
    exact parentFound
  exact ⟨child, _, childFound, place, rfl, rfl⟩

theorem Reflects.resolved (reflects : m.Reflects d) : m.Resolved := by
  refine ⟨?_, ?_, ?_, reflects.granted, ?_, reflects.acyclic⟩
  · intro t resource found
    obtain ⟨r, _, named, comes⟩ := (reflects.resources.find?_iff t resource).mp found
    cases comes
    exact named
  · intro n role found
    obtain ⟨e, _, named, comes⟩ := (reflects.roles.find?_iff n role).mp found
    cases comes
    exact named
  · intro n role found
    obtain ⟨e, member, _, comes⟩ := (reflects.roles.find?_iff n role).mp found
    cases comes
    obtain ⟨r, declared, typed, _⟩ := mem_roles_iff.mp member
    have contains := reflects.contains declared
    rwa [typed] at contains
  · intro t link found
    obtain ⟨l, _, named, comes⟩ := (reflects.links.find?_iff t link).mp found
    obtain ⟨child, parent, childFound, _, rfl⟩ := linkOf?_eq_some comes
    obtain ⟨r, _, typed, same⟩ := (reflects.resources.find?_iff _ child).mp childFound
    cases same
    exact typed.trans named

end Model

end ScopedAccess
