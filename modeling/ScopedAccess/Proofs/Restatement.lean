import Mathlib.Data.Multiset.Bind
import ScopedAccess.Proofs.Acceptance

namespace ScopedAccess

section

variable {α β γ δ : Type} {related : α → β → Prop} {l : List α} {others : List β} {a : α} {b : β}

-- One for one, in any order.
def Paired (related : α → β → Prop) (l : List α) (others : List β) : Prop := Multiset.Rel related l others

namespace Paired

theorem flip (paired : Paired related l others) : Paired (fun b a => related a b) others l := Multiset.rel_flip.mpr paired

theorem mono {weaker : α → β → Prop} (paired : Paired related l others) (weakens : ∀ a b, related a b → weaker a b) :
    Paired weaker l others :=
  Multiset.Rel.mono paired fun a _ b _ => weakens a b

theorem exists_right (paired : Paired related l others) (member : a ∈ l) : ∃ b ∈ others, related a b :=
  Multiset.exists_mem_of_rel_of_mem paired member

theorem exists_left (paired : Paired related l others) (member : b ∈ others) : ∃ a ∈ l, related a b :=
  paired.flip.exists_right member

theorem map_perm (paired : Paired related l others) {f : α → γ} {g : β → γ} (same : ∀ a b, related a b → f a = g b) :
    (l.map f).Perm (others.map g) := by
  rw [← Multiset.coe_eq_coe, ← Multiset.map_coe, ← Multiset.map_coe]
  apply Multiset.rel_eq.mp
  exact Multiset.rel_map.mpr (paired.mono same)

theorem flatMap (paired : Paired related l others) {result : γ → δ → Prop} {f : α → List γ} {g : β → List δ}
    (each : ∀ a b, related a b → Paired result (f a) (g b)) : Paired result (l.flatMap f) (others.flatMap g) := by
  unfold Paired
  rw [← Multiset.coe_bind, ← Multiset.coe_bind]
  exact Multiset.rel_bind (fun a b => each a b) paired

theorem map (paired : Paired related l others) {result : γ → δ → Prop} {f : α → γ} {g : β → δ}
    (each : ∀ a b, related a b → result (f a) (g b)) : Paired result (l.map f) (others.map g) := by
  unfold Paired
  rw [← Multiset.map_coe, ← Multiset.map_coe]
  exact Multiset.rel_map.mpr (paired.mono each)

theorem of_forall₂ (each : List.Forall₂ related l others) : Paired related l others := by
  induction each with
  | nil => exact .zero
  | cons here _ ih => exact .cons here ih

theorem perm (paired : Paired related l others) {moved : List β} (perm : others.Perm moved) : Paired related l moved := by
  unfold Paired
  rw [← Multiset.coe_eq_coe.mpr perm]
  exact paired

theorem of_perm {related : α → α → Prop} {l m : List α} (perm : l.Perm m) (self : ∀ a ∈ l, related a a) :
    Paired related l m := by
  unfold Paired
  rw [← Multiset.coe_eq_coe.mpr perm]
  exact Multiset.rel_refl_of_refl_on self

end Paired

theorem eq_of_rel {alike : α → α → Prop} (one : ∀ a b, alike a b → a = b) {x y : Option α} (pair : Option.Rel alike x y) :
    x = y := by
  cases pair with
  | some same => rw [one _ _ same]
  | none => rfl

theorem Collects.paired {κ ν : Type} [Key κ] {key : α → κ} {value : α → Option ν} {items others : List α}
    {m n : OrderedMap κ ν} {related : α → α → Prop} {alike : ν → ν → Prop}
    (left : Collects key value items m) (right : Collects key value others n) (paired : Paired related items others)
    (each : ∀ a b, related a b → key a = key b ∧ ∀ v w, value a = some v → value b = some w → alike v w) (k : κ) :
    Option.Rel alike (m.find? k) (n.find? k) := by
  cases found : m.find? k with
  | some v =>
    obtain ⟨a, member, rfl, comes⟩ := (left.find?_iff k v).mp found
    obtain ⟨b, there, relates⟩ := paired.exists_right member
    obtain ⟨named, values⟩ := each a b relates
    obtain ⟨w, is⟩ := right.comes b there
    rw [(right.find?_iff (key a) w).mpr ⟨b, there, named.symm, is⟩]
    exact .some (values v w comes is)
  | none =>
    cases other : n.find? k with
    | none => exact .none
    | some w =>
      obtain ⟨b, member, rfl, _⟩ := (right.find?_iff k w).mp other
      obtain ⟨a, there, relates⟩ := paired.exists_left member
      obtain ⟨v, comes⟩ := left.comes a there
      rw [(left.find?_iff (key b) v).mpr ⟨a, there, (each a b relates).1, comes⟩] at found
      cases found

end

theorem OrderedSet.ofList_of_perm {α : Type} [Key α] {l m : List α} (perm : l.Perm m) : ofList l = ofList m := by
  apply OrderedSet.ext
  intro a
  rw [mem_ofList, mem_ofList, perm.mem_iff]

def RoleDeclaration.read (role : RoleDeclaration) (own : String) : List (Option Permission) :=
  (role.permissions.getD []).map (Permission.parse? own)

-- The grants of a loose role may stand in another order.
structure RoleDeclaration.Restates (loose : String → Prop) (own : String) (a b : RoleDeclaration) : Prop where
  name : a.name = b.name
  grants : (a.read own).Perm (b.read own)
  ordered : ¬ loose a.name → a.read own = b.read own
  implies : (a.implies.getD []).Perm (b.implies.getD [])

structure ResourceDeclaration.Restates (loose : String → Prop) (r s : ResourceDeclaration) : Prop where
  resourceType : r.resourceType = s.resourceType
  table : r.table = s.table
  idColumn : r.idColumn = s.idColumn
  closed : r.actions.isClosed = s.actions.isClosed
  actions : r.actions.items.Perm s.actions.items
  roles : Paired (RoleDeclaration.Restates loose r.resourceType) r.roles.items s.roles.items

structure Declarations.Restates (loose : String → Prop) (d e : Declarations) : Prop where
  resources : Paired (ResourceDeclaration.Restates loose) d.resources e.resources
  links : d.links.Perm e.links

structure Role.AgreesUpTo (loose : String → Prop) (a b : Role) : Prop where
  name : a.name = b.name
  resourceType : a.resourceType = b.resourceType
  permissions : a.permissions.Perm b.permissions
  ordered : ¬ loose a.name → a.permissions = b.permissions
  implies : a.implies = b.implies

def ImplicationGraph.AgreeUpTo (loose : String → Prop) (roles others : OrderedMap String Role) : Prop :=
  ∀ name, Option.Rel (Role.AgreesUpTo loose) (roles.find? name) (others.find? name)

structure Model.AgreesUpTo (loose : String → Prop) (m n : Model) : Prop where
  resources : m.resources = n.resources
  permissions : m.permissions = n.permissions
  roles : ImplicationGraph.AgreeUpTo loose m.roles n.roles
  links : m.links = n.links

structure Snapshot.AgreesUpTo (loose : String → Prop) (s t : Snapshot) : Prop where
  version : s.version = t.version
  model : s.model.AgreesUpTo loose t.model
  relevant : s.relevant = t.relevant
  walk : s.walk = t.walk
  tables : s.tables = t.tables

variable {loose : String → Prop} {d e : Declarations} {m n : Model} {resources : OrderedMap String Resource} {version : Nat}
  {s t : Snapshot}

namespace RoleDeclaration

variable {own : String} {a b : RoleDeclaration}

theorem Restates.symm (restates : a.Restates loose own b) : b.Restates loose own a :=
  ⟨restates.name.symm, restates.grants.symm, fun strict => (restates.ordered (restates.name ▸ strict)).symm,
    restates.implies.symm⟩

end RoleDeclaration

theorem Role.AgreesUpTo.symm {a b : Role} (agree : a.AgreesUpTo loose b) : b.AgreesUpTo loose a :=
  ⟨agree.name.symm, agree.resourceType.symm, agree.permissions.symm,
    fun strict => (agree.ordered (agree.name ▸ strict)).symm, agree.implies.symm⟩

theorem Role.AgreesUpTo.eq {a b : Role} (agree : a.AgreesUpTo (fun _ => False) b) : a = b := by
  obtain ⟨_, _, _, _⟩ := a
  obtain ⟨_, _, _, _⟩ := b
  cases agree.name
  cases agree.resourceType
  cases agree.ordered id
  cases agree.implies
  rfl

theorem ResourceDeclaration.Restates.symm {r s : ResourceDeclaration} (restates : r.Restates loose s) : s.Restates loose r :=
  ⟨restates.resourceType.symm, restates.table.symm, restates.idColumn.symm, restates.closed.symm, restates.actions.symm,
    restates.roles.flip.mono fun _ _ same => restates.resourceType ▸ same.symm⟩

theorem Declarations.Restates.symm (restates : d.Restates loose e) : e.Restates loose d :=
  ⟨restates.resources.flip.mono fun _ _ same => same.symm, restates.links.symm⟩

namespace Declarations.Restates

theorem roles (restates : d.Restates loose e) :
    Paired (fun a b => a.1 = b.1 ∧ a.2.Restates loose a.1 b.2) d.roles e.roles := by
  apply restates.resources.flatMap
  intro r s same
  apply same.roles.map
  intro a b alike
  exact ⟨same.resourceType, alike⟩

theorem restricts (restates : d.Restates loose e) : d.restricts = e.restricts := by
  have onward : ∀ {d e : Declarations}, d.Restates loose e → ∀ t, d.restricts t = true → e.restricts t = true := by
    intro d e restates t restricted
    obtain ⟨r, member, is⟩ := List.any_eq_true.mp restricted
    obtain ⟨s, there, same⟩ := restates.resources.exists_right member
    apply List.any_eq_true.mpr
    exact ⟨s, there, by rwa [← same.resourceType, ← same.closed]⟩
  funext t
  apply Bool.eq_iff_iff.mpr
  exact ⟨onward restates t, onward restates.symm t⟩

theorem implies (restates : d.Restates loose e) {a b : String} (implied : d.Implies a b) : e.Implies a b := by
  obtain ⟨x, member, named, listed⟩ := implied
  obtain ⟨y, there, _, same⟩ := restates.roles.exists_right member
  exact ⟨y, there, same.name ▸ named, same.implies.mem_iff.mp listed⟩

theorem above (restates : d.Restates loose e) {t u : String} (joined : d.Above t u) : e.Above t u := by
  obtain ⟨l, member, ends⟩ := joined
  exact ⟨l, restates.links.mem_iff.mp member, ends⟩

end Declarations.Restates

namespace ImplicationGraph

variable {roles others : OrderedMap String Role} {name other : String} {p : Permission}

theorem AgreeUpTo.find? (agree : AgreeUpTo loose roles others) {role : Role} (found : roles.find? name = some role) :
    ∃ b, others.find? name = some b ∧ role.AgreesUpTo loose b := by
  have pair := agree name
  rw [found] at pair
  generalize others.find? name = result at pair
  cases pair with
  | some alike => exact ⟨_, rfl, alike⟩

theorem AgreeUpTo.symm (agree : AgreeUpTo loose roles others) : AgreeUpTo loose others roles := by
  intro name
  have pair := agree name
  generalize roles.find? name = left at pair ⊢
  generalize others.find? name = right at pair ⊢
  cases pair with
  | some alike => exact .some alike.symm
  | none => exact .none

theorem AgreeUpTo.grants (agree : AgreeUpTo loose roles others) (grants : Grants roles name p) : Grants others name p := by
  obtain ⟨role, found, granted⟩ := grants
  obtain ⟨b, there, alike⟩ := agree.find? found
  exact ⟨b, there, alike.permissions.mem_iff.mp granted⟩

theorem AgreeUpTo.implies (agree : AgreeUpTo loose roles others) (implies : Implies roles name other) :
    Implies others name other := by
  obtain ⟨role, found, implied⟩ := implies
  obtain ⟨b, there, alike⟩ := agree.find? found
  exact ⟨b, there, alike.implies ▸ implied⟩

theorem AgreeUpTo.grants_iff (agree : AgreeUpTo loose roles others) : Grants roles name p ↔ Grants others name p :=
  ⟨agree.grants, agree.symm.grants⟩

theorem AgreeUpTo.confers (agree : AgreeUpTo loose roles others) (confers : Confers roles name p) : Confers others name p := by
  obtain ⟨granter, path, grants⟩ := confers
  exact ⟨granter, Relation.ReflTransGen.mono (fun _ _ => agree.implies) _ _ path, agree.grants grants⟩

-- The relevant roles of a permission do not depend on the order in which roles grant.
theorem AgreeUpTo.permissionIndex {g h : ImplicationGraph} (agree : AgreeUpTo loose g.roles h.roles) (permissions : List Permission) :
    g.permissionIndex permissions = h.permissionIndex permissions := by
  have relevant : g.relevantRoles = h.relevantRoles := by
    funext p
    apply OrderedSet.ext
    intro name
    rw [mem_relevantRoles_iff, mem_relevantRoles_iff]
    exact ⟨agree.confers, agree.symm.confers⟩
  rw [ImplicationGraph.permissionIndex, ImplicationGraph.permissionIndex, relevant]

end ImplicationGraph

namespace Model

theorem resourceOf_restated {r s : ResourceDeclaration} (same : r.Restates loose s) : resourceOf r = resourceOf s := by
  have actions := OrderedSet.ofList_of_perm same.actions
  have names := OrderedSet.ofList_of_perm (same.roles.map_perm fun _ _ alike => alike.name)
  rw [resourceOf, resourceOf, same.resourceType, same.table, same.idColumn, actions, names]

-- Among grants in another order the repetitions are others, but what is left is the same.
theorem roleOf_restated {x y : String × RoleDeclaration} (typed : x.1 = y.1) (same : x.2.Restates loose x.1 y.2) :
    (roleOf x).AgreesUpTo loose (roleOf y) := by
  obtain ⟨own, a⟩ := x
  obtain ⟨_, b⟩ := y
  cases typed
  have granted : ∀ role : RoleDeclaration, (role.permissions.getD []).filterMap (Permission.parse? own) =
      (role.read own).filterMap id := by
    intro role
    rw [RoleDeclaration.read, List.filterMap_map]
    rfl
  refine ⟨same.name, rfl, ?_, ?_, OrderedSet.ofList_of_perm same.implies⟩
  · unfold roleOf
    simp only [granted]
    have left := (firstOccurrences_eraseDups ((a.read own).filterMap id)).nodup
    have right := (firstOccurrences_eraseDups ((b.read own).filterMap id)).nodup
    apply (List.perm_ext_iff_of_nodup left right).mpr
    intro p
    rw [List.mem_eraseDups, List.mem_eraseDups, (same.grants.filterMap id).mem_iff]
  · intro strict
    unfold roleOf
    simp only [granted]
    rw [same.ordered strict]

theorem grants_restated {restricts : String → Bool} {x y : String × RoleDeclaration} (typed : x.1 = y.1)
    (same : x.2.Restates loose x.1 y.2) (grants : Grants resources restricts x) : Grants resources restricts y := by
  intro text listed
  have read : Permission.parse? y.1 text ∈ y.2.read x.1 := typed ▸ List.mem_map_of_mem listed
  obtain ⟨other, there, alike⟩ := List.mem_map.mp (same.grants.mem_iff.mpr read)
  obtain ⟨p, target, reads, found, lists⟩ := resolveGrant_ok_iff.mp (grants other there)
  exact resolveGrant_ok_iff.mpr ⟨p, target, alike ▸ reads, found, lists⟩

theorem resourcesOf_restated (restates : d.Restates loose e) (made : resourcesOf d = .ok resources) :
    resourcesOf e = .ok resources := by
  obtain ⟨wellFormed, types⟩ := resourcesOf_ok_iff.mp ⟨resources, made⟩
  have wellFormed' : ∀ s ∈ e.resources, s.WellFormed := by
    intro s member
    obtain ⟨r, there, same⟩ := restates.resources.exists_left member
    obtain ⟨tag, table, idColumn, actions⟩ := wellFormed r there
    exact ⟨same.resourceType ▸ tag, same.table ▸ table, same.idColumn ▸ idColumn, same.actions.nodup_iff.mp actions⟩
  have types' : (e.resources.map (·.resourceType)).Nodup :=
    (restates.resources.map_perm fun _ _ same => same.resourceType).nodup_iff.mp types
  obtain ⟨others, made'⟩ := resourcesOf_ok_iff.mpr ⟨wellFormed', types'⟩
  have one : resources = others := by
    apply OrderedMap.ext
    intro t
    apply eq_of_rel fun _ _ => id
    apply (resourcesOf_collects made).paired (resourcesOf_collects made') restates.resources
    intro r s same
    refine ⟨same.resourceType, ?_⟩
    rintro _ _ ⟨⟩ ⟨⟩
    exact resourceOf_restated same
  rw [made', one]

theorem rolesOf_restated {roles : OrderedMap String Role} (restates : d.Restates loose e) (made : rolesOf resources d = .ok roles) :
    ∃ others, rolesOf resources e = .ok others ∧ ImplicationGraph.AgreeUpTo loose roles others := by
  obtain ⟨grants, names, implied⟩ := rolesOf_ok_iff.mp ⟨roles, made⟩
  have grants' : ∀ y ∈ e.roles, Grants resources e.restricts y := by
    intro y member
    obtain ⟨x, there, typed, same⟩ := restates.roles.exists_left member
    rw [← restates.restricts]
    exact grants_restated typed same (grants x there)
  have names' : (e.roles.map (·.2.name)).Nodup := (restates.roles.map_perm fun _ _ same => same.2.name).nodup_iff.mp names
  have implied' : ∀ a b, e.Implies a b → ∃ y ∈ e.roles, y.2.name = b := by
    intro a b implies
    obtain ⟨x, there, named⟩ := implied a b (restates.symm.implies implies)
    obtain ⟨y, member, _, same⟩ := restates.roles.exists_right there
    exact ⟨y, member, same.name ▸ named⟩
  obtain ⟨others, made'⟩ := rolesOf_ok_iff.mpr ⟨grants', names', implied'⟩
  refine ⟨others, made', ?_⟩
  apply (rolesOf_collects made).1.paired (rolesOf_collects made').1 restates.roles
  intro x y same
  refine ⟨same.2.name, ?_⟩
  rintro _ _ ⟨⟩ ⟨⟩
  exact roleOf_restated same.1 same.2

theorem linksOf_restated {links : OrderedMap String ParentLink} (restates : d.Restates loose e)
    (known : Collects (·.resourceType) (some ∘ resourceOf) d.resources resources)
    (known' : Collects (·.resourceType) (some ∘ resourceOf) e.resources resources)
    (made : linksOf resources d = .ok links) : linksOf resources e = .ok links := by
  obtain ⟨joined, children, acyclic⟩ := (linksOf_ok_iff known).mp ⟨links, made⟩
  have joined' : ∀ l ∈ e.links, Joins resources l := fun l member => joined l (restates.links.mem_iff.mpr member)
  have children' : (e.links.map (·.child)).Nodup := (restates.links.map _).nodup_iff.mp children
  have acyclic' : ∀ t, ¬ Relation.TransGen e.Above t t :=
    fun t cycle => acyclic t (Relation.TransGen.mono (fun _ _ => restates.symm.above) _ _ cycle)
  obtain ⟨others, made'⟩ := (linksOf_ok_iff known').mpr ⟨joined', children', acyclic'⟩
  have one : links = others := by
    apply OrderedMap.ext
    intro t
    apply eq_of_rel fun _ _ => id
    have pairs : Paired Eq d.links e.links := .of_perm restates.links fun _ _ => rfl
    apply (linksOf_collects made).1.paired (linksOf_collects made').1 pairs
    rintro l _ rfl
    refine ⟨rfl, ?_⟩
    intro v w left right
    exact Option.some.inj (left.symm.trans right)
  rw [made', one]

theorem permissionsOf_alike {roles others : OrderedMap String Role} (agree : ImplicationGraph.AgreeUpTo loose roles others) :
    permissionsOf resources roles = permissionsOf resources others := by
  apply OrderedSet.ext
  intro p
  have granted : (∃ n, ImplicationGraph.Grants roles n p) ↔ ∃ n, ImplicationGraph.Grants others n p :=
    exists_congr fun _ => agree.grants_iff
  rw [mem_permissionsOf_iff, mem_permissionsOf_iff]
  exact or_congr Iff.rfl granted

theorem ofDeclarations_restated (restates : d.Restates loose e) (made : ofDeclarations d = .ok m) :
    ∃ n, ofDeclarations e = .ok n ∧ m.AgreesUpTo loose n := by
  simp only [ofDeclarations, bind_eq_ok_iff] at made ⊢
  obtain ⟨resources, resourcesMade, roles, rolesMade, links, linksMade, ended⟩ := made
  cases ended
  have resourcesMade' := resourcesOf_restated restates resourcesMade
  obtain ⟨others, rolesMade', agree⟩ := rolesOf_restated restates rolesMade
  have linksMade' := linksOf_restated restates (resourcesOf_collects resourcesMade) (resourcesOf_collects resourcesMade') linksMade
  exact ⟨_, ⟨resources, resourcesMade', others, rolesMade', links, linksMade', rfl⟩, rfl, permissionsOf_alike agree, agree, rfl⟩

theorem AgreesUpTo.eq (agree : m.AgreesUpTo (fun _ => False) n) : m = n := by
  have roles : m.roles = n.roles := by
    apply OrderedMap.ext
    intro name
    exact eq_of_rel (fun _ _ => Role.AgreesUpTo.eq) (agree.roles name)
  obtain ⟨_, _, _, _⟩ := m
  obtain ⟨_, _, _, _⟩ := n
  cases agree.resources
  cases agree.permissions
  cases roles
  cases agree.links
  rfl

end Model

namespace Snapshot

theorem compile_restated (restates : d.Restates loose e) (compiled : Snapshot.compile d version = .ok s) :
    ∃ t, Snapshot.compile e version = .ok t ∧ s.AgreesUpTo loose t := by
  simp only [Snapshot.compile, bind_eq_ok_iff, mapError_eq_ok_iff] at compiled ⊢
  obtain ⟨m, made, graph, drawn, ended⟩ := compiled
  cases ended
  obtain ⟨n, made', agree⟩ := Model.ofDeclarations_restated restates made
  have acyclic := (graphOf_ok_iff (Model.reflects made)).mp ⟨graph, drawn⟩
  have acyclic' : ∀ name, ¬ Relation.TransGen e.Implies name name :=
    fun name cycle => acyclic name (Relation.TransGen.mono (fun _ _ => restates.symm.implies) _ _ cycle)
  obtain ⟨graph', drawn'⟩ := (graphOf_ok_iff (Model.reflects made')).mpr acyclic'
  refine ⟨_, ⟨n, made', graph', drawn', rfl⟩, rfl, agree, ?_, ?_, ?_⟩
  · have roles : ImplicationGraph.AgreeUpTo loose graph.roles graph'.roles := by
      rw [graphOf_roles drawn, graphOf_roles drawn']
      exact agree.roles
    rw [agree.permissions]
    exact roles.permissionIndex _
  · rw [agree.links]
  · rw [agree.resources]

theorem AgreesUpTo.eq (agree : s.AgreesUpTo (fun _ => False) t) : s = t := by
  obtain ⟨_, _, _, _, _⟩ := s
  obtain ⟨_, _, _, _, _⟩ := t
  cases agree.version
  cases agree.model.eq
  cases agree.relevant
  cases agree.walk
  cases agree.tables
  rfl

theorem compiles_alike (restates : d.Restates (fun _ => False) e) :
    Snapshot.compile d version = .ok s ↔ Snapshot.compile e version = .ok s := by
  have onward : ∀ {d e : Declarations}, d.Restates (fun _ => False) e →
      Snapshot.compile d version = .ok s → Snapshot.compile e version = .ok s := by
    intro d e restates compiled
    obtain ⟨t, same, agree⟩ := compile_restated restates compiled
    cases agree.eq
    exact same
  exact ⟨onward restates, onward restates.symm⟩

end Snapshot

end ScopedAccess
