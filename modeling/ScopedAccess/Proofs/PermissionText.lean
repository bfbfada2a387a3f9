import Mathlib.Tactic.TFAE
import ScopedAccess.Proofs.DeclaredModel
import ScopedAccess.Proofs.Restatement

namespace ScopedAccess

def IsPlainAction (action : String) : Prop := action ≠ "" ∧ ':' ∉ action.toList

instance : DecidablePred IsPlainAction := fun action => inferInstanceAs (Decidable (action ≠ "" ∧ ':' ∉ action.toList))

def Declarations.ListsPlainActions (d : Declarations) : Prop :=
  ∀ r ∈ d.resources, ∀ action ∈ r.actions.items, IsPlainAction action

-- The text stays, or a bare action gets the role's own type in front.
inductive Respelled (own : String) : String → String → Prop where
  | same (text : String) : Respelled own text text
  | qualified {action : String} (bare : ':' ∉ action.toList) : Respelled own action (own ++ ":" ++ action)

structure RoleDeclaration.Respells (own : String) (a b : RoleDeclaration) : Prop where
  name : a.name = b.name
  permissions : List.Forall₂ (Respelled own) (a.permissions.getD []) (b.permissions.getD [])
  implies : a.implies = b.implies

structure ResourceDeclaration.Respells (r s : ResourceDeclaration) : Prop where
  resourceType : r.resourceType = s.resourceType
  table : r.table = s.table
  idColumn : r.idColumn = s.idColumn
  actions : r.actions = s.actions
  roles : List.Forall₂ (RoleDeclaration.Respells r.resourceType) r.roles.items s.roles.items

structure Declarations.Respells (d e : Declarations) : Prop where
  resources : List.Forall₂ ResourceDeclaration.Respells d.resources e.resources
  links : d.links = e.links

variable {own text other role : String} {p q : Permission} {d e : Declarations} {m : Model}

theorem plain_of_parse (read : Permission.parse? own text = some p) : IsPlainAction p.action := by
  obtain ⟨reads, _, acts⟩ := parse?_eq_some_iff.mp read
  exact ⟨acts, readFrom_plain reads⟩

theorem parse?_describe (typed : p.resourceType ≠ "") (plain : IsPlainAction p.action) (own : String) :
    Permission.parse? own p.describe = some p :=
  parse?_eq_some_iff.mpr ⟨.inl ⟨rfl, plain.2⟩, typed, plain.1⟩

theorem parse?_respelled (respelled : Respelled own text other) : Permission.parse? own text = Permission.parse? own other := by
  cases respelled with
  | same => rfl
  | qualified bare =>
    have whole : splitAtLast ':' text.toList = none := splitAtLast_eq_none_iff.mpr bare
    have parts : splitAtLast ':' (own ++ ":" ++ text).toList = some (own.toList, text.toList) :=
      splitAtLast_eq_some_iff.mpr ⟨by simp, bare⟩
    rw [Permission.parse?, Permission.parse?, whole, parts]
    simp

namespace Declarations

theorem Respells.restates (respells : d.Respells e) : d.Restates (fun _ => False) e := by
  refine ⟨.of_forall₂ (respells.resources.imp fun r s same => ?_), .of_eq respells.links⟩
  refine ⟨same.resourceType, same.table, same.idColumn, by rw [same.actions], .of_eq (by rw [same.actions]), ?_⟩
  apply Paired.of_forall₂
  refine same.roles.imp fun a b alike => ?_
  have read : a.read r.resourceType = b.read r.resourceType := by
    unfold RoleDeclaration.read
    rw [← List.forall₂_eq_eq_eq, List.forall₂_map_left_iff, List.forall₂_map_right_iff]
    exact alike.permissions.imp fun _ _ => parse?_respelled
  exact ⟨alike.name, .of_eq read, fun _ => read, .of_eq (by rw [alike.implies])⟩

end Declarations

namespace Model

theorem Checked.nonempty_type (checked : m.Checked d) (known : m.resources.contains p.resourceType = true) :
    p.resourceType ≠ "" := by
  obtain ⟨r, member, named⟩ := checked.reflects.resources.contains_iff.mp known
  exact named ▸ (checked.resources r member).tag.1

theorem Checked.listed (checked : m.Checked d) (member : p ∈ m.permissions) :
    ∃ target, m.resources.find? p.resourceType = some target ∧ (d.restricts p.resourceType = true → p.action ∈ target.actions) := by
  rw [checked.permissions, mem_permissionsOf_iff] at member
  rcases member with ⟨target, found, lists⟩ | grants
  · exact ⟨target, found, fun _ => lists⟩
  · obtain ⟨n, grants⟩ := grants
    exact (checked.granted grants).2

theorem Checked.plain_granted (checked : m.Checked d) {n : String} (grants : ImplicationGraph.Grants m.roles n p) :
    IsPlainAction p.action := by
  obtain ⟨⟨_, _, read⟩, _⟩ := checked.granted grants
  exact plain_of_parse read

theorem Checked.told_iff (checked : m.Checked d) (member : p ∈ m.permissions) :
    [IsPlainAction p.action,
      ∀ own, Permission.parse? own p.describe = some p,
      ∀ own role, resolveGrant m.resources d.restricts own role p.describe = .ok p,
      ∃ own role text, resolveGrant m.resources d.restricts own role text = .ok p].TFAE := by
  obtain ⟨target, found, lists⟩ := checked.listed member
  have typed := checked.nonempty_type (OrderedMap.contains_of_find? found)
  tfae_have 1 → 2 := parse?_describe typed
  tfae_have 2 → 3 := by
    intro reads own role
    obtain ⟨q, resolved⟩ := resolveGrant_ok_iff.mpr ⟨p, target, reads own, found, lists⟩
    cases (reads own).symm.trans (resolveGrant_eq_ok resolved)
    exact resolved
  tfae_have 3 → 4 := fun resolves => ⟨"", "", _, resolves "" ""⟩
  tfae_have 4 → 1 := by
    intro given
    obtain ⟨own, role, text, resolved⟩ := given
    exact plain_of_parse (resolveGrant_eq_ok resolved)
  tfae_finish

theorem Checked.all_plain_iff (checked : m.Checked d) :
    (∀ p ∈ m.permissions, IsPlainAction p.action) ↔ d.ListsPlainActions := by
  have kept := checked.keeps
  constructor
  · intro plain r member action listed
    exact plain ⟨r.resourceType, action⟩ ((kept.permissions _).mpr (.inl ⟨r, member, rfl, listed⟩))
  · intro plain p member
    rcases (kept.permissions p).mp member with ⟨r, declared, _, listed⟩ | ⟨n, grants⟩
    · exact plain r declared p.action listed
    · exact checked.plain_granted grants

theorem ofDeclarations_respelled (made : ofDeclarations d = .ok m) (respells : d.Respells e) : ofDeclarations e = .ok m := by
  obtain ⟨n, made', agree⟩ := ofDeclarations_restated respells.restates made
  cases agree.eq
  exact made'

theorem texts_tell_permissions (made : ofDeclarations d = .ok m) :
    (∀ n p, ImplicationGraph.Grants m.roles n p → IsPlainAction p.action) ∧
      ((∀ p ∈ m.permissions, IsPlainAction p.action) ↔ d.ListsPlainActions) ∧
      (∀ p ∈ m.permissions, [IsPlainAction p.action,
        ∀ own, Permission.parse? own p.describe = some p,
        ∀ own role, resolveGrant m.resources d.restricts own role p.describe = .ok p,
        ∃ own role text, resolveGrant m.resources d.restricts own role text = .ok p].TFAE) ∧
      (d.ListsPlainActions → ∀ p ∈ m.permissions, ∀ q ∈ m.permissions, p.describe = q.describe → p = q) ∧
      ∀ e, d.Respells e → ofDeclarations e = .ok m := by
  have checked := checked made
  refine ⟨fun n p => checked.plain_granted, checked.all_plain_iff, fun p => checked.told_iff, ?_,
    fun e => ofDeclarations_respelled made⟩
  intro listed p left q right
  have plain := checked.all_plain_iff.mpr listed
  exact describe_inj (plain p left).2 (plain q right).2

-- A type whose tag looks like a permission of the other, and a role that grants on both.
def ledgers (grants : List String) : Declarations :=
  { resources :=
      [⟨"app", "apps", "id", .only ["Doc", "edit"], .only [⟨"writer", some grants, none⟩]⟩,
        ⟨"app:Doc", "docs", "id", .only ["edit"], .unrestricted⟩]
    links := [] }

theorem ledgers_respelled : (ledgers ["Doc", "app:Doc:edit", "edit"]).Respells (ledgers ["app:Doc", "app:Doc:edit", "edit"]) := by
  have texts : List.Forall₂ (Respelled "app") ["Doc", "app:Doc:edit", "edit"] ["app:Doc", "app:Doc:edit", "edit"] :=
    .cons (.qualified (by decide)) (.cons (.same _) (.cons (.same _) .nil))
  exact ⟨.cons ⟨rfl, rfl, rfl, rfl, .cons ⟨rfl, texts, rfl⟩ .nil⟩ (.cons ⟨rfl, rfl, rfl, rfl, .nil⟩ .nil), rfl⟩

theorem ledgers_told : ∃ m, ofDeclarations (ledgers ["Doc", "app:Doc:edit", "edit"]) = .ok m ∧
    ofDeclarations (ledgers ["app:Doc", "app:Doc:edit", "edit"]) = .ok m ∧ ⟨"app:Doc", "edit"⟩ ∈ m.permissions ∧
    (∀ own, Permission.parse? own "app:Doc:edit" = some ⟨"app:Doc", "edit"⟩) ∧
    ∀ p ∈ m.permissions, ∀ q ∈ m.permissions, p.describe = q.describe → p = q := by
  have resolved : (ofDeclarations (ledgers ["Doc", "app:Doc:edit", "edit"])).toOption.map (·.permissions.toList) =
      some [⟨"app", "Doc"⟩, ⟨"app", "edit"⟩, ⟨"app:Doc", "edit"⟩] := by decide +kernel
  obtain ⟨m, made, listed⟩ := Option.map_eq_some_iff.mp resolved
  rw [toOption_eq_some_iff] at made
  obtain ⟨_, _, told, apart, respelled⟩ := texts_tell_permissions made
  have plain : (ledgers ["Doc", "app:Doc:edit", "edit"]).ListsPlainActions := by
    unfold Declarations.ListsPlainActions
    decide
  have member : (⟨"app:Doc", "edit"⟩ : Permission) ∈ m.permissions := by
    rw [← OrderedSet.mem_toList, listed]
    simp
  exact ⟨m, made, respelled _ ledgers_respelled, member, ((told _ member).out 0 1).mp (by decide), apart plain⟩

-- The lists are taken as they are written, and so two permissions can have one text, and an action can be beyond any text.
def lookalikes : Declarations :=
  { resources :=
      [⟨"app", "apps", "id", .only ["", "Doc:read"], .unrestricted⟩, ⟨"app:Doc", "docs", "id", .only ["read"], .unrestricted⟩]
    links := [] }

theorem lookalikes_share_a_text : ∃ m, ofDeclarations lookalikes = .ok m ∧
    m.permissions.toList = [⟨"app", ""⟩, ⟨"app", "Doc:read"⟩, ⟨"app:Doc", "read"⟩] ∧
    (⟨"app", "Doc:read"⟩ : Permission).describe = (⟨"app:Doc", "read"⟩ : Permission).describe ∧
    ¬ IsPlainAction "" ∧ ¬ IsPlainAction "Doc:read" ∧
    ∀ own text, Permission.parse? own text ≠ some ⟨"app", ""⟩ ∧ Permission.parse? own text ≠ some ⟨"app", "Doc:read"⟩ := by
  have resolved : (ofDeclarations lookalikes).toOption.map (·.permissions.toList) =
      some [⟨"app", ""⟩, ⟨"app", "Doc:read"⟩, ⟨"app:Doc", "read"⟩] := by decide +kernel
  obtain ⟨m, made, listed⟩ := Option.map_eq_some_iff.mp resolved
  have empty : ¬ IsPlainAction "" := by decide
  have split : ¬ IsPlainAction "Doc:read" := by decide
  refine ⟨m, toOption_eq_some_iff.mp made, listed, by decide, empty, split, ?_⟩
  intro own text
  exact ⟨fun read => empty (plain_of_parse read), fun read => split (plain_of_parse read)⟩

end Model

end ScopedAccess
