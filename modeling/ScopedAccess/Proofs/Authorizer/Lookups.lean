import ScopedAccess.Proofs.Authorizer.Agreement
import ScopedAccess.Proofs.ByteOrder
import ScopedAccess.Proofs.DeclaredModel

namespace ScopedAccess

section

variable {α β κ : Type} [Key κ] {key : β → κ} {value : β → Option α} {items : List β} {m : OrderedMap κ α} {b : β} {k : κ}

def itemAt? (key : β → κ) (items : List β) (k : κ) : Option β := items.find? fun b => decide (key b = k)

theorem itemAt?_eq_some_iff (apart : (items.map key).Nodup) : itemAt? key items k = some b ↔ b ∈ items ∧ key b = k := by
  constructor
  · intro found
    exact ⟨List.mem_of_find?_eq_some found, by simpa using List.find?_some found⟩
  · rintro ⟨member, rfl⟩
    cases found : itemAt? key items (key b) with
    | none =>
      have absent := List.find?_eq_none.mp found b member
      simp at absent
    | some c =>
      have same : key c = key b := by simpa using List.find?_some found
      rw [List.inj_on_of_nodup_map apart (List.mem_of_find?_eq_some found) member same]

theorem Collects.item_of_entry (collects : Collects key value items m) (apart : (items.map key).Nodup) {e : κ × α}
    (entry : e ∈ m.entries) :
    ∃ b, itemAt? key items e.1 = some b ∧ b ∈ items ∧ key b = e.1 ∧ value b = some e.2 := by
  obtain ⟨b, member, named, comes⟩ := (collects.find?_iff e.1 e.2).mp (OrderedMap.find?_eq_some_iff.mpr entry)
  exact ⟨b, (itemAt?_eq_some_iff apart).mpr ⟨member, named⟩, member, named, comes⟩

-- The entries of a collected map are the items in the order of their keys, when no key occurs twice.
theorem Collects.entries_perm (collects : Collects key value items m) (apart : (items.map key).Nodup) :
    ∃ ordered, ordered.Perm items ∧ List.Forall₂ (fun e b => key b = e.1 ∧ value b = some e.2) m.entries ordered := by
  have each : List.Forall₂ (fun e b => b ∈ items ∧ key b = e.1 ∧ value b = some e.2) m.entries
      (m.entries.filterMap fun e => itemAt? key items e.1) :=
    forall₂_filterMap fun e entry => collects.item_of_entry apart entry
  refine ⟨_, ?_, each.imp fun e b given => given.2⟩
  have keys : (m.entries.filterMap fun e => itemAt? key items e.1).map key = m.keys := by
    rw [← List.forall₂_eq_eq_eq, List.forall₂_map_left_iff, OrderedMap.keys, List.forall₂_map_right_iff]
    exact (each.imp fun e b given => given.2.1).flip
  have distinct : (m.entries.filterMap fun e => itemAt? key items e.1).Nodup := by
    refine List.Nodup.of_map key ?_
    rw [keys]
    exact m.keys_sorted.imp Key.ne_of_lt
  refine (List.perm_ext_iff_of_nodup distinct (List.Nodup.of_map key apart)).mpr fun b => ?_
  constructor
  · intro member
    obtain ⟨e, _, there, _⟩ := exists_left_of_mem each member
    exact there
  · intro member
    obtain ⟨v, comes⟩ := collects.comes b member
    have entry : (key b, v) ∈ m.entries :=
      OrderedMap.find?_eq_some_iff.mp ((collects.find?_iff _ v).mpr ⟨b, member, rfl, comes⟩)
    exact List.mem_filterMap.mpr ⟨_, entry, (itemAt?_eq_some_iff apart).mpr ⟨member, rfl⟩⟩

end

def Declarations.Lists (d : Declarations) (p : Permission) : Prop :=
  ∃ r ∈ d.resources, r.resourceType = p.resourceType ∧ p.action ∈ r.actions.items

def WalkStep.Joins (step : WalkStep) (d : Declarations) (l : LinkDeclaration) : Prop :=
  ∃ child ∈ d.resources, ∃ parent ∈ d.resources, child.resourceType = l.child ∧ parent.resourceType = l.parent ∧
    step = { childType := l.child
             parentType := l.parent
             childTable := child.table
             childId := child.idColumn
             parentTable := parent.table
             parentId := parent.idColumn
             field := l.field
             references := l.references.getD parent.idColumn }

namespace Snapshot

-- An absent entry stands for the empty set, and so a denial without a statement is right whatever the store holds.
structure Indexes (s : Snapshot) (d : Declarations) (graph : ImplicationGraph) : Prop where
  known : ∀ t action, (s.relevantRoles? t action).isSome = true ↔ d.Lists ⟨t, action⟩ ∨ d.Grants ⟨t, action⟩
  same : ∀ t action roles, s.relevantRoles? t action = some roles → roles = graph.relevantRoles ⟨t, action⟩
  absent : ∀ t action, s.relevantRoles? t action = none → graph.relevantRoles ⟨t, action⟩ = .empty
  denied : ∀ t action, s.relevantRoles? t action = none →
    ∀ store user id, ¬ Entitled store s.model user action ⟨t, id⟩

structure Tabulates (s : Snapshot) (d : Declarations) : Prop where
  types : ∀ t, (s.tables.find? t).isSome = true ↔ d.Declares t
  targets : ∀ r ∈ d.resources, s.tables.find? r.resourceType = some ⟨r.resourceType, r.table, r.idColumn⟩

structure Walks (s : Snapshot) (d : Declarations) : Prop where
  links : s.walk = AncestorWalk.stepsOf s.model.links.values
  ordered : (s.walk.map (·.childType)).Pairwise fun t u => Utf8.bytes t < Utf8.bytes u
  steps : ∃ declared, declared.Perm d.links ∧ List.Forall₂ (fun step l => step.Joins d l) s.walk declared

end Snapshot

namespace Authorizer

open AncestorWalk

-- The check and the filter without anything computed beforehand.
def checkAnew (a : Authorizer) (m : Model) (graph : ImplicationGraph) (user action : String) (i : Instance)
    (deadline : Option Duration) : Except Failure Bool :=
  if m.resources.contains i.resourceType then
    match (graph.relevantRoles ⟨i.resourceType, action⟩).toList with
    | [] => .ok false
    | roles => (a.run deadline (pointCheck m.links.values user i.resourceType i.id roles)).map fun rows => !rows.isEmpty
  else .error (.unknownResourceType i.resourceType)

def filterAnew (a : Authorizer) (m : Model) (graph : ImplicationGraph) (user action t : String) (deadline : Option Duration) :
    Except Failure (OrderedSet String) :=
  match m.resources.find? t with
  | none => .error (.unknownResourceType t)
  | some resource =>
    match (graph.relevantRoles ⟨t, action⟩).toList with
    | [] => .ok .empty
    | roles => a.run deadline (bulkFilter m.links.values (.ofResource resource) user roles) >>= idsOf

end Authorizer

namespace Snapshot

variable {d : Declarations} {version : Nat} {s : Snapshot} {graph : ImplicationGraph} {m : Model} {p : Permission}

theorem graphOf_eq_ok (made : graphOf m = .ok graph) : ImplicationGraph.ofRoles m.roles = .ok graph := by
  unfold graphOf at made
  split at made
  · rename_i built admitted
    cases made
    exact admitted
  · cases made
  · cases made

theorem compile_graph (compiled : Snapshot.compile d version = .ok s) :
    ∃ graph, ImplicationGraph.ofRoles s.model.roles = .ok graph ∧
      s.relevant = graph.permissionIndex s.model.permissions.toList := by
  simp only [Snapshot.compile, bind_eq_ok_iff] at compiled
  obtain ⟨model, _, graph, made, compiled⟩ := compiled
  cases compiled
  exact ⟨graph, graphOf_eq_ok made, rfl⟩

theorem relevantRoles?_eq (index : s.relevant = graph.permissionIndex s.model.permissions.toList) (t action : String) :
    s.relevantRoles? t action =
      if (⟨t, action⟩ : Permission) ∈ s.model.permissions then some (graph.relevantRoles ⟨t, action⟩) else none := by
  rw [relevantRoles?, index, ImplicationGraph.permissionIndex, OrderedMap.find?_ofList_graph]
  exact if_congr OrderedSet.mem_toList rfl rfl

-- Of what is no permission of the model no role is granted anything, and so none leads to it.
theorem relevantRoles_of_unknown (roles : graph.roles = m.roles) (resolved : m.Resolved) (unknown : p ∉ m.permissions) :
    graph.relevantRoles p = .empty := by
  apply OrderedSet.ext
  intro name
  refine iff_of_false ?_ OrderedSet.not_mem_empty
  intro member
  obtain ⟨granter, _, grants⟩ := (ImplicationGraph.mem_relevantRoles_iff graph).mp member
  rw [roles] at grants
  obtain ⟨role, found, granted⟩ := grants
  exact unknown (resolved.granted granter role p found granted)

theorem indexes_of_compile (compiled : Snapshot.compile d version = .ok s)
    (admitted : ImplicationGraph.ofRoles s.model.roles = .ok graph)
    (index : s.relevant = graph.permissionIndex s.model.permissions.toList) : s.Indexes d graph := by
  have checked := Model.checked (compile_eq_ok compiled).2.1
  have roles := ImplicationGraph.roles_of_ofRoles admitted
  have absent : ∀ t action, s.relevantRoles? t action = none → graph.relevantRoles ⟨t, action⟩ = .empty := by
    intro t action missing
    refine relevantRoles_of_unknown roles checked.reflects.resolved ?_
    intro known
    rw [relevantRoles?_eq index, if_pos known] at missing
    cases missing
  refine ⟨?_, ?_, absent, ?_⟩
  · intro t action
    rw [← checked.keeps.grants_iff, Declarations.Lists, ← checked.keeps.permissions, relevantRoles?_eq index]
    by_cases known : (⟨t, action⟩ : Permission) ∈ s.model.permissions
    · simp [known]
    · simp [known]
  · intro t action roles found
    rw [relevantRoles?_eq index] at found
    split at found
    · cases found
      rfl
    · cases found
  · intro t action missing store user id entitled
    obtain ⟨_, role, _, _, confers⟩ := entitled
    have member : role ∈ graph.relevantRoles ⟨t, action⟩ :=
      (ImplicationGraph.mem_relevantRoles_iff graph).mpr (roles.symm ▸ confers)
    rw [absent t action missing] at member
    exact OrderedSet.not_mem_empty member

theorem Indexes.of_idle (indexes : s.Indexes d graph) {t action : String} (idle : s.Idle t action) :
    (graph.relevantRoles ⟨t, action⟩).toList = [] := by
  cases found : s.relevantRoles? t action with
  | none =>
    rw [indexes.absent t action found]
    rfl
  | some roles =>
    rw [← indexes.same t action roles found]
    exact idle roles found

theorem tabulates_of_compile (compiled : Snapshot.compile d version = .ok s) : s.Tabulates d := by
  have resources := (Model.reflects (compile_eq_ok compiled).2.1).resources
  constructor
  · intro t
    rw [(compiled_of_compile compiled).find?_tables, Option.isSome_map]
    exact resources.contains_iff
  · intro r declared
    have place : s.model.resources.find? r.resourceType = some (Model.resourceOf r) :=
      (resources.find?_iff _ _).mpr ⟨r, declared, rfl, rfl⟩
    exact (compiled_of_compile compiled).table_of_resource place

theorem joins_of_linkOf? (reflects : m.Reflects d) {link : ParentLink} {l : LinkDeclaration}
    (comes : Model.linkOf? m.resources l = some link) : (WalkStep.ofLink link).Joins d l := by
  obtain ⟨child, parent, childFound, parentFound, same⟩ := Model.linkOf?_eq_some comes
  obtain ⟨c, childDeclared, childNamed, sameChild⟩ := (reflects.resources.find?_iff _ child).mp childFound
  obtain ⟨p, parentDeclared, parentNamed, sameParent⟩ := (reflects.resources.find?_iff _ parent).mp parentFound
  cases sameChild
  cases sameParent
  refine ⟨c, childDeclared, p, parentDeclared, childNamed, parentNamed, ?_⟩
  rw [same, ← childNamed, ← parentNamed]
  rfl

theorem walks_of_compile (compiled : Snapshot.compile d version = .ok s) : s.Walks d := by
  have reflects := Model.reflects (compile_eq_ok compiled).2.1
  have links : s.walk = AncestorWalk.stepsOf s.model.links.values := (compiled_of_compile compiled).walk_eq
  have types : s.walk.map (·.childType) = s.model.links.keys := by
    rw [links, AncestorWalk.stepsOf, OrderedMap.values, OrderedMap.keys, List.map_map, List.map_map]
    refine List.map_congr_left fun e entry => ?_
    exact reflects.resolved.linkName e.1 e.2 (OrderedMap.find?_eq_some_iff.mpr entry)
  refine ⟨links, ?_, ?_⟩
  · rw [types]
    exact s.model.links.keys_sorted.imp Utf8.bytes_lt_iff.mpr
  · obtain ⟨declared, perm, each⟩ := reflects.links.entries_perm (wellFormed_of_compile compiled).childTypes
    refine ⟨declared, perm, ?_⟩
    rw [links, AncestorWalk.stepsOf, OrderedMap.values, List.map_map, List.forall₂_map_left_iff]
    exact each.imp fun e l given => joins_of_linkOf? reflects given.2

end Snapshot

namespace Authorizer

open AncestorWalk

variable {a : Authorizer} {d : Declarations} {version : Nat} {s : Snapshot} {graph : ImplicationGraph} {user action t : String}
  {i : Instance} {deadline : Option Duration}

theorem check_eq_checkAnew (compiled : s.Compiled) (indexes : s.Indexes d graph) (inForce : a.snapshot = some s) :
    a.check user action i deadline = a.checkAnew s.model graph user action i deadline := by
  unfold checkAnew
  cases place : s.model.resources.find? i.resourceType with
  | none =>
    have unknown : s.model.resources.contains i.resourceType = false := by
      rw [OrderedMap.contains, place]
      rfl
    rw [unknown]
    exact (undeclared compiled inForce place i.id).2
  | some resource =>
    have declared : s.model.resources.contains i.resourceType = true := OrderedMap.contains_of_find? place
    rw [if_pos declared]
    rcases idle_or_asked s i.resourceType action with idle | ⟨roles, relevant, wanted⟩
    · rw [check_idle inForce declared idle, indexes.of_idle idle]
    · rw [check_asked inForce declared relevant wanted, compiled.walk_eq, ← indexes.same _ _ roles relevant]
      cases listed : roles.toList with
      | nil => exact absurd listed wanted
      | cons role rest => rfl

theorem filter_eq_filterAnew (compiled : s.Compiled) (indexes : s.Indexes d graph) (inForce : a.snapshot = some s) :
    a.filter user action t deadline = a.filterAnew s.model graph user action t deadline := by
  unfold filterAnew
  cases place : s.model.resources.find? t with
  | none => exact (undeclared compiled inForce place t).1
  | some resource =>
    have tableFound : s.tables.find? t = some (.ofResource resource) := compiled.table_of_resource place
    rcases idle_or_asked s t action with idle | ⟨roles, relevant, wanted⟩
    · rw [filter_idle inForce tableFound idle, indexes.of_idle idle]
    · rw [filter_asked inForce tableFound relevant wanted, compiled.walk_eq, ← indexes.same _ _ roles relevant]
      cases listed : roles.toList with
      | nil => exact absurd listed wanted
      | cons role rest => rfl

theorem lookups_agree (compiled : Snapshot.compile d version = .ok s) :
    ∃ graph, ImplicationGraph.ofRoles s.model.roles = .ok graph ∧ s.Indexes d graph ∧ s.Tabulates d ∧ s.Walks d ∧
      ∀ a : Authorizer, a.snapshot = some s → ∀ user action deadline,
        (∀ i, a.check user action i deadline = a.checkAnew s.model graph user action i deadline) ∧
          ∀ t, a.filter user action t deadline = a.filterAnew s.model graph user action t deadline := by
  obtain ⟨graph, admitted, index⟩ := Snapshot.compile_graph compiled
  have indexes := Snapshot.indexes_of_compile compiled admitted index
  refine ⟨graph, admitted, indexes, Snapshot.tabulates_of_compile compiled, Snapshot.walks_of_compile compiled, ?_⟩
  intro a inForce user action deadline
  have made := Snapshot.compiled_of_compile compiled
  exact ⟨fun i => check_eq_checkAnew made indexes inForce, fun t => filter_eq_filterAnew made indexes inForce⟩

-- Readers of notes may enter any folder, whose actions are not listed, and a keeper of a folder is such a reader.
def readingRoom : Declarations :=
  { resources :=
      [⟨"Note", "notes", "id", .only ["read", "pin"], .only [⟨"reader", some ["read", "Folder:enter"], none⟩]⟩,
        ⟨"Folder", "folders", "key", .unrestricted, .only [⟨"keeper", none, some ["reader"]⟩]⟩,
        ⟨"Draft", "drafts", "id", .unrestricted, .unrestricted⟩]
    links := [⟨"Note", "Folder", "folder", none⟩, ⟨"Draft", "Note", "note", some "slug"⟩] }

theorem readingRoom_compiles : ∃ s, Snapshot.compile readingRoom 1 = .ok s ∧
    (s.relevantRoles? "Folder" "enter").map (·.toList) = some ["keeper", "reader"] ∧
    (s.relevantRoles? "Note" "pin").map (·.toList) = some [] ∧ s.relevantRoles? "Folder" "leave" = none ∧
    s.walk.map (·.childType) = ["Draft", "Note"] := by
  have answers : (Snapshot.compile readingRoom 1).toOption.map (fun s =>
      ((s.relevantRoles? "Folder" "enter").map (·.toList), (s.relevantRoles? "Note" "pin").map (·.toList),
        (s.relevantRoles? "Folder" "leave").isNone, s.walk.map (·.childType))) =
      some (some ["keeper", "reader"], some [], true, ["Draft", "Note"]) := by
    decide +kernel
  obtain ⟨s, compiled, same⟩ := Option.map_eq_some_iff.mp answers
  simp only [Prod.mk.injEq, Option.isNone_iff_eq_none] at same
  exact ⟨s, toOption_eq_some_iff.mp compiled, same⟩

-- The roles that may enter a folder are found although no action of folders is listed. Pinning has an entry that is
-- empty, leaving has none, and both are rightly denied.
theorem readingRoom_looked_up : ∃ s graph, Snapshot.compile readingRoom 1 = .ok s ∧ s.Indexes readingRoom graph ∧
    s.Tabulates readingRoom ∧ s.Walks readingRoom ∧
    (graph.relevantRoles ⟨"Folder", "enter"⟩).toList = ["keeper", "reader"] ∧
    (graph.relevantRoles ⟨"Note", "pin"⟩).toList = [] ∧ graph.relevantRoles ⟨"Folder", "leave"⟩ = .empty ∧
    s.walk.map (·.childType) = ["Draft", "Note"] := by
  obtain ⟨s, compiled, entering, pinning, leaving, order⟩ := readingRoom_compiles
  obtain ⟨graph, _, indexes, tabulates, walks, _⟩ := lookups_agree compiled
  refine ⟨s, graph, compiled, indexes, tabulates, walks, ?_, ?_, indexes.absent _ _ leaving, order⟩
  · obtain ⟨roles, found, listed⟩ := Option.map_eq_some_iff.mp entering
    rw [← indexes.same _ _ roles found, listed]
  · obtain ⟨roles, found, listed⟩ := Option.map_eq_some_iff.mp pinning
    rw [← indexes.same _ _ roles found, listed]

end Authorizer

end ScopedAccess
