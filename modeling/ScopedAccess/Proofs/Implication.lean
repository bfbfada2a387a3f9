import Mathlib.Logic.Relation
import ScopedAccess.Snapshot

namespace ScopedAccess

section

variable {α : Type} [DecidableEq α] {next : α → List α} {unseen frontier : List α} {a b root node : α}

theorem mem_among {targets nodes : List α} : a ∈ among targets nodes ↔ a ∈ nodes ∧ a ∈ targets := by
  simp [among]

theorem mem_outside {targets nodes : List α} : a ∈ outside targets nodes ↔ a ∈ nodes ∧ a ∉ targets := by
  simp [outside]

def StepsTo (next : α → List α) (unseen : List α) (a b : α) : Prop := b ∈ next a ∧ b ∈ unseen

theorem steps_outside (path : Relation.TransGen (StepsTo next (outside (next node) unseen)) a b) :
    Relation.TransGen (StepsTo next unseen) a b :=
  Relation.TransGen.mono (fun _ _ step => ⟨step.1, (mem_outside.mp step.2).1⟩) _ _ path

-- A path from the node taken off the frontier, or from the rest of the frontier, ends in what the node
-- leads to or leaves it behind for good at some node of it.
theorem steps_split {rest : List α} (member : root ∈ node :: rest)
    (path : Relation.TransGen (StepsTo next unseen) root a) :
    a ∈ among (next node) unseen ∨ ∃ start ∈ rest ++ among (next node) unseen,
      Relation.TransGen (StepsTo next (outside (next node) unseen)) start a := by
  induction path with
  | @single a step =>
    by_cases found : a ∈ next node
    · exact .inl (mem_among.mpr ⟨step.2, found⟩)
    · rcases List.mem_cons.mp member with rfl | later
      · exact absurd step.1 found
      · exact .inr ⟨root, List.mem_append_left _ later, .single ⟨step.1, mem_outside.mpr ⟨step.2, found⟩⟩⟩
  | @tail a b _ step ih =>
    by_cases found : b ∈ next node
    · exact .inl (mem_among.mpr ⟨step.2, found⟩)
    · have left : StepsTo next (outside (next node) unseen) a b := ⟨step.1, mem_outside.mpr ⟨step.2, found⟩⟩
      rcases ih with here | ⟨start, source, before⟩
      · exact .inr ⟨a, List.mem_append_right _ here, .single left⟩
      · exact .inr ⟨start, source, before.tail left⟩

-- What is reached is found at the node taken, or reached from the rest and what was found.
theorem reached_iff {rest : List α} :
    (a ∈ among (next node) unseen ∨ ∃ start ∈ rest ++ among (next node) unseen,
      Relation.TransGen (StepsTo next (outside (next node) unseen)) start a) ↔
      ∃ root ∈ node :: rest, Relation.TransGen (StepsTo next unseen) root a := by
  constructor
  · intro given
    rcases given with here | ⟨start, member, path⟩
    · obtain ⟨isUnseen, isNext⟩ := mem_among.mp here
      exact ⟨node, List.mem_cons_self .., .single ⟨isNext, isUnseen⟩⟩
    · rcases List.mem_append.mp member with later | here
      · exact ⟨start, List.mem_cons_of_mem _ later, steps_outside path⟩
      · obtain ⟨isUnseen, isNext⟩ := mem_among.mp here
        exact ⟨node, List.mem_cons_self .., .head ⟨isNext, isUnseen⟩ (steps_outside path)⟩
  · intro given
    obtain ⟨root, member, path⟩ := given
    exact steps_split member path

theorem mem_reach_iff :
    a ∈ reach next unseen frontier ↔ ∃ root ∈ frontier, Relation.TransGen (StepsTo next unseen) root a := by
  induction unseen, frontier using reach.induct next with
  | case1 unseen => simp [reach]
  | case2 unseen node rest found ih =>
    rw [reach, List.mem_append, ih]
    exact reached_iff

-- When the frontier and the unseen nodes together are closed under steps, nothing is cut off.
theorem mem_frontier_or_reach (closed : ∀ a b, b ∈ next a → b ∈ frontier ∨ b ∈ unseen)
    (member : root ∈ frontier) (path : Relation.ReflTransGen (fun a b => b ∈ next a) root a) :
    a ∈ frontier ∨ a ∈ reach next unseen frontier := by
  induction path with
  | refl => exact .inl member
  | @tail a b _ step ih =>
    rcases closed a b step with known | isUnseen
    · exact .inl known
    · rcases ih with here | found
      · exact .inr (mem_reach_iff.mpr ⟨a, here, .single ⟨step, isUnseen⟩⟩)
      · obtain ⟨start, source, before⟩ := mem_reach_iff.mp found
        exact .inr (mem_reach_iff.mpr ⟨start, source, before.tail ⟨step, isUnseen⟩⟩)

theorem steps_of_mem_reach (found : a ∈ reach next unseen frontier) :
    ∃ root ∈ frontier, Relation.TransGen (fun a b => b ∈ next a) root a := by
  obtain ⟨root, member, path⟩ := mem_reach_iff.mp found
  exact ⟨root, member, Relation.TransGen.mono (fun _ _ step => step.1) _ _ path⟩

end

namespace ImplicationGraph

variable {roles : OrderedMap String Role} {name other : String} {p : Permission}

def Implies (roles : OrderedMap String Role) (name other : String) : Prop :=
  ∃ role, roles.find? name = some role ∧ other ∈ role.implies

def Grants (roles : OrderedMap String Role) (name : String) (p : Permission) : Prop :=
  ∃ role, roles.find? name = some role ∧ p ∈ role.permissions

-- A holder of `name` has what every role grants that `name` leads to.
def Confers (roles : OrderedMap String Role) (name : String) (p : Permission) : Prop :=
  ∃ granter, Relation.ReflTransGen (Implies roles) name granter ∧ Grants roles granter p

section

variable {κ : Type} [Key κ] {k : κ}

-- A list of either map holds the roles that have the key among their items.
theorem mem_gathered_iff (items : Role → List κ) :
    name ∈ ((OrderedMap.gather (roles.entries.flatMap fun e => (items e.2).map (·, e.1))).find? k).getD [] ↔
      ∃ role, roles.find? name = some role ∧ k ∈ items role := by
  rw [OrderedMap.getD_find?_gather, List.mem_map]
  constructor
  · intro given
    obtain ⟨⟨key, value⟩, kept, rfl⟩ := given
    obtain ⟨listed, same⟩ := List.mem_filter.mp kept
    obtain ⟨⟨n, role⟩, entry, here⟩ := List.mem_flatMap.mp listed
    obtain ⟨item, inside, paired⟩ := List.mem_map.mp here
    cases paired
    cases of_decide_eq_true same
    exact ⟨role, OrderedMap.find?_eq_some_iff.mpr entry, inside⟩
  · intro given
    obtain ⟨role, found, inside⟩ := given
    refine ⟨(k, name), List.mem_filter.mpr ⟨List.mem_flatMap.mpr ⟨(name, role), ?_, ?_⟩, decide_eq_true rfl⟩, rfl⟩
    · exact OrderedMap.find?_eq_some_iff.mp found
    · exact List.mem_map.mpr ⟨k, inside, rfl⟩

end

theorem mem_implying_iff : name ∈ implying roles other ↔ Implies roles name other := by
  rw [implying, implyingRoles, mem_gathered_iff fun role => role.implies.toList]
  rfl

theorem mem_granting_iff : name ∈ granting roles p ↔ Grants roles name p := by
  rw [granting, List.mem_eraseDups, grantingRoles, mem_gathered_iff Role.permissions]
  rfl

theorem implying_path_iff :
    Relation.ReflTransGen (fun a b => b ∈ implying roles a) other name ↔
      Relation.ReflTransGen (Implies roles) name other := by
  rw [← Relation.reflTransGen_swap]
  have same : (Function.swap fun a b => b ∈ implying roles a) = Implies roles := by
    funext a b
    exact propext mem_implying_iff
  rw [same]

theorem mem_relevantRoles_iff (g : ImplicationGraph) : name ∈ g.relevantRoles p ↔ Confers g.roles name p := by
  simp only [relevantRoles, OrderedSet.mem_ofList, List.mem_append]
  constructor
  · intro given
    rcases given with direct | found
    · exact ⟨name, .refl, mem_granting_iff.mp direct⟩
    · obtain ⟨granter, direct, path⟩ := steps_of_mem_reach found
      exact ⟨granter, implying_path_iff.mp path.to_reflTransGen, mem_granting_iff.mp direct⟩
  · intro given
    obtain ⟨granter, path, grants⟩ := given
    refine mem_frontier_or_reach ?_ (mem_granting_iff.mpr grants) (implying_path_iff.mpr path)
    intro a b edge
    obtain ⟨role, found, _⟩ := mem_implying_iff.mp edge
    by_cases direct : b ∈ granting g.roles p
    · exact .inl direct
    · exact .inr (List.mem_filter.mpr ⟨OrderedMap.mem_keys.mpr ⟨role, found⟩, by simpa using direct⟩)

theorem roles_of_ofRoles {g : ImplicationGraph} (admitted : ofRoles roles = .ok g) : g.roles = roles := by
  unfold ofRoles at admitted
  split at admitted
  · cases admitted
  · split at admitted
    · cases admitted
    · cases admitted
      rfl

theorem ofRoles_admitted (declared : undeclared? roles = none) (acyclic : cycle? roles = none) :
    ofRoles roles = .ok ⟨roles, declared, acyclic⟩ := by
  unfold ofRoles
  split
  · rename_i found
    cases declared.symm.trans found
  · split
    · rename_i found
      cases acyclic.symm.trans found
    · rfl

end ImplicationGraph

end ScopedAccess
