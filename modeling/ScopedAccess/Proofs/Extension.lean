import ScopedAccess.Proofs.CompiledSnapshot
import ScopedAccess.Proofs.Store.Roster
import ScopedAccess.Proofs.Walk.Congruence

namespace ScopedAccess

-- `e` has what `d` has, and besides resources of new types and links of new types.
def Declarations.Extends (d e : Declarations) : Prop :=
  ∃ added : Declarations, e.resources.Perm (d.resources ++ added.resources) ∧ e.links.Perm (d.links ++ added.links) ∧
    (∀ r ∈ added.resources, ∀ old ∈ d.resources, r.resourceType ≠ old.resourceType) ∧
    ∀ l ∈ added.links, ∀ old ∈ d.resources, l.child ≠ old.resourceType

namespace Model

structure Extends (m n : Model) : Prop where
  resources : ∀ t r, m.resources.find? t = some r → n.resources.find? t = some r
  roles : ∀ name r, m.roles.find? name = some r → n.roles.find? name = some r
  links : ∀ t, m.resources.contains t = true → n.links.find? t = m.links.find? t
  ends : ∀ t link, m.links.find? t = some link →
    m.resources.contains t = true ∧ m.resources.contains link.parent.resourceType = true

variable {d e : Declarations} {m n : Model} {t name other : String} {p : Permission}

theorem declared_iff (reflects : m.Reflects d) : m.resources.contains t = true ↔ ∃ r ∈ d.resources, r.resourceType = t := by
  constructor
  · intro contains
    obtain ⟨resource, found⟩ := Option.isSome_iff_exists.mp contains
    obtain ⟨r, member, named, _⟩ := (reflects.resources.find?_iff t resource).mp found
    exact ⟨r, member, named⟩
  · intro given
    obtain ⟨r, member, rfl⟩ := given
    exact reflects.contains member

theorem extends_of_declarations (left : m.Reflects d) (right : n.Reflects e) (grows : d.Extends e) : m.Extends n := by
  obtain ⟨added, resources, links, newTypes, newChildren⟩ := grows
  have kept : ∀ t r, m.resources.find? t = some r → n.resources.find? t = some r := by
    intro t r found
    obtain ⟨declared, member, named, comes⟩ := (left.resources.find?_iff t r).mp found
    exact (right.resources.find?_iff t r).mpr ⟨declared, resources.mem_iff.mpr (List.mem_append_left _ member), named, comes⟩
  have comes : ∀ l link, Model.linkOf? m.resources l = some link → Model.linkOf? n.resources l = some link := by
    intro l link comes
    obtain ⟨child, parent, childFound, parentFound, rfl⟩ := linkOf?_eq_some comes
    simp [linkOf?, kept _ child childFound, kept _ parent parentFound]
  refine ⟨kept, ?_, ?_, ?_⟩
  · intro name r found
    obtain ⟨declared, member, named, is⟩ := (left.roles.find?_iff name r).mp found
    obtain ⟨source, known, typed, listed⟩ := mem_roles_iff.mp member
    have there : declared ∈ e.roles :=
      mem_roles_iff.mpr ⟨source, resources.mem_iff.mpr (List.mem_append_left _ known), typed, listed⟩
    exact (right.roles.find?_iff name r).mpr ⟨declared, there, named, is⟩
  · intro t contains
    obtain ⟨old, oldMember, rfl⟩ := (declared_iff left).mp contains
    refine Option.ext fun link => ?_
    rw [right.links.find?_iff, left.links.find?_iff]
    constructor
    · intro given
      obtain ⟨l, member, named, is⟩ := given
      rcases List.mem_append.mp (links.mem_iff.mp member) with known | new
      · obtain ⟨same, was⟩ := left.links.comes l known
        cases (comes l same was).symm.trans is
        exact ⟨l, known, named, was⟩
      · exact absurd named (newChildren l new old oldMember)
    · intro given
      obtain ⟨l, member, named, is⟩ := given
      exact ⟨l, links.mem_iff.mpr (List.mem_append_left _ member), named, comes l link is⟩
  · intro t link found
    obtain ⟨child, parent, childFound, parentFound, _, _⟩ := left.link found
    exact ⟨OrderedMap.contains_of_find? childFound, OrderedMap.contains_of_find? parentFound⟩

section

variable (grows : m.Extends n)

include grows

theorem Extends.confers (confers : ImplicationGraph.Confers m.roles name p) : ImplicationGraph.Confers n.roles name p := by
  obtain ⟨granter, path, role, found, granted⟩ := confers
  have step : ∀ a b, ImplicationGraph.Implies m.roles a b → ImplicationGraph.Implies n.roles a b := by
    intro a b implies
    obtain ⟨r, here, listed⟩ := implies
    exact ⟨r, grows.roles a r here, listed⟩
  exact ⟨granter, Relation.ReflTransGen.mono step _ _ path, role, grows.roles _ _ found, granted⟩

-- Old roles imply old roles only, so nothing new is reached from them.
theorem Extends.confers_iff (reflects : m.Reflects d) (declared : m.roles.contains name = true) :
    ImplicationGraph.Confers m.roles name p ↔ ImplicationGraph.Confers n.roles name p := by
  refine ⟨grows.confers, ?_⟩
  intro confers
  obtain ⟨granter, path, role, found, granted⟩ := confers
  have old : ∀ {a r}, m.roles.contains a = true → n.roles.find? a = some r → m.roles.find? a = some r := by
    intro a r known place
    obtain ⟨same, was⟩ := Option.isSome_iff_exists.mp known
    rw [grows.roles a same was] at place
    cases place
    exact was
  have onward : m.roles.contains granter = true ∧ Relation.ReflTransGen (ImplicationGraph.Implies m.roles) name granter := by
    clear found granted
    induction path with
    | refl => exact ⟨declared, .refl⟩
    | tail _ implies ih =>
      obtain ⟨known, before⟩ := ih
      obtain ⟨r, here, listed⟩ := implies
      have was := old known here
      exact ⟨reflects.implied _ r _ was listed, before.tail ⟨r, was, listed⟩⟩
  exact ⟨granter, onward.2, role, old onward.1 found, granted⟩

theorem Extends.declaresRole (declares : m.declaresRole name t = true) : n.declaresRole name t = true := by
  obtain ⟨r, found, typed⟩ := declaresRole_iff.mp declares
  exact declaresRole_iff.mpr ⟨r, grows.roles name r found, typed⟩

theorem Extends.links_kept : ∀ link ∈ m.links.values, link ∈ n.links.values := by
  intro link member
  obtain ⟨t, found⟩ := OrderedMap.mem_values.mp member
  have kept := grows.links t (grows.ends t link found).1
  exact OrderedMap.mem_values.mpr ⟨t, kept.trans found⟩

variable {db other : Query.Database} {i j : Spot} {k : Nat}

-- The walk from an instance of an old type takes old links only.
theorem Extends.steps_iff (same : ∀ t link, m.links.find? t = some link → db link.child.table = other link.child.table ∧
      db link.parent.table = other link.parent.table) (declared : m.resources.contains i.resourceType = true) :
    StepsIn (ParentStep db m) k i j ↔ StepsIn (ParentStep other n) k i j := by
  constructor
  · intro path
    induction path with
    | stay => exact .stay
    | @step a b c k first _ ih =>
      have onward : ParentStep other n a b := by
        refine first.transfer fun link found => ?_
        exact ⟨(grows.links _ declared).trans found, same _ link found⟩
      refine .step onward (ih ?_)
      cases first with
      | along found _ => exact (grows.ends _ _ found).2
  · intro path
    induction path with
    | stay => exact .stay
    | @step a b c k first _ ih =>
      have back : ParentStep db m a b := by
        refine first.transfer fun link found => ?_
        have was := (grows.links _ declared).symm.trans found
        obtain ⟨child, parent⟩ := same _ link was
        exact ⟨was, child.symm, parent.symm⟩
      refine .step back (ih ?_)
      cases back with
      | along found _ => exact (grows.ends _ _ found).2

end

end Model

end ScopedAccess
