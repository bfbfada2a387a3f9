import ScopedAccess.Model
import ScopedAccess.Proofs.Lists

namespace ScopedAccess

namespace Model

def Above (links : OrderedMap String ParentLink) (t u : String) : Prop :=
  ∃ link, links.find? t = some link ∧ link.parent.resourceType = u

-- Goes from the current type to its parent until a type has none, or the parent is one of those passed. `n` counts the
-- links followed, and nothing limits it.
inductive Climbs (links : OrderedMap String ParentLink) : Nat → List String → String → Option (List String) → Prop where
  | top {passed : List String} {current : String} (root : links.find? current = none) : Climbs links 0 passed current none
  | meets {passed : List String} {current next : String} (above : Above links current next) (again : next ∈ passed) :
      Climbs links 1 passed current (some (passed ++ [next]))
  | passes {n : Nat} {passed : List String} {current next : String} {outcome : Option (List String)}
      (above : Above links current next) (fresh : next ∉ passed)
      (onward : Climbs links n (passed ++ [next]) next outcome) : Climbs links (n + 1) passed current outcome

structure Way (links : OrderedMap String ParentLink) (start : String) (passed : List String) (current : String) : Prop where
  starts : passed.head? = some start
  ends : passed.getLast? = some current
  climbs : passed.IsChain (Above links)
  distinct : passed.Nodup
  linked : ∀ t ∈ passed, t ≠ current → t ∈ links.keys

structure Loops (links : OrderedMap String ParentLink) (start : String) (path : List String) : Prop where
  starts : path.head? = some start
  climbs : path.IsChain (Above links)
  repeats : ∃ passed last, path = passed ++ [last] ∧ passed.Nodup ∧ last ∈ passed

variable {links : OrderedMap String ParentLink} {passed path : List String} {start current next t u v : String}
  {n m budget : Nat} {outcome other : Option (List String)}

theorem Above.unique (first : Above links t u) (second : Above links t v) : u = v := by
  obtain ⟨link, found, rfl⟩ := first
  obtain ⟨other, again, rfl⟩ := second
  rw [found] at again
  cases Option.some.inj again
  rfl

theorem Above.mem_keys (above : Above links t u) : t ∈ links.keys := by
  obtain ⟨link, found, _⟩ := above
  exact OrderedMap.mem_keys.mpr ⟨link, found⟩

theorem not_above_of_root (root : links.find? t = none) : ¬ Above links t u := by
  rintro ⟨link, found, _⟩
  rw [root] at found
  cases found

theorem Climbs.unique (climbs : Climbs links n passed current outcome) (again : Climbs links m passed current other) :
    m = n ∧ other = outcome := by
  induction climbs generalizing m other with
  | top root =>
    cases again with
    | top => exact ⟨rfl, rfl⟩
    | meets above _ => exact absurd above (not_above_of_root root)
    | passes above _ _ => exact absurd above (not_above_of_root root)
  | meets above old =>
    cases again with
    | top root => exact absurd above (not_above_of_root root)
    | meets same _ =>
      cases above.unique same
      exact ⟨rfl, rfl⟩
    | passes same fresh _ =>
      cases above.unique same
      exact absurd old fresh
  | passes above fresh _ ih =>
    cases again with
    | top root => exact absurd above (not_above_of_root root)
    | meets same old =>
      cases above.unique same
      exact absurd old fresh
    | passes same _ onward =>
      cases above.unique same
      obtain ⟨rfl, rfl⟩ := ih onward
      exact ⟨rfl, rfl⟩

theorem way_start (links : OrderedMap String ParentLink) (start : String) : Way links start [start] start where
  starts := rfl
  ends := rfl
  climbs := .singleton start
  distinct := List.nodup_singleton start
  linked := by
    intro t member other
    exact absurd (List.mem_singleton.mp member) other

theorem Way.onward (way : Way links start passed current) (above : Above links current next) (fresh : next ∉ passed) :
    Way links start (passed ++ [next]) next where
  starts := by rw [List.head?_append, way.starts, Option.some_or]
  ends := List.getLast?_concat
  climbs := isChain_snoc way.climbs way.ends above
  distinct := nodup_snoc way.distinct fresh
  linked := by
    intro t member other
    rcases List.mem_append.mp member with old | last
    · by_cases same : t = current
      · exact same ▸ above.mem_keys
      · exact way.linked t old same
    · exact absurd (List.mem_singleton.mp last) other

theorem Way.loops (way : Way links start passed current) (above : Above links current next) (again : next ∈ passed) :
    Loops links start (passed ++ [next]) where
  starts := by rw [List.head?_append, way.starts, Option.some_or]
  climbs := isChain_snoc way.climbs way.ends above
  repeats := ⟨passed, next, rfl, way.distinct, again⟩

-- After more types than there are links comes one without a link, for all before it have theirs.
theorem Way.root_of_full (way : Way links start passed current) (full : links.size < passed.length) :
    links.find? current = none := by
  cases found : links.find? current with
  | none => rfl
  | some link =>
    have all : passed ⊆ links.keys := by
      intro t member
      by_cases same : t = current
      · exact same ▸ OrderedMap.mem_keys.mpr ⟨link, found⟩
      · exact way.linked t member same
    have bound := way.distinct.length_le_of_subset all
    rw [OrderedMap.keys, List.length_map] at bound
    exact absurd full (Nat.not_lt.mpr bound)

theorem climbs_climb (way : Way links start passed current) (room : links.size < budget + passed.length) :
    ∃ n ≤ budget, Climbs links n passed current (climb links budget passed current) := by
  induction budget generalizing passed current with
  | zero =>
    have full : links.size < passed.length := by omega
    exact ⟨0, Nat.le_refl 0, .top (way.root_of_full full)⟩
  | succ budget ih =>
    unfold climb
    split
    · rename_i root
      exact ⟨0, Nat.zero_le _, .top root⟩
    · rename_i link found
      have above : Above links current link.parent.resourceType := ⟨link, found, rfl⟩
      dsimp only
      split
      · rename_i again
        exact ⟨1, Nat.le_add_left 1 budget, .meets above again⟩
      · rename_i fresh
        have enough : links.size < budget + (passed ++ [link.parent.resourceType]).length := by
          rw [List.length_append, List.length_singleton]
          omega
        obtain ⟨n, within, onward⟩ := ih (way.onward above fresh) enough
        exact ⟨n + 1, Nat.succ_le_succ within, .passes above fresh onward⟩

theorem climbs_from (links : OrderedMap String ParentLink) (start : String) :
    ∃ n ≤ links.size, Climbs links n [start] start (climb links links.size [start] start) :=
  climbs_climb (way_start links start) (Nat.lt_succ_self _)

theorem Climbs.exists_top (climbs : Climbs links n passed current outcome) (quiet : outcome = none) :
    ∃ top, StepsIn (Above links) n current top ∧ links.find? top = none := by
  induction climbs with
  | top root => exact ⟨_, .stay, root⟩
  | meets => cases quiet
  | passes above _ _ ih =>
    obtain ⟨top, path, root⟩ := ih quiet
    exact ⟨top, .step above path, root⟩

theorem Climbs.loops (climbs : Climbs links n passed current outcome) (way : Way links start passed current)
    (found : outcome = some path) : Loops links start path := by
  induction climbs with
  | top => cases found
  | meets above again =>
    cases found
    exact way.loops above again
  | passes above fresh _ ih => exact ih (way.onward above fresh) found

-- What comes before the first place of the type that comes twice only leads to the circuit.
theorem Loops.circuit (loops : Loops links start path) :
    ∃ lead round, path = lead ++ round ∧ Circuit (Above links) round := by
  obtain ⟨passed, last, rfl, distinct, again⟩ := loops.repeats
  obtain ⟨lead, between, rfl, _, circuit⟩ := circuit_of_repeat loops.climbs distinct again
  exact ⟨lead, last :: between ++ [last], List.append_assoc .., circuit⟩

theorem loops_of_climb (found : climb links links.size [start] start = some path) : Loops links start path := by
  obtain ⟨n, _, climbs⟩ := climbs_from links start
  exact climbs.loops (way_start links start) found

theorem climb_eq_none (acyclic : ∀ t, ¬ Relation.TransGen (Above links) t t) (start : String) :
    climb links links.size [start] start = none := by
  cases found : climb links links.size [start] start with
  | none => rfl
  | some path =>
    obtain ⟨lead, round, _, circuit⟩ := (loops_of_climb found).circuit
    obtain ⟨t, cycle⟩ := circuit.returns
    exact absurd cycle (acyclic t)

-- A type has one parent at most, so whatever is reached from a type on a cycle is on the cycle.
theorem cycle_of_reached (cycle : Relation.TransGen (Above links) t t)
    (path : Relation.ReflTransGen (Above links) t u) : Relation.TransGen (Above links) u u := by
  induction path with
  | refl => exact cycle
  | tail _ last ih =>
    obtain ⟨next, first, back⟩ := Relation.TransGen.head'_iff.mp ih
    cases first.unique last
    exact Relation.TransGen.tail' back last

theorem hierarchy_acyclic (quiet : hierarchyCycle? links = none) : ∀ t, ¬ Relation.TransGen (Above links) t t := by
  intro t cycle
  obtain ⟨next, first, _⟩ := Relation.TransGen.head'_iff.mp cycle
  obtain ⟨n, _, climbs⟩ := climbs_from links t
  obtain ⟨top, path, root⟩ := climbs.exists_top (List.findSome?_eq_none_iff.mp quiet t first.mem_keys)
  obtain ⟨beyond, onward, _⟩ := Relation.TransGen.head'_iff.mp (cycle_of_reached cycle path.path)
  exact not_above_of_root root onward

theorem hierarchyCycle?_eq_none_iff : hierarchyCycle? links = none ↔ ∀ t, ¬ Relation.TransGen (Above links) t t := by
  constructor
  · exact hierarchy_acyclic
  · intro acyclic
    exact List.findSome?_eq_none_iff.mpr fun start _ => climb_eq_none acyclic start

theorem above_steps_le {n : Nat} (acyclic : ∀ t, ¬ Relation.TransGen (Above links) t t) (path : StepsIn (Above links) n t u) :
    n ≤ links.size := by
  have bound := path.length_le acyclic fun _ _ above => above.mem_keys
  rwa [OrderedMap.keys, List.length_map] at bound

theorem exists_top (acyclic : ∀ t, ¬ Relation.TransGen (Above links) t t) (t : String) :
    ∃ top, ∃ n ≤ links.size, StepsIn (Above links) n t top ∧ links.find? top = none := by
  obtain ⟨n, within, climbs⟩ := climbs_from links t
  obtain ⟨top, path, root⟩ := climbs.exists_top (climb_eq_none acyclic t)
  exact ⟨top, n, within, path, root⟩

-- From each type in turn, until following its parents comes to a type twice. No bound is set on any of the climbs.
inductive Checks (links : OrderedMap String ParentLink) : List String → Option (List String) → Prop where
  | done : Checks links [] none
  | stops {n : Nat} {start : String} {rest path : List String} (climbs : Climbs links n [start] start (some path)) :
      Checks links (start :: rest) (some path)
  | passes {n : Nat} {start : String} {rest : List String} {outcome : Option (List String)}
      (climbs : Climbs links n [start] start none) (onward : Checks links rest outcome) :
      Checks links (start :: rest) outcome

variable {resources : OrderedMap String Resource} {d : Declarations} {types : List String}
  {outcome other : Option (List String)}

theorem Checks.unique (checks : Checks links types outcome) (again : Checks links types other) : other = outcome := by
  induction checks with
  | done =>
    cases again
    rfl
  | stops climbs =>
    cases again with
    | stops same => exact (climbs.unique same).2
    | passes quiet _ => cases (climbs.unique quiet).2
  | passes climbs _ ih =>
    cases again with
    | stops found => cases (climbs.unique found).2
    | passes _ onward => exact ih onward

theorem checks_types (links : OrderedMap String ParentLink) (types : List String) :
    Checks links types (types.findSome? fun start => climb links links.size [start] start) := by
  induction types with
  | nil => exact .done
  | cons start rest ih =>
    obtain ⟨n, _, climbs⟩ := climbs_from links start
    rw [List.findSome?_cons]
    cases found : climb links links.size [start] start with
    | none =>
      rw [found] at climbs
      exact .passes climbs ih
    | some path =>
      rw [found] at climbs
      exact .stops climbs

theorem loops_of_hierarchyCycle? (found : hierarchyCycle? links = some path) :
    ∃ start ∈ links.keys, Loops links start path := by
  obtain ⟨start, isKey, climbed⟩ := List.exists_of_findSome?_eq_some found
  exact ⟨start, isKey, loops_of_climb climbed⟩

-- Relationships that were joined up without a fault can still be refused, but for a cycle only.
theorem linksOf_joined (ran : d.links.foldlM (declareLink resources) .empty = .ok links) :
    linksOf resources d =
      match hierarchyCycle? links with
      | some path => .error (.hierarchyCycle path)
      | none => .ok links := by
  rw [linksOf, ran]
  rfl

theorem hierarchyCheck_exact (links : OrderedMap String ParentLink) :
    (∀ start, ∃ n ≤ links.size, ∀ m outcome, Climbs links m [start] start outcome ↔
      m = n ∧ outcome = climb links links.size [start] start) ∧
    (∀ outcome, Checks links links.keys outcome ↔ outcome = hierarchyCycle? links) ∧
    (hierarchyCycle? links = none ↔ ∀ t, ¬ Relation.TransGen (Above links) t t) ∧
    (∀ path, hierarchyCycle? links = some path →
      (∃ start ∈ links.keys, Loops links start path) ∧
      ∃ lead round, path = lead ++ round ∧ Circuit (Above links) round) ∧
    ∀ resources d, d.links.foldlM (declareLink resources) .empty = .ok links →
      (linksOf resources d = .ok links ↔ ∀ t, ¬ Relation.TransGen (Above links) t t) ∧
      ∀ fault, linksOf resources d = .error fault ↔ ∃ path, hierarchyCycle? links = some path ∧ fault = .hierarchyCycle path := by
  refine ⟨?_, ?_, hierarchyCycle?_eq_none_iff, ?_, ?_⟩
  · intro start
    obtain ⟨n, within, climbs⟩ := climbs_from links start
    refine ⟨n, within, fun m outcome => ⟨climbs.unique, ?_⟩⟩
    rintro ⟨rfl, rfl⟩
    exact climbs
  · intro outcome
    have checks : Checks links links.keys (hierarchyCycle? links) := checks_types links links.keys
    constructor
    · exact checks.unique
    · rintro rfl
      exact checks
  · intro path found
    obtain ⟨start, isKey, loops⟩ := loops_of_hierarchyCycle? found
    exact ⟨⟨start, isKey, loops⟩, loops.circuit⟩
  · intro resources d ran
    rw [← hierarchyCycle?_eq_none_iff, linksOf_joined ran]
    cases hierarchyCycle? links with
    | none => simp
    | some path => simp [eq_comm]

-- The way into the cycle is reported with it.
example : hierarchyCycle? (.ofList [
    ("Line", ⟨⟨"Line", "lines", "id"⟩, ⟨"Page", "pages", "id"⟩, "page_id", "id"⟩),
    ("Page", ⟨⟨"Page", "pages", "id"⟩, ⟨"Sheet", "sheets", "id"⟩, "sheet_id", "id"⟩),
    ("Sheet", ⟨⟨"Sheet", "sheets", "id"⟩, ⟨"Page", "pages", "id"⟩, "page_id", "id"⟩)]) =
      some ["Line", "Page", "Sheet", "Page"] := by
  decide +kernel

end Model

end ScopedAccess
