import ScopedAccess.Proofs.Acceptance

namespace ScopedAccess

namespace ImplicationGraph

-- Goes through roles in their order, where `here` leads to the one that implies them. A role on the way here closes a
-- cycle, a role visited before is passed over, and any other is entered: what it implies comes before the rest.
inductive Scans (roles : OrderedMap String Role) :
    List String → List String → List String → Except (List String) (List String) → Prop where
  | done {here visited : List String} : Scans roles here visited [] (.ok visited)
  | closes {here visited rest : List String} {b : String} (again : b ∈ here) :
      Scans roles here visited (b :: rest) (.error (here.dropWhile (· ≠ b) ++ [b]))
  | passes {here visited rest : List String} {b : String} {outcome : Except (List String) (List String)}
      (fresh : b ∉ here) (old : b ∈ visited) (onward : Scans roles here visited rest outcome) :
      Scans roles here visited (b :: rest) outcome
  | stops {here visited rest cycle : List String} {b : String} (fresh : b ∉ here) (new : b ∉ visited)
      (deeper : Scans roles (here ++ [b]) (b :: visited) (impliedBy roles b) (.error cycle)) :
      Scans roles here visited (b :: rest) (.error cycle)
  | enters {here visited rest next : List String} {b : String} {outcome : Except (List String) (List String)}
      (fresh : b ∉ here) (new : b ∉ visited)
      (deeper : Scans roles (here ++ [b]) (b :: visited) (impliedBy roles b) (.ok next))
      (onward : Scans roles here next rest outcome) :
      Scans roles here visited (b :: rest) outcome

def Declared (roles : OrderedMap String Role) : Prop := ∀ a b, Implies roles a b → b ∈ roles.keys

variable {roles : OrderedMap String Role} {here path visited todo : List String} {name a b : String} {depth : Nat}

theorem scans_of_fold {enter : List String → String → Except (List String) (List String)}
    (deeper : ∀ b ∈ todo, b ∉ here → ∀ visited, b ∉ visited →
      Scans roles (here ++ [b]) (b :: visited) (impliedBy roles b) (enter visited b)) (visited : List String) :
    Scans roles here visited todo (todo.foldlM (fun visited b =>
      if b ∈ here then .error (here.dropWhile (· ≠ b) ++ [b]) else if b ∈ visited then .ok visited else enter visited b)
        visited) := by
  induction todo generalizing visited with
  | nil => exact .done
  | cons b rest ih =>
    have later := ih fun c member => deeper c (List.mem_cons_of_mem _ member)
    rw [List.foldlM_cons]
    by_cases again : b ∈ here
    · rw [if_pos again]
      exact .closes again
    · rw [if_neg again]
      by_cases old : b ∈ visited
      · rw [if_pos old]
        exact .passes again old (later visited)
      · rw [if_neg old]
        have inside := deeper b (List.mem_cons_self ..) again visited old
        cases came : enter visited b with
        | error cycle =>
          rw [came] at inside
          exact .stops again old inside
        | ok next =>
          rw [came] at inside
          exact .enters again old inside (later next)

-- The depth left is enough: of declared roles a path holds each at most once, of others it may end in one more.
def Roomy (roles : OrderedMap String Role) (depth : Nat) (path : List String) (name : String) : Prop :=
  roles.size < depth + path.length ∨ (Declared roles ∧ name ∈ roles.keys) ∧ roles.size ≤ depth + path.length

theorem Roomy.ne_zero (roomy : Roomy roles depth path name) (distinct : (path ++ [name]).Nodup)
    (known : ∀ n ∈ path, n ∈ roles.keys) : depth ≠ 0 := by
  have size : roles.keys.length = roles.size := List.length_map ..
  rintro rfl
  rcases roomy with wide | ⟨⟨_, isKey⟩, tight⟩
  · have bound := (List.nodup_append.mp distinct).1.length_le_of_subset known
    omega
  · have all : path ++ [name] ⊆ roles.keys := List.append_subset.mpr ⟨known, by simpa using isKey⟩
    have bound := distinct.length_le_of_subset all
    rw [List.length_append, List.length_singleton] at bound
    omega

theorem Roomy.deeper (roomy : Roomy roles (depth + 1) path name) (edge : Implies roles name b) :
    Roomy roles depth (path ++ [name]) b := by
  unfold Roomy at roomy ⊢
  rw [List.length_append, List.length_singleton]
  rcases roomy with wide | ⟨⟨declared, _⟩, tight⟩
  · left
    omega
  · right
    exact ⟨⟨declared, declared name b edge⟩, by omega⟩

theorem scans_search (roomy : Roomy roles depth path name) (distinct : (path ++ [name]).Nodup)
    (known : ∀ n ∈ path, n ∈ roles.keys) (visited : List String) :
    Scans roles (path ++ [name]) (name :: visited) (impliedBy roles name) (search roles depth path visited name) := by
  induction depth generalizing path visited name with
  | zero => exact absurd rfl (roomy.ne_zero distinct known)
  | succ depth ih =>
    refine scans_of_fold (fun b member fresh visited _ => ?_) (name :: visited)
    have edge : Implies roles name b := mem_impliedBy_iff.mp member
    apply ih (roomy.deeper edge)
    · exact nodup_snoc distinct fresh
    · obtain ⟨role, found, _⟩ := edge
      intro n member
      rcases List.mem_append.mp member with old | last
      · exact known n old
      · exact List.mem_singleton.mp last ▸ OrderedMap.mem_keys.mpr ⟨role, found⟩

theorem scans_keys (roomy : ∀ name ∈ roles.keys, Roomy roles depth [] name) :
    Scans roles [] [] roles.keys (roles.keys.foldlM (fun visited name =>
      if name ∈ visited then .ok visited else search roles depth [] visited name) []) := by
  have entered : ∀ name ∈ roles.keys, name ∉ [] → ∀ visited, name ∉ visited →
      Scans roles ([] ++ [name]) (name :: visited) (impliedBy roles name) (search roles depth [] visited name) :=
    fun name isKey _ visited _ => scans_search (roomy name isKey) (by simp) (by simp) visited
  have folded := scans_of_fold entered []
  simpa only [List.not_mem_nil, if_false] using folded

theorem exists_scans (roles : OrderedMap String Role) : ∃ outcome, Scans roles [] [] roles.keys outcome := by
  have wide : ∀ name ∈ roles.keys, Roomy roles (roles.size + 1) [] name := fun _ _ => .inl (by simp)
  exact ⟨_, scans_keys wide⟩

theorem scans_cycle? (declared : Declared roles) :
    ∃ outcome, Scans roles [] [] roles.keys outcome ∧ ∀ path, cycle? roles = some path ↔ outcome = .error path := by
  have tight : ∀ name ∈ roles.keys, Roomy roles roles.size [] name := fun _ isKey => .inr ⟨⟨declared, isKey⟩, by simp⟩
  refine ⟨_, scans_keys tight, fun path => ?_⟩
  unfold cycle?
  split
  · rename_i found ended
    rw [ended]
    simp
  · rename_i visited ended
    rw [ended]
    simp

theorem undeclared?_eq_none_iff : undeclared? roles = none ↔ Declared roles := by
  refine Model.undeclaredImplication?_eq_none_iff.trans (forall₃_congr fun a b _ => ?_)
  exact Option.isSome_iff_exists.trans OrderedMap.mem_keys.symm

theorem undeclared?_eq_some (found : undeclared? roles = some (a, b)) : Implies roles a b ∧ b ∉ roles.keys := by
  obtain ⟨⟨n, role⟩, entry, missing⟩ := List.exists_of_findSome?_eq_some found
  obtain ⟨implied, chosen, same⟩ := Option.map_eq_some_iff.mp missing
  cases same
  refine ⟨⟨role, OrderedMap.find?_eq_some_iff.mpr entry, OrderedSet.mem_toList.mp (List.mem_of_find?_eq_some chosen)⟩, ?_⟩
  intro isKey
  have known : roles.contains b = true := Option.isSome_iff_exists.mpr (OrderedMap.mem_keys.mp isKey)
  have absent := List.find?_some chosen
  rw [known] at absent
  cases absent

theorem ofRoles_undeclared (found : undeclared? roles = some (a, b)) : ofRoles roles = .error (.undeclared a b) := by
  unfold ofRoles
  split
  · rename_i other
    cases found.symm.trans other
    rfl
  · rename_i quiet
    cases found.symm.trans quiet

theorem ofRoles_cyclic (declared : undeclared? roles = none) (found : cycle? roles = some path) :
    ofRoles roles = .error (.cycle path) := by
  unfold ofRoles
  split
  · rename_i other
    cases declared.symm.trans other
  · split
    · rename_i other
      cases found.symm.trans other
      rfl
    · rename_i quiet
      cases found.symm.trans quiet

def Refused (roles : OrderedMap String Role) (fault : ImplicationFault) (reported : PolicyFault) : Prop :=
  ofRoles roles = .error fault ∧ ∀ m : Model, m.roles = roles → Snapshot.graphOf m = .error reported

theorem refused_undeclared (refused : ofRoles roles = .error (.undeclared a b)) :
    Refused roles (.undeclared a b) (.schema (.undeclaredImplication a b)) := by
  refine ⟨refused, fun m same => ?_⟩
  rw [Snapshot.graphOf, same, refused]

theorem refused_cyclic (refused : ofRoles roles = .error (.cycle path)) :
    Refused roles (.cycle path) (.implicationCycle path) := by
  refine ⟨refused, fun m same => ?_⟩
  rw [Snapshot.graphOf, same, refused]

theorem ofRoles_decides (roles : OrderedMap String Role) :
    ((∃ g, ofRoles roles = .ok g) ↔
      (∀ a b, Implies roles a b → b ∈ roles.keys) ∧ ∀ n, ¬ Relation.TransGen (Implies roles) n n) ∧
    ((∀ a b, Implies roles a b → b ∈ roles.keys) → (∃ n, Relation.TransGen (Implies roles) n n) →
      ∃ path, Closes roles path ∧ Refused roles (.cycle path) (.implicationCycle path)) ∧
    ((∃ a b, Implies roles a b ∧ b ∉ roles.keys) →
      ∃ a b, (Implies roles a b ∧ b ∉ roles.keys) ∧
        Refused roles (.undeclared a b) (.schema (.undeclaredImplication a b))) ∧
    ∃ outcome, Scans roles [] [] roles.keys outcome ∧
      (Declared roles → ∀ path, cycle? roles = some path ↔ outcome = .error path) := by
  refine ⟨⟨?_, ?_⟩, ?_, ?_, ?_⟩
  · intro given
    obtain ⟨g, admitted⟩ := given
    have declared := undeclared?_eq_none_iff.mp (roles_of_ofRoles admitted ▸ g.declared)
    exact ⟨declared, (cycle?_eq_none_iff declared).mp (roles_of_ofRoles admitted ▸ g.acyclic)⟩
  · intro given
    obtain ⟨declared, acyclic⟩ := given
    have quiet := undeclared?_eq_none_iff.mpr declared
    have straight := (cycle?_eq_none_iff declared).mpr acyclic
    exact ⟨_, ofRoles_admitted quiet straight⟩
  · intro declared cyclic
    obtain ⟨n, cycle⟩ := cyclic
    cases found : cycle? roles with
    | none => exact absurd cycle ((cycle?_eq_none_iff declared).mp found n)
    | some path =>
      have refused := ofRoles_cyclic (undeclared?_eq_none_iff.mpr declared) found
      exact ⟨path, closes_of_cycle? found, refused_cyclic refused⟩
  · intro given
    obtain ⟨a, b, edge, missing⟩ := given
    cases found : undeclared? roles with
    | none => exact absurd (undeclared?_eq_none_iff.mp found a b edge) missing
    | some pair => exact ⟨pair.1, pair.2, undeclared?_eq_some found, refused_undeclared (ofRoles_undeclared found)⟩
  · by_cases declared : Declared roles
    · obtain ⟨outcome, scans, agrees⟩ := scans_cycle? declared
      exact ⟨outcome, scans, fun _ => agrees⟩
    · obtain ⟨outcome, scans⟩ := exists_scans roles
      exact ⟨outcome, scans, fun given => absurd given declared⟩

-- The way to a cycle is not part of it.
example : cycle? (.ofList [("a", ⟨"a", "Repo", [], .ofList ["b"]⟩), ("b", ⟨"b", "Repo", [], .ofList ["c"]⟩),
    ("c", ⟨"c", "Repo", [], .ofList ["b"]⟩)]) = some ["b", "c", "b"] := by
  decide +kernel

end ImplicationGraph

end ScopedAccess
