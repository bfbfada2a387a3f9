import Mathlib.Data.List.Chain
import ScopedAccess.Proofs.Implication
import ScopedAccess.Proofs.Lists
import ScopedAccess.Proofs.Outcome

namespace ScopedAccess

namespace ImplicationGraph

variable {roles : OrderedMap String Role} {path visited next : List String} {name a b : String} {depth : Nat}

theorem mem_impliedBy_iff : b ∈ impliedBy roles a ↔ Implies roles a b := by
  unfold impliedBy Implies
  cases roles.find? a with
  | none => simp
  | some role => simp

-- Each role implies the next one, the last is the first again, and no other is repeated.
def Closes (roles : OrderedMap String Role) (path : List String) : Prop :=
  ∃ first between, path = first :: between ++ [first] ∧ (first :: between).Nodup ∧ path.IsChain (Implies roles)

theorem Closes.cycle (closes : Closes roles path) : ∃ n, Relation.TransGen (Implies roles) n n :=
  Circuit.returns closes

theorem closes_of_last (chain : (path ++ [name]).IsChain (Implies roles)) (distinct : (path ++ [name]).Nodup)
    (member : a ∈ path ++ [name]) (back : Implies roles name a) :
    Closes roles ((path ++ [name]).dropWhile (· ≠ a) ++ [a]) := by
  have returned : (path ++ [name] ++ [a]).IsChain (Implies roles) := isChain_snoc chain List.getLast?_concat back
  obtain ⟨lead, between, split, off, circuit⟩ := circuit_of_repeat returned distinct member
  have kept : (path ++ [name]).dropWhile (· ≠ a) = a :: between := by
    rw [split, List.dropWhile_append_of_pos fun x here => by simpa using ne_of_mem_of_not_mem here off]
    simp
  rw [kept]
  exact circuit

theorem foldlM_error {α β ε : Type} {f : β → α → Except ε β} {l : List α} {first : β} {e : ε}
    (stopped : l.foldlM f first = .error e) : ∃ a ∈ l, ∃ b, f b a = .error e := by
  induction l generalizing first with
  | nil => cases stopped
  | cons a rest ih =>
    rw [List.foldlM_cons] at stopped
    cases here : f first a with
    | error other =>
      rw [here] at stopped
      cases stopped
      exact ⟨a, List.mem_cons_self .., first, here⟩
    | ok next =>
      rw [here] at stopped
      obtain ⟨c, member, b, there⟩ := ih stopped
      exact ⟨c, List.mem_cons_of_mem _ member, b, there⟩

-- The roles on the path imply one another down to the one entered, so a role met on the path again closes a cycle.
theorem closes_of_search (chain : (path ++ [name]).IsChain (Implies roles)) (distinct : (path ++ [name]).Nodup)
    {cycle : List String} (found : search roles depth path visited name = .error cycle) : Closes roles cycle := by
  induction depth generalizing path visited name with
  | zero => cases found
  | succ depth ih =>
    obtain ⟨implied, member, met, stopped⟩ := foldlM_error found
    have edge : Implies roles name implied := mem_impliedBy_iff.mp member
    split at stopped
    · rename_i again
      cases stopped
      exact closes_of_last chain distinct again edge
    · rename_i fresh
      split at stopped
      · cases stopped
      · exact ih (isChain_snoc chain List.getLast?_concat edge) (nodup_snoc distinct fresh) stopped

theorem closes_of_cycle? (found : cycle? roles = some path) : Closes roles path := by
  unfold cycle? at found
  split at found
  · rename_i cycle stopped
    cases found
    obtain ⟨start, _, visited, searched⟩ := foldlM_error stopped
    split at searched
    · cases searched
    · exact closes_of_search (List.isChain_singleton start) (by simp) searched
  · cases found

-- A role that was entered, and is not on the path to the one at hand, is done with.
def Done (path visited : List String) (n : String) : Prop := n ∈ visited ∧ n ∉ path

-- Nothing leads out of the roles that are done with, and none of them implies itself.
structure Settled (roles : OrderedMap String Role) (path visited : List String) : Prop where
  closed : ∀ a b, Done path visited a → Implies roles a b → Done path visited b
  acyclic : ∀ a, Done path visited a → ¬ Relation.TransGen (Implies roles) a a

theorem Settled.reached (settled : Settled roles path visited) (done : Done path visited a)
    (steps : Relation.ReflTransGen (Implies roles) a b) : Done path visited b := by
  induction steps with
  | refl => exact done
  | tail _ last ih => exact settled.closed _ _ ih last

theorem Settled.enter (settled : Settled roles path visited) (new : name ∉ visited) :
    Settled roles (path ++ [name]) (name :: visited) := by
  have same : ∀ n, Done (path ++ [name]) (name :: visited) n ↔ Done path visited n := by
    intro n
    simp only [Done, List.mem_cons, List.mem_append, List.not_mem_nil, or_false, not_or]
    constructor
    · intro given
      exact ⟨given.1.resolve_left given.2.2, given.2.1⟩
    · intro given
      exact ⟨.inr given.1, given.2, fun equal => new (equal ▸ given.1)⟩
  constructor
  · intro a b done edge
    exact (same b).mpr (settled.closed a b ((same a).mp done) edge)
  · intro a done
    exact settled.acyclic a ((same a).mp done)

-- A role is left when all that it implies is done with. It cannot be on a cycle: it is not done with itself as long as
-- it is on the path, and nothing leads back to it from what is.
theorem Settled.leave (settled : Settled roles (path ++ [name]) visited) (here : name ∈ visited) (off : name ∉ path)
    (implied : ∀ b, Implies roles name b → Done (path ++ [name]) visited b) : Settled roles path visited := by
  have same : ∀ n, Done path visited n ↔ n = name ∨ Done (path ++ [name]) visited n := by
    intro n
    by_cases equal : n = name
    · subst equal
      simp [Done, here, off]
    · simp [Done, equal]
  constructor
  · intro a b done edge
    rcases (same a).mp done with rfl | before
    · exact (same b).mpr (.inr (implied b edge))
    · exact (same b).mpr (.inr (settled.closed a b before edge))
  · intro a done cycle
    rcases (same a).mp done with rfl | before
    · obtain ⟨b, first, back⟩ := Relation.TransGen.head'_iff.mp cycle
      exact (settled.reached (implied b first) back).2 (by simp)
    · exact settled.acyclic a before cycle

-- The path repeats no role, so it is shorter than the number of roles wherever one more can be entered.
theorem room_of_nodup (distinct : (path ++ [name]).Nodup) (known : ∀ n ∈ path ++ [name], n ∈ roles.keys)
    (room : depth + path.length = roles.size) : depth ≠ 0 := by
  have bound := distinct.length_le_of_subset known
  simp only [List.length_append, List.length_singleton, OrderedMap.keys, List.length_map] at bound
  simp only [OrderedMap.size] at room
  omega

theorem settled_of_search (declared : ∀ a b, Implies roles a b → b ∈ roles.keys) (distinct : (path ++ [name]).Nodup)
    (known : ∀ n ∈ path ++ [name], n ∈ roles.keys) (room : depth + path.length = roles.size) (new : name ∉ visited)
    (settled : Settled roles path visited) (searched : search roles depth path visited name = .ok next) :
    Settled roles path next ∧ name ∈ next ∧ ∀ n ∈ visited, n ∈ next := by
  induction depth generalizing path visited name next with
  | zero => exact absurd rfl (room_of_nodup distinct known room)
  | succ depth ih =>
    have off : name ∉ path := by
      intro member
      exact (List.nodup_append.mp distinct).2.2 name member name (List.mem_singleton_self _) rfl
    -- what the roles implied so far leave behind
    have folded := foldlM_invariant (fun passed visited' => Settled roles (path ++ [name]) visited' ∧
      (∀ n ∈ name :: visited, n ∈ visited') ∧ ∀ n ∈ passed, Done (path ++ [name]) visited' n)
      ⟨settled.enter new, fun _ member => member, by simp⟩ ?_ searched
    · obtain ⟨after, grown, implied⟩ := folded
      have here : name ∈ next := grown name (List.mem_cons_self ..)
      refine ⟨after.leave here off fun b edge => implied b (mem_impliedBy_iff.mpr edge), here, ?_⟩
      intro n member
      exact grown n (List.mem_cons_of_mem _ member)
    · intro passed implied rest before after split held stepped
      obtain ⟨ready, grown, passedDone⟩ := held
      have edge : Implies roles name implied := mem_impliedBy_iff.mp (by rw [split]; simp)
      split at stepped
      · cases stepped
      · rename_i fresh
        split at stepped
        · rename_i old
          cases stepped
          refine ⟨ready, grown, ?_⟩
          intro n member
          rcases List.mem_append.mp member with earlier | last
          · exact passedDone n earlier
          · cases List.mem_singleton.mp last
            exact ⟨old, fresh⟩
        · rename_i unvisited
          have longer : (path ++ [name] ++ [implied]).Nodup := nodup_snoc distinct fresh
          have among : ∀ n ∈ path ++ [name] ++ [implied], n ∈ roles.keys := by
            intro n member
            rcases List.mem_append.mp member with old | last
            · exact known n old
            · exact List.mem_singleton.mp last ▸ declared name implied edge
          have left : depth + (path ++ [name]).length = roles.size := by
            rw [List.length_append, List.length_singleton]
            omega
          obtain ⟨onward, found, kept⟩ := ih longer among left unvisited ready stepped
          refine ⟨onward, fun n member => kept n (grown n member), ?_⟩
          intro n member
          rcases List.mem_append.mp member with earlier | last
          · exact ⟨kept n (passedDone n earlier).1, (passedDone n earlier).2⟩
          · cases List.mem_singleton.mp last
            exact ⟨found, fresh⟩

theorem cycle?_eq_none_iff (declared : ∀ a b, Implies roles a b → b ∈ roles.keys) :
    cycle? roles = none ↔ ∀ n, ¬ Relation.TransGen (Implies roles) n n := by
  constructor
  · intro quiet n cycle
    obtain ⟨b, ⟨role, found, _⟩, _⟩ := Relation.TransGen.head'_iff.mp cycle
    have key : n ∈ roles.keys := OrderedMap.mem_keys.mpr ⟨role, found⟩
    unfold cycle? at quiet
    split at quiet
    · cases quiet
    · rename_i visited ran
      have folded := foldlM_invariant (fun passed visited => Settled roles [] visited ∧ ∀ n ∈ passed, n ∈ visited)
        ⟨⟨fun a b done => absurd done.1 List.not_mem_nil, fun a done => absurd done.1 List.not_mem_nil⟩, by simp⟩ ?_ ran
      · exact folded.1.acyclic n ⟨folded.2 n key, List.not_mem_nil⟩ cycle
      · intro passed start rest before after split held stepped
        obtain ⟨ready, entered⟩ := held
        have isKey : start ∈ roles.keys := by
          rw [split]
          simp
        split at stepped
        · rename_i old
          cases stepped
          refine ⟨ready, ?_⟩
          intro n member
          rcases List.mem_append.mp member with earlier | last
          · exact entered n earlier
          · exact List.mem_singleton.mp last ▸ old
        · rename_i unvisited
          obtain ⟨onward, found, kept⟩ := settled_of_search declared (by simp) (by simpa using isKey) (by simp) unvisited
            ready stepped
          refine ⟨onward, ?_⟩
          intro n member
          rcases List.mem_append.mp member with earlier | last
          · exact kept n (entered n earlier)
          · exact List.mem_singleton.mp last ▸ found
  · intro acyclic
    cases found : cycle? roles with
    | none => rfl
    | some path =>
      obtain ⟨n, cycle⟩ := (closes_of_cycle? found).cycle
      exact absurd cycle (acyclic n)

end ImplicationGraph

end ScopedAccess
