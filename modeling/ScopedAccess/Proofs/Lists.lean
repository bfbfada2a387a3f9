import Mathlib.Data.List.Basic
import Mathlib.Data.List.Chain
import Mathlib.Data.List.Nodup
import Mathlib.Logic.Relation

namespace ScopedAccess

section

variable {α : Type} [BEq α] {items kept : List α} {a b : α} {p : α → Bool}

-- The items in the order in which they first occur, each of them once.
structure FirstOccurrences (items kept : List α) : Prop where
  members : ∀ a, a ∈ kept ↔ a ∈ items
  ordered : kept.Pairwise fun a b => items.idxOf a < items.idxOf b

theorem FirstOccurrences.nodup (first : FirstOccurrences items kept) : kept.Nodup := by
  refine first.ordered.imp ?_
  rintro a b before rfl
  exact Nat.lt_irrefl _ before

theorem eraseDups_sublist (items : List α) : items.eraseDups.Sublist items := by
  cases items with
  | nil => exact .slnil
  | cons c rest =>
    rw [List.eraseDups_cons]
    exact .cons_cons c ((eraseDups_sublist _).trans List.filter_sublist)
termination_by items.length
decreasing_by exact Nat.lt_succ_of_le (List.length_filter_le ..)

variable [LawfulBEq α]

theorem idxOf_lt_of_filter (here : p a = true) (there : p b = true)
    (before : (items.filter p).idxOf a < (items.filter p).idxOf b) : items.idxOf a < items.idxOf b := by
  induction items with
  | nil => cases before
  | cons c rest ih =>
    by_cases first : c = a
    · subst first
      have other : c ≠ b := by
        rintro rfl
        exact Nat.lt_irrefl _ before
      rw [List.idxOf_cons_self, List.idxOf_cons_ne _ other]
      exact Nat.succ_pos _
    · have other : c ≠ b := by
        rintro rfl
        rw [List.filter_cons_of_pos there, List.idxOf_cons_self] at before
        cases before
      rw [List.idxOf_cons_ne _ first, List.idxOf_cons_ne _ other]
      refine Nat.succ_lt_succ (ih ?_)
      rw [List.filter_cons] at before
      split at before
      · rw [List.idxOf_cons_ne _ first, List.idxOf_cons_ne _ other] at before
        exact Nat.lt_of_succ_lt_succ before
      · exact before

theorem pairwise_eraseDups (items : List α) : items.eraseDups.Pairwise fun a b => items.idxOf a < items.idxOf b := by
  cases items with
  | nil => exact .nil
  | cons c rest =>
    have apart : ∀ a ∈ (rest.filter fun other => !other == c).eraseDups, c ≠ a ∧ (!a == c) = true := by
      intro a member
      have other := (List.mem_filter.mp (List.mem_eraseDups.mp member)).2
      refine ⟨?_, other⟩
      rintro rfl
      simp at other
    rw [List.eraseDups_cons, List.pairwise_cons]
    constructor
    · intro a member
      rw [List.idxOf_cons_self, List.idxOf_cons_ne _ (apart a member).1]
      exact Nat.succ_pos _
    · refine (pairwise_eraseDups (rest.filter fun other => !other == c)).imp_of_mem ?_
      intro a b left right before
      rw [List.idxOf_cons_ne _ (apart a left).1, List.idxOf_cons_ne _ (apart b right).1]
      exact Nat.succ_lt_succ (idxOf_lt_of_filter (apart a left).2 (apart b right).2 before)
termination_by items.length
decreasing_by
  have shorter := List.length_filter_le (fun other => !other == c) rest
  simp only [List.length_cons]
  omega

theorem eraseDups_map {β : Type} [BEq β] [LawfulBEq β] {f : α → β} (injective : Function.Injective f) (items : List α) :
    (items.map f).eraseDups = items.eraseDups.map f := by
  cases items with
  | nil => rfl
  | cons c rest =>
    have alike : ((fun b => !b == f c) ∘ f) = fun a => !a == c := by
      funext a
      rw [Function.comp_apply, Bool.eq_iff_iff]
      simp [injective.eq_iff]
    rw [List.map_cons, List.eraseDups_cons, List.eraseDups_cons, List.map_cons, List.filter_map, alike,
      eraseDups_map injective]
termination_by items.length
decreasing_by exact Nat.lt_succ_of_le (List.length_filter_le ..)

theorem firstOccurrences_eraseDups (items : List α) : FirstOccurrences items items.eraseDups :=
  ⟨fun _ => List.mem_eraseDups, pairwise_eraseDups items⟩

end

inductive StepsIn {α : Type} (r : α → α → Prop) : Nat → α → α → Prop where
  | stay {a : α} : StepsIn r 0 a a
  | step {a b c : α} {n : Nat} : r a b → StepsIn r n b c → StepsIn r (n + 1) a c

variable {α : Type} {r : α → α → Prop} {a b c : α} {n : Nat}

theorem StepsIn.snoc (path : StepsIn r n a b) (last : r b c) : StepsIn r (n + 1) a c := by
  induction path with
  | stay => exact .step last .stay
  | step first _ ih => exact .step first (ih last)

theorem StepsIn.mono {s : α → α → Prop} (weakens : ∀ a b, r a b → s a b) (path : StepsIn r n a b) : StepsIn s n a b := by
  induction path with
  | stay => exact .stay
  | step first _ ih => exact .step (weakens _ _ first) ih

theorem StepsIn.path (path : StepsIn r n a b) : Relation.ReflTransGen r a b := by
  induction path with
  | stay => exact .refl
  | step first _ ih => exact .head first ih

theorem exists_stepsIn_iff : (∃ n, StepsIn r n a b) ↔ Relation.ReflTransGen r a b := by
  constructor
  · intro given
    obtain ⟨n, path⟩ := given
    exact path.path
  · intro path
    induction path with
    | refl => exact ⟨0, .stay⟩
    | tail _ last ih =>
      obtain ⟨n, before⟩ := ih
      exact ⟨n + 1, before.snoc last⟩

-- Where a node has one next node at most, the number of steps decides where a path ends.
theorem StepsIn.unique (functional : ∀ a b c, r a b → r a c → b = c) (path : StepsIn r n a b)
    (other : StepsIn r n a c) : b = c := by
  induction path with
  | stay =>
    cases other
    rfl
  | step first _ ih =>
    cases other with
    | step again rest =>
      cases functional _ _ _ first again
      exact ih rest

-- The nodes that a path leaves, none of them twice.
theorem StepsIn.left (acyclic : ∀ a, ¬ Relation.TransGen r a a) (path : StepsIn r n a b) :
    ∃ left : List α, left.length = n ∧ left.Nodup ∧
      ∀ x ∈ left, Relation.ReflTransGen r a x ∧ ∃ y, r x y := by
  induction path with
  | stay => exact ⟨[], rfl, .nil, by simp⟩
  | @step a b c n first _ ih =>
    obtain ⟨left, count, distinct, reached⟩ := ih
    refine ⟨a :: left, by simp [count], List.nodup_cons.mpr ⟨?_, distinct⟩, ?_⟩
    · intro again
      exact acyclic a (Relation.TransGen.head' first (reached a again).1)
    · intro x member
      rcases List.mem_cons.mp member with rfl | later
      · exact ⟨.refl, b, first⟩
      · exact ⟨.head first (reached x later).1, (reached x later).2⟩

theorem StepsIn.length_le [DecidableEq α] (acyclic : ∀ a, ¬ Relation.TransGen r a a) {nodes : List α}
    (sources : ∀ a b, r a b → a ∈ nodes) (path : StepsIn r n a b) : n ≤ nodes.length := by
  obtain ⟨left, count, distinct, reached⟩ := path.left acyclic
  rw [← count]
  apply distinct.length_le_of_subset
  intro x member
  obtain ⟨y, leaves⟩ := (reached x member).2
  exact sources x y leaves

-- Each node leads to the next one, the last is the first again, and no other is repeated.
def Circuit {α : Type} (r : α → α → Prop) (path : List α) : Prop :=
  ∃ first between, path = first :: between ++ [first] ∧ (first :: between).Nodup ∧ path.IsChain r

variable {path : List α}

theorem Circuit.returns (circuit : Circuit r path) : ∃ a, Relation.TransGen r a a := by
  obtain ⟨first, between, rfl, _, chain⟩ := circuit
  refine ⟨first, ?_⟩
  cases between with
  | nil => exact .single (List.isChain_cons_cons.mp chain).1
  | cons second rest =>
    obtain ⟨begins, onward⟩ := List.isChain_cons_cons.mp chain
    have back := List.relationReflTransGen_of_exists_isChain _ onward (by simp)
    refine .head' begins ?_
    simpa using back

theorem isChain_snoc (chain : path.IsChain r) (ends : path.getLast? = some a) (step : r a b) :
    (path ++ [b]).IsChain r := by
  refine chain.append (List.isChain_singleton b) ?_
  intro x isLast y isFirst
  rw [ends, Option.mem_some_iff] at isLast
  rw [List.head?_cons, Option.mem_some_iff] at isFirst
  exact isLast ▸ isFirst ▸ step

theorem nodup_snoc (distinct : path.Nodup) (fresh : a ∉ path) : (path ++ [a]).Nodup := by
  rw [← List.concat_eq_append]
  exact .concat fresh distinct

theorem circuit_of_repeat (chain : (path ++ [a]).IsChain r) (distinct : path.Nodup) (again : a ∈ path) :
    ∃ lead between, path = lead ++ a :: between ∧ a ∉ lead ∧ Circuit r (a :: between ++ [a]) := by
  obtain ⟨lead, between, rfl⟩ := List.append_of_mem again
  obtain ⟨_, part, apart⟩ := List.nodup_append.mp distinct
  have off : a ∉ lead := by
    intro member
    exact apart a member a (List.mem_cons_self ..) rfl
  rw [List.append_assoc] at chain
  exact ⟨lead, between, rfl, off, a, between, rfl, part, chain.right_of_append⟩

end ScopedAccess
