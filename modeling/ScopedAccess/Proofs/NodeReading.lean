import ScopedAccess.PolicySource

namespace ScopedAccess

namespace Kdl.Node

variable {n : Node} {key text : String}

def inner (n : Node) : List Node := n.children.getD []

-- The first argument is this text: only properties stand before it.
def Titled (n : Node) (text : String) : Prop :=
  ∃ before after, n.entries = before ++ ⟨none, .text text⟩ :: after ∧ ∀ e ∈ before, e.key ≠ none

def Sets (n : Node) (key text : String) : Prop :=
  ∃ before after, n.entries = before ++ ⟨some key, .text text⟩ :: after ∧ ∀ e ∈ after, e.key ≠ some key

theorem text?_eq_some_iff {v : Value} : v.text? = some text ↔ v = .text text := by
  cases v <;> simp [Value.text?]

theorem label?_eq_some_iff : n.label? = some text ↔ n.Titled text := by
  unfold label? Titled
  rw [Option.bind_eq_bind, Option.bind_eq_some_iff]
  constructor
  · intro given
    obtain ⟨⟨k, v⟩, first, is⟩ := given
    obtain ⟨free, before, after, split, keyed⟩ := List.find?_eq_some_iff_append.mp first
    cases text?_eq_some_iff.mp is
    cases Option.isNone_iff_eq_none.mp free
    refine ⟨before, after, split, ?_⟩
    intro e member
    simpa [Option.isSome_iff_ne_none] using keyed e member
  · intro given
    obtain ⟨before, after, split, keyed⟩ := given
    refine ⟨⟨none, .text text⟩, ?_, rfl⟩
    apply List.find?_eq_some_iff_append.mpr
    refine ⟨rfl, before, after, split, ?_⟩
    intro e member
    simpa [Option.isSome_iff_ne_none] using keyed e member

theorem textProperty?_eq_some_iff : n.textProperty? key = some text ↔ n.Sets key text := by
  unfold textProperty? property? Sets
  rw [Option.bind_eq_bind, Option.bind_eq_some_iff]
  constructor
  · intro given
    obtain ⟨v, found, is⟩ := given
    cases text?_eq_some_iff.mp is
    obtain ⟨⟨k, w⟩, last, rfl⟩ := Option.map_eq_some_iff.mp found
    obtain ⟨keyed, after, before, split, others⟩ := List.find?_eq_some_iff_append.mp last
    cases of_decide_eq_true keyed
    refine ⟨before.reverse, after.reverse, ?_, ?_⟩
    · rw [List.reverse_eq_iff] at split
      simpa using split
    · intro e member
      simpa using others e (List.mem_reverse.mp member)
  · intro given
    obtain ⟨before, after, split, others⟩ := given
    refine ⟨.text text, Option.map_eq_some_iff.mpr ⟨⟨some key, .text text⟩, ?_, rfl⟩, rfl⟩
    apply List.find?_eq_some_iff_append.mpr
    refine ⟨by simp, after.reverse, before.reverse, by simp [split], ?_⟩
    intro e member
    simpa using others e (List.mem_reverse.mp member)

end Kdl.Node

namespace PolicyDocument

open Kdl (Node)

variable {nodes rest : List Node} {c n : Node} {name : String} {items : List String}

-- A node counts when it is named with a dash and titled.
inductive Lists : List Node → List String → Prop where
  | done : Lists [] []
  | counts {rest : List Node} {items : List String} {n : Node} {text : String} (dash : n.name = "-") (titled : n.Titled text)
      (onward : Lists rest items) : Lists (n :: rest) (text :: items)
  | passes {rest : List Node} {items : List String} {n : Node} (other : n.name = "-" → ∀ text, ¬ n.Titled text)
      (onward : Lists rest items) : Lists (n :: rest) items

def Listed (n : Node) (items : List String) : Prop := Lists n.inner items

theorem lists_iff : Lists nodes items ↔ (nodes.filter (·.name = "-")).filterMap Node.label? = items := by
  constructor
  · intro lists
    induction lists with
    | done => rfl
    | counts dash titled _ ih =>
      rw [List.filter_cons_of_pos (by simpa using dash), List.filterMap_cons_some (Node.label?_eq_some_iff.mpr titled), ih]
    | @passes rest items n other _ ih =>
      by_cases dash : n.name = "-"
      · have untitled : n.label? = none := by
          apply Option.eq_none_iff_forall_ne_some.mpr
          intro text titled
          exact other dash text (Node.label?_eq_some_iff.mp titled)
        rw [List.filter_cons_of_pos (by simpa using dash), List.filterMap_cons_none untitled, ih]
      · rw [List.filter_cons_of_neg (by simpa using dash), ih]
  · intro read
    induction nodes generalizing items with
    | nil =>
      cases read
      exact .done
    | cons n rest ih =>
      by_cases dash : n.name = "-"
      · rw [List.filter_cons_of_pos (by simpa using dash)] at read
        cases titled : n.label? with
        | none =>
          rw [List.filterMap_cons_none titled] at read
          refine .passes (fun _ text there => ?_) (ih read)
          rw [Node.label?_eq_some_iff.mpr there] at titled
          cases titled
        | some text =>
          rw [List.filterMap_cons_some titled] at read
          cases read
          exact .counts dash (Node.label?_eq_some_iff.mp titled) (ih rfl)
      · rw [List.filter_cons_of_neg (by simpa using dash)] at read
        exact .passes (fun is => absurd is dash) (ih read)

theorem dashes_eq_iff : dashes n = items ↔ Listed n items := lists_iff.symm

theorem listed_iff : Listed n items ↔ items = dashes n := dashes_eq_iff.symm.trans eq_comm

def Last (nodes : List Node) (name : String) (n : Node) : Prop :=
  ∃ before after, nodes = before ++ n :: after ∧ n.name = name ∧ ∀ c ∈ after, c.name ≠ name

theorem last_cons_iff : Last (c :: rest) name n ↔
    Last rest name n ∨ (n = c ∧ c.name = name ∧ ∀ x ∈ rest, x.name ≠ name) := by
  constructor
  · intro last
    obtain ⟨before, after, split, named, others⟩ := last
    rcases List.cons_eq_append_iff.mp split with ⟨_, here⟩ | ⟨front, _, later⟩
    · cases here
      exact .inr ⟨rfl, named, others⟩
    · exact .inl ⟨front, after, later, named, others⟩
  · intro given
    rcases given with ⟨before, after, rfl, named, others⟩ | ⟨rfl, named, others⟩
    · exact ⟨c :: before, after, rfl, named, others⟩
    · exact ⟨[], rest, rfl, named, others⟩

theorem Last.is_named (last : Last nodes name n) : n ∈ nodes ∧ n.name = name := by
  obtain ⟨before, after, rfl, named, _⟩ := last
  exact ⟨by simp, named⟩

theorem Last.unique (first : Last nodes name n) (second : Last nodes name c) : n = c := by
  induction nodes with
  | nil =>
    obtain ⟨before, after, split, _⟩ := first
    simp at split
  | cons d rest ih =>
    rcases last_cons_iff.mp first with later | ⟨rfl, _, absent⟩
    · rcases last_cons_iff.mp second with later' | ⟨_, _, absent⟩
      · exact ih later later'
      · exact absurd later.is_named.2 (absent n later.is_named.1)
    · rcases last_cons_iff.mp second with later' | ⟨rfl, _, _⟩
      · exact absurd later'.is_named.2 (absent c later'.is_named.1)
      · rfl

section

variable {α : Type} {tells : Node → α → Prop} {old new : Option α} {a : α}

-- What the last node of the name says; without such a node it stays with what there was.
inductive Latest (tells : Node → α → Prop) (nodes : List Node) (name : String) (old : Option α) : Option α → Prop where
  | stays (absent : ∀ c ∈ nodes, c.name ≠ name) : Latest tells nodes name old old
  | said {n : Node} {a : α} (last : Last nodes name n) (is : tells n a) : Latest tells nodes name old (some a)

theorem latest_nil_iff : Latest tells [] name old new ↔ new = old := by
  constructor
  · intro latest
    cases latest with
    | stays => rfl
    | said last => cases last.is_named.1
  · rintro rfl
    exact .stays (by simp)

theorem latest_cons_other (other : c.name ≠ name) : Latest tells (c :: rest) name old new ↔ Latest tells rest name old new := by
  constructor
  · intro latest
    cases latest with
    | stays absent => exact .stays fun x member => absent x (List.mem_cons_of_mem _ member)
    | said last is =>
      rcases last_cons_iff.mp last with later | ⟨_, named, _⟩
      · exact .said later is
      · exact absurd named other
  · intro latest
    cases latest with
    | stays absent => exact .stays (List.forall_mem_cons.mpr ⟨other, absent⟩)
    | said last is => exact .said (last_cons_iff.mpr (.inl last)) is

theorem latest_cons_named (named : c.name = name) (only : ∀ b, tells c b ↔ b = a) :
    Latest tells (c :: rest) name old new ↔ Latest tells rest name (some a) new := by
  constructor
  · intro latest
    cases latest with
    | stays absent => exact absurd named (absent c (List.mem_cons_self ..))
    | said last is =>
      rcases last_cons_iff.mp last with later | ⟨rfl, _, absent⟩
      · exact .said later is
      · cases (only _).mp is
        exact .stays absent
  · intro latest
    cases latest with
    | stays absent => exact .said (last_cons_iff.mpr (.inr ⟨rfl, named, absent⟩)) ((only a).mpr rfl)
    | said last is => exact .said (last_cons_iff.mpr (.inl last)) is

theorem exists_latest (each : ∀ n ∈ nodes, n.name = name → ∃ a, tells n a) : ∃ new, Latest tells nodes name old new := by
  by_cases named : ∃ n, Last nodes name n
  · obtain ⟨n, last⟩ := named
    obtain ⟨a, is⟩ := each n last.is_named.1 last.is_named.2
    exact ⟨some a, .said last is⟩
  · refine ⟨old, .stays ?_⟩
    induction nodes with
    | nil => simp
    | cons c rest ih =>
      have later := ih (fun n member => each n (List.mem_cons_of_mem _ member)) fun given =>
        named (given.imp fun n last => last_cons_iff.mpr (.inl last))
      refine List.forall_mem_cons.mpr ⟨?_, later⟩
      intro here
      exact named ⟨c, last_cons_iff.mpr (.inr ⟨rfl, here, later⟩)⟩

end

end PolicyDocument

end ScopedAccess
