import Mathlib.Data.List.Perm.Basic
import ScopedAccess.Proofs.ImplicationSearch

namespace ScopedAccess

-- `collected` holds what was come upon so far, whether it still waits on the frontier or not.
structure Worklist (α : Type) where
  unseen : List α
  frontier : List α
  collected : List α

namespace Worklist

variable {α : Type} [DecidableEq α] {next : α → List α} {v w : Worklist α} {turns : Nat}

-- What the node taken leads to, as far as it was unseen, waits at the end.
inductive Turn (next : α → List α) : Worklist α → Worklist α → Prop where
  | take {unseen rest collected : List α} {node : α} :
      Turn next ⟨unseen, node :: rest, collected⟩
        ⟨outside (next node) unseen, rest ++ among (next node) unseen, collected ++ among (next node) unseen⟩

-- A turn that takes any of the nodes that wait and puts what it finds anywhere among them, as a stack does at its end.
inductive Pick (next : α → List α) : Worklist α → Worklist α → Prop where
  | take {unseen waiting rest frontier collected : List α} {node : α} (taken : waiting.Perm (node :: rest))
      (left : frontier.Perm (rest ++ among (next node) unseen)) :
      Pick next ⟨unseen, waiting, collected⟩ ⟨outside (next node) unseen, frontier, collected ++ among (next node) unseen⟩

theorem Turn.pick (turn : Turn next v w) : Pick next v w := by
  cases turn with
  | take => exact .take (.refl _) (.refl _)

theorem exists_pick {node : α} (waits : node ∈ v.frontier) : ∃ w, Pick next v w :=
  ⟨_, .take (List.perm_cons_erase waits) (.refl _)⟩

theorem among_outside_perm (targets nodes : List α) : (among targets nodes ++ outside targets nodes).Perm nodes := by
  simpa [among, outside] using List.filter_append_perm (fun a => decide (a ∈ targets)) nodes

-- A turn only moves nodes from the unseen to the collected.
theorem Pick.perm (pick : Pick next v w) : (w.collected ++ w.unseen).Perm (v.collected ++ v.unseen) := by
  cases pick with
  | take =>
    rw [List.append_assoc]
    exact (among_outside_perm _ _).append_left _

theorem Pick.count (pick : Pick next v w) :
    w.collected.length + v.frontier.length = v.collected.length + w.frontier.length + 1 := by
  cases pick with
  | take taken left =>
    have before := taken.length_eq
    have behind := left.length_eq
    simp only [List.length_append, List.length_cons] at before behind ⊢
    omega

theorem picks_perm (run : StepsIn (Pick next) turns v w) : (w.collected ++ w.unseen).Perm (v.collected ++ v.unseen) := by
  induction run with
  | stay => exact .refl _
  | step first _ ih => exact ih.trans first.perm

theorem picks_count (run : StepsIn (Pick next) turns v w) :
    w.collected.length + v.frontier.length = v.collected.length + w.frontier.length + turns := by
  induction run with
  | stay => rfl
  | step first _ ih =>
    have here := first.count
    omega

-- What has left the frontier waited at the start or was collected, so there are no more turns than that.
theorem picks_le (run : StepsIn (Pick next) turns v w) :
    turns + v.collected.length ≤ v.frontier.length + (v.collected ++ v.unseen).length := by
  have counted := picks_count run
  have moved := (picks_perm run).length_eq
  rw [List.length_append] at moved
  omega

theorem turns_le (started : v.frontier = v.collected) (run : StepsIn (Turn next) turns v w) :
    turns ≤ (v.collected ++ v.unseen).length := by
  have bound := picks_le (run.mono fun _ _ => Turn.pick)
  rw [started] at bound
  omega

theorem picks_collect (run : StepsIn (Pick next) turns v w) (ended : w.frontier = []) {a : α} :
    a ∈ w.collected ↔ a ∈ v.collected ∨ a ∈ reach next v.unseen v.frontier := by
  rw [mem_reach_iff]
  induction run with
  | stay =>
    rw [ended]
    simp
  | step first _ ih =>
    cases first with
    | take taken left =>
      rw [ih ended, List.mem_append, or_assoc]
      refine or_congr Iff.rfl ?_
      simp only [taken.mem_iff, left.mem_iff]
      exact reached_iff

theorem exists_turns (next : α → List α) (unseen frontier collected : List α) : ∃ turns left,
    StepsIn (Turn next) turns ⟨unseen, frontier, collected⟩ ⟨left, [], collected ++ reach next unseen frontier⟩ := by
  induction unseen, frontier using reach.induct next generalizing collected with
  | case1 unseen =>
    refine ⟨0, unseen, ?_⟩
    rw [reach, List.append_nil]
    exact .stay
  | case2 unseen node rest found ih =>
    obtain ⟨turns, left, run⟩ := ih (collected ++ found)
    refine ⟨turns + 1, left, ?_⟩
    rw [reach, ← List.append_assoc]
    exact .step .take run

end Worklist

namespace ImplicationGraph

open Worklist

variable {roles : OrderedMap String Role} {g : ImplicationGraph} {p : Permission}

def outset (roles : OrderedMap String Role) (p : Permission) : Worklist String :=
  ⟨roles.keys.filter (· ∉ granting roles p), granting roles p, granting roles p⟩

theorem outset_length_le (roles : OrderedMap String Role) (p : Permission) :
    ((outset roles p).collected ++ (outset roles p).unseen).length ≤ roles.size := by
  have distinct : roles.keys.Nodup := roles.keys_sorted.imp Key.ne_of_lt
  have part : granting roles p ⊆ roles.keys := by
    intro name member
    obtain ⟨role, found, _⟩ := mem_granting_iff.mp member
    exact OrderedMap.mem_keys.mpr ⟨role, found⟩
  have once : (granting roles p).Nodup := (firstOccurrences_eraseDups _).nodup
  have apart : (granting roles p ++ roles.keys.filter (· ∉ granting roles p)).Nodup := by
    refine List.nodup_append.mpr ⟨once, distinct.filter _, ?_⟩
    intro a direct b other same
    have away := (List.mem_filter.mp other).2
    rw [← same] at away
    simp [direct] at away
  have known : granting roles p ++ roles.keys.filter (· ∉ granting roles p) ⊆ roles.keys := by
    intro name member
    rcases List.mem_append.mp member with direct | other
    · exact part direct
    · exact (List.mem_filter.mp other).1
  have bound := apart.length_le_of_subset known
  rwa [OrderedMap.keys, List.length_map] at bound

theorem relevantRoles_by_turns (admitted : ofRoles roles = .ok g) (p : Permission) :
    (∀ name, name ∈ g.relevantRoles p ↔
      ∃ granter, Relation.ReflTransGen (Implies roles) name granter ∧ Grants roles granter p) ∧
    (∃ turns last, StepsIn (Turn (implying roles)) turns (outset roles p) last ∧ last.frontier = [] ∧
      g.relevantRoles p = .ofList last.collected) ∧
    ∀ turns w, StepsIn (Turn (implying roles)) turns (outset roles p) w → turns ≤ roles.size := by
  have same := roles_of_ofRoles admitted
  refine ⟨?_, ?_, ?_⟩
  · intro name
    rw [mem_relevantRoles_iff, same]
    rfl
  · obtain ⟨turns, left, run⟩ := exists_turns (implying roles) (outset roles p).unseen (granting roles p) (granting roles p)
    refine ⟨turns, _, run, rfl, ?_⟩
    rw [relevantRoles, same]
    rfl
  · intro turns w run
    exact Nat.le_trans (turns_le rfl run) (outset_length_le roles p)

def diamond : OrderedMap String Role :=
  .ofList [("base", ⟨"base", "Repo", [⟨"Repo", "read"⟩], .empty⟩), ("left", ⟨"left", "Repo", [], .ofList ["base"]⟩),
    ("right", ⟨"right", "Repo", [], .ofList ["base"]⟩), ("top", ⟨"top", "Repo", [], .ofList ["left", "right"]⟩)]

theorem diamond_readers : ∃ g, ofRoles diamond = .ok g ∧ ∀ name, name ∈ ["base", "left", "right", "top"] ↔
    ∃ granter, Relation.ReflTransGen (Implies diamond) name granter ∧ Grants diamond granter ⟨"Repo", "read"⟩ := by
  have answer : (ofRoles diamond).toOption.map (fun g => (g.relevantRoles ⟨"Repo", "read"⟩).toList) =
      some ["base", "left", "right", "top"] := by
    decide +kernel
  cases admitted : ofRoles diamond with
  | error fault =>
    rw [admitted] at answer
    cases answer
  | ok g =>
    rw [admitted] at answer
    refine ⟨g, rfl, fun name => ?_⟩
    rw [← Option.some.inj answer, OrderedSet.mem_toList]
    exact (relevantRoles_by_turns admitted _).1 name

variable {name other : String}

-- Every implied role is a role, so the search forward is not cut off anywhere.
theorem stepsTo_impliedBy (declared : Declared roles) : StepsTo (impliedBy roles) roles.keys = Implies roles := by
  funext a b
  refine propext ⟨?_, ?_⟩
  · intro step
    exact mem_impliedBy_iff.mp step.1
  · intro implies
    exact ⟨mem_impliedBy_iff.mpr implies, declared a b implies⟩

theorem mem_impliedClosure_iff (g : ImplicationGraph) :
    other ∈ g.impliedClosure name ↔ Relation.TransGen (Implies g.roles) name other := by
  have declared : Declared g.roles := undeclared?_eq_none_iff.mp g.declared
  rw [impliedClosure, OrderedSet.mem_ofList, mem_reach_iff, stepsTo_impliedBy declared]
  constructor
  · intro given
    obtain ⟨root, start, path⟩ := given
    cases List.mem_singleton.mp start
    exact path
  · intro path
    exact ⟨name, List.mem_singleton_self _, path⟩

theorem not_mem_impliedClosure (g : ImplicationGraph) : name ∉ g.impliedClosure name := by
  have declared : Declared g.roles := undeclared?_eq_none_iff.mp g.declared
  intro member
  exact (cycle?_eq_none_iff declared).mp g.acyclic name ((mem_impliedClosure_iff g).mp member)

theorem impliedClosure_of_unknown (unknown : g.roles.contains name = false) : g.impliedClosure name = .empty := by
  apply OrderedSet.ext
  intro other
  refine iff_of_false ?_ OrderedSet.not_mem_empty
  intro member
  obtain ⟨_, ⟨role, found, _⟩, _⟩ := Relation.TransGen.head'_iff.mp ((mem_impliedClosure_iff g).mp member)
  rw [OrderedMap.contains_of_find? found] at unknown
  cases unknown

theorem confers_iff_closure (g : ImplicationGraph) : Confers g.roles name p ↔
    Grants g.roles name p ∨ ∃ other, other ∈ g.impliedClosure name ∧ Grants g.roles other p := by
  constructor
  · intro confers
    obtain ⟨granter, path, grants⟩ := confers
    rcases Relation.reflTransGen_iff_eq_or_transGen.mp path with rfl | steps
    · exact .inl grants
    · exact .inr ⟨granter, (mem_impliedClosure_iff g).mpr steps, grants⟩
  · intro given
    rcases given with grants | ⟨other, member, grants⟩
    · exact ⟨name, .refl, grants⟩
    · exact ⟨other, ((mem_impliedClosure_iff g).mp member).to_reflTransGen, grants⟩

-- The search may take its roles off a stack or off a queue.
theorem closure_by_picks {turns : Nat} {w : Worklist String}
    (run : StepsIn (Worklist.Pick (impliedBy g.roles)) turns ⟨g.roles.keys, [name], []⟩ w) :
    turns ≤ g.roles.size + 1 ∧
      (w.frontier = [] ∧ g.impliedClosure name = .ofList w.collected ∨ ∃ next, Worklist.Pick (impliedBy g.roles) w next) := by
  have bound := Worklist.picks_le run
  have count : g.roles.keys.length = g.roles.size := List.length_map _
  constructor
  · simp only [List.length_nil, List.nil_append, List.length_singleton, count] at bound
    omega
  · cases waiting : w.frontier with
    | nil =>
      refine .inl ⟨rfl, ?_⟩
      apply OrderedSet.ext
      intro other
      rw [impliedClosure, OrderedSet.mem_ofList, OrderedSet.mem_ofList, Worklist.picks_collect run waiting]
      simp
    | cons node rest =>
      apply Or.inr
      exact Worklist.exists_pick (waiting ▸ List.mem_cons_self ..)

theorem closures_agree (admitted : ofRoles roles = .ok g) :
    (∀ name other, other ∈ g.impliedClosure name ↔ Relation.TransGen (Implies roles) name other) ∧
    (∀ name, name ∉ g.impliedClosure name) ∧
    (∀ name p, name ∈ g.relevantRoles p ↔
      Grants roles name p ∨ ∃ other, other ∈ g.impliedClosure name ∧ Grants roles other p) ∧
    (∀ name, roles.contains name = false → g.impliedClosure name = .empty) ∧
    ∀ name turns w, StepsIn (Worklist.Pick (impliedBy roles)) turns ⟨roles.keys, [name], []⟩ w →
      turns ≤ roles.size + 1 ∧
        (w.frontier = [] ∧ g.impliedClosure name = .ofList w.collected ∨ ∃ next, Worklist.Pick (impliedBy roles) w next) := by
  have same : g.roles = roles := roles_of_ofRoles admitted
  subst same
  refine ⟨?_, ?_, ?_, ?_, ?_⟩
  · intro name other
    exact mem_impliedClosure_iff g
  · intro name
    exact not_mem_impliedClosure g
  · intro name p
    rw [mem_relevantRoles_iff, confers_iff_closure]
  · intro name unknown
    exact impliedClosure_of_unknown unknown
  · intro name turns w run
    exact closure_by_picks run

def ladder : OrderedMap String Role :=
  .ofList [("guest", ⟨"guest", "Repo", [⟨"Repo", "read"⟩], .empty⟩),
    ("keeper", ⟨"keeper", "Repo", [], .ofList ["reader", "guest"]⟩),
    ("owner", ⟨"owner", "Org", [⟨"Org", "manage"⟩], .ofList ["keeper"]⟩),
    ("reader", ⟨"reader", "Repo", [], .ofList ["guest"]⟩)]

theorem owner_implies_the_rest : ∃ g, ofRoles ladder = .ok g ∧
    (∀ other, other ∈ ["guest", "keeper", "reader"] ↔ Relation.TransGen (Implies ladder) "owner" other) ∧
    "owner" ∉ g.impliedClosure "owner" ∧
    (Grants ladder "owner" ⟨"Repo", "read"⟩ ∨
      ∃ other, other ∈ g.impliedClosure "owner" ∧ Grants ladder other ⟨"Repo", "read"⟩) ∧
    g.impliedClosure "stranger" = .empty := by
  have answer : (ofRoles ladder).toOption.map (fun g => ((g.impliedClosure "owner").toList,
      decide ("owner" ∈ g.relevantRoles ⟨"Repo", "read"⟩))) = some (["guest", "keeper", "reader"], true) := by
    decide +kernel
  obtain ⟨g, made, found⟩ := Option.map_eq_some_iff.mp answer
  rw [toOption_eq_some_iff] at made
  rw [Prod.mk.injEq, decide_eq_true_eq] at found
  obtain ⟨forward, apart, backward, unknown, _⟩ := closures_agree made
  refine ⟨g, made, ?_, apart "owner", (backward "owner" _).mp found.2, unknown "stranger" (by decide +kernel)⟩
  intro other
  rw [← found.1, OrderedSet.mem_toList]
  exact forward "owner" other

end ImplicationGraph

end ScopedAccess
