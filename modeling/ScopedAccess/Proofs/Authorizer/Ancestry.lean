import Mathlib.Data.List.Chain
import ScopedAccess.Proofs.Authorizer.Answered

namespace ScopedAccess

-- What it is for an instance to have no parent: its type has no link, no pair of rows belongs to its id, or the
-- first that does holds null for the parent's id.
inductive Ends (db : Query.Database) (m : Model) : Spot → Prop where
  | unlinked {t : String} {id : Text} (absent : m.links.find? t = none) : Ends db m ⟨t, id⟩
  | unmatched {t : String} {id : Text} {link : ParentLink} (declared : m.links.find? t = some link)
      (missing : ∀ child parent, db link.child.table = some child → db link.parent.table = some parent →
        ∀ pair ∈ link.pairs child parent, textAt child.columns link.child.idColumn pair.1 ≠ some id) : Ends db m ⟨t, id⟩
  | nulled {t : String} {id : Text} {link : ParentLink} {child parent : Relation} {pair : Row × Row}
      (declared : m.links.find? t = some link) (children : db link.child.table = some child)
      (parents : db link.parent.table = some parent)
      (first : (link.pairs child parent).find? (fun pair => textAt child.columns link.child.idColumn pair.1 = some id) = some pair)
      (null : (cellAt parent.columns link.parent.idColumn pair.2).1 = .null) : Ends db m ⟨t, id⟩

inductive Ascent (db : Query.Database) (m : Model) : Spot → List Spot → Prop where
  | top {i : Spot} (ends : Ends db m i) : Ascent db m i [i]
  | up {i j : Spot} {rest : List Spot} (step : ParentStep db m i j) (onward : Ascent db m j rest) :
      Ascent db m i (i :: rest)

section

variable {db : Query.Database} {m : Model} {i j : Spot} {chain : List Spot} {n : Nat}

theorem ends_iff : Ends db m i ↔ ∀ j, ¬ ParentStep db m i j := by
  constructor
  · intro ends j step
    cases step with
    | along declared found =>
      cases ends with
      | unlinked absent =>
        rw [absent] at declared
        cases declared
      | unmatched again missing =>
        cases again.symm.trans declared
        rw [ParentLink.parentId?_eq_none_iff.mpr (.inl missing)] at found
        cases found
      | nulled again children parents first null =>
        cases again.symm.trans declared
        rw [ParentLink.parentId?_eq_none_iff.mpr (.inr ⟨_, _, _, children, parents, first, null⟩)] at found
        cases found
  · intro stuck
    obtain ⟨t, id⟩ := i
    cases declared : m.links.find? t with
    | none => exact .unlinked declared
    | some link =>
      have nowhere : link.parentId? db id = none := by
        cases found : link.parentId? db id with
        | none => rfl
        | some parent => exact absurd (.along declared found) (stuck _)
      rcases ParentLink.parentId?_eq_none_iff.mp nowhere with missing | ⟨child, parent, pair, children, parents, first, null⟩
      · exact .unmatched declared missing
      · exact .nulled declared children parents first null

-- While every path of parent steps is short, going up comes to an end.
theorem exists_ascent_of_short {budget : Nat} (short : ∀ n j, StepsIn (ParentStep db m) n i j → n ≤ budget) :
    ∃ chain, Ascent db m i chain := by
  induction budget generalizing i with
  | zero =>
    refine ⟨[i], .top (ends_iff.mpr fun j step => ?_)⟩
    exact absurd (short 1 j (.step step .stay)) (by decide)
  | succ budget ih =>
    by_cases top : Ends db m i
    · exact ⟨[i], .top top⟩
    · obtain ⟨j, step⟩ : ∃ j, ParentStep db m i j := by
        rw [ends_iff] at top
        exact Classical.not_forall_not.mp top
      obtain ⟨rest, onward⟩ := ih fun n k path => Nat.le_of_succ_le_succ (short (n + 1) k (.step step path))
      exact ⟨i :: rest, .up step onward⟩

theorem exists_ascent (acyclic : ∀ t, ¬ Relation.TransGen (Model.Above m.links) t t) (i : Spot) :
    ∃ chain, Ascent db m i chain :=
  exists_ascent_of_short fun _ _ => ParentStep.steps_le_links acyclic

namespace Lineage

variable {steps : List (Nat × Spot)}

theorem of_end (ends : Ends db m i) : Lineage db m i [(0, i)] := by
  refine ⟨List.pairwise_singleton .., fun n j => ?_⟩
  rw [List.mem_singleton]
  constructor
  · intro same
    cases same
    exact .stay
  · intro path
    cases path with
    | stay => rfl
    | step first _ => exact absurd first (ends_iff.mp ends _)

theorem before (step : ParentStep db m i j) (lineage : Lineage db m j steps) :
    Lineage db m i ((0, i) :: steps.map fun e => (e.1 + 1, e.2)) := by
  constructor
  · refine List.pairwise_cons.mpr ⟨?_, List.pairwise_map.mpr (lineage.ascending.imp Nat.succ_lt_succ)⟩
    intro e member
    obtain ⟨e, _, rfl⟩ := List.mem_map.mp member
    exact Nat.succ_pos _
  · intro n k
    rw [List.mem_cons, List.mem_map]
    constructor
    · rintro (same | ⟨⟨n, k⟩, member, same⟩)
      · cases same
        exact .stay
      · cases same
        exact .step step ((lineage.reached n k).mp member)
    · intro path
      cases path with
      | stay => exact .inl rfl
      | @step _ other _ n first onward =>
        cases step.functional first
        exact .inr ⟨(n, k), (lineage.reached n k).mpr onward, rfl⟩

end Lineage

namespace Ascent

theorem lineage (ascent : Ascent db m i chain) : ∃ steps, Lineage db m i steps ∧ steps.map (·.2) = chain := by
  induction ascent with
  | top ends => exact ⟨_, .of_end ends, rfl⟩
  | up step _ ih =>
    obtain ⟨steps, lineage, rfl⟩ := ih
    refine ⟨_, lineage.before step, ?_⟩
    simp

theorem head (ascent : Ascent db m i chain) : chain.head? = some i := by
  cases ascent <;> rfl

theorem climbs (ascent : Ascent db m i chain) : chain.IsChain (ParentStep db m) := by
  induction ascent with
  | top => exact .singleton _
  | up step onward ih =>
    cases onward with
    | top => exact .cons_cons step ih
    | up next _ => exact .cons_cons step ih

theorem last (ascent : Ascent db m i chain) : ∃ j, chain.getLast? = some j ∧ Ends db m j := by
  induction ascent with
  | top ends => exact ⟨_, rfl, ends⟩
  | up _ _ ih =>
    obtain ⟨j, last, ends⟩ := ih
    exact ⟨j, by simp [List.getLast?_cons, last], ends⟩

theorem steps (ascent : Ascent db m i chain) : ∃ n j, chain.length = n + 1 ∧ StepsIn (ParentStep db m) n i j := by
  induction ascent with
  | top => exact ⟨0, _, rfl, .stay⟩
  | up step _ ih =>
    obtain ⟨n, j, count, path⟩ := ih
    exact ⟨n + 1, j, by rw [List.length_cons, count], .step step path⟩

theorem types_climb (ascent : Ascent db m i chain) : (chain.map (·.resourceType)).IsChain (Model.Above m.links) :=
  List.isChain_map_of_isChain Spot.resourceType (fun _ _ => ParentStep.above) ascent.climbs

variable (acyclic : ∀ t, ¬ Relation.TransGen (Model.Above m.links) t t)

include acyclic

theorem types_distinct (ascent : Ascent db m i chain) : (chain.map (·.resourceType)).Nodup := by
  have above : (chain.map (·.resourceType)).IsChain (Relation.TransGen (Model.Above m.links)) :=
    ascent.types_climb.imp fun _ _ => .single
  refine above.pairwise.imp ?_
  rintro t u path rfl
  exact acyclic t path

theorem length_le (ascent : Ascent db m i chain) : chain.length ≤ m.links.size + 1 := by
  obtain ⟨n, j, count, path⟩ := ascent.steps
  rw [count]
  exact Nat.succ_le_succ (ParentStep.steps_le_links acyclic path)

end Ascent

theorem Lineage.ascent {steps : List (Nat × Spot)} (acyclic : ∀ t, ¬ Relation.TransGen (Model.Above m.links) t t)
    (lineage : Lineage db m i steps) : Ascent db m i (steps.map (·.2)) := by
  obtain ⟨chain, ascent⟩ := exists_ascent acyclic i
  obtain ⟨others, same, rfl⟩ := ascent.lineage
  rw [lineage.unique same fun _ _ => Iff.rfl]
  exact ascent

end

namespace Query.Walk

-- Round after round from the rows found last, until one finds nothing. No number of rounds is set.
inductive Grows (w : Walk) (db : Database) (step : Select) : List Row → List Row → List Row → Prop where
  | settled {seen latest : List Row} (nothing : w.advance db step seen latest = []) : Grows w db step seen latest seen
  | round {seen latest result : List Row} (found : w.advance db step seen latest ≠ [])
      (onward : Grows w db step (seen ++ w.advance db step seen latest) (w.advance db step seen latest) result) :
      Grows w db step seen latest result

-- The rows that a walk comes to when nothing but a round without finds ends it.
def Settles (w : Walk) (db : Database) (rows : List Row) : Prop :=
  match w.step with
  | none => rows = w.start.rows db
  | some step => Grows w db step (w.start.rows db).eraseDups (w.start.rows db).eraseDups rows

variable {w : Walk} {db : Database} {step : Select} {rounds : Nat} {seen latest rows result other : List Row} {x y : Row}
  {leads : Row → Row → Prop}

theorem Grows.unique (grows : Grows w db step seen latest result) (again : Grows w db step seen latest other) :
    result = other := by
  induction grows with
  | settled nothing =>
    cases again with
    | settled => rfl
    | round found _ => exact absurd nothing found
  | round found _ ih =>
    cases again with
    | settled nothing => exact absurd nothing found
    | round _ onward => exact ih onward

theorem grow_grows (pointwise : Pointwise w db step leads)
    (short : ∀ x ∈ latest, ∀ n y, StepsIn leads n x y → n ≤ rounds) :
    Grows w db step seen latest (grow w db step rounds seen latest) := by
  induction rounds generalizing seen latest with
  | zero =>
    refine .settled (List.eq_nil_iff_forall_not_mem.mpr fun y new => ?_)
    obtain ⟨⟨x, last, leadsTo⟩, _⟩ := (mem_advance_iff pointwise).mp new
    exact absurd (short x last 1 y (.step leadsTo .stay)) (by decide)
  | succ rounds ih =>
    unfold grow
    split
    · rename_i nothing
      exact .settled nothing
    · rename_i found
      refine .round found (ih fun y new n z path => ?_)
      obtain ⟨⟨x, last, leadsTo⟩, _⟩ := (mem_advance_iff pointwise).mp new
      exact Nat.le_of_succ_le_succ (short x last (n + 1) z (.step leadsTo path))

theorem rows_settle (pointwise : ∀ step, w.step = some step → Pointwise w db step leads)
    (short : ∀ x ∈ w.start.rows db, ∀ n y, StepsIn leads n x y → n ≤ w.rounds) : w.Settles db (w.rows db) := by
  unfold Settles
  split
  · rename_i still
    simp only [rows, still]
  · rename_i step stepped
    simp only [rows, stepped]
    exact grow_grows (pointwise step stepped) fun x member => short x (List.mem_eraseDups.mp member)

theorem settles_iff (settles : w.Settles db rows) : w.Settles db other ↔ other = rows := by
  unfold Settles at settles ⊢
  split at settles
  · rw [settles]
  · constructor
    · intro again
      exact again.unique settles
    · rintro rfl
      exact settles

end Query.Walk

namespace AncestorWalk

open Query

variable {db : Database} {m : Model} {start : Select} {source id : Option Text} {type : String} {taken n : Nat} {x y : Row}

-- Each step of the walk goes to the type above, whether it finds a parent or not.
theorem above_of_leads (named : ∀ t l, m.links.find? t = some l → l.child.resourceType = t)
    (path : StepsIn (Leads db m.links.values) n x y) (first : x = walkRow source id type taken) :
    ∃ t, StepsIn (Model.Above m.links) n type t := by
  induction path generalizing id type taken with
  | stay => exact ⟨type, .stay⟩
  | step leads _ ih =>
    obtain ⟨child, link, _, declared, next⟩ := (leads_walkRow_iff named).mp (first ▸ leads)
    obtain ⟨t, onward⟩ := ih next
    exact ⟨t, .step ⟨link, declared, rfl⟩ onward⟩

theorem walk_settles (resolved : m.Resolved) (clear : Clear m.links.values) (begins : Begins db start)
    (shape : (walk m.links.values start).columnsOf = columns) :
    (walk m.links.values start).Settles db ((walk m.links.values start).rows db) := by
  have pointwise : ∀ s, (walk m.links.values start).step = some s →
      (walk m.links.values start).Pointwise db s (Leads db m.links.values) := by
    intro s stepped
    rw [step_of_walk stepped]
    exact step_pointwise rfl shape clear
  apply Walk.rows_settle pointwise
  intro x member n y path
  obtain ⟨source, id, type, first⟩ := begins x member
  obtain ⟨t, types⟩ := above_of_leads resolved.linkName path first
  have rounds : (walk m.links.values start).rounds = m.links.size := length_stepsOf
  rw [rounds]
  exact Model.above_steps_le resolved.acyclic types

end AncestorWalk

structure Ancestry (db : Query.Database) (m : Model) (i : Spot) (chain : List Spot) : Prop where
  starts : chain.head? = some i
  climbs : chain.IsChain (ParentStep db m)
  ends : ∃ top, chain.getLast? = some top ∧ Ends db m top
  types : (chain.map (·.resourceType)).IsChain (Model.Above m.links)
  distinct : (chain.map (·.resourceType)).Nodup
  length : chain.length ≤ m.links.size + 1

theorem Ascent.ancestry {db : Query.Database} {m : Model} {i : Spot} {chain : List Spot}
    (acyclic : ∀ t, ¬ Relation.TransGen (Model.Above m.links) t t) (ascent : Ascent db m i chain) : Ancestry db m i chain :=
  { starts := ascent.head
    climbs := ascent.climbs
    ends := ascent.last
    types := ascent.types_climb
    distinct := ascent.types_distinct acyclic
    length := ascent.length_le acyclic }

namespace AncestorWalk

open Query

theorem chain_settles {db : Database} {m : Model} {type id : String} (resolved : m.Resolved)
    (quiet : (chain m.links.values type id).fault? db = none) :
    (walk m.links.values (startAt type id)).Settles db ((walk m.links.values (startAt type id)).rows db) :=
  walk_settles resolved (clear_of_chain quiet) begins_startAt rfl

end AncestorWalk

namespace Authorizer

open AncestorWalk

variable {a : Authorizer} {s : Snapshot} {i : Instance} {listed : List Instance}

theorem ancestors_ascent_iff (compiled : s.Compiled) (inForce : a.snapshot = some s) :
    a.ancestors i = .ok listed ↔
      s.model.resources.contains i.resourceType = true ∧
        (∃ rows, a.run none (chain s.walk i.resourceType i.id) = .ok rows) ∧
        Ascent a.store.database s.model i (listed.map Instance.spot) := by
  rw [ancestors_eq_ok_iff compiled inForce]
  constructor
  · intro given
    obtain ⟨declared, ran, steps, lineage, same⟩ := given
    exact ⟨declared, ran, same ▸ lineage.ascent compiled.resolved.acyclic⟩
  · intro given
    obtain ⟨declared, ran, ascent⟩ := given
    obtain ⟨steps, lineage, same⟩ := ascent.lineage
    exact ⟨declared, ran, steps, lineage, same⟩

theorem ancestors_reach_top (reachable : Reachable a) (inForce : a.snapshot = some s) (i : Instance) :
    (∀ listed, a.ancestors i = .ok listed → Ancestry a.store.database s.model i (listed.map Instance.spot)) ∧
      ∀ db, (chain s.walk i.resourceType i.id).fault? db = none → ∀ rows,
        (walk s.walk (startAt i.resourceType i.id)).Settles db rows ↔
          rows = (walk s.walk (startAt i.resourceType i.id)).rows db := by
  obtain ⟨published, consistent⟩ := reachable.consistent
  have compiled := consistent.compiled inForce
  constructor
  · intro listed answered
    obtain ⟨_, _, ascent⟩ := (ancestors_ascent_iff compiled inForce).mp answered
    exact ascent.ancestry compiled.resolved.acyclic
  · intro db quiet rows
    rw [compiled.walk_eq] at quiet ⊢
    exact Query.Walk.settles_iff (chain_settles compiled.resolved quiet)

-- The note, then the folder it lies in, of which there is no parent.
theorem shelfRun_ancestors : shelfRun.ancestors ⟨"Note", "n"⟩ = .ok [⟨"Note", "n"⟩, ⟨"Folder", "f"⟩] := by
  let link : ParentLink := ⟨⟨"Note", "notes", "id"⟩, ⟨"Folder", "folders", "id"⟩, "folder_id", "id"⟩
  have known : shelfRun.snapshot.map (fun s => (s.model.resources.contains "Note", s.model.links.find? "Note",
      s.model.links.find? "Folder", (shelfRun.run none (chain s.walk "Note" "n")).toOption.isSome)) =
        some (true, some link, none, true) ∧
      link.parentId? shelfRun.store.database "n" = some "f" := by decide +kernel
  obtain ⟨s, inForce, parts⟩ := Option.map_eq_some_iff.mp known.1
  obtain ⟨contains, declared, absent, asked⟩ : s.model.resources.contains "Note" = true ∧ s.model.links.find? "Note" = some link ∧
      s.model.links.find? "Folder" = none ∧ (shelfRun.run none (chain s.walk "Note" "n")).toOption.isSome = true := by
    simpa using parts
  obtain ⟨published, consistent⟩ := shelfRun_reachable.consistent
  have ascent : Ascent shelfRun.store.database s.model (Instance.mk "Note" "n")
      ([⟨"Note", "n"⟩, ⟨"Folder", "f"⟩].map Instance.spot) := .up (.along declared known.2) (.top (.unlinked absent))
  obtain ⟨rows, ran⟩ := Option.isSome_iff_exists.mp asked
  exact (ancestors_ascent_iff (consistent.compiled inForce) inForce).mpr
    ⟨contains, ⟨rows, toOption_eq_some_iff.mp ran⟩, ascent⟩

theorem note_reaches_folder : ∃ s, shelfRun.snapshot = some s ∧
    shelfRun.ancestors ⟨"Note", "n"⟩ = .ok [⟨"Note", "n"⟩, ⟨"Folder", "f"⟩] ∧
    Ancestry shelfRun.store.database s.model (Instance.mk "Note" "n") ([⟨"Note", "n"⟩, ⟨"Folder", "f"⟩].map Instance.spot) := by
  have configured : shelfRun.snapshot.isSome = true := by decide +kernel
  obtain ⟨s, inForce⟩ := Option.isSome_iff_exists.mp configured
  exact ⟨s, inForce, shelfRun_ancestors, (ancestors_reach_top shelfRun_reachable inForce ⟨"Note", "n"⟩).1 _ shelfRun_ancestors⟩

end Authorizer

end ScopedAccess
