import Mathlib.Data.Finset.Basic
import Mathlib.Data.Finset.Lattice.Lemmas
import ScopedAccess.Proofs.Authorizer.Run
import ScopedAccess.Proofs.CompiledSnapshot
import ScopedAccess.Proofs.Store.Counting
import ScopedAccess.Proofs.Store.Replacement

namespace ScopedAccess

namespace Store

variable {s next : Store} {kept : Finset Assignment} {count : Nat} {x : Assignment} {m : Model} {d : Declarations}

structure Tally (s : Store) (kept : Finset Assignment) (count : Nat) : Prop where
  intact : s.Intact
  roster : ∃ held, s.Roster held ∧ (held.map (·.2)).toFinset = kept ∧ ∀ e ∈ held, e.1 ≤ count
  counts : s.CountsTo count

theorem toFinset_filter {held : List (Int × Assignment)} (p : Assignment → Prop) [DecidablePred p] :
    ((held.filter fun e => p e.2).map (·.2)).toFinset = (held.map (·.2)).toFinset.filter p := by
  ext x
  simp only [List.mem_toFinset, List.mem_map, List.mem_filter, Finset.mem_filter, decide_eq_true_eq]
  constructor
  · rintro ⟨e, ⟨member, holds⟩, rfl⟩
    exact ⟨⟨e, member, rfl⟩, holds⟩
  · rintro ⟨⟨e, member, rfl⟩, holds⟩
    exact ⟨e, ⟨member, holds⟩, rfl⟩

section

variable (tally : s.Tally kept count)

include tally

theorem Tally.later : s.Tally kept (count + 1) := by
  obtain ⟨held, roster, same, numbers⟩ := tally.roster
  refine ⟨tally.intact, ⟨held, roster, same, fun e member => ?_⟩, tally.counts.mono (by omega)⟩
  have le := numbers e member
  omega

theorem Tally.write (application : List Table) : { s with application }.Tally kept count := by
  obtain ⟨held, roster, same, numbers⟩ := tally.roster
  exact ⟨tally.intact, ⟨held, ⟨roster.rows, roster.ascending, roster.distinct⟩, same, numbers⟩, tally.counts⟩

theorem Tally.insert {created : Bool} (wrote : s.insertAssignment x = .ok (next, created)) :
    next.Tally (insert x kept) (count + 1) ∧ created = decide (x ∉ kept) := by
  obtain ⟨held, roster, rfl, numbers⟩ := tally.roster
  obtain ⟨outcome, _, intact⟩ := insertAssignment_eq_ok tally.intact roster wrote
  have counts : next.CountsTo (count + 1 : Int) := tally.counts.insert roster numbers (by omega) tally.intact wrote
  rcases outcome with ⟨rfl, fresh, n, follows, after⟩ | ⟨rfl, ⟨e, member, same⟩, after⟩
  · have unknown : x ∉ (held.map (·.2)).toFinset := by
      rw [List.mem_toFinset, List.mem_map]
      rintro ⟨e, member, same⟩
      exact fresh e member same
    refine ⟨⟨intact, ⟨_, after, ?_, ?_⟩, counts⟩, (decide_eq_true unknown).symm⟩
    · rw [List.map_append, List.toFinset_append, Finset.insert_eq, Finset.union_comm]
      rfl
    · intro e member
      rcases List.mem_append.mp member with old | last
      · have le := numbers e old
        omega
      · cases List.mem_singleton.mp last
        rcases nextNumber?_cases roster numbers tally.counts (by omega) with ⟨m, number, le⟩ | ⟨none, _⟩
        · cases follows.symm.trans number
          exact le
        · cases follows.symm.trans none
  · have known : x ∈ (held.map (·.2)).toFinset := List.mem_toFinset.mpr (List.mem_map.mpr ⟨e, member, same⟩)
    refine ⟨⟨intact, ⟨held, after, (Finset.insert_eq_of_mem known).symm, fun e member => ?_⟩, counts⟩, ?_⟩
    · have le := numbers e member
      omega
    · simp only [known, not_true_eq_false, decide_false]

theorem Tally.synchronize {policy : OrphanPolicy} {report : SyncReport} (reflects : m.Reflects d)
    (ran : s.synchronize m policy = .ok (next, report)) :
    next.Tally (kept.filter fun x => m.declaresRole x.role x.resourceType) count := by
  obtain ⟨held, roster, rfl, numbers⟩ := tally.roster
  obtain ⟨_, after, _, intact⟩ := synchronize_eq_ok tally.intact roster reflects.resolved ran
  obtain ⟨_, agrees⟩ := keeps_of_synchronize tally.intact reflects ran
  refine ⟨intact, ⟨_, after, ?_, ?_⟩, tally.counts.of_agrees agrees (by simp [roleTables])⟩
  · rw [← toFinset_filter]
    simp only [Bool.decide_eq_true]
  · exact fun e member => numbers e (List.mem_filter.mp member).1

end

end Store

namespace Authorizer

variable {a next : Authorizer} {kept : Finset Assignment} {count : Nat} {s : Snapshot} {x : Assignment} {failure : Failure}

end Authorizer

end ScopedAccess
