import ScopedAccess.Proofs.ByteOrder
import ScopedAccess.Proofs.Store.Enrolment

namespace ScopedAccess

namespace Assignment

variable {x y z : Assignment}

end Assignment

namespace Store

variable {s : Store} {t : Table} {held : List (Int × Assignment)} {e : Int × Assignment} {x : Assignment} {user : String}

variable {next : Store} {n c bound : Int} {name : String}

def CountsTo (s : Store) (bound : Int) : Prop :=
  ∀ t, s.own .counters = some t → ∀ r ∈ t.rows, ∀ n, (t.cell "seq" r).toNumber = .integer n → n ≤ bound

theorem CountsTo.mono {more : Int} (counts : s.CountsTo bound) (le : bound ≤ more) : s.CountsTo more :=
  fun t here r member n holds => Int.le_trans (counts t here r member n holds) le

theorem CountsTo.of_agrees {changed : List OwnTable} (counts : s.CountsTo bound) (agrees : AgreesOff changed s next)
    (away : .counters ∉ changed) : next.CountsTo bound :=
  fun t here => counts t ((agrees.own _ away).symm.trans here)

theorem CountsTo.counter_le (counts : s.CountsTo bound) (whole : 0 ≤ bound) : s.counter name ≤ bound := by
  unfold counter
  split
  · exact whole
  · rename_i t here
    split
    · rename_i n given
      obtain ⟨r, found, holds⟩ := Option.map_eq_some_iff.mp given
      exact counts t here r (List.mem_of_find?_eq_some found) n holds
    · exact whole

theorem CountsTo.setCounter (intact : s.Intact) (counts : s.CountsTo bound) (le : c ≤ bound) :
    (s.setCounter name c).CountsTo bound := by
  obtain ⟨t, here, is⟩ := intact .counters
  have old : ∀ r ∈ t.rows, ∀ n, (t.cell "seq" r).toNumber = .integer n → n ≤ bound := counts t here
  have seq : ∀ table : Table, table.Is .counters → ∀ r, table.cell "seq" r = r.cells.getD 1 .null := fun table tableIs r =>
    Table.cell_own (i := 1) (c := .free "seq" none) tableIs rfl
  have new : ∀ number n, (t.cell "seq" ⟨number, [.text name, .integer c]⟩).toNumber = .integer n → n ≤ bound := by
    intro number n holds
    rw [seq t is] at holds
    cases holds
    exact le
  have placed : ∀ table : Table, table.Is .counters →
      (∀ r ∈ table.rows, r ∈ t.rows ∨ ∃ number, r = ⟨number, [.text name, .integer c]⟩) →
      (s.put table).CountsTo bound := by
    intro table tableIs rows u place r member n holds
    rw [put_here tableIs.name] at place
    cases place
    rw [seq table tableIs, ← seq t is] at holds
    rcases rows r member with known | ⟨number, rfl⟩
    · exact old r known n holds
    · exact new number n holds
  unfold Store.setCounter
  simp only [here]
  split
  · refine placed _ ⟨is.name, is.schema⟩ ?_
    intro r member
    obtain ⟨x, known, rfl⟩ := List.mem_map.mp member
    split
    · exact .inr ⟨_, rfl⟩
    · exact .inl known
  · refine placed _ ⟨is.name, is.schema⟩ ?_
    intro r member
    rcases List.mem_append.mp member with before | after
    · exact .inl (List.mem_filter.mp before).1
    · rcases List.mem_cons.mp after with rfl | after
      · exact .inr ⟨_, rfl⟩
      · exact .inl (List.mem_filter.mp after).1

section

variable (roster : s.Roster held) (numbers : ∀ e ∈ held, e.1 ≤ bound) (counts : s.CountsTo bound) (whole : 0 ≤ bound)

include roster numbers counts whole

theorem nextNumber?_cases :
    (∃ n, s.nextNumber? = some n ∧ n ≤ bound + 1) ∨ s.nextNumber? = none ∧ Table.largestNumber ≤ bound := by
  obtain ⟨t, here, is, rows⟩ := roster.rows
  have counter : s.counter t.name ≤ bound := counts.counter_le whole
  have counted : t.schema.isCounted = true := by
    rw [is.schema]
    rfl
  have last : ∀ n, t.lastNumber? = some n → n ≤ bound := by
    intro n ends
    obtain ⟨r, final, rfl⟩ := Option.map_eq_some_iff.mp ends
    have member := List.mem_of_getLast? final
    rw [rows] at member
    obtain ⟨e, listed, rfl⟩ := List.mem_map.mp member
    exact numbers e listed
  have step : ∀ first, first ≤ bound + 1 →
      let next := max first (s.counter t.name + 1)
      (∃ n, (if next ≤ Table.largestNumber then some next else none) = some n ∧ n ≤ bound + 1) ∨
        (if next ≤ Table.largestNumber then some next else none) = none ∧ Table.largestNumber ≤ bound := by
    intro first small next
    by_cases left : next ≤ Table.largestNumber
    · rw [if_pos left]
      exact .inl ⟨_, rfl, by omega⟩
    · rw [if_neg left]
      exact .inr ⟨rfl, by omega⟩
  rw [nextNumber?, here, Option.bind_some]
  cases ends : t.lastNumber? with
  | none =>
    simp only [Table.nextNumber?, ends, counted, if_true]
    exact step 1 (by omega)
  | some n =>
    have le := last n ends
    simp only [Table.nextNumber?, ends, counted, if_true]
    exact step (n + 1) (by omega)

theorem CountsTo.insert (intact : s.Intact) {created : Bool} (wrote : s.insertAssignment x = .ok (next, created)) :
    next.CountsTo (bound + 1) := by
  obtain ⟨t, here, is, rows⟩ := roster.rows
  rw [insertAssignment_eq intact roster here] at wrote
  rcases nextNumber?_cases roster numbers counts whole with ⟨n, follows, le⟩ | ⟨none, _⟩
  · simp only [follows] at wrote
    cases wrote
    have counter : s.counter t.name ≤ bound := counts.counter_le whole
    have tableIs : (if x ∈ held.map (·.2) then t else t.add (keptRow (n, x))).Is .assignments := by
      split
      · exact is
      · exact ⟨is.name, is.schema⟩
    refine CountsTo.setCounter (intact.put tableIs) ?_ (by omega)
    exact (counts.of_agrees (put_agrees tableIs.name) (by simp)).mono (by omega)
  · rw [none] at wrote
    cases wrote

end

end Store

end ScopedAccess
