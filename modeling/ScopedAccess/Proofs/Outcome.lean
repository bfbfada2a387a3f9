import Mathlib.Data.List.Forall2
import ScopedAccess.Declarations

namespace ScopedAccess

variable {α β ε δ : Type}

section

variable {related : α → β → Prop} {l : List α} {others : List β} {a : α} {b : β}

theorem forall₂_filterMap {f : α → Option β} (each : ∀ a ∈ l, ∃ b, f a = some b ∧ related a b) :
    List.Forall₂ related l (l.filterMap f) := by
  induction l with
  | nil => exact .nil
  | cons a rest ih =>
    obtain ⟨b, comes, here⟩ := each a (List.mem_cons_self ..)
    rw [List.filterMap_cons_some comes]
    exact .cons here (ih fun c member => each c (List.mem_cons_of_mem _ member))

theorem exists_right_of_mem (each : List.Forall₂ related l others) (member : a ∈ l) : ∃ b ∈ others, related a b := by
  induction each with
  | nil => cases member
  | cons here _ ih =>
    rcases List.mem_cons.mp member with rfl | later
    · exact ⟨_, List.mem_cons_self .., here⟩
    · obtain ⟨b, found, relates⟩ := ih later
      exact ⟨b, List.mem_cons_of_mem _ found, relates⟩

theorem exists_left_of_mem (each : List.Forall₂ related l others) (member : b ∈ others) : ∃ a ∈ l, related a b :=
  exists_right_of_mem each.flip member

end

theorem bind_eq_ok_iff {x : Except ε α} {f : α → Except ε β} {b : β} :
    (x >>= f) = .ok b ↔ ∃ a, x = .ok a ∧ f a = .ok b := by
  cases x <;> simp [bind, Except.bind]

theorem map_eq_ok_iff {x : Except ε α} {f : α → β} {b : β} : x.map f = .ok b ↔ ∃ a, x = .ok a ∧ f a = b := by
  cases x <;> simp [Except.map]

theorem map_eq_error_iff {x : Except ε α} {f : α → β} {e : ε} : x.map f = .error e ↔ x = .error e := by
  cases x <;> simp [Except.map]

theorem require_eq_ok_iff {holds : Bool} {fault : ε} {done : Unit} : require holds fault = .ok done ↔ holds = true := by
  cases holds <;> simp [require]

theorem mapError_ok {f : ε → δ} {a : α} : (Except.ok a).mapError f = .ok a := rfl

theorem mapError_eq_ok_iff {x : Except ε α} {f : ε → δ} {a : α} : x.mapError f = .ok a ↔ x = .ok a := by
  cases x with
  | error e =>
    constructor
    · intro impossible
      cases impossible
    · intro impossible
      cases impossible
  | ok b => exact ⟨fun same => by cases same; rfl, fun same => by cases same; rfl⟩

theorem toOption_eq_some_iff {x : Except ε α} {a : α} : x.toOption = some a ↔ x = .ok a := by
  cases x <;> simp [Except.toOption]

-- `holds` speaks of the part of the list that has been passed.
theorem foldlM_invariant {f : β → α → Except ε β} {l : List α} {first last : β} (holds : List α → β → Prop)
    (start : holds [] first)
    (step : ∀ done a rest b next, l = done ++ a :: rest → holds done b → f b a = .ok next → holds (done ++ [a]) next)
    (ran : l.foldlM f first = .ok last) : holds l last := by
  have general : ∀ rest done b, l = done ++ rest → holds done b → rest.foldlM f b = .ok last → holds l last := by
    intro rest
    induction rest with
    | nil =>
      intro done b split held ended
      cases ended
      rw [split, List.append_nil]
      exact held
    | cons a rest ih =>
      intro done b split held onward
      rw [List.foldlM_cons, bind_eq_ok_iff] at onward
      obtain ⟨next, stepped, onward⟩ := onward
      exact ih (done ++ [a]) next (by simpa using split) (step done a rest b next split held stepped) onward
  exact general l [] first rfl start ran

theorem foldlM_ok {f : β → α → Except ε β} {l : List α} {first : β} (holds : List α → β → Prop) (start : holds [] first)
    (step : ∀ done a rest b, l = done ++ a :: rest → holds done b → ∃ next, f b a = .ok next ∧ holds (done ++ [a]) next) :
    ∃ last, l.foldlM f first = .ok last ∧ holds l last := by
  have general : ∀ rest done b, l = done ++ rest → holds done b → ∃ last, rest.foldlM f b = .ok last ∧ holds l last := by
    intro rest
    induction rest with
    | nil =>
      intro done b split held
      rw [split, List.append_nil]
      exact ⟨b, rfl, held⟩
    | cons a rest ih =>
      intro done b split held
      obtain ⟨next, stepped, onward⟩ := step done a rest b split held
      obtain ⟨last, ran, ended⟩ := ih (done ++ [a]) next (by simpa using split) onward
      refine ⟨last, ?_, ended⟩
      rw [List.foldlM_cons, stepped]
      exact ran
  exact general l [] first rfl start

theorem mapM_eq_ok_iff {f : α → Except ε β} {l : List α} {results : List β} :
    l.mapM f = .ok results ↔ List.Forall₂ (fun a b => f a = .ok b) l results := by
  induction l generalizing results with
  | nil =>
    rw [List.mapM_nil, List.forall₂_nil_left_iff]
    exact ⟨fun same => by cases same; rfl, fun same => by rw [same]; rfl⟩
  | cons a rest ih =>
    simp only [List.mapM_cons, bind_eq_ok_iff, List.forall₂_cons_left_iff, ← ih]
    constructor
    · intro given
      obtain ⟨b, here, others, later, ended⟩ := given
      cases ended
      exact ⟨b, others, here, later, rfl⟩
    · intro given
      obtain ⟨b, others, here, later, rfl⟩ := given
      exact ⟨b, here, others, later, rfl⟩

theorem mapM_ok {f : α → Except ε β} {l : List α} (each : ∀ a ∈ l, ∃ b, f a = .ok b) : ∃ results, l.mapM f = .ok results := by
  induction l with
  | nil => exact ⟨[], rfl⟩
  | cons a rest ih =>
    obtain ⟨b, here⟩ := each a (List.mem_cons_self ..)
    obtain ⟨others, later⟩ := ih fun c member => each c (List.mem_cons_of_mem _ member)
    refine ⟨b :: others, ?_⟩
    rw [List.mapM_cons, here, later]
    rfl

theorem mapM_ok_iff {f : α → Except ε β} {l : List α} : (∃ results, l.mapM f = .ok results) ↔ ∀ a ∈ l, ∃ b, f a = .ok b := by
  constructor
  · intro given
    obtain ⟨results, ran⟩ := given
    intro a member
    obtain ⟨b, _, here⟩ := exists_right_of_mem (mapM_eq_ok_iff.mp ran) member
    exact ⟨b, here⟩
  · exact mapM_ok

theorem mapM_eq_ok_map {f : α → Except ε β} {g : α → β} {l : List α} (each : ∀ a ∈ l, f a = .ok (g a)) :
    l.mapM f = .ok (l.map g) := by
  induction l with
  | nil => rfl
  | cons a rest ih =>
    rw [List.mapM_cons, each a (List.mem_cons_self ..), ih fun b member => each b (List.mem_cons_of_mem _ member)]
    rfl

theorem mapM_eq_ok_filterMap {f : α → Except ε β} {g : α → Option β} {l : List α}
    (each : ∀ a ∈ l, ∃ b, g a = some b ∧ f a = .ok b) : l.mapM f = .ok (l.filterMap g) := by
  induction l with
  | nil => rfl
  | cons a rest ih =>
    obtain ⟨b, comes, here⟩ := each a (List.mem_cons_self ..)
    rw [List.mapM_cons, here, ih fun c member => each c (List.mem_cons_of_mem _ member), List.filterMap_cons_some comes]
    rfl

theorem mapM_error {f : α → Except ε β} {l : List α} {e : ε} (stopped : l.mapM f = .error e) : ∃ a ∈ l, f a = .error e := by
  induction l with
  | nil => cases stopped
  | cons a rest ih =>
    rw [List.mapM_cons] at stopped
    cases here : f a with
    | error other =>
      rw [here] at stopped
      cases stopped
      exact ⟨a, List.mem_cons_self .., here⟩
    | ok b =>
      cases later : rest.mapM f with
      | error other =>
        rw [here, later] at stopped
        cases stopped
        obtain ⟨c, member, there⟩ := ih later
        exact ⟨c, List.mem_cons_of_mem _ member, there⟩
      | ok others =>
        rw [here, later] at stopped
        cases stopped

-- Where each row is read as the item that it was made of, all of them are read as the items.
theorem mapM_rows_iff {row : α → δ} {f : δ → Except ε β} {item : β → α} {l : List α} {results : List β}
    (decodes : ∀ a b, f (row a) = .ok b ↔ a = item b) : (l.map row).mapM f = .ok results ↔ l = results.map item := by
  have decoded : (fun a b => f (row a) = .ok b) = fun a b => a = item b := by
    funext a b
    exact propext (decodes a b)
  rw [mapM_eq_ok_iff, List.forall₂_map_left_iff, decoded, ← List.forall₂_eq_eq_eq, List.forall₂_map_right_iff]

theorem eq_filterMap_of_mapM {f : α → Except ε β} {g : α → Option β} {l : List α} {results : List β}
    (agree : ∀ a b, f a = .ok b → g a = some b) (ran : l.mapM f = .ok results) : results = l.filterMap g := by
  induction l generalizing results with
  | nil =>
    cases ran
    rfl
  | cons a rest ih =>
    rw [List.mapM_cons, bind_eq_ok_iff] at ran
    obtain ⟨first, here, ran⟩ := ran
    rw [bind_eq_ok_iff] at ran
    obtain ⟨others, later, ended⟩ := ran
    cases ended
    rw [List.filterMap_cons_some (agree a first here), ih later]

end ScopedAccess
