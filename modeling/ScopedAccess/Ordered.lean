namespace ScopedAccess

class Key (α : Type) extends LT α where
  decEq : DecidableEq α
  decLt : DecidableLT α
  irrefl : ∀ a : α, ¬ a < a
  trans : ∀ {a b c : α}, a < b → b < c → a < c
  connected : ∀ {a b : α}, a ≠ b → a < b ∨ b < a

namespace Key

variable {α : Type} [Key α]

instance (priority := low) : DecidableEq α := Key.decEq
instance (priority := low) : DecidableLT α := Key.decLt

theorem ne_of_lt {a b : α} (below : a < b) : a ≠ b := fun same => irrefl b (same ▸ below)

theorem not_lt_of_lt {a b : α} (below : a < b) : ¬ b < a := fun above => irrefl a (trans below above)

end Key

instance : Key String where
  decEq := inferInstance
  decLt := inferInstance
  irrefl := String.lt_irrefl
  trans := String.lt_trans
  connected {a b} different := by
    by_cases below : a < b
    · exact .inl below
    · by_cases above : b < a
      · exact .inr above
      · exact absurd (String.le_antisymm (String.not_lt.mp above) (String.not_lt.mp below)) different

structure OrderedMap (κ : Type) [Key κ] (α : Type) where
  entries : List (κ × α)
  sorted : entries.Pairwise (fun a b => a.1 < b.1)

namespace OrderedMap

variable {κ α : Type} [Key κ]

def empty : OrderedMap κ α := ⟨[], .nil⟩

instance : EmptyCollection (OrderedMap κ α) := ⟨empty⟩

def place (k : κ) (v : α) : List (κ × α) → List (κ × α)
  | [] => [(k, v)]
  | e :: rest => if k < e.1 then (k, v) :: e :: rest else if k = e.1 then (k, v) :: rest else e :: place k v rest

theorem key_of_mem_place {k : κ} {v : α} {l : List (κ × α)} {e : κ × α} (member : e ∈ place k v l) :
    e.1 = k ∨ e ∈ l := by
  induction l with
  | nil => exact .inl (by simp_all [place])
  | cons f rest ih =>
    unfold place at member
    grind

theorem place_sorted {k : κ} {v : α} {l : List (κ × α)} (ordered : l.Pairwise (fun a b => a.1 < b.1)) :
    (place k v l).Pairwise (fun a b => a.1 < b.1) := by
  induction l with
  | nil => simp [place]
  | cons f rest ih =>
    obtain ⟨below, tailOrdered⟩ := List.pairwise_cons.mp ordered
    unfold place
    split
    · rename_i first
      refine List.pairwise_cons.mpr ⟨fun x member => ?_, ordered⟩
      rcases List.mem_cons.mp member with rfl | later
      · exact first
      · exact Key.trans first (below x later)
    · split
      · rename_i same
        exact List.pairwise_cons.mpr ⟨fun x member => same ▸ below x member, tailOrdered⟩
      · rename_i notFirst different
        refine List.pairwise_cons.mpr ⟨fun x member => ?_, ih tailOrdered⟩
        rcases key_of_mem_place member with equal | later
        · exact equal ▸ (Key.connected different).resolve_left notFirst
        · exact below x later

def insert (m : OrderedMap κ α) (k : κ) (v : α) : OrderedMap κ α := ⟨place k v m.entries, place_sorted m.sorted⟩

def ofList (pairs : List (κ × α)) : OrderedMap κ α := pairs.foldl (fun m e => m.insert e.1 e.2) empty

def find? (m : OrderedMap κ α) (k : κ) : Option α := (m.entries.find? fun e => e.1 = k).map (·.2)

-- The values that come under one key, in their order.
def gather (pairs : List (κ × α)) : OrderedMap κ (List α) :=
  pairs.foldl (fun m e => m.insert e.1 ((m.find? e.1).getD [] ++ [e.2])) empty

def contains (m : OrderedMap κ α) (k : κ) : Bool := (m.find? k).isSome

def keys (m : OrderedMap κ α) : List κ := m.entries.map (·.1)

def values (m : OrderedMap κ α) : List α := m.entries.map (·.2)

def size (m : OrderedMap κ α) : Nat := m.entries.length

def map {β : Type} (f : α → β) (m : OrderedMap κ α) : OrderedMap κ β :=
  ⟨m.entries.map fun e => (e.1, f e.2), List.pairwise_map.mpr m.sorted⟩

theorem find_place {k j : κ} {v : α} {l : List (κ × α)} :
    ((place k v l).find? fun e => e.1 = j).map (·.2) =
      if k = j then some v else (l.find? fun e => e.1 = j).map (·.2) := by
  induction l with
  | nil => grind [place]
  | cons f rest ih =>
    unfold place
    split
    · grind
    · split
      · grind
      · grind

@[simp] theorem find?_insert {m : OrderedMap κ α} {k j : κ} {v : α} :
    (m.insert k v).find? j = if k = j then some v else m.find? j := find_place

@[simp] theorem find?_empty {k : κ} : (empty : OrderedMap κ α).find? k = none := rfl

theorem find?_eq_some_iff {m : OrderedMap κ α} {k : κ} {v : α} : m.find? k = some v ↔ (k, v) ∈ m.entries := by
  cases m with
  | mk l ordered =>
    simp only [find?]
    induction l with
    | nil => simp
    | cons f rest ih =>
      obtain ⟨below, tailOrdered⟩ := List.pairwise_cons.mp ordered
      by_cases same : f.1 = k
      · subst same
        simp only [List.find?_cons, decide_true, Option.map_some, Option.some.injEq, List.mem_cons]
        constructor
        · rintro rfl
          exact .inl rfl
        · rintro (equal | later)
          · rw [← equal]
          · exact absurd (below _ later) (Key.irrefl _)
      · simp only [List.find?_cons, same, decide_false, List.mem_cons, ih tailOrdered]
        constructor
        · exact .inr
        · rintro (equal | later)
          · exact absurd (congrArg Prod.fst equal).symm same
          · exact later

@[simp] theorem find?_map {β : Type} {f : α → β} {m : OrderedMap κ α} {k : κ} :
    (m.map f).find? k = (m.find? k).map f := by
  simp only [find?, map, List.find?_map, Option.map_map]
  rfl

theorem find?_ofList_graph {f : κ → α} {keys : List κ} {k : κ} :
    (ofList (keys.map fun j => (j, f j))).find? k = if k ∈ keys then some (f k) else none := by
  have general : ∀ m : OrderedMap κ α,
      ((keys.map fun j => (j, f j)).foldl (fun m e => m.insert e.1 e.2) m).find? k =
        if k ∈ keys then some (f k) else m.find? k := by
    induction keys with
    | nil => simp
    | cons j rest ih =>
      intro m
      simp only [List.map_cons, List.foldl_cons, ih, find?_insert, List.mem_cons]
      grind
  rw [ofList, general, find?_empty]

theorem getD_find?_gather {pairs : List (κ × α)} {k : κ} :
    ((gather pairs).find? k).getD [] = (pairs.filter fun e => e.1 = k).map (·.2) := by
  have general : ∀ m : OrderedMap κ (List α),
      ((pairs.foldl (fun m e => m.insert e.1 ((m.find? e.1).getD [] ++ [e.2])) m).find? k).getD [] =
        (m.find? k).getD [] ++ (pairs.filter fun e => e.1 = k).map (·.2) := by
    induction pairs with
    | nil => simp
    | cons e rest ih =>
      intro m
      rw [List.foldl_cons, ih, find?_insert]
      by_cases same : e.1 = k
      · subst same
        simp
      · simp [same]
  exact general empty

theorem mem_keys {m : OrderedMap κ α} {k : κ} : k ∈ m.keys ↔ ∃ v, m.find? k = some v := by
  simp only [keys, List.mem_map, find?_eq_some_iff]
  constructor
  · rintro ⟨⟨j, v⟩, member, rfl⟩
    exact ⟨v, member⟩
  · rintro ⟨v, member⟩
    exact ⟨(k, v), member, rfl⟩

theorem mem_values {m : OrderedMap κ α} {v : α} : v ∈ m.values ↔ ∃ k, m.find? k = some v := by
  simp only [values, List.mem_map, find?_eq_some_iff]
  constructor
  · rintro ⟨⟨k, v⟩, member, rfl⟩
    exact ⟨k, member⟩
  · rintro ⟨k, member⟩
    exact ⟨(k, v), member, rfl⟩

theorem find?_map_snd {k : κ} {key : α → κ} {l : List (κ × α)} (agree : ∀ e ∈ l, decide (key e.2 = k) = decide (e.1 = k)) :
    (l.map (·.2)).find? (fun v => decide (key v = k)) = (l.find? fun e => decide (e.1 = k)).map (·.2) := by
  induction l with
  | nil => simp
  | cons e rest ih =>
    have here := agree e (List.mem_cons_self ..)
    have later := ih fun x member => agree x (List.mem_cons_of_mem _ member)
    by_cases matched : e.1 = k <;> simp_all

-- Values that know the key they stand under are found by it.
theorem find?_values {m : OrderedMap κ α} {key : α → κ} (keyed : ∀ k v, m.find? k = some v → key v = k) (k : κ) :
    m.values.find? (fun v => decide (key v = k)) = m.find? k := by
  apply find?_map_snd
  intro e member
  rw [keyed e.1 e.2 (find?_eq_some_iff.mpr member)]

theorem contains_of_find? {m : OrderedMap κ α} {k : κ} {v : α} (found : m.find? k = some v) : m.contains k = true := by
  rw [contains, found]
  rfl

theorem contains_insert {m : OrderedMap κ α} {k j : κ} {v : α} :
    (m.insert k v).contains j = true ↔ k = j ∨ m.contains j = true := by
  simp only [contains, find?_insert]
  by_cases same : k = j <;> simp [same]

theorem keys_sorted (m : OrderedMap κ α) : m.keys.Pairwise (· < ·) := List.pairwise_map.mpr m.sorted

private theorem entries_ext {l m : List (κ × α)} (left : l.Pairwise (fun a b => a.1 < b.1))
    (right : m.Pairwise (fun a b => a.1 < b.1)) (same : ∀ e, e ∈ l ↔ e ∈ m) : l = m := by
  induction l generalizing m with
  | nil =>
    cases m with
    | nil => rfl
    | cons b _ => exact absurd ((same b).mpr (List.mem_cons_self ..)) List.not_mem_nil
  | cons a l ih =>
    cases m with
    | nil => exact absurd ((same a).mp (List.mem_cons_self ..)) List.not_mem_nil
    | cons b m =>
      obtain ⟨belowA, sortedL⟩ := List.pairwise_cons.mp left
      obtain ⟨belowB, sortedM⟩ := List.pairwise_cons.mp right
      have heads : a = b := by
        rcases List.mem_cons.mp ((same a).mp (List.mem_cons_self ..)) with equal | later
        · exact equal
        · rcases List.mem_cons.mp ((same b).mpr (List.mem_cons_self ..)) with equal | later'
          · exact equal.symm
          · exact absurd (belowB a later) (Key.not_lt_of_lt (belowA b later'))
      subst heads
      refine congrArg _ (ih sortedL sortedM fun x => ⟨fun member => ?_, fun member => ?_⟩)
      · rcases List.mem_cons.mp ((same x).mp (List.mem_cons_of_mem _ member)) with rfl | later
        · exact absurd (belowA _ member) (Key.irrefl _)
        · exact later
      · rcases List.mem_cons.mp ((same x).mpr (List.mem_cons_of_mem _ member)) with rfl | later
        · exact absurd (belowB _ member) (Key.irrefl _)
        · exact later

theorem ext {m n : OrderedMap κ α} (same : ∀ k, m.find? k = n.find? k) : m = n := by
  have entries : m.entries = n.entries := entries_ext m.sorted n.sorted fun e => by
    rw [← find?_eq_some_iff (m := m) (k := e.1) (v := e.2), same e.1, find?_eq_some_iff]
  cases m; cases n; cases entries; rfl

end OrderedMap

structure OrderedSet (α : Type) [Key α] where
  toList : List α
  sorted : toList.Pairwise (· < ·)

namespace OrderedSet

variable {α : Type} [Key α]

instance : Membership α (OrderedSet α) := ⟨fun s a => a ∈ s.toList⟩

instance (a : α) (s : OrderedSet α) : Decidable (a ∈ s) := inferInstanceAs (Decidable (a ∈ s.toList))

instance : DecidableEq (OrderedSet α) := fun s t =>
  if same : s.toList = t.toList then .isTrue (by cases s; cases t; cases same; rfl)
  else .isFalse fun equal => same (equal ▸ rfl)

def empty : OrderedSet α := ⟨[], .nil⟩

instance : EmptyCollection (OrderedSet α) := ⟨empty⟩

def place (a : α) : List α → List α
  | [] => [a]
  | b :: rest => if a < b then a :: b :: rest else if a = b then b :: rest else b :: place a rest

theorem mem_place {a x : α} {l : List α} : x ∈ place a l ↔ x = a ∨ x ∈ l := by
  induction l with
  | nil => simp [place]
  | cons b rest ih =>
    unfold place
    split
    · simp
    · split
      · rename_i same
        subst same
        simp
      · simp only [List.mem_cons, ih]
        grind

theorem place_sorted {a : α} {l : List α} (ordered : l.Pairwise (· < ·)) :
    (place a l).Pairwise (· < ·) := by
  induction l with
  | nil => simp [place]
  | cons b rest ih =>
    obtain ⟨below, tailOrdered⟩ := List.pairwise_cons.mp ordered
    unfold place
    split
    · rename_i first
      refine List.pairwise_cons.mpr ⟨fun x member => ?_, ordered⟩
      rcases List.mem_cons.mp member with rfl | later
      · exact first
      · exact Key.trans first (below x later)
    · split
      · exact ordered
      · rename_i notFirst different
        refine List.pairwise_cons.mpr ⟨fun x member => ?_, ih tailOrdered⟩
        rcases mem_place.mp member with rfl | later
        · exact (Key.connected different).resolve_left notFirst
        · exact below x later

def insert (s : OrderedSet α) (a : α) : OrderedSet α := ⟨place a s.toList, place_sorted s.sorted⟩

def ofList (items : List α) : OrderedSet α := items.foldl insert empty

def size (s : OrderedSet α) : Nat := s.toList.length

def isEmpty (s : OrderedSet α) : Bool := s.toList.isEmpty

@[simp] theorem mem_toList {s : OrderedSet α} {a : α} : a ∈ s.toList ↔ a ∈ s := Iff.rfl

@[simp] theorem mem_insert {s : OrderedSet α} {a x : α} : x ∈ s.insert a ↔ x = a ∨ x ∈ s := mem_place

theorem not_mem_empty {x : α} : ¬ x ∈ (empty : OrderedSet α) := List.not_mem_nil

theorem mem_foldl_insert {items : List α} {s : OrderedSet α} {x : α} :
    x ∈ items.foldl insert s ↔ x ∈ s ∨ x ∈ items := by
  induction items generalizing s with
  | nil => simp
  | cons a rest ih =>
    simp only [List.foldl_cons, ih, mem_insert, List.mem_cons]
    grind

@[simp] theorem mem_ofList {items : List α} {x : α} : x ∈ ofList items ↔ x ∈ items := by
  simp [ofList, mem_foldl_insert, not_mem_empty]

theorem sorted_ext {l m : List α} (left : l.Pairwise (· < ·)) (right : m.Pairwise (· < ·))
    (same : ∀ x, x ∈ l ↔ x ∈ m) : l = m := by
  induction l generalizing m with
  | nil =>
    cases m with
    | nil => rfl
    | cons b _ => exact absurd ((same b).mpr (List.mem_cons_self ..)) List.not_mem_nil
  | cons a l ih =>
    cases m with
    | nil => exact absurd ((same a).mp (List.mem_cons_self ..)) List.not_mem_nil
    | cons b m =>
      obtain ⟨belowA, sortedL⟩ := List.pairwise_cons.mp left
      obtain ⟨belowB, sortedM⟩ := List.pairwise_cons.mp right
      have heads : a = b := by
        rcases List.mem_cons.mp ((same a).mp (List.mem_cons_self ..)) with equal | later
        · exact equal
        · rcases List.mem_cons.mp ((same b).mpr (List.mem_cons_self ..)) with equal | later'
          · exact equal.symm
          · exact absurd (belowB a later) (Key.not_lt_of_lt (belowA b later'))
      subst heads
      refine congrArg _ (ih sortedL sortedM fun x => ⟨fun member => ?_, fun member => ?_⟩)
      · rcases List.mem_cons.mp ((same x).mp (List.mem_cons_of_mem _ member)) with rfl | later
        · exact absurd (belowA x member) (Key.irrefl x)
        · exact later
      · rcases List.mem_cons.mp ((same x).mpr (List.mem_cons_of_mem _ member)) with rfl | later
        · exact absurd (belowB x member) (Key.irrefl x)
        · exact later

theorem ext {s t : OrderedSet α} (same : ∀ x, x ∈ s ↔ x ∈ t) : s = t := by
  cases s with
  | mk l left =>
    cases t with
    | mk m right => cases sorted_ext left right same; rfl

end OrderedSet

end ScopedAccess
