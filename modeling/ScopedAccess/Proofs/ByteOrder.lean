import ScopedAccess.Ordered

namespace ScopedAccess

namespace Utf8

def bytes (s : String) : List UInt8 := s.toUTF8.data.toList

theorem bytes_eq (s : String) : bytes s = s.toList.flatMap String.utf8EncodeChar := by
  rw [bytes, String.toUTF8_eq_toByteArray, ← String.utf8Encode_toList, List.utf8Encode, List.toList_data_toByteArray]

-- There is a first byte that differs, in both, and it is less in the first.
inductive Below : List UInt8 → List UInt8 → Prop where
  | here {x y : UInt8} {rest others : List UInt8} : x < y → Below (x :: rest) (y :: others)
  | later {x : UInt8} {rest others : List UInt8} : Below rest others → Below (x :: rest) (x :: others)

variable {left right : List UInt8} {v w k : Nat} {c d : Char} {s t : String}

-- It stays so whatever follows.
theorem Below.append_lt (below : Below left right) (rest others : List UInt8) : left ++ rest < right ++ others := by
  induction below with
  | here less => exact List.cons_lt_cons_iff.mpr (.inl less)
  | later _ ih => exact List.cons_lt_cons_iff.mpr (.inr ⟨rfl, ih⟩)

theorem ofNat_lt_ofNat {m n : Nat} (less : m < n) (small : n < 256) : UInt8.ofNat m < UInt8.ofNat n := by
  rw [UInt8.lt_iff_toNat_lt, UInt8.toNat_ofNat', UInt8.toNat_ofNat']
  omega

-- What stands above the lowest `k` groups of six bits.
def high (v : Nat) : Nat → Nat
  | 0 => v
  | k + 1 => high v k / 64

theorem high_le (ordered : v ≤ w) (k : Nat) : high v k ≤ high w k := by
  induction k with
  | zero => exact ordered
  | succ k ih => exact Nat.div_le_div_right ih

-- The bytes behind the first one, six bits in each, the highest first.
def behind (v : Nat) : Nat → List UInt8
  | 0 => []
  | k + 1 => .ofNat (high v k % 64 + 0x80) :: behind v k

theorem behind_below (sameFront : high v k = high w k) (less : v < w) : Below (behind v k) (behind w k) := by
  induction k with
  | zero => exact absurd sameFront (Nat.ne_of_lt less)
  | succ k ih =>
    have front : high v k / 64 = high w k / 64 := sameFront
    have ordered : high v k ≤ high w k := high_le (Nat.le_of_lt less) k
    by_cases same : high v k = high w k
    · rw [behind, behind, same]
      exact .later (ih same)
    · refine .here (ofNat_lt_ofNat ?_ ?_) <;> omega

-- How many bytes stand behind the first of a character, by its code.
def followers (v : Nat) : Nat := if v ≤ 0x7f then 0 else if v ≤ 0x7ff then 1 else if v ≤ 0xffff then 2 else 3

def first (v : Nat) : Nat :=
  high v (followers v) + if v ≤ 0x7f then 0 else if v ≤ 0x7ff then 0xc0 else if v ≤ 0xffff then 0xe0 else 0xf0

theorem first_cases (v : Nat) :
    v ≤ 0x7f ∧ first v = v ∧ followers v = 0 ∨ (0x7f < v ∧ v ≤ 0x7ff) ∧ first v = v / 64 + 0xc0 ∧ followers v = 1 ∨
      (0x7ff < v ∧ v ≤ 0xffff) ∧ first v = v / 4096 + 0xe0 ∧ followers v = 2 ∨
      0xffff < v ∧ first v = v / 262144 + 0xf0 ∧ followers v = 3 := by
  unfold first followers
  split
  · simp_all [high]
  · split
    · simp_all [high]
    · split <;> simp_all [high, Nat.div_div_eq_div_mul]

theorem code_lt (c : Char) : c.val.toNat < 0x110000 := by
  rcases c.valid with low | ⟨_, high⟩
  · exact Nat.lt_trans low (by decide)
  · exact high

-- The remainders in the encoding change nothing, since a character's code is small enough.
theorem encode_eq (c : Char) :
    String.utf8EncodeChar c = .ofNat (first c.val.toNat) :: behind c.val.toNat (followers c.val.toNat) := by
  have bound := code_lt c
  unfold String.utf8EncodeChar first followers
  generalize c.val.toNat = v at bound
  dsimp only
  split
  · simp [behind, high]
  · split
    · have whole : v / 64 % 32 = v / 64 := by omega
      simp [behind, high, whole]
    · split
      · have whole : v / 4096 % 16 = v / 4096 := by omega
        simp [behind, high, Nat.div_div_eq_div_mul, whole]
      · have whole : v / 262144 % 8 = v / 262144 := by omega
        simp [behind, high, Nat.div_div_eq_div_mul, whole]

theorem first_lt (bound : v < 0x110000) : first v < 256 := by
  rcases first_cases v with ⟨_, f, _⟩ | ⟨_, f, _⟩ | ⟨_, f, _⟩ | ⟨_, f, _⟩ <;> omega

-- Where the first bytes are alike, so are the numbers of bytes and the highest bits.
theorem first_ordered (bound : w < 0x110000) (less : v < w) :
    first v < first w ∨ first v = first w ∧ followers v = followers w ∧ high v (followers v) = high w (followers w) := by
  rcases first_cases v with ⟨_, f, m⟩ | ⟨_, f, m⟩ | ⟨_, f, m⟩ | ⟨_, f, m⟩ <;>
    rcases first_cases w with ⟨_, g, n⟩ | ⟨_, g, n⟩ | ⟨_, g, n⟩ | ⟨_, g, n⟩ <;>
      rw [f, g, m, n] <;> simp only [high, true_and] <;> omega

theorem encode_below (less : c < d) : Below (String.utf8EncodeChar c) (String.utf8EncodeChar d) := by
  have codes : c.val.toNat < d.val.toNat := less
  have bound := code_lt d
  rw [encode_eq, encode_eq]
  rcases first_ordered bound codes with different | ⟨same, sameCount, sameFront⟩
  · exact .here (ofNat_lt_ofNat different (first_lt bound))
  · rw [← sameCount] at sameFront ⊢
    rw [same]
    exact .later (behind_below sameFront codes)

theorem encoded_lt {l m : List Char} (less : l < m) : l.flatMap String.utf8EncodeChar < m.flatMap String.utf8EncodeChar := by
  induction less with
  | nil =>
    rw [List.flatMap_cons, encode_eq]
    exact List.nil_lt_cons _ _
  | rel below =>
    rw [List.flatMap_cons, List.flatMap_cons]
    exact (encode_below below).append_lt _ _
  | cons _ ih =>
    rw [List.flatMap_cons, List.flatMap_cons]
    exact List.append_left_lt ih

theorem bytes_lt (less : s < t) : bytes s < bytes t := by
  rw [bytes_eq, bytes_eq]
  exact encoded_lt less

theorem bytes_lt_iff : bytes s < bytes t ↔ s < t := by
  refine ⟨?_, bytes_lt⟩
  intro less
  by_cases same : s = t
  · subst same
    exact absurd less (List.lt_irrefl _)
  · rcases Key.connected same with below | above
    · exact below
    · exact absurd (bytes_lt above) (List.lt_asymm less)

end Utf8

end ScopedAccess
