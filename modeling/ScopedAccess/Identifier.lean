namespace ScopedAccess

def isTypeTag (text : String) : Bool :=
  let chars := text.toList
  !chars.isEmpty && chars.all fun c => c.isAlphanum || c = '_' || c = ':' || c = '.' || c = '-'

def isIdentifier (text : String) : Bool :=
  match text.toList with
  | [] => false
  | c :: rest => (c.isAlpha || c = '_') && rest.all fun d => d.isAlphanum || d = '_'

def IsTag (text : String) : Prop :=
  text ≠ "" ∧ ∀ c ∈ text.toList, c.isAlphanum = true ∨ c = '_' ∨ c = ':' ∨ c = '.' ∨ c = '-'

-- A name that a query can hold as it is.
def IsPlainName (text : String) : Prop :=
  ∃ c rest, text.toList = c :: rest ∧ (c.isAlpha = true ∨ c = '_') ∧ ∀ d ∈ rest, d.isAlphanum = true ∨ d = '_'

theorem isTypeTag_iff {text : String} : isTypeTag text = true ↔ IsTag text := by
  have filled : text.toList.isEmpty = false ↔ text ≠ "" := by
    rw [List.isEmpty_eq_false_iff, ne_eq, ne_eq, ← String.toList_inj]
    rfl
  simp only [isTypeTag, IsTag, ← filled, Bool.and_eq_true, Bool.not_eq_true', List.all_eq_true, Bool.or_eq_true,
    decide_eq_true_eq, or_assoc]

theorem isIdentifier_iff {text : String} : isIdentifier text = true ↔ IsPlainName text := by
  unfold isIdentifier IsPlainName
  cases text.toList with
  | nil => simp
  | cons c rest =>
    simp only [Bool.and_eq_true, Bool.or_eq_true, decide_eq_true_eq, List.all_eq_true]
    constructor
    · intro given
      exact ⟨c, rest, rfl, given⟩
    · intro given
      obtain ⟨_, _, same, shape⟩ := given
      cases same
      exact shape

instance : DecidablePred IsTag := fun _ => decidable_of_iff _ isTypeTag_iff

instance : DecidablePred IsPlainName := fun _ => decidable_of_iff _ isIdentifier_iff

theorem IsPlainName.not_mem {text : String} (plain : IsPlainName text) {c : Char} (odd : c.isAlphanum = false) (other : c ≠ '_') :
    c ∉ text.toList := by
  obtain ⟨first, rest, shape, opens, follows⟩ := plain
  rw [shape]
  intro member
  rcases List.mem_cons.mp member with rfl | later
  · rcases opens with letter | same
    · simp [Char.isAlphanum, letter] at odd
    · exact other same
  · rcases follows c later with letter | same
    · rw [letter] at odd
      cases odd
    · exact other same

end ScopedAccess
