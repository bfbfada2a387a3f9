import ScopedAccess.Number

namespace ScopedAccess

namespace Utf8

-- What stands in front of a sequence of bytes: a character, bytes that no character starts with, or
-- the start of a character whose other bytes are missing.
inductive Front where
  | character (size : Nat)
  | broken (size : Nat)
  | cut
deriving DecidableEq, Repr

def tail : Nat × Nat := (0x80, 0xBF)

def followers? (first : Nat) : Option (List (Nat × Nat)) :=
  if first < 0x80 then some []
  else if first < 0xC2 then none
  else if first < 0xE0 then some [tail]
  else if first = 0xE0 then some [(0xA0, 0xBF), tail]
  else if first = 0xED then some [(0x80, 0x9F), tail]
  else if first < 0xF0 then some [tail, tail]
  else if first = 0xF0 then some [(0x90, 0xBF), tail, tail]
  else if first < 0xF4 then some [tail, tail, tail]
  else if first = 0xF4 then some [(0x80, 0x8F), tail, tail]
  else none

def follow (size : Nat) : List (Nat × Nat) → List UInt8 → Front
  | [], _ => .character size
  | _ :: _, [] => .cut
  | (low, high) :: ranges, b :: rest =>
    if low ≤ b.toNat && b.toNat ≤ high then follow (size + 1) ranges rest else .broken size

def front (first : UInt8) (rest : List UInt8) : Front :=
  match followers? first.toNat with
  | some ranges => follow 1 ranges rest
  | none => .broken 1

-- The first place where no character starts, with the number of bytes that are wrong there if the
-- bytes do not just end too early.
structure Break where
  place : Nat
  size : Option Nat
deriving DecidableEq, Repr

def Break.describe (b : Break) : String :=
  match b.size with
  | some n => "invalid utf-8 sequence of " ++ toString n ++ " bytes from index " ++ toString b.place
  | none => "incomplete utf-8 byte sequence from index " ++ toString b.place

-- `inside` counts the bytes still to come of the character at hand.
def breakFrom? (place inside : Nat) : List UInt8 → Option Break
  | [] => none
  | b :: rest =>
    match inside, front b rest with
    | left + 1, _ => breakFrom? (place + 1) left rest
    | 0, .character size => breakFrom? (place + 1) (size - 1) rest
    | 0, .broken size => some ⟨place, some size⟩
    | 0, .cut => some ⟨place, none⟩

def break? (bytes : List UInt8) : Option Break := breakFrom? 0 0 bytes

def replacement : List UInt8 := [0xEF, 0xBF, 0xBD]

-- `kept` and `dropped` count the bytes to come that are settled already.
def repairFrom (kept dropped : Nat) : List UInt8 → List UInt8
  | [] => []
  | b :: rest =>
    match kept, dropped, front b rest with
    | left + 1, _, _ => b :: repairFrom left 0 rest
    | 0, left + 1, _ => repairFrom 0 left rest
    | 0, 0, .character size => b :: repairFrom (size - 1) 0 rest
    | 0, 0, .broken size => replacement ++ repairFrom 0 (size - 1) rest
    | 0, 0, .cut => replacement

def repaired (bytes : List UInt8) : String := (String.fromUTF8? ⟨(repairFrom 0 0 bytes).toArray⟩).getD ""

end Utf8

def splitAtLast (sep : Char) : List Char → Option (List Char × List Char)
  | [] => none
  | c :: rest =>
    match splitAtLast sep rest with
    | some (before, after) => some (c :: before, after)
    | none => if c = sep then some ([], rest) else none

theorem splitAtLast_eq_none_iff {sep : Char} {text : List Char} : splitAtLast sep text = none ↔ sep ∉ text := by
  induction text with
  | nil => simp [splitAtLast]
  | cons c rest ih =>
    unfold splitAtLast
    split
    · simp_all
    · rename_i absent
      have := ih.mp absent
      grind

theorem splitAtLast_eq_some_iff {sep : Char} {text before after : List Char} :
    splitAtLast sep text = some (before, after) ↔ text = before ++ sep :: after ∧ sep ∉ after := by
  induction text generalizing before after with
  | nil => simp [splitAtLast]
  | cons c rest ih =>
    unfold splitAtLast
    split
    · rename_i front back found
      have shape := ih.mp found
      constructor
      · intro same
        simp only [Option.some.injEq, Prod.mk.injEq] at same
        obtain ⟨rfl, rfl⟩ := same
        exact ⟨by rw [shape.1]; rfl, shape.2⟩
      · rintro ⟨same, later⟩
        cases before with
        | nil =>
          obtain ⟨rfl, rfl⟩ := List.cons.inj same
          rw [splitAtLast_eq_none_iff.mpr later] at found
          cases found
        | cons d front' =>
          obtain ⟨rfl, tail⟩ := List.cons.inj same
          have := ih.mpr ⟨tail, later⟩
          rw [found] at this
          grind
    · rename_i absent
      have plain := splitAtLast_eq_none_iff.mp absent
      constructor
      · grind
      · rintro ⟨same, later⟩
        cases before with
        | nil => grind
        | cons d front' =>
          obtain ⟨rfl, tail⟩ := List.cons.inj same
          exact absurd (tail ▸ List.mem_append_right _ (List.mem_cons_self ..)) plain

namespace PercentEncoding

def escaped? (high low : Char) : Option UInt8 := do
  let h ← hexValue? high
  let l ← hexValue? low
  some (h * 16 + l).toUInt8

-- A percent sign without two digits behind it stands for itself.
def bytes : List Char → List UInt8
  | [] => []
  | '%' :: high :: low :: rest =>
    match escaped? high low with
    | some b => b :: bytes rest
    | none => String.utf8EncodeChar '%' ++ bytes (high :: low :: rest)
  | c :: rest => String.utf8EncodeChar c ++ bytes rest

def decodeRepaired (text : List Char) : String := Utf8.repaired (bytes text)

def decode? (text : String) : Option String := String.fromUTF8? ⟨(bytes text.toList).toArray⟩

end PercentEncoding

end ScopedAccess
