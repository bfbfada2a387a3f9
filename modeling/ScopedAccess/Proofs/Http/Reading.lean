import Mathlib.Data.Nat.Digits.Defs
import ScopedAccess.Http.Body
import ScopedAccess.Proofs.ByteOrder

namespace ScopedAccess

def HexDigit (c : Char) (n : Nat) : Prop :=
  (c, n) ∈ "0123456789abcdef".toList.zipIdx ∨ (c, n) ∈ "0123456789ABCDEF".toList.zipIdx

instance {c : Char} {n : Nat} : Decidable (HexDigit c n) := inferInstanceAs (Decidable (_ ∨ _))

theorem exists_hexDigit : ∀ {n : Nat}, n < 16 → ∃ c, HexDigit c n := by
  have each : ∀ n : Fin 16, HexDigit "0123456789abcdef".toList[n.val] n := by decide
  intro n small
  exact ⟨_, each ⟨n, small⟩⟩

theorem HexDigit.hexValue? {c : Char} {n : Nat} (digit : HexDigit c n) : hexValue? c = some n := by
  have each : ∀ p ∈ "0123456789abcdef".toList.zipIdx ++ "0123456789ABCDEF".toList.zipIdx,
      ScopedAccess.hexValue? p.1 = some p.2 := by
    decide
  exact each (c, n) (List.mem_append.mpr digit)

namespace Http

inductive Quad : List Char → Nat → Prop where
  | intro {a b c d : Char} {i j k l : Nat} (first : HexDigit a i) (second : HexDigit b j) (third : HexDigit c k)
      (fourth : HexDigit d l) : Quad [a, b, c, d] (((i * 16 + j) * 16 + k) * 16 + l)

theorem exists_quad {n : Nat} (small : n < 0x10000) : ∃ text, Quad text n := by
  obtain ⟨a, first⟩ := exists_hexDigit (show n / 4096 < 16 by omega)
  obtain ⟨b, second⟩ := exists_hexDigit (show n / 256 % 16 < 16 by omega)
  obtain ⟨c, third⟩ := exists_hexDigit (show n / 16 % 16 < 16 by omega)
  obtain ⟨d, fourth⟩ := exists_hexDigit (show n % 16 < 16 by omega)
  have whole : ((n / 4096 * 16 + n / 256 % 16) * 16 + n / 16 % 16) * 16 + n % 16 = n := by omega
  exact ⟨[a, b, c, d], whole ▸ .intro first second third fourth⟩

def shortEscapes : List (Char × Char) :=
  [('"', '"'), ('\\', '\\'), ('/', '/'), ('b', '\x08'), ('f', '\x0c'), ('n', '\n'), ('r', '\r'), ('t', '\t')]

inductive Spells : List Char → List Char → Prop where
  | nil : Spells [] []
  | plain {c : Char} {spelling content : List Char} (unquoted : c ≠ '"') (unescaped : c ≠ '\\') (printed : 0x20 ≤ c.toNat)
      (rest : Spells spelling content) : Spells (c :: spelling) (c :: content)
  | short {letter c : Char} {spelling content : List Char} (meant : (letter, c) ∈ shortEscapes)
      (rest : Spells spelling content) : Spells ('\\' :: letter :: spelling) (c :: content)
  | unit {c : Char} {quad spelling content : List Char} (meant : Quad quad c.toNat) (rest : Spells spelling content) :
      Spells ('\\' :: 'u' :: (quad ++ spelling)) (c :: content)
  -- Beyond the first 65536 characters each of two code units holds ten bits.
  | pair {c : Char} {first second spelling content : List Char} {high low : Nat} (leads : Quad first (0xD800 + high))
      (follows : Quad second (0xDC00 + low)) (tenBits : low < 0x400) (meant : c.toNat = 0x10000 + high * 0x400 + low)
      (rest : Spells spelling content) :
      Spells ('\\' :: 'u' :: (first ++ '\\' :: 'u' :: (second ++ spelling))) (c :: content)

theorem Spells.exists_spelling (content : List Char) : ∃ spelling, Spells spelling content := by
  induction content with
  | nil => exact ⟨[], .nil⟩
  | cons c content ih =>
    obtain ⟨spelling, rest⟩ := ih
    by_cases quote : c = '"'
    · have meant : ('"', c) ∈ shortEscapes := by
        rw [quote]
        decide
      exact ⟨_, .short meant rest⟩
    · by_cases backslash : c = '\\'
      · have meant : ('\\', c) ∈ shortEscapes := by
          rw [backslash]
          decide
        exact ⟨_, .short meant rest⟩
      · by_cases printed : 0x20 ≤ c.toNat
        · exact ⟨_, .plain quote backslash printed rest⟩
        · obtain ⟨quad, meant⟩ := exists_quad (show c.toNat < 0x10000 by omega)
          exact ⟨_, .unit meant rest⟩

def Plain (content : List Char) : Prop := ∀ c ∈ content, c ≠ '"' ∧ c ≠ '\\' ∧ 0x20 ≤ c.toNat

instance {content : List Char} : Decidable (Plain content) := List.decidableBAll ..

theorem Spells.self {content : List Char} (plain : Plain content) : Spells content content := by
  induction content with
  | nil => exact .nil
  | cons c content ih =>
    obtain ⟨unquoted, unescaped, printed⟩ := plain c List.mem_cons_self
    exact .plain unquoted unescaped printed (ih fun d present => plain d (List.mem_cons_of_mem c present))

def Blanks (text : List Char) : Prop := ∀ c ∈ text, c = ' ' ∨ c = '\t' ∨ c = '\n' ∨ c = '\r'

instance {text : List Char} : Decidable (Blanks text) := List.decidableBAll ..

theorem Blanks.nil : Blanks [] := by
  intro c present
  cases present

inductive ValueSpelled : FieldValue → List Char → Prop where
  | text {s : String} {spelling : List Char} (spelled : Spells spelling s.toList) :
      ValueSpelled (.text s) ('"' :: (spelling ++ ['"']))
  | count {n : Nat} (fits : n < twoTo 64) : ValueSpelled (.count (some n)) (Nat.toDigits 10 n)
  | null : ValueSpelled (.count none) ['n', 'u', 'l', 'l']

inductive MemberSpelled : String × FieldValue → List Char → Prop where
  | intro {name : String} {value : FieldValue} {before spelling between within text after : List Char}
      (blanks : Blanks before ∧ Blanks between ∧ Blanks within ∧ Blanks after) (named : Spells spelling name.toList)
      (given : ValueSpelled value text) :
      MemberSpelled (name, value) (before ++ '"' :: (spelling ++ '"' :: (between ++ ':' :: (within ++ (text ++ after)))))

inductive MembersSpelled : Fields → List Char → Prop where
  | last {field : String × FieldValue} {text : List Char} (spelled : MemberSpelled field text) : MembersSpelled [field] text
  | more {field : String × FieldValue} {fields : Fields} {text others : List Char} (spelled : MemberSpelled field text)
      (rest : MembersSpelled fields others) : MembersSpelled (field :: fields) (text ++ ',' :: others)

theorem MembersSpelled.length_le {fields : Fields} {text : List Char} (spelled : MembersSpelled fields text) :
    fields.length ≤ text.length := by
  induction spelled with
  | last spelled =>
    cases spelled
    simp only [List.length_append, List.length_cons, List.length_nil]
    omega
  | more _ _ ih =>
    simp only [List.length_append, List.length_cons]
    omega

inductive ObjectSpelled : Fields → List Char → Prop where
  | intro {fields : Fields} {before text after : List Char} (blanks : Blanks before ∧ Blanks after)
      (members : MembersSpelled fields text) : ObjectSpelled fields (before ++ '\x7b' :: (text ++ '\x7d' :: after))

def Fits : FieldValue → Prop
  | .text _ => True
  | .count none => True
  | .count (some n) => n < twoTo 64

theorem ValueSpelled.exists_spelling {value : FieldValue} (fits : Fits value) : ∃ text, ValueSpelled value text := by
  match value, fits with
  | .text s, _ =>
    obtain ⟨spelling, spelled⟩ := Spells.exists_spelling s.toList
    exact ⟨_, .text spelled⟩
  | .count none, _ => exact ⟨_, .null⟩
  | .count (some _), small => exact ⟨_, .count small⟩

theorem MemberSpelled.exists_spelling {field : String × FieldValue} (fits : Fits field.2) :
    ∃ text, MemberSpelled field text := by
  obtain ⟨spelling, named⟩ := Spells.exists_spelling field.1.toList
  obtain ⟨text, given⟩ := ValueSpelled.exists_spelling fits
  exact ⟨_, .intro ⟨.nil, .nil, .nil, .nil⟩ named given⟩

theorem MembersSpelled.exists_spelling {fields : Fields} (nonempty : fields ≠ []) (fits : ∀ field ∈ fields, Fits field.2) :
    ∃ text, MembersSpelled fields text := by
  induction fields with
  | nil => exact absurd rfl nonempty
  | cons field fields ih =>
    obtain ⟨text, spelled⟩ := MemberSpelled.exists_spelling (fits field List.mem_cons_self)
    cases fields with
    | nil => exact ⟨text, .last spelled⟩
    | cons next others =>
      obtain ⟨text, rest⟩ := ih (List.cons_ne_nil _ _) fun field present => fits field (List.mem_cons_of_mem _ present)
      exact ⟨_, .more spelled rest⟩

theorem ObjectSpelled.exists_spelling {fields : Fields} (nonempty : fields ≠ []) (fits : ∀ field ∈ fields, Fits field.2) :
    ∃ body : String, ObjectSpelled fields body.toList := by
  obtain ⟨text, members⟩ := MembersSpelled.exists_spelling nonempty fits
  have spelled : ObjectSpelled fields ([] ++ '\x7b' :: (text ++ '\x7d' :: [])) := .intro ⟨.nil, .nil⟩ members
  refine ⟨String.ofList ([] ++ '\x7b' :: (text ++ '\x7d' :: [])), ?_⟩
  rw [String.toList_ofList]
  exact spelled

namespace Body

variable {text rest content spelling : List Char} {c : Char} {n : Nat}

theorem codeUnit?_of_quad (quad : Quad text n) :
    ∃ a b c d, text = [a, b, c, d] ∧ codeUnit? a b c d = some n := by
  obtain ⟨first, second, third, fourth⟩ := quad
  refine ⟨_, _, _, _, rfl, ?_⟩
  simp only [codeUnit?, first.hexValue?, second.hexValue?, third.hexValue?, fourth.hexValue?, bind, Option.bind]

theorem escape?_of_mem {letter : Char} (meant : (letter, c) ∈ shortEscapes) : letter ≠ 'u' ∧ escape? letter = some c := by
  have each : ∀ p ∈ shortEscapes, p.1 ≠ 'u' ∧ escape? p.1 = some p.2 := by decide
  exact each (letter, c) meant

theorem not_surrogate (c : Char) : isHighSurrogate c.toNat = false ∧ isLowSurrogate c.toNat = false := by
  have valid := c.valid
  simp only [UInt32.isValidChar, Nat.isValidChar] at valid
  have same : c.toNat = c.val.toNat := rfl
  constructor
  · simp only [isHighSurrogate, Bool.and_eq_false_iff, decide_eq_false_iff_not]
    omega
  · simp only [isLowSurrogate, Bool.and_eq_false_iff, decide_eq_false_iff_not]
    omega

theorem string?_unit {a b c d : Char} (unit : codeUnit? a b c d = some n) (rest : List Char) :
    string? none ('\\' :: 'u' :: a :: b :: c :: d :: rest) =
      if isHighSurrogate n then string? (some n) rest
      else if isLowSurrogate n then none
      else (string? none rest).map fun read => (Char.ofNat n :: read.1, read.2) := by
  rw [string?.eq_def]
  simp only [unit]

theorem string?_second {a b c d : Char} {high : Nat} (unit : codeUnit? a b c d = some n) (rest : List Char) :
    string? (some high) ('\\' :: 'u' :: a :: b :: c :: d :: rest) =
      if isLowSurrogate n then (string? none rest).map fun read => (pair high n :: read.1, read.2) else none := by
  rw [string?.eq_def]
  simp only [unit]

-- The reader stops at the first quote that no backslash stands before.
theorem string?_spelled (spelled : Spells spelling content) (rest : List Char) :
    string? none (spelling ++ '"' :: rest) = some (content, rest) := by
  induction spelled with
  | nil => rfl
  | plain unquoted unescaped printed _ ih =>
    rw [List.cons_append, string?]
    · simp only [isControl, Nat.not_lt.mpr printed, decide_false, Bool.false_eq_true, if_false, ih, Option.map_some]
    all_goals simp_all
  | short meant _ ih =>
    obtain ⟨notUnit, meant⟩ := escape?_of_mem meant
    rw [List.cons_append, List.cons_append, string?]
    · simp only [meant, ih, Option.map_some]
    · intro a b c d rest isUnit
      exact absurd isUnit notUnit
  | unit meant _ ih =>
    obtain ⟨_, _, _, _, rfl, unit⟩ := codeUnit?_of_quad meant
    obtain ⟨notHigh, notLow⟩ := not_surrogate _
    simp only [List.cons_append, List.nil_append]
    rw [string?_unit unit, notHigh, notLow]
    simp only [Bool.false_eq_true, if_false, ih, Option.map_some, Char.ofNat_toNat]
  | @pair ch first second _ _ high low leads follows tenBits meant _ ih =>
    obtain ⟨_, _, _, _, rfl, firstUnit⟩ := codeUnit?_of_quad leads
    obtain ⟨_, _, _, _, rfl, secondUnit⟩ := codeUnit?_of_quad follows
    have bound : ch.toNat < 0x110000 := Utf8.code_lt ch
    have isHigh : isHighSurrogate (0xD800 + high) = true := by
      simp only [isHighSurrogate, Bool.and_eq_true, decide_eq_true_eq]
      omega
    have isLow : isLowSurrogate (0xDC00 + low) = true := by
      simp only [isLowSurrogate, Bool.and_eq_true, decide_eq_true_eq]
      omega
    have whole : pair (0xD800 + high) (0xDC00 + low) = ch := by
      rw [pair, Nat.add_sub_cancel_left, Nat.add_sub_cancel_left, ← meant, Char.ofNat_toNat]
    simp only [List.cons_append, List.nil_append]
    rw [string?_unit firstUnit, isHigh, if_pos rfl, string?_second secondUnit, isLow, if_pos rfl, ih, whole, Option.map_some]

theorem skipBlanks_blanks {blanks : List Char} (blank : Blanks blanks) (rest : List Char) :
    skipBlanks (blanks ++ rest) = skipBlanks rest := by
  apply List.dropWhile_append_of_pos
  intro c present
  rcases blank c present with rfl | rfl | rfl | rfl <;> rfl

theorem skipBlanks_visible (visible : isBlank c = false) (rest : List Char) : skipBlanks (c :: rest) = c :: rest := by
  rw [skipBlanks, List.dropWhile_cons_of_neg (by rw [visible]; decide)]

-- What stands behind a value: a blank, a comma or the end of the object.
inductive Closes : List Char → Prop where
  | intro {c : Char} {rest : List Char} (closing : isBlank c = true ∨ c = ',' ∨ c = '\x7d') : Closes (c :: rest)

theorem Closes.append {blanks : List Char} (closes : Closes rest) (blank : Blanks blanks) : Closes (blanks ++ rest) := by
  cases blanks with
  | nil => exact closes
  | cons c blanks =>
    refine .intro (.inl ?_)
    rcases blank c List.mem_cons_self with rfl | rfl | rfl | rfl <;> rfl

theorem not_digit_of_closing (closing : isBlank c = true ∨ c = ',' ∨ c = '\x7d') :
    c.isDigit = false ∧ c ≠ '.' ∧ c ≠ 'e' ∧ c ≠ 'E' := by
  simp only [isBlank, Bool.or_eq_true, decide_eq_true_eq] at closing
  rcases closing with (((rfl | rfl) | rfl) | rfl) | rfl | rfl <;> decide

theorem digits?_append {digits : List Char} (nonempty : digits ≠ []) (all : ∀ c ∈ digits, c.isDigit = true)
    (closes : Closes rest) : digits? (digits ++ rest) = some (digits, rest) := by
  cases closes with
  | @intro c others closing =>
    have stop : ¬c.isDigit = true := by
      rw [(not_digit_of_closing closing).1]
      decide
    rw [digits?, List.takeWhile_append_of_pos all, List.dropWhile_append_of_pos all, List.takeWhile_cons_of_neg stop,
      List.dropWhile_cons_of_neg stop, List.append_nil]
    cases digits with
    | nil => exact absurd rfl nonempty
    | cons d digits => rfl

theorem toDigits_front (n : Nat) : ∃ d digits, Nat.toDigits 10 n = d :: digits ∧ d.isDigit = true := by
  cases front : Nat.toDigits 10 n with
  | nil => exact absurd front Nat.toDigits_ne_nil
  | cons d digits =>
    exact ⟨d, digits, rfl, Nat.isDigit_of_mem_toDigits (by decide) (by decide) (front ▸ List.mem_cons_self)⟩

theorem visible_of_isDigit (digit : c.isDigit = true) : isBlank c = false := by
  rw [Bool.eq_false_iff]
  intro blank
  rw [(not_digit_of_closing (.inl blank)).1] at digit
  cases digit

theorem toDigits_head (n : Nat) : 0 < n → ∃ d rest, Nat.toDigits 10 n = d :: rest ∧ d ≠ '0' := by
  induction n using Nat.strongRecOn with
  | ind n ih =>
    intro positive
    rw [Nat.toDigits_eq_if (by decide)]
    split
    · rename_i small
      have each : ∀ k : Fin 10, 0 < k.val → k.val.digitChar ≠ '0' := by decide
      exact ⟨_, [], rfl, each ⟨n, small⟩ positive⟩
    · obtain ⟨d, rest, front, nonzero⟩ := ih (n / 10) (by omega) (by omega)
      exact ⟨d, rest ++ [(n % 10).digitChar], by rw [front, List.cons_append], nonzero⟩

theorem wholePart?_toDigits (n : Nat) (closes : Closes rest) :
    wholePart? (Nat.toDigits 10 n ++ rest) = some (Nat.toDigits 10 n, rest) := by
  have all : ∀ c ∈ Nat.toDigits 10 n, c.isDigit = true := fun c present =>
    Nat.isDigit_of_mem_toDigits (by decide) (by decide) present
  rw [wholePart?, digits?_append Nat.toDigits_ne_nil all closes]
  rcases Nat.eq_zero_or_pos n with rfl | positive
  · rfl
  · obtain ⟨d, rest, front, nonzero⟩ := toDigits_head n positive
    rw [front]
    split
    · rename_i equal
      simp only [Option.some.injEq, Prod.mk.injEq, List.cons.injEq] at equal
      exact absurd equal.1.1 nonzero
    · rfl

theorem number?_toDigits (n : Nat) (closes : Closes rest) :
    number? (Nat.toDigits 10 n ++ rest) = some (⟨false, Nat.toDigits 10 n, 0, true⟩, rest) := by
  have unsigned : ∀ others, Nat.toDigits 10 n ++ rest ≠ '-' :: others := by
    intro others equal
    obtain ⟨d, digits, front, isDigit⟩ := toDigits_front n
    rw [front, List.cons_append, List.cons.injEq] at equal
    rw [equal.1] at isDigit
    exact absurd isDigit (by decide)
  have whole := wholePart?_toDigits n closes
  cases closes with
  | @intro c others closing =>
    obtain ⟨_, noPoint, noExponent, noPower⟩ := not_digit_of_closing closing
    have noExponent : exponentPart? (c :: others) = some (0, c :: others, false) := by
      simp only [exponentPart?, noExponent, noPower, decide_false, Bool.or_self, Bool.false_eq_true, if_false]
    simp only [number?, whole, bind, Option.bind]
    split
    · rename_i pointed
      exact absurd (List.cons.inj pointed).1 noPoint
    · simp only [noExponent, List.append_nil, List.length_nil, Int.natCast_zero, Int.sub_zero, Bool.not_false, Bool.and_self]

theorem ofDigits_toDigits (n : Nat) : Number.ofDigits (Nat.toDigits 10 n) = n := by
  have same : Number.ofDigits (Nat.toDigits 10 n) = Nat.ofDigitChars 10 (Nat.toDigits 10 n) 0 := by
    simp only [Number.ofDigits, Nat.ofDigitChars, Nat.mul_comm]
  rw [same, Nat.ofDigitChars_toDigits (by decide) (by decide)]

theorem readText_spelled {s : String} (spelled : Spells spelling s.toList) (rest : List Char) :
    readText ('"' :: (spelling ++ '"' :: rest)) = .ok (.text s, rest) := by
  simp only [readText, skipBlanks_visible (show isBlank '"' = false by decide), string?_spelled spelled, String.ofList_toList]

theorem readCount_toDigits (fits : n < twoTo 64) (closes : Closes rest) :
    readCount (Nat.toDigits 10 n ++ rest) = .ok (.count (some n), rest) := by
  have number := number?_toDigits n closes
  have word : Number.count? ⟨false, Nat.toDigits 10 n, 0, true⟩ = some n := by
    simp only [Number.count?, Number.value, ofDigits_toDigits, Bool.not_false, Bool.and_self, Bool.true_and, decide_eq_true_eq]
    exact if_pos fits
  obtain ⟨d, digits, front, isDigit⟩ := toDigits_front n
  rw [front, List.cons_append] at number
  rw [front, List.cons_append, readCount, skipBlanks_visible (visible_of_isDigit isDigit)]
  split
  · rename_i isNull
    rw [(List.cons.inj isNull).1] at isDigit
    exact absurd isDigit (by decide)
  · rw [number]
    simp only [← front, word]

theorem readText_blanks {blanks : List Char} (blank : Blanks blanks) (text : List Char) :
    readText (blanks ++ text) = readText text := by
  rw [readText, readText, skipBlanks_blanks blank]

theorem readCount_blanks {blanks : List Char} (blank : Blanks blanks) (text : List Char) :
    readCount (blanks ++ text) = readCount text := by
  rw [readCount, readCount, skipBlanks_blanks blank]

def kind : FieldValue → FieldKind
  | .text _ => .text
  | .count _ => .count

theorem readField_spelled {value : FieldValue} {blanks : List Char} (given : ValueSpelled value text)
    (blank : Blanks blanks) (closes : Closes rest) :
    readField (kind value) (blanks ++ (text ++ rest)) = .ok (value, rest) := by
  cases given with
  | text spelled =>
    rw [kind, readField, readText_blanks blank, List.cons_append, List.append_assoc]
    exact readText_spelled spelled rest
  | count fits =>
    rw [kind, readField, readCount_blanks blank]
    exact readCount_toDigits fits closes
  | null =>
    rw [kind, readField, readCount_blanks blank]
    rfl

variable {shape : List (String × FieldKind)} {found fields : Fields} {field : String × FieldValue}

-- The member is read up to the blanks behind it.
theorem readMember_spelled (spelled : MemberSpelled field text) (fresh : found.lookup field.1 = none)
    (shaped : shape.lookup field.1 = some (kind field.2)) (closes : Closes rest) :
    ∃ before behind after, Blanks before ∧ Blanks after ∧ text ++ rest = before ++ '"' :: behind ∧
      readMember shape found behind = .ok (found ++ [field], after ++ rest) := by
  cases spelled with
  | @intro name value before spelling between within text after blanks named given =>
    obtain ⟨beforeBlank, betweenBlank, withinBlank, afterBlank⟩ := blanks
    refine ⟨before, spelling ++ '"' :: (between ++ ':' :: (within ++ (text ++ (after ++ rest)))), after, beforeBlank,
      afterBlank, ?_, ?_⟩
    · simp only [List.append_assoc, List.cons_append]
    · have visible : isBlank ':' = false := by decide
      simp only [readMember, string?_spelled named, String.ofList_toList, fresh, Option.isSome_none, Bool.false_eq_true,
        if_false, skipBlanks_blanks betweenBlank, skipBlanks_visible visible, shaped,
        readField_spelled given withinBlank (closes.append afterBlank), Except.map]

theorem lookup_fresh (names : ((found ++ field :: fields).map Prod.fst).Nodup) : found.lookup field.1 = none := by
  rw [List.lookup_eq_none_iff]
  intro other present
  rw [List.map_append, List.nodup_append] at names
  exact bne_iff_ne.mpr fun same =>
    names.2.2 other.1 (List.mem_map_of_mem present) field.1 (List.mem_map_of_mem List.mem_cons_self) same.symm

-- What the reader makes of a member it has not yet come to: behind a comma, or behind the brace of the object.
theorem readMember_reached (spelled : MemberSpelled field text) (names : ((found ++ field :: fields).map Prod.fst).Nodup)
    (shaped : shape.lookup field.1 = some (kind field.2)) (closes : Closes rest) :
    ∃ behind after, Blanks after ∧ skipBlanks (text ++ rest) = '"' :: behind ∧
      readMember shape found behind = .ok (found ++ [field], after ++ rest) := by
  obtain ⟨before, behind, after, beforeBlank, afterBlank, whole, read⟩ :=
    readMember_spelled spelled (lookup_fresh names) shaped closes
  refine ⟨behind, after, afterBlank, ?_, read⟩
  rw [whole, skipBlanks_blanks beforeBlank, skipBlanks_visible (by decide)]

theorem closes_comma (rest : List Char) : Closes (',' :: rest) := .intro (.inr (.inl rfl))

theorem closes_brace (rest : List Char) : Closes ('\x7d' :: rest) := .intro (.inr (.inr rfl))

theorem readMembers_end {blanks : List Char} (blank : Blanks blanks) (budget : Nat) (rest : List Char) :
    readMembers shape (budget + 1) found (blanks ++ '\x7d' :: rest) = .ok (found, rest) := by
  rw [readMembers, skipBlanks_blanks blank, skipBlanks_visible (by decide)]
  rfl

-- Every member takes one from the budget, and the end another.
theorem readMembers_spelled (spelled : MembersSpelled fields text) (names : ((found ++ fields).map Prod.fst).Nodup)
    (shaped : ∀ field ∈ fields, shape.lookup field.1 = some (kind field.2)) {blanks : List Char} (blank : Blanks blanks)
    {budget : Nat} (enough : fields.length < budget) (rest : List Char) :
    readMembers shape budget found (blanks ++ ',' :: (text ++ '\x7d' :: rest)) = .ok (found ++ fields, rest) := by
  induction spelled generalizing found blanks budget with
  | last spelled =>
    match budget, enough with
    | budget + 2, _ =>
      obtain ⟨behind, after, afterBlank, reached, read⟩ :=
        readMember_reached spelled names (shaped _ List.mem_cons_self) (closes_brace rest)
      rw [readMembers, skipBlanks_blanks blank, skipBlanks_visible (by decide)]
      simp only [reached, read, bind, Except.bind]
      exact readMembers_end afterBlank budget rest
  | @more field fields text others spelled _ ih =>
    match budget, enough with
    | budget + 1, enough =>
      obtain ⟨behind, after, afterBlank, reached, read⟩ := readMember_reached spelled names (shaped field List.mem_cons_self)
        (closes_comma (others ++ '\x7d' :: rest))
      have namesBehind : ((found ++ [field] ++ fields).map Prod.fst).Nodup := by
        rw [List.append_assoc, List.singleton_append]
        exact names
      have later := ih namesBehind (fun other present => shaped other (List.mem_cons_of_mem field present)) afterBlank
        (Nat.lt_of_succ_lt_succ enough)
      rw [readMembers, skipBlanks_blanks blank, skipBlanks_visible (by decide), List.append_assoc, List.cons_append]
      simp only [reached, read, bind, Except.bind]
      rw [later, List.append_assoc, List.singleton_append]

theorem readObject_spelled (spelled : MembersSpelled fields text) (names : (fields.map Prod.fst).Nodup)
    (shaped : ∀ field ∈ fields, shape.lookup field.1 = some (kind field.2)) (rest : List Char) :
    readObject shape (text ++ '\x7d' :: rest) = .ok (fields, rest) := by
  have named : (([] ++ fields).map Prod.fst).Nodup := names
  cases spelled with
  | last spelled =>
    obtain ⟨behind, after, afterBlank, reached, read⟩ :=
      readMember_reached spelled named (shaped _ List.mem_cons_self) (closes_brace rest)
    simp only [readObject, reached, read, bind, Except.bind]
    exact readMembers_end afterBlank _ rest
  | @more field fields text others spelled more =>
    obtain ⟨behind, after, afterBlank, reached, read⟩ := readMember_reached spelled named (shaped field List.mem_cons_self)
      (closes_comma (others ++ '\x7d' :: rest))
    have enough : fields.length < (after ++ ',' :: (others ++ '\x7d' :: rest)).length + 1 := by
      have bound := more.length_le
      simp only [List.length_append, List.length_cons]
      omega
    have namesBehind : (([] ++ [field] ++ fields).map Prod.fst).Nodup := names
    have later := readMembers_spelled more namesBehind (fun other present => shaped other (List.mem_cons_of_mem field present))
      afterBlank enough rest
    rw [List.append_assoc, List.cons_append]
    simp only [readObject, reached, read, bind, Except.bind]
    exact later

-- The reader of bodies hands on the fields of the object in the order in which they stand in it.
theorem read_spelled {α : Type} {ofFields : Fields → Option α} {value : α} {body : String}
    (spelled : ObjectSpelled fields body.toList) (names : (fields.map Prod.fst).Nodup)
    (shaped : ∀ field ∈ fields, shape.lookup field.1 = some (kind field.2)) (taken : ofFields fields = some value) :
    Body.read shape ofFields body = .ok value := by
  generalize written : body.toList = text at spelled
  cases spelled with
  | @intro before text after blanks members =>
    obtain ⟨beforeBlank, afterBlank⟩ := blanks
    have ended : skipBlanks after = [] := by
      rw [← List.append_nil after, skipBlanks_blanks afterBlank]
      rfl
    rw [Body.read, written, skipBlanks_blanks beforeBlank, skipBlanks_visible (by decide)]
    simp only [readObject_spelled members names shaped after, bind, Except.bind, taken, require, readEnd, ended,
      List.isEmpty_nil, if_true]

end Body

end Http

end ScopedAccess
