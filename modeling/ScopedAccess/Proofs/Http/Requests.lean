import Mathlib.Data.List.TakeWhile
import ScopedAccess.Http.Router
import ScopedAccess.Proofs.Http.Reading

namespace ScopedAccess.Http

-- What need not be escaped in a segment of a path.
def isSegmentChar (c : Char) : Bool := c.isAlphanum || "-._~!$&'()*+,;=:@".toList.contains c

inductive Escapes : List Char → List UInt8 → Prop where
  | nil : Escapes [] []
  | byte {high low : Char} {b : UInt8} {text : List Char} {bytes : List UInt8} (upper : HexDigit high (b.toNat / 16))
      (lower : HexDigit low (b.toNat % 16)) (rest : Escapes text bytes) : Escapes ('%' :: high :: low :: text) (b :: bytes)

inductive Encodes : List Char → List Char → Prop where
  | nil : Encodes [] []
  | plain {c : Char} {segment content : List Char} (allowed : isSegmentChar c = true) (rest : Encodes segment content) :
      Encodes (c :: segment) (c :: content)
  | escaped {c : Char} {text segment content : List Char} (whole : Escapes text (String.utf8EncodeChar c))
      (rest : Encodes segment content) : Encodes (text ++ segment) (c :: content)

section

variable {c : Char} {text segment content : List Char} {bytes : List UInt8}

theorem Escapes.exists_text (bytes : List UInt8) : ∃ text, Escapes text bytes := by
  induction bytes with
  | nil => exact ⟨[], .nil⟩
  | cons b bytes ih =>
    obtain ⟨text, rest⟩ := ih
    have size := b.toNat_lt
    obtain ⟨high, upper⟩ := exists_hexDigit (show b.toNat / 16 < 16 by omega)
    obtain ⟨low, lower⟩ := exists_hexDigit (show b.toNat % 16 < 16 by omega)
    exact ⟨_, .byte upper lower rest⟩

theorem Encodes.self (allowed : content.all isSegmentChar = true) : Encodes content content := by
  induction content with
  | nil => exact .nil
  | cons c content ih =>
    rw [List.all_cons, Bool.and_eq_true] at allowed
    exact .plain allowed.1 (ih allowed.2)

theorem Encodes.exists_segment (content : List Char) : ∃ segment, Encodes segment content := by
  induction content with
  | nil => exact ⟨[], .nil⟩
  | cons c content ih =>
    obtain ⟨segment, rest⟩ := ih
    obtain ⟨text, whole⟩ := Escapes.exists_text (String.utf8EncodeChar c)
    exact ⟨_, .escaped whole rest⟩

theorem Encodes.exists_part (s : String) : ∃ part : String, Encodes part.toList s.toList := by
  obtain ⟨segment, encodes⟩ := Encodes.exists_segment s.toList
  exact ⟨String.ofList segment, String.toList_ofList.symm ▸ encodes⟩

theorem escaped?_of_digits {high low : Char} {b : UInt8} (upper : HexDigit high (b.toNat / 16))
    (lower : HexDigit low (b.toNat % 16)) : PercentEncoding.escaped? high low = some b := by
  have whole : b.toNat / 16 * 16 + b.toNat % 16 = b.toNat := by omega
  simp only [PercentEncoding.escaped?, upper.hexValue?, lower.hexValue?, bind, Option.bind, whole, Nat.toUInt8_eq,
    UInt8.ofNat_toNat]

theorem Escapes.bytes_append (escapes : Escapes text bytes) (rest : List Char) :
    PercentEncoding.bytes (text ++ rest) = bytes ++ PercentEncoding.bytes rest := by
  induction escapes with
  | nil => rfl
  | byte upper lower _ ih => simp only [List.cons_append, PercentEncoding.bytes, escaped?_of_digits upper lower, ih]

theorem not_special_of_allowed (allowed : isSegmentChar c = true) : c ≠ '%' ∧ c ≠ '/' ∧ c ≠ '?' ∧ c ≠ '#' := by
  refine ⟨?_, ?_, ?_, ?_⟩
  all_goals
    rintro rfl
    exact absurd allowed (by decide)

theorem Encodes.bytes_eq (encodes : Encodes segment content) :
    PercentEncoding.bytes segment = content.flatMap String.utf8EncodeChar := by
  induction encodes with
  | nil => rfl
  | plain allowed _ ih =>
    rw [PercentEncoding.bytes, ih, List.flatMap_cons]
    intro high low rest percent
    exact absurd percent (not_special_of_allowed allowed).1
  | escaped whole _ ih => rw [whole.bytes_append, ih, List.flatMap_cons]

theorem Encodes.decoded {part s : String} (encodes : Encodes part.toList s.toList) :
    PercentEncoding.decode? part = some s := by
  have whole : ByteArray.mk (PercentEncoding.bytes part.toList).toArray = s.toByteArray := by
    rw [encodes.bytes_eq, ← String.utf8Encode_toList, ← List.data_toByteArray]
    rfl
  rw [PercentEncoding.decode?, whole, String.fromUTF8?, dif_pos s.isValidUTF8]
  rfl

theorem Encodes.ne_empty {part s : String} (encodes : Encodes part.toList s.toList) (nonempty : s ≠ "") : part ≠ "" := by
  rintro rfl
  have decoded := encodes.decoded
  rw [show PercentEncoding.decode? "" = some "" by decide, Option.some.injEq] at decoded
  exact nonempty decoded.symm

-- A segment holds nothing that ends it.
theorem not_special_of_digit {n : Nat} (digit : HexDigit c n) : c ≠ '/' ∧ c ≠ '?' ∧ c ≠ '#' := by
  refine ⟨?_, ?_, ?_⟩
  all_goals
    rintro rfl
    exact absurd digit.hexValue? (by simp [hexValue?])

theorem Escapes.not_special (escapes : Escapes text bytes) : ∀ c ∈ text, c ≠ '/' ∧ c ≠ '?' ∧ c ≠ '#' := by
  induction escapes with
  | nil =>
    intro c present
    cases present
  | byte upper lower _ ih =>
    intro c present
    rcases List.mem_cons.mp present with rfl | present
    · decide
    · rcases List.mem_cons.mp present with rfl | present
      · exact not_special_of_digit upper
      · rcases List.mem_cons.mp present with rfl | present
        · exact not_special_of_digit lower
        · exact ih c present

theorem Encodes.not_special (encodes : Encodes segment content) : ∀ c ∈ segment, c ≠ '/' ∧ c ≠ '?' ∧ c ≠ '#' := by
  induction encodes with
  | nil =>
    intro c present
    cases present
  | plain allowed _ ih =>
    intro c present
    rcases List.mem_cons.mp present with rfl | present
    · exact (not_special_of_allowed allowed).2
    · exact ih c present
  | escaped whole _ ih =>
    intro c present
    rcases List.mem_append.mp present with present | present
    · exact whole.not_special c present
    · exact ih c present

def Leads (r : Request) (parts : List String) : Prop := r.path.toList = parts.flatMap fun part => '/' :: part.toList

def Unbroken (part : String) : Prop := ∀ c ∈ part.toList, c ≠ '/' ∧ c ≠ '?' ∧ c ≠ '#'

instance {part : String} : Decidable (Unbroken part) := List.decidableBAll ..

theorem splitOn_slashes {parts : List String} (unbroken : ∀ part ∈ parts, Unbroken part) {front : List Char}
    (apart : '/' ∉ front) :
    (front ++ parts.flatMap fun part => '/' :: part.toList).splitOn '/' = front :: parts.map String.toList := by
  induction parts generalizing front with
  | nil =>
    rw [List.flatMap_nil, List.append_nil]
    exact List.splitOn_eq_singleton apart
  | cons part parts ih =>
    have apartNext : '/' ∉ part.toList := fun present => (unbroken part List.mem_cons_self '/' present).1 rfl
    rw [List.flatMap_cons, List.cons_append, List.splitOn_append_cons_self_of_not_mem apart, List.map_cons,
      ih (fun other present => unbroken other (List.mem_cons_of_mem part present)) apartNext]

theorem Leads.segments_eq {r : Request} {parts : List String} (leads : Leads r parts)
    (unbroken : ∀ part ∈ parts, Unbroken part) : r.segments = "" :: parts := by
  have here : withoutHost r.path.toList = r.path.toList := by
    rw [leads]
    cases parts <;> rfl
  have whole : r.path.toList.takeWhile (!endsPath ·) = r.path.toList := by
    rw [leads, List.takeWhile_eq_self_iff]
    intro c present
    obtain ⟨part, given, present⟩ := List.mem_flatMap.mp present
    rcases List.mem_cons.mp present with rfl | present
    · rfl
    · obtain ⟨_, noQuery, noFragment⟩ := unbroken part given c present
      simp only [endsPath, noQuery, noFragment, decide_false, Bool.or_self, Bool.not_false]
  have split : r.path.toList.splitOn '/' = [] :: parts.map String.toList := by
    rw [leads]
    exact splitOn_slashes unbroken List.not_mem_nil
  have back : String.ofList ∘ String.toList = id := funext fun part => String.ofList_toList
  rw [Request.segments, here, whole, split, List.map_cons, List.map_map, back, List.map_id]

end

def Sends (r : Request) (fields : Fields) : Prop := r.isJson = true ∧ ObjectSpelled fields r.body.toList

-- Without a deadline the field is left out or null, and otherwise it counts milliseconds.
inductive Timed : Option Duration → Fields → Prop where
  | absent : Timed none []
  | null : Timed none [("timeout_ms", .count none)]
  | within (millis : Nat) : Timed (some (.ofMillis millis)) [("timeout_ms", .count (some millis))]

def checkFields (user action : String) (i : Instance) (limit : Fields) : Fields :=
  [("user_id", .text user), ("action", .text action), ("resource_type", .text i.resourceType), ("resource_id", .text i.id)] ++
    limit

def filterFields (user action resourceType : String) (limit : Fields) : Fields :=
  [("user_id", .text user), ("action", .text action), ("resource_type", .text resourceType)] ++ limit

def assignmentFields (x : Assignment) : Fields :=
  [("user_id", .text x.user), ("resource_type", .text x.resourceType), ("resource_id", .text x.resourceId),
    ("role", .text x.role)]

inductive Asks (r : Request) : Operation → Prop where
  | compile (method : r.method = "POST") (path : Leads r ["v1", "compile"]) : Asks r .compile
  | check {user action : String} {i : Instance} {time : Option Duration} {limit fields : Fields}
      (method : r.method = "POST") (path : Leads r ["v1", "check"]) (timed : Timed time limit) (sends : Sends r fields)
      (given : fields.Perm (checkFields user action i limit)) : Asks r (.check user action i time)
  | filter {user action resourceType : String} {time : Option Duration} {limit fields : Fields}
      (method : r.method = "POST") (path : Leads r ["v1", "filter"]) (timed : Timed time limit) (sends : Sends r fields)
      (given : fields.Perm (filterFields user action resourceType limit)) :
      Asks r (.filter user action resourceType time)
  | assign {x : Assignment} {fields : Fields} (method : r.method = "POST") (path : Leads r ["v1", "assignments"])
      (sends : Sends r fields) (given : fields.Perm (assignmentFields x)) : Asks r (.assign x)
  | revoke {x : Assignment} {fields : Fields} (method : r.method = "DELETE") (path : Leads r ["v1", "assignments"])
      (sends : Sends r fields) (given : fields.Perm (assignmentFields x)) : Asks r (.revoke x)
  | list {user part : String} (method : r.method = "GET") (path : Leads r ["v1", "assignments", part])
      (nonempty : user ≠ "") (encoded : Encodes part.toList user.toList) : Asks r (.list user)
  | roles (method : r.method = "GET") (path : Leads r ["v1", "roles"]) : Asks r .roles
  | ancestors {i : Instance} {typePart idPart : String} (method : r.method = "GET")
      (path : Leads r ["v1", "ancestors", typePart, idPart]) (nonempty : i.resourceType ≠ "" ∧ i.id ≠ "")
      (encoded : Encodes typePart.toList i.resourceType.toList ∧ Encodes idPart.toList i.id.toList) : Asks r (.ancestors i)

-- The operations that have an endpoint, with what can be said in a request: a deadline in milliseconds that fits its
-- word, and segments that are not empty.
inductive Offered : Operation → Prop where
  | compile : Offered .compile
  | check {user action : String} {i : Instance} {time : Option Duration}
      (timed : ∀ limit, time = some limit → ∃ millis < twoTo 64, limit = .ofMillis millis) :
      Offered (.check user action i time)
  | filter {user action resourceType : String} {time : Option Duration}
      (timed : ∀ limit, time = some limit → ∃ millis < twoTo 64, limit = .ofMillis millis) :
      Offered (.filter user action resourceType time)
  | assign {x : Assignment} : Offered (.assign x)
  | revoke {x : Assignment} : Offered (.revoke x)
  | list {user : String} (nonempty : user ≠ "") : Offered (.list user)
  | roles : Offered .roles
  | ancestors {i : Instance} (nonempty : i.resourceType ≠ "" ∧ i.id ≠ "") : Offered (.ancestors i)

variable {r : Request} {a : Authorizer} {operation : Operation} {fields others limit : Fields} {time : Option Duration}

theorem lookup_perm (perm : fields.Perm others) (names : (others.map Prod.fst).Nodup) (name : String) :
    fields.lookup name = others.lookup name := by
  induction perm with
  | nil => rfl
  | cons field _ ih =>
    rw [List.map_cons, List.nodup_cons] at names
    rw [List.lookup_cons, List.lookup_cons, ih names.2]
  | swap first second rest =>
    rw [List.map_cons, List.map_cons, List.nodup_cons] at names
    have apart : first.1 ≠ second.1 := fun same => names.1 (List.mem_cons.mpr (.inl same))
    rw [List.lookup_cons, List.lookup_cons, List.lookup_cons, List.lookup_cons]
    by_cases isFirst : name = first.1
    · rw [isFirst, beq_self_eq_true, beq_eq_false_iff_ne.mpr apart]
    · rw [beq_eq_false_iff_ne.mpr isFirst]
  | trans _ behind ihFront ih =>
    rw [ihFront ((behind.map Prod.fst).nodup_iff.mpr names), ih names]

theorem text?_congr (same : ∀ name, fields.lookup name = others.lookup name) (name : String) :
    fields.text? name = others.text? name := by
  rw [Fields.text?, Fields.text?, same]

theorem deadline_congr (same : ∀ name, fields.lookup name = others.lookup name) : deadline fields = deadline others := by
  rw [deadline, deadline, Fields.count?, Fields.count?, same]

theorem readBody_sent {α : Type} {shape : List (String × FieldKind)} {ofFields : Fields → Option α} {value : α}
    (sends : Sends r fields) (given : fields.Perm others) (names : (others.map Prod.fst).Nodup)
    (shaped : ∀ field ∈ others, shape.lookup field.1 = some (Body.kind field.2)) (taken : ofFields fields = some value) :
    r.readBody shape ofFields = .ok value := by
  obtain ⟨isJson, spelled⟩ := sends
  have read := Body.read_spelled spelled ((given.map Prod.fst).nodup_iff.mpr names)
    (fun field present => shaped field (given.mem_iff.mp present)) taken
  rw [Request.readBody, if_pos isJson, read]
  rfl

theorem Timed.shaped {shape : List (String × FieldKind)} (timed : Timed time limit)
    (known : shape.lookup "timeout_ms" = some .count) :
    ∀ field ∈ limit, shape.lookup field.1 = some (Body.kind field.2) := by
  cases timed with
  | absent => exact List.forall_mem_nil _
  | null => exact List.forall_mem_singleton.mpr known
  | within millis => exact List.forall_mem_singleton.mpr known

theorem readBody_check {user action : String} {i : Instance} (timed : Timed time limit) (sends : Sends r fields)
    (given : fields.Perm (checkFields user action i limit)) :
    r.readBody checkShape checkOf = .ok (.check user action i time) := by
  have names : ((checkFields user action i limit).map Prod.fst).Nodup := by
    cases timed <;> simp [checkFields]
  have same := lookup_perm given names
  refine readBody_sent sends given names ?_ ?_
  · rw [checkFields, List.forall_mem_append]
    simp only [List.forall_mem_cons]
    exact ⟨⟨rfl, rfl, rfl, rfl, List.forall_mem_nil _⟩, timed.shaped rfl⟩
  · simp only [checkOf, text?_congr same, deadline_congr same]
    cases timed <;> rfl

theorem readBody_filter {user action resourceType : String} (timed : Timed time limit) (sends : Sends r fields)
    (given : fields.Perm (filterFields user action resourceType limit)) :
    r.readBody filterShape filterOf = .ok (.filter user action resourceType time) := by
  have names : ((filterFields user action resourceType limit).map Prod.fst).Nodup := by
    cases timed <;> simp [filterFields]
  have same := lookup_perm given names
  refine readBody_sent sends given names ?_ ?_
  · rw [filterFields, List.forall_mem_append]
    simp only [List.forall_mem_cons]
    exact ⟨⟨rfl, rfl, rfl, List.forall_mem_nil _⟩, timed.shaped rfl⟩
  · simp only [filterOf, text?_congr same, deadline_congr same]
    cases timed <;> rfl

theorem readBody_assignment {x : Assignment} (sends : Sends r fields) (given : fields.Perm (assignmentFields x)) :
    r.readBody assignmentShape assignmentOf = .ok x := by
  have names : ((assignmentFields x).map Prod.fst).Nodup := by
    simp [assignmentFields]
  have same := lookup_perm given names
  refine readBody_sent sends given names ?_ ?_
  · simp only [assignmentFields, List.forall_mem_cons]
    exact ⟨rfl, rfl, rfl, rfl, List.forall_mem_nil _⟩
  · simp only [assignmentOf, text?_congr same]
    rfl

theorem parameter_encoded {name part text : String} (encoded : Encodes part.toList text.toList) :
    parameter name part = .ok text := by
  rw [parameter, encoded.decoded]

structure Reaches (r : Request) (endpoint : Endpoint) : Prop where
  known : Endpoint.ofSegments? r.segments = some endpoint
  allowed : r.method ∈ endpoint.methods
  whole : r.method ≠ "HEAD"

theorem Reaches.intro {endpoint : Endpoint} {parts : List String} {method : String} (isMethod : r.method = method)
    (path : Leads r parts) (unbroken : ∀ part ∈ parts, Unbroken part)
    (known : Endpoint.ofSegments? ("" :: parts) = some endpoint) (allowed : method ∈ endpoint.methods ∧ method ≠ "HEAD") :
    Reaches r endpoint where
  known := by
    rw [path.segments_eq unbroken]
    exact known
  allowed := by
    rw [isMethod]
    exact allowed.1
  whole := by
    rw [isMethod]
    exact allowed.2

theorem operation_of_asks (asks : Asks r operation) :
    ∃ endpoint, Reaches r endpoint ∧ Http.operation r endpoint = .ok operation := by
  cases asks with
  | compile method path => exact ⟨.compile, .intro method path (by decide) rfl (by decide), rfl⟩
  | check method path timed sends given =>
    exact ⟨.check, .intro method path (by decide) rfl (by decide), readBody_check timed sends given⟩
  | filter method path timed sends given =>
    exact ⟨.filter, .intro method path (by decide) rfl (by decide), readBody_filter timed sends given⟩
  | assign method path sends given =>
    refine ⟨.assignments, .intro method path (by decide) rfl (by decide), ?_⟩
    simp only [Http.operation, readBody_assignment sends given, Except.map, method, if_true]
  | revoke method path sends given =>
    refine ⟨.assignments, .intro method path (by decide) rfl (by decide), ?_⟩
    have other : ¬r.method = "POST" := by
      rw [method]
      decide
    simp only [Http.operation, readBody_assignment sends given, Except.map, other, if_false]
  | @list user part method path nonempty encoded =>
    have unbroken : ∀ other ∈ ["v1", "assignments", part], Unbroken other := by
      have first : Unbroken "v1" ∧ Unbroken "assignments" := by decide
      simp only [List.forall_mem_cons]
      exact ⟨first.1, first.2, encoded.not_special, List.forall_mem_nil _⟩
    have known : Endpoint.ofSegments? ["", "v1", "assignments", part] = some (.assignmentsOf part) := by
      simp [Endpoint.ofSegments?, encoded.ne_empty nonempty]
    refine ⟨_, .intro method path unbroken known ⟨List.mem_cons_self, by decide⟩, ?_⟩
    rw [Http.operation, parameter_encoded encoded]
    rfl
  | roles method path => exact ⟨.roles, .intro method path (by decide) rfl (by decide), rfl⟩
  | @ancestors i typePart idPart method path nonempty encoded =>
    have unbroken : ∀ other ∈ ["v1", "ancestors", typePart, idPart], Unbroken other := by
      have first : Unbroken "v1" ∧ Unbroken "ancestors" := by decide
      simp only [List.forall_mem_cons]
      exact ⟨first.1, first.2, encoded.1.not_special, encoded.2.not_special, List.forall_mem_nil _⟩
    have known : Endpoint.ofSegments? ["", "v1", "ancestors", typePart, idPart] = some (.ancestors typePart idPart) := by
      simp [Endpoint.ofSegments?, encoded.2.ne_empty nonempty.2]
    refine ⟨_, .intro method path unbroken known ⟨List.mem_cons_self, by decide⟩, ?_⟩
    rw [Http.operation, parameter_encoded encoded.1]
    simp only [bind, Except.bind, parameter_encoded encoded.2]

theorem serve_asks (asks : Asks r operation) (a : Authorizer) :
    serve a r = ((a.perform operation).1, .ofResult (a.perform operation).2) := by
  obtain ⟨endpoint, reaches, asked⟩ := operation_of_asks asks
  rw [serve, reaches.known]
  simp only [reaches.allowed, if_true, respond, asked, reaches.whole, if_false]

theorem Timed.exists_limit (timed : ∀ limit, time = some limit → ∃ millis < twoTo 64, limit = .ofMillis millis) :
    ∃ limit, Timed time limit ∧ ∀ field ∈ limit, Fits field.2 := by
  cases time with
  | none =>
    refine ⟨[], .absent, ?_⟩
    intro field present
    cases present
  | some given =>
    obtain ⟨millis, fits, rfl⟩ := timed given rfl
    refine ⟨_, .within millis, ?_⟩
    intro field present
    rw [List.mem_singleton.mp present]
    exact fits

theorem isJson_application (json : r.contentType = some "application/json") : r.isJson = true := by
  rw [Request.isJson, json]
  decide +kernel

theorem exists_sending (method path : String) (nonempty : fields ≠ []) (fits : ∀ field ∈ fields, Fits field.2) :
    ∃ r : Request, r.method = method ∧ r.path = path ∧ Sends r fields := by
  obtain ⟨body, spelled⟩ := ObjectSpelled.exists_spelling nonempty fits
  exact ⟨⟨method, path, some "application/json", body⟩, rfl, rfl, isJson_application rfl, spelled⟩

theorem assignmentFields_fit (x : Assignment) : ∀ field ∈ assignmentFields x, Fits field.2 := by
  simp only [assignmentFields, List.forall_mem_cons]
  exact ⟨trivial, trivial, trivial, trivial, List.forall_mem_nil _⟩

theorem leads_of_path {parts : List String} (path : r.path = String.ofList (parts.flatMap fun part => '/' :: part.toList)) :
    Leads r parts := by
  rw [Leads, path, String.toList_ofList]

theorem Offered.exists_request (offered : Offered operation) : ∃ r, Asks r operation := by
  cases offered with
  | compile => exact ⟨⟨"POST", "/v1/compile", none, ""⟩, .compile rfl rfl⟩
  | @check user action i time timed =>
    obtain ⟨limit, timed, fits⟩ := Timed.exists_limit timed
    have allFit : ∀ field ∈ checkFields user action i limit, Fits field.2 := by
      simp only [checkFields, List.cons_append, List.nil_append, List.forall_mem_cons]
      exact ⟨trivial, trivial, trivial, trivial, fits⟩
    obtain ⟨r, method, path, sends⟩ := exists_sending "POST" "/v1/check" (List.cons_ne_nil _ _) allFit
    exact ⟨r, .check method (leads_of_path path) timed sends (.refl _)⟩
  | @filter user action resourceType time timed =>
    obtain ⟨limit, timed, fits⟩ := Timed.exists_limit timed
    have allFit : ∀ field ∈ filterFields user action resourceType limit, Fits field.2 := by
      simp only [filterFields, List.cons_append, List.nil_append, List.forall_mem_cons]
      exact ⟨trivial, trivial, trivial, fits⟩
    obtain ⟨r, method, path, sends⟩ := exists_sending "POST" "/v1/filter" (List.cons_ne_nil _ _) allFit
    exact ⟨r, .filter method (leads_of_path path) timed sends (.refl _)⟩
  | @assign x =>
    obtain ⟨r, method, path, sends⟩ :=
      exists_sending "POST" "/v1/assignments" (List.cons_ne_nil _ _) (assignmentFields_fit x)
    exact ⟨r, .assign method (leads_of_path path) sends (.refl _)⟩
  | @revoke x =>
    obtain ⟨r, method, path, sends⟩ :=
      exists_sending "DELETE" "/v1/assignments" (List.cons_ne_nil _ _) (assignmentFields_fit x)
    exact ⟨r, .revoke method (leads_of_path path) sends (.refl _)⟩
  | @list user nonempty =>
    obtain ⟨part, encoded⟩ := Encodes.exists_part user
    exact ⟨⟨"GET", _, none, ""⟩, .list rfl (leads_of_path rfl) nonempty encoded⟩
  | roles => exact ⟨⟨"GET", "/v1/roles", none, ""⟩, .roles rfl rfl⟩
  | @ancestors i nonempty =>
    obtain ⟨typePart, typeEncoded⟩ := Encodes.exists_part i.resourceType
    obtain ⟨idPart, idEncoded⟩ := Encodes.exists_part i.id
    exact ⟨⟨"GET", _, none, ""⟩, .ancestors rfl (leads_of_path rfl) nonempty ⟨typeEncoded, idEncoded⟩⟩

end ScopedAccess.Http
