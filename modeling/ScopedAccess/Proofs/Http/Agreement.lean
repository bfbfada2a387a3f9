import ScopedAccess.Proofs.Authorizer.Run
import ScopedAccess.Proofs.Http.Requests

namespace ScopedAccess.Http

-- What the requester can mend, what has to wait for a policy, what ran out of time, and the rest.
def failureStatus : Failure → Nat
  | .malformedDocument => 400
  | .schema _ => 400
  | .implicationCycle _ => 400
  | .orphanedAssignments _ => 400
  | .unknownResourceType _ => 400
  | .unknownRole _ => 400
  | .roleMismatch _ _ _ => 400
  | .notConfigured => 503
  | .deadlineExceeded _ => 504
  | _ => 500

def failureBody (text : String) : Payload := .object [("error", .text text)]

def denialBody : Payload := .object [("allowed", .boolean false)]

-- The answer as a body. Of a snapshot the body has the version and the sizes, and the snapshot is in force.
inductive Carries (next : Authorizer) : Answer → Payload → Prop where
  | compiled {s : Snapshot} (inForce : next.snapshot = some s) : Carries next (.compiled s) (.object
      [("version", .number s.version), ("resources", .number s.model.resources.size), ("roles", .number s.model.roles.size),
        ("permissions", .number s.model.permissions.size), ("relationships", .number s.model.links.size)])
  | allowed (yes : Bool) : Carries next (.allowed yes) (.object [("allowed", .boolean yes)])
  | instances (ids : OrderedSet String) :
      Carries next (.instances ids) (.object [("resource_ids", .list (ids.toList.map .text))])
  | assigned (new : Bool) : Carries next (.assigned new) (.object [("created", .boolean new)])
  | revoked (existed : Bool) : Carries next (.revoked existed) (.object [("removed", .boolean existed)])
  | assignments (found : List Assignment) : Carries next (.assignments found) (.object
      [("assignments", .list (found.map fun x => .object [("user_id", .text x.user), ("resource_type", .text x.resourceType),
        ("resource_id", .text x.resourceId), ("role", .text x.role)]))])
  | roles (index : List RoleSummary) : Carries next (.roles index) (.object
      [("roles", .list (index.map fun role => .object [("name", .text role.name),
        ("resource_type", .text role.resourceType), ("permissions", .list (role.permissions.toList.map .text)),
        ("implies", .list (role.implies.toList.map .text))]))])
  | chain (instances : List Instance) : Carries next (.chain instances) (.object
      [("chain", .list (instances.map fun i => .object [("resource_type", .text i.resourceType),
        ("resource_id", .text i.id)]))])

inductive Reports (next : Authorizer) : Except Failure Answer → Response → Prop where
  | created {body : Payload} (carries : Carries next (.assigned true) body) :
      Reports next (.ok (.assigned true)) ⟨201, none, .payload body⟩
  | answered {answer : Answer} {body : Payload} (old : answer ≠ .assigned true) (carries : Carries next answer body) :
      Reports next (.ok answer) ⟨200, none, .payload body⟩
  | failed (f : Failure) : Reports next (.error f) ⟨failureStatus f, none, .payload (failureBody f.diagnostic.message)⟩

section

variable {a next : Authorizer} {operation : Operation} {answer other : Answer} {body : Payload}
  {result another : Except Failure Answer} {r : Response} {s : Snapshot}

theorem failureStatus_eq (f : Failure) : f.diagnostic.kind.status?.getD 500 = failureStatus f := by
  cases f <;> rfl

theorem inForce_of_compiled (answered : (a.perform operation).2 = .ok (.compiled s)) :
    (a.perform operation).1.snapshot = some s := by
  cases operation with
  | compile =>
    obtain ⟨_, ran, same⟩ := Authorizer.answering_eq_ok answered
    cases same
    obtain ⟨d, _, compiled⟩ := Authorizer.compile_eq_ok ran
    obtain ⟨store, _, _, _, next⟩ := Authorizer.compileDeclarations_eq_ok compiled
    rw [Authorizer.perform, next]
  | compileDeclarations d =>
    obtain ⟨_, ran, same⟩ := Authorizer.answering_eq_ok answered
    cases same
    obtain ⟨store, _, _, _, next⟩ := Authorizer.compileDeclarations_eq_ok ran
    rw [Authorizer.perform, next]
  | snapshot =>
    obtain ⟨_, current, same⟩ := map_eq_ok_iff.mp answered
    cases same
    exact Authorizer.current_eq_ok_iff.mp current
  | assign x =>
    obtain ⟨_, _, same⟩ := Authorizer.answering_eq_ok answered
    cases same
  | revoke x =>
    obtain ⟨_, _, same⟩ := Authorizer.answering_eq_ok answered
    cases same
  | _ =>
    obtain ⟨_, _, same⟩ := map_eq_ok_iff.mp answered
    cases same

theorem carries_iff :
    Carries next answer body ↔ body = .ofAnswer answer ∧ ∀ s, answer = .compiled s → next.snapshot = some s := by
  constructor
  · intro carries
    cases carries with
    | compiled inForce => exact ⟨rfl, fun s same => Answer.compiled.inj same ▸ inForce⟩
    | _ => exact ⟨rfl, fun s same => by cases same⟩
  · rintro ⟨rfl, inForce⟩
    cases answer with
    | compiled s => exact .compiled (inForce s rfl)
    | allowed yes => exact .allowed yes
    | instances ids => exact .instances ids
    | assigned new => exact .assigned new
    | revoked existed => exact .revoked existed
    | assignments found => exact .assignments found
    | roles index => exact .roles index
    | chain instances => exact .chain instances

theorem reports_perform (a : Authorizer) (operation : Operation) :
    Reports (a.perform operation).1 (a.perform operation).2 (.ofResult (a.perform operation).2) := by
  cases ran : (a.perform operation).2 with
  | error f =>
    rw [Response.ofResult, Response.ofFailure]
    simp only [failureStatus_eq]
    exact .failed f
  | ok answer =>
    have carries : Carries (a.perform operation).1 answer (.ofAnswer answer) :=
      carries_iff.mpr ⟨rfl, fun s isSnapshot => inForce_of_compiled (isSnapshot ▸ ran)⟩
    by_cases new : answer = .assigned true
    · subst new
      exact .created carries
    · have old : Response.ofAnswer answer = ⟨200, none, .payload (.ofAnswer answer)⟩ := by
        rw [Response.ofAnswer]
        exact new
      rw [Response.ofResult, old]
      exact .answered new carries

theorem texts_inj {l m : List String} (same : Payload.texts l = .texts m) : l = m :=
  (List.map_inj_right fun _ _ same => Payload.text.inj same).mp (Payload.list.inj same)

theorem set_of_texts {s t : OrderedSet String} (same : Payload.texts s.toList = .texts t.toList) : s = t := by
  refine OrderedSet.ext fun x => ?_
  rw [← OrderedSet.mem_toList, ← OrderedSet.mem_toList, texts_inj same]

theorem ofAssignment_inj (x y : Assignment) (same : Payload.ofAssignment x = .ofAssignment y) : x = y := by
  cases x
  cases y
  simpa [Payload.ofAssignment] using same

theorem ofInstance_inj (i j : Instance) (same : Payload.ofInstance i = .ofInstance j) : i = j := by
  cases i
  cases j
  simpa [Payload.ofInstance] using same

theorem ofRole_inj (x y : RoleSummary) (same : Payload.ofRole x = .ofRole y) : x = y := by
  cases x
  cases y
  simp only [Payload.ofRole, Payload.object.injEq, List.cons.injEq, Prod.mk.injEq, Payload.text.injEq, true_and, and_true]
    at same
  obtain ⟨rfl, rfl, permissions, implies⟩ := same
  rw [set_of_texts permissions, set_of_texts implies]

theorem Carries.unique (one : Carries next answer body) (two : Carries next other body) : answer = other := by
  obtain ⟨rfl, inForce⟩ := carries_iff.mp one
  obtain ⟨same, inForceToo⟩ := carries_iff.mp two
  cases answer with
  | compiled s =>
    cases other with
    | compiled t => rw [Option.some.inj ((inForce s rfl).symm.trans (inForceToo t rfl))]
    | _ => simp [Payload.ofAnswer] at same
  | allowed yes =>
    cases other with
    | allowed => simpa [Payload.ofAnswer] using same
    | _ => simp [Payload.ofAnswer] at same
  | instances ids =>
    cases other with
    | instances others =>
      simp only [Payload.ofAnswer, Payload.object.injEq, List.cons.injEq, Prod.mk.injEq, true_and, and_true] at same
      rw [set_of_texts same]
    | _ => simp [Payload.ofAnswer] at same
  | assigned new =>
    cases other with
    | assigned => simpa [Payload.ofAnswer] using same
    | _ => simp [Payload.ofAnswer] at same
  | revoked existed =>
    cases other with
    | revoked => simpa [Payload.ofAnswer] using same
    | _ => simp [Payload.ofAnswer] at same
  | assignments found =>
    cases other with
    | assignments others =>
      simp only [Payload.ofAnswer, Payload.object.injEq, Payload.list.injEq, List.cons.injEq, Prod.mk.injEq, true_and,
        and_true] at same
      rw [(List.map_inj_right ofAssignment_inj).mp same]
    | _ => simp [Payload.ofAnswer] at same
  | roles index =>
    cases other with
    | roles others =>
      simp only [Payload.ofAnswer, Payload.object.injEq, Payload.list.injEq, List.cons.injEq, Prod.mk.injEq, true_and,
        and_true] at same
      rw [(List.map_inj_right ofRole_inj).mp same]
    | _ => simp [Payload.ofAnswer] at same
  | chain instances =>
    cases other with
    | chain others =>
      simp only [Payload.ofAnswer, Payload.object.injEq, Payload.list.injEq, List.cons.injEq, Prod.mk.injEq, true_and,
        and_true] at same
      rw [(List.map_inj_right ofInstance_inj).mp same]
    | _ => simp [Payload.ofAnswer] at same

theorem Carries.not_failure {text : String} (carries : Carries next answer body) : body ≠ failureBody text := by
  rw [(carries_iff.mp carries).1]
  cases answer <;> simp [Payload.ofAnswer, failureBody]

theorem Reports.content_eq (reports : Reports next (.ok answer) r) :
    ∃ body, r.content = .payload body ∧ Carries next answer body := by
  cases reports with
  | created carries => exact ⟨_, rfl, carries⟩
  | answered _ carries => exact ⟨_, rfl, carries⟩

theorem Reports.failure_eq {f : Failure} (reports : Reports next (.error f) r) :
    r = ⟨failureStatus f, none, .payload (failureBody f.diagnostic.message)⟩ := by
  cases reports
  rfl

-- What is to be learnt of a result: the answer, or the status and the text of the failure.
def learnt (result : Except Failure Answer) : Except (Nat × String) Answer :=
  result.mapError fun f => (failureStatus f, f.diagnostic.message)

theorem Reports.unique (one : Reports next result r) (two : Reports next another r) : learnt result = learnt another := by
  cases result with
  | ok answer =>
    obtain ⟨body, content, carries⟩ := one.content_eq
    cases another with
    | ok other =>
      obtain ⟨_, sameContent, carriesOther⟩ := two.content_eq
      cases content.symm.trans sameContent
      rw [carries.unique carriesOther]
    | error f =>
      rw [two.failure_eq] at content
      cases content
      exact absurd rfl carries.not_failure
  | error f =>
    cases another with
    | ok other =>
      obtain ⟨body, content, carries⟩ := two.content_eq
      rw [one.failure_eq] at content
      cases content
      exact absurd rfl carries.not_failure
    | error g =>
      have same := one.failure_eq.symm.trans two.failure_eq
      simp only [failureBody, Response.mk.injEq, Content.payload.injEq, Payload.object.injEq, List.cons.injEq, Prod.mk.injEq,
        Payload.text.injEq, true_and, and_true] at same
      change Except.error (failureStatus f, f.diagnostic.message) = .error (failureStatus g, g.diagnostic.message)
      rw [same.1, same.2]

theorem Reports.denial_iff (reports : Reports next result r) :
    r.content = .payload denialBody ↔ result = .ok (.allowed false) := by
  constructor
  · intro denial
    cases result with
    | ok answer =>
      obtain ⟨body, content, carries⟩ := reports.content_eq
      cases content.symm.trans denial
      rw [carries.unique (.allowed false)]
    | error f =>
      rw [reports.failure_eq] at denial
      simp [failureBody, denialBody] at denial
  · rintro rfl
    obtain ⟨body, content, carries⟩ := reports.content_eq
    rw [content, (carries_iff.mp carries).1]
    rfl

theorem Reports.failure_iff (reports : Reports next result r) :
    (∃ text, r.content = .payload (failureBody text)) ↔ ∃ f, result = .error f := by
  constructor
  · rintro ⟨text, failure⟩
    cases result with
    | ok answer =>
      obtain ⟨body, content, carries⟩ := reports.content_eq
      cases content.symm.trans failure
      exact absurd rfl carries.not_failure
    | error f => exact ⟨f, rfl⟩
  · rintro ⟨f, rfl⟩
    rw [reports.failure_eq]
    exact ⟨_, rfl⟩

theorem Reports.created_iff (reports : Reports next result r) : r.status = 201 ↔ result = .ok (.assigned true) := by
  cases reports with
  | created => simp
  | answered old _ => simpa using old
  | failed f => cases f <;> simp [failureStatus]

end

inductive Call where
  | direct (event : Event)
  | request (r : Request)

inductive Reply where
  | silence
  | result (x : Except Failure Answer)
  | response (r : Response)

inductive StandsFor : Call → Event → Prop where
  | direct (event : Event) : StandsFor (.direct event) event
  | request {r : Request} {operation : Operation} (asks : Asks r operation) : StandsFor (.request r) (.ask operation)

def resultOf? (a : Authorizer) : Event → Option (Except Failure Answer)
  | .ask operation => some (a.perform operation).2
  | _ => none

def directReply : Option (Except Failure Answer) → Reply
  | some result => .result result
  | none => .silence

def take (a : Authorizer) : Call → Authorizer × Reply
  | .direct event => (a.follow event, directReply (resultOf? a event))
  | .request r => ((serve a r).1, .response (serve a r).2)

def called (a : Authorizer) : List Event → List (Authorizer × Option (Except Failure Answer))
  | [] => []
  | event :: rest => (a.follow event, resultOf? a event) :: called (a.follow event) rest

def taken (a : Authorizer) : List Call → List (Authorizer × Reply)
  | [] => []
  | call :: rest => take a call :: taken (take a call).1 rest

inductive Tells (next : Authorizer) : Option (Except Failure Answer) → Reply → Prop where
  | silence : Tells next none .silence
  | result (x : Except Failure Answer) : Tells next (some x) (.result x)
  | response {x : Except Failure Answer} {r : Response} (reports : Reports next x r)
      (only : ∀ y, Reports next y r → learnt y = learnt x)
      (created : r.status = 201 ↔ x = .ok (.assigned true))
      (denial : r.content = .payload denialBody ↔ x = .ok (.allowed false))
      (failure : (∃ text, r.content = .payload (failureBody text)) ↔ ∃ f, x = .error f) : Tells next (some x) (.response r)

structure Agrees (step : Authorizer × Option (Except Failure Answer)) (reply : Authorizer × Reply) : Prop where
  state : reply.1 = step.1
  told : Tells step.1 step.2 reply.2

variable {a : Authorizer} {call : Call} {event : Event} {calls : List Call} {events : List Event}

theorem take_agrees (stands : StandsFor call event) (a : Authorizer) :
    Agrees (a.follow event, resultOf? a event) (take a call) := by
  cases stands with
  | direct event =>
    refine ⟨rfl, ?_⟩
    simp only [take]
    cases resultOf? a event with
    | none => exact .silence
    | some x => exact .result x
  | @request r operation asks =>
    have reports := reports_perform a operation
    rw [take, serve_asks asks a]
    exact ⟨rfl, .response reports (fun _ other => other.unique reports) reports.created_iff reports.denial_iff
      reports.failure_iff⟩

-- Step after step, since the state is the same again.
theorem taken_agrees (stand : List.Forall₂ StandsFor calls events) (a : Authorizer) :
    List.Forall₂ Agrees (called a events) (taken a calls) := by
  induction stand generalizing a with
  | nil => exact .nil
  | cons stands _ ih =>
    have step := take_agrees stands a
    rw [called, taken, step.state]
    exact .cons step (ih _)

theorem requests_agree_with_calls (stand : List.Forall₂ StandsFor calls events) (a : Authorizer) :
    (∀ operation, Offered operation → ∃ r, Asks r operation) ∧ List.Forall₂ Agrees (called a events) (taken a calls) :=
  ⟨fun _ offered => offered.exists_request, taken_agrees stand a⟩

-- The small run of shelves, asked for from outside: the keeper is entered twice, with blanks and the fields in another
-- order, and the note is opened with a letter escaped, once without any time.
def shelfService : Authorizer := Authorizer.begin Authorizer.shelfTables (.declared Authorizer.shelf) ⟨.ofMillis 1, .reject⟩

def enterKeeper : Request := ⟨"POST", "/v1/assignments", some "application/json",
  "\x7b \"role\":\"keeper\", \"user_id\":\"ann\", \"resource_type\":\"Folder\", \"resource_id\":\"f\"\x7d"⟩

def openNote : Request := ⟨"POST", "/v1/check", some "application/json",
  "\x7b\"user_id\":\"\\u0061nn\",\"action\":\"read\",\"resource_type\":\"Note\",\"resource_id\":\"n\"\x7d"⟩

def openNoteAtOnce : Request := ⟨"POST", "/v1/check", some "application/json",
  "\x7b\"user_id\":\"ann\",\"action\":\"read\",\"resource_type\":\"Note\",\"resource_id\":\"n\",\"timeout_ms\":0\x7d"⟩

theorem MemberSpelled.plain (name s : String) (plain : Plain name.toList ∧ Plain s.toList) {before : List Char}
    (blank : Blanks before) : MemberSpelled (name, .text s)
      (before ++ '"' :: (name.toList ++ '"' :: ([] ++ ':' :: ([] ++ ('"' :: (s.toList ++ ['"']) ++ []))))) :=
  .intro ⟨blank, .nil, .nil, .nil⟩ (.self plain.1) (.text (.self plain.2))

theorem enterKeeper_asks : Asks enterKeeper (.assign ⟨"ann", "Folder", "f", "keeper"⟩) := by
  have blank : Blanks [' '] := by decide
  have members := MembersSpelled.more (.plain "role" "keeper" (by decide) blank)
    (.more (.plain "user_id" "ann" (by decide) blank)
      (.more (.plain "resource_type" "Folder" (by decide) blank)
        (.last (.plain "resource_id" "f" (by decide) blank))))
  have sends : Sends enterKeeper _ := ⟨isJson_application rfl, ObjectSpelled.intro ⟨.nil, .nil⟩ members⟩
  exact .assign rfl rfl sends (by decide)

theorem openNote_asks : Asks openNote (.check "ann" "read" ⟨"Note", "n"⟩ none) := by
  have user : Spells ('\\' :: 'u' :: (['0', '0', '6', '1'] ++ ['n', 'n'])) "ann".toList := by
    have quad : Quad ['0', '0', '6', '1'] (((0 * 16 + 0) * 16 + 6) * 16 + 1) :=
      .intro (by decide) (by decide) (by decide) (by decide)
    exact .unit quad (.self (by decide))
  have named : Spells "user_id".toList "user_id".toList := .self (by decide)
  have members := MembersSpelled.more (.intro ⟨.nil, .nil, .nil, .nil⟩ named (.text user))
    (.more (.plain "action" "read" (by decide) .nil)
      (.more (.plain "resource_type" "Note" (by decide) .nil)
        (.last (.plain "resource_id" "n" (by decide) .nil))))
  have sends : Sends openNote _ := ⟨isJson_application rfl, ObjectSpelled.intro ⟨.nil, .nil⟩ members⟩
  exact .check rfl rfl .absent sends (by decide)

theorem openNoteAtOnce_asks : Asks openNoteAtOnce (.check "ann" "read" ⟨"Note", "n"⟩ (some (.ofMillis 0))) := by
  have named : Spells "timeout_ms".toList "timeout_ms".toList := .self (by decide)
  have members := MembersSpelled.more (.plain "user_id" "ann" (by decide) .nil)
    (.more (.plain "action" "read" (by decide) .nil)
      (.more (.plain "resource_type" "Note" (by decide) .nil)
        (.more (.plain "resource_id" "n" (by decide) .nil)
          (.last (.intro ⟨.nil, .nil, .nil, .nil⟩ named (.count (show 0 < twoTo 64 by decide)))))))
  have sends : Sends openNoteAtOnce _ := ⟨isJson_application rfl, ObjectSpelled.intro ⟨.nil, .nil⟩ members⟩
  exact .check rfl rfl (.within 0) sends (by decide)

def climb (path : String) : Request := ⟨"GET", path, none, ""⟩

theorem climb_asks : Asks (climb "/v1/ancestors/Folder/%66") (.ancestors ⟨"Folder", "f"⟩) := by
  have letter : Escapes ['%', '6', '6'] (String.utf8EncodeChar 'f') :=
    .byte (b := 0x66) (by decide) (by decide) .nil
  have path : Leads (climb "/v1/ancestors/Folder/%66") ["v1", "ancestors", "Folder", "%66"] := rfl
  exact .ancestors rfl path (by decide) ⟨.self (by decide), .escaped letter .nil⟩

def shelfCalls : List Call :=
  [.request ⟨"POST", "/v1/compile", none, ""⟩, .request enterKeeper, .request enterKeeper, .direct (.ask .snapshot),
    .request openNote, .request openNoteAtOnce, .request (climb "/v1/ancestors/Folder/%66")]

def shelfAsked : List Event :=
  [.ask .compile, .ask (.assign ⟨"ann", "Folder", "f", "keeper"⟩), .ask (.assign ⟨"ann", "Folder", "f", "keeper"⟩),
    .ask .snapshot, .ask (.check "ann" "read" ⟨"Note", "n"⟩ none),
    .ask (.check "ann" "read" ⟨"Note", "n"⟩ (some (.ofMillis 0))), .ask (.ancestors ⟨"Folder", "f"⟩)]

theorem shelfCalls_stand : List.Forall₂ StandsFor shelfCalls shelfAsked :=
  .cons (.request (.compile rfl rfl)) <| .cons (.request enterKeeper_asks) <| .cons (.request enterKeeper_asks) <|
    .cons (.direct _) <| .cons (.request openNote_asks) <| .cons (.request openNoteAtOnce_asks) <|
      .cons (.request climb_asks) .nil

def Reply.status? : Reply → Option Nat
  | .response r => some r.status
  | _ => none

theorem shelf_agrees :
    (taken shelfService shelfCalls).map (·.2.status?) = [some 200, some 201, some 200, none, some 200, some 504, some 200] ∧
      List.Forall₂ Agrees (called shelfService shelfAsked) (taken shelfService shelfCalls) :=
  ⟨by decide +kernel, (requests_agree_with_calls shelfCalls_stand shelfService).2⟩

end ScopedAccess.Http
