/-
The context that an observation is frozen with, on the two paths of the source.

A result and a message of one published context are frozen by two builders.  The
builder of messages checks every request and keeps its reply binding; the builder
of results copies what it finds.  Everything else they build alike, so that
`frozen_contexts_agree_iff` is about the requests alone.
-/
import Antiburn.PublicAdmission

namespace Antiburn

namespace Publication

open PublicMessage Object Json

/-- A request without a reply binding, whose kind is a text if it has one. -/
def IsPlainRequest (request : String × Json) : Prop :=
  request.2.get? "in_reply_to" = none ∧ ∀ kind ∈ request.2.get? "kind", kind.asStr.isSome = true

def attachedContext : SourceEvent → Option FrozenContext
  | .observation _ _ _ _ draft => some draft.context
  | _ => none

def resultFrozen (context : PublishedContext) : FrozenContext :=
  ⟨resultContext context, [contextDependency context]⟩

/-! ### Requests -/

section Requests

variable (id : String) (source kind text : Json)

def requestFields : List (String × Option Json) :=
  [("id", some (.string id)), ("source", some source), ("kind", some kind), ("text", some text)]

def requestEntries : Object := Object.ofFields (presentFields (requestFields id source kind text))

variable {id source kind text}

lemma requestEntries_kind : (requestEntries id source kind text).get? "kind" = some kind :=
  (Built.ofFields (by simp [requestFields])).get? (by simp [requestFields]) (by simp [requestFields])

lemma requestEntries_reply : (requestEntries id source kind text).get? "in_reply_to" = none :=
  (Built.ofFields (by simp [requestFields])).get?_of_notMem (by simp [requestFields])

def requestKind (request : String × Json) : String :=
  ((request.2.get? "kind").bind Json.asStr).getD "user_message"

variable {request : String × Json}

lemma requestKind_eq_iff :
    (request.2.get? "kind").getD (.string "user_message") = .string (requestKind request) ↔
      ∀ kind ∈ request.2.get? "kind", kind.asStr.isSome = true := by
  unfold requestKind
  cases request.2.get? "kind" with
  | none => exact iff_of_true rfl fun _ h => nomatch h
  | some kind =>
    simp only [Option.mem_some_iff, forall_eq', Option.getD_some, Option.bind_some]
    cases kind with
    | string kind => exact iff_of_true rfl rfl
    | _ => exact iff_of_false (fun h => nomatch h) fun h => nomatch h

lemma string_of_bind {value : Option Json} {text : String} (h : value.bind Json.asStr = some text) :
    value = some (.string text) := by
  obtain ⟨json, rfl, hstr⟩ := Option.bind_eq_some_iff.mp h
  cases json with
  | string _ =>
    cases hstr
    rfl
  | _ => cases hstr

lemma publicRequest_eq {value : Json}
    (h : publicRequest request = .ok value) :
    ∃ source text,
      resultRequest request = .object (requestEntries request.1 source
        ((request.2.get? "kind").getD (.string "user_message")) text) ∧
      value = (request.2.get? "in_reply_to").elim
        (.object (requestEntries request.1 source (.string (requestKind request)) text))
        ((.object (requestEntries request.1 source (.string (requestKind request)) text) :
          Json).assign "in_reply_to") := by
  unfold publicRequest at h
  cases hsource : text? request.2 "source" with
  | none =>
    rw [hsource] at h
    cases h
  | some source =>
  rw [hsource] at h
  obtain ⟨_, ⟨⟩, h⟩ := Except.bind_ok_iff.mp h
  cases htext : ((request.2.get? "text").or (request.2.get? "content")).bind Json.asStr with
  | none =>
    rw [htext] at h
    cases h
  | some text =>
  rw [htext] at h
  obtain ⟨_, ⟨⟩, h⟩ := Except.bind_ok_iff.mp h
  obtain ⟨_, -, h⟩ := Except.bind_ok_iff.mp h
  have hfound : request.2.get? "source" = some (.string source) := by
    obtain ⟨hbind, -⟩ := Option.filter_eq_some_iff.mp hsource
    exact string_of_bind hbind
  have hwrit := string_of_bind htext
  refine ⟨.string source, .string text, ?_, ?_⟩
  · unfold resultRequest
    rw [hfound, hwrit]
    rfl
  · cases hreply : request.2.get? "in_reply_to" with
    | none =>
      rw [hreply] at h
      cases h
      rfl
    | some reply =>
      rw [hreply] at h
      obtain ⟨_, -, h⟩ := Except.bind_ok_iff.mp h
      cases h
      rfl

/-- **A request is frozen alike exactly when it is plain.** -/
lemma resultRequest_eq_iff {value : Json}
    (h : publicRequest request = .ok value) :
    resultRequest request = value ↔ IsPlainRequest request := by
  obtain ⟨source, text, hresult, hvalue⟩ := publicRequest_eq h
  unfold IsPlainRequest
  rw [hresult, hvalue, ← requestKind_eq_iff]
  cases request.2.get? "in_reply_to" with
  | none =>
    constructor
    · intro heq
      have hkind := congrArg (fun json => json.get? "kind") heq
      simp only [Option.elim_none, get?_object, requestEntries_kind, Option.some.injEq] at hkind
      exact ⟨rfl, hkind⟩
    · rintro ⟨-, hkind⟩
      rw [hkind]
      rfl
  | some reply =>
    refine iff_of_false (fun heq => ?_) fun hplain => nomatch hplain.1
    have hreply := congrArg (fun json => json.get? "in_reply_to") heq
    simp only [Option.elim_some, Json.assign, get?_object, requestEntries_reply,
      get?_insert_self] at hreply
    cases hreply

lemma resultRequests_eq_iff {requests : List (String × Json)} {values : List Json}
    (h : requests.mapM publicRequest = .ok values) :
    requests.map resultRequest = values ↔ ∀ request ∈ requests, IsPlainRequest request := by
  induction requests generalizing values with
  | nil =>
    cases h
    exact iff_of_true rfl fun _ h => nomatch h
  | cons request rest ih =>
    rw [List.mapM_cons] at h
    obtain ⟨value, hvalue, h⟩ := Except.bind_ok_iff.mp h
    obtain ⟨others, hothers, h⟩ := Except.bind_ok_iff.mp h
    cases h
    rw [List.map_cons, List.cons_eq_cons, resultRequest_eq_iff hvalue, ih hothers,
      List.forall_mem_cons]

end Requests

/-! ### The rest of the context -/

def scopes (session agent global repo : Json) : Object :=
  [("agent", agent), ("global", global), ("repo", repo), ("session", session)]

section Rest

variable (context : PublishedContext) (requests : List Json)

def sessionValue : Json :=
  let session : Json := .object
    [("id", .string context.sessionId), ("requests", .array requests),
      ("requests_complete", .bool context.completeThroughEvent),
      ("source_coverage", .string (coverage context))]
  context.sessionSelection.elim session (addAttribution session)

def repoValue : Json :=
  context.projectRoot.elim (.object unavailableRepo) fun root =>
    (.object (Object.ofFields context.inventories.repo.fields) : Json).assign "root" (.string root)

def contextValue : Json :=
  .object (scopes (sessionValue context requests)
    (.object [("name", .string context.agentName)])
    (.object (Object.ofFields context.inventories.global.fields)) (repoValue context))

lemma ofFields_sorted {entries : Object} (h : entries.Pairwise fun a b => a.1 < b.1) :
    Object.ofFields entries = entries := by
  have hkeys : (entries.map Prod.fst).Nodup :=
    (List.pairwise_map.mpr h).imp fun hlt => ne_of_lt hlt
  obtain ⟨hpairwise, hperm⟩ := @extend_spec [] entries .nil hkeys fun _ _ h => by cases h
  refine List.Perm.eq_of_pairwise (fun a b _ _ hab hba => ?_) hpairwise h hperm
  exact absurd hba (lt_asymm hab)

lemma sorted_four {k l m n : String} {a b c d : Json} (hkl : k < l) (hlm : l < m) (hmn : m < n) :
    List.Pairwise (fun entry other : String × Json => entry.1 < other.1)
      [(k, a), (l, b), (m, c), (n, d)] := by
  refine List.Pairwise.cons (fun entry hentry => ?_) (List.Pairwise.cons (fun entry hentry => ?_)
    (List.Pairwise.cons (fun entry hentry => ?_) (List.pairwise_singleton _ _)))
  · simp only [List.mem_cons, List.not_mem_nil, or_false] at hentry
    rcases hentry with rfl | rfl | rfl
    · exact hkl
    · exact hkl.trans hlm
    · exact (hkl.trans hlm).trans hmn
  · simp only [List.mem_cons, List.not_mem_nil, or_false] at hentry
    rcases hentry with rfl | rfl
    · exact hlm
    · exact hlm.trans hmn
  · rw [List.mem_singleton.mp hentry]
    exact hmn

lemma insert_first {name key : String} (old value : Json) {rest : Object} (hne : name ≠ key)
    (hlt : key < name) :
    Object.insert ((name, old) :: rest) key value = (key, value) :: (name, old) :: rest := by
  rw [Object.insert, if_neg hne, if_pos hlt]

lemma insert_here {name : String} (old value : Json) (rest : Object) :
    Object.insert ((name, old) :: rest) name value = (name, value) :: rest := by
  rw [Object.insert, if_pos rfl]

lemma insert_later {name key : String} (old value : Json) {rest : Object} (hne : name ≠ key)
    (hlt : ¬key < name) :
    Object.insert ((name, old) :: rest) key value = (name, old) :: Object.insert rest key value := by
  rw [Object.insert, if_neg hne, if_neg hlt]

section Scopes

variable {session agent global repo : Json}

lemma ofFields_scopes :
    Object.ofFields [("session", session), ("agent", agent), ("global", global), ("repo", repo)] =
      scopes session agent global repo := by
  have hperm : List.Perm
      [("session", session), ("agent", agent), ("global", global), ("repo", repo)]
      (scopes session agent global repo) := (List.perm_append_singleton _ _).symm
  refine (extend_perm hperm (by simp)).trans (ofFields_sorted ?_)
  exact sorted_four (by decide) (by decide) (by decide)

@[simp] lemma assign_global (value : Json) :
    (object (scopes session agent global repo)).assign "global" value =
      object (scopes session agent value repo) := by
  unfold Json.assign scopes
  dsimp only
  rw [insert_later _ _ (by decide) (by decide), insert_here]

@[simp] lemma assign_repo (value : Json) :
    (object (scopes session agent global repo)).assign "repo" value =
      object (scopes session agent global value) := by
  unfold Json.assign scopes
  dsimp only
  rw [insert_later _ _ (by decide) (by decide), insert_later _ _ (by decide) (by decide),
    insert_here]

@[simp] lemma assign_agent (value : Json) :
    (object (scopes session agent global repo)).assign "agent" value =
      object (scopes session value global repo) := by
  unfold Json.assign scopes
  dsimp only
  rw [insert_here]

@[simp] lemma assignIn_agent (name : Json) :
    (object (scopes session (object []) global repo)).assignIn "agent" "name" name =
      object (scopes session (object [("name", name)]) global repo) := by
  unfold Json.assignIn
  rw [assign_agent]
  rfl

@[simp] lemma assignIn_repo (root : Json) :
    (object (scopes session agent global repo)).assignIn "repo" "root" root =
      object (scopes session agent global (repo.assign "root" root)) := by
  unfold Json.assignIn
  rw [assign_repo]
  rfl

end Scopes

lemma session_entries :
    ((object (Object.ofFields
        [("requests", .array requests), ("requests_complete", .bool context.completeThroughEvent),
          ("source_coverage", .string (coverage context))])).assign "id"
            (.string context.sessionId)) =
      object [("id", .string context.sessionId), ("requests", .array requests),
        ("requests_complete", .bool context.completeThroughEvent),
        ("source_coverage", .string (coverage context))] := by
  have hsorted : List.Pairwise (fun a b : String × Json => a.1 < b.1)
      [("id", .null), ("requests", .array requests),
        ("requests_complete", .bool context.completeThroughEvent),
        ("source_coverage", .string (coverage context))] :=
    sorted_four (by decide) (by decide) (by decide)
  rw [ofFields_sorted hsorted.of_cons]
  exact congrArg object (insert_first _ _ (by decide) (by decide))

lemma sessionEntries_sorted :
    Object.ofFields [("id", .string context.sessionId), ("requests", .array requests),
        ("requests_complete", .bool context.completeThroughEvent),
        ("source_coverage", .string (coverage context))] =
      [("id", .string context.sessionId), ("requests", .array requests),
        ("requests_complete", .bool context.completeThroughEvent),
        ("source_coverage", .string (coverage context))] := by
  exact ofFields_sorted (sorted_four (by decide) (by decide) (by decide))

lemma resultContext_eq :
    resultContext context = contextValue context (context.requests.map resultRequest) := by
  unfold resultContext contextValue repoValue sessionValue
  dsimp only
  rw [session_entries, ofFields_scopes]
  cases context.projectRoot with
  | none | some => simp

lemma mergeInto_scopes (inventories : CurrentInventories) (session agent : Json) :
    inventories.mergeInto (object (scopes session agent (object []) (object []))) =
      some (object (scopes session agent (object (Object.ofFields inventories.global.fields))
        (object (Object.ofFields inventories.repo.fields)))) := by
  have hglobal := @assign_global session agent (object []) (object [])
    (object (Object.ofFields inventories.global.fields))
  have hrepo := @assign_repo session agent (object (Object.ofFields inventories.global.fields))
    (object []) (object (Object.ofFields inventories.repo.fields))
  have hfirst : mergeScope (scopes session agent (object []) (object [])) "global"
      inventories.global = some (scopes session agent
        (object (Object.ofFields inventories.global.fields)) (object [])) :=
    congrArg some (Json.object.inj hglobal)
  have hsecond : mergeScope (scopes session agent
      (object (Object.ofFields inventories.global.fields)) (object [])) "repo" inventories.repo =
        some (scopes session agent (object (Object.ofFields inventories.global.fields))
          (object (Object.ofFields inventories.repo.fields))) :=
    congrArg some (Json.object.inj hrepo)
  unfold CurrentInventories.mergeInto
  dsimp only
  rw [hfirst, Option.bind_eq_bind, Option.bind_some, hsecond]
  rfl

lemma publicContext_eq [Platform] {frozen : FrozenContext}
    (h : publicContext context = .ok frozen) :
    ∃ values, context.requests.mapM publicRequest = .ok values ∧
      frozen = ⟨contextValue context values, [contextDependency context]⟩ := by
  unfold publicContext at h
  obtain ⟨values, hvalues, h⟩ := Except.bind_ok_iff.mp h
  obtain ⟨_, -, h⟩ := Except.bind_ok_iff.mp h
  dsimp only at h
  rw [sessionEntries_sorted, ofFields_scopes, mergeInto_scopes, Option.getD_some] at h
  cases h
  refine ⟨values, hvalues, ?_⟩
  unfold contextValue repoValue sessionValue
  cases context.projectRoot with
  | none | some => simp

lemma get?_addAttribution {entries : Object} (attribution : ObservedAttribution) {key : String}
    (hmodel : "model" ≠ key) (hmode : "fast_mode" ≠ key) :
    (addAttribution (.object entries) attribution).get? key = entries.get? key := by
  unfold addAttribution
  cases attribution.model <;> cases attribution.fastMode <;>
    simp [Json.assign, get?_object, get?_insert, hmodel, hmode]

lemma requests_sessionValue :
    (sessionValue context requests).get? "requests" = some (.array requests) := by
  unfold sessionValue
  cases context.sessionSelection with
  | none => rfl
  | some selection =>
    refine (get?_addAttribution selection (by decide) (by decide)).trans ?_
    rfl

variable {context requests}

lemma contextValue_inj {requests' : List Json} :
    contextValue context requests = contextValue context requests' ↔ requests = requests' := by
  constructor
  · intro h
    have hsess : sessionValue context requests = sessionValue context requests' := by
      have hfound := congrArg (fun json => json.get? "session") h
      exact Option.some.inj hfound
    have hrequests := congrArg (fun json => json.get? "requests") hsess
    simp only [requests_sessionValue, Option.some.injEq, Json.array.injEq] at hrequests
    exact hrequests
  · rintro rfl
    rfl

/-- **The two builders agree exactly where the requests are plain.** -/
lemma resultFrozen_eq_iff [Platform] {frozen : FrozenContext} (h : publicContext context = .ok frozen) :
    resultFrozen context = frozen ↔ ∀ request ∈ context.requests, IsPlainRequest request := by
  obtain ⟨values, hvalues, rfl⟩ := publicContext_eq context h
  rw [← resultRequests_eq_iff hvalues, ← contextValue_inj, ← resultContext_eq]
  unfold resultFrozen
  rw [FrozenContext.mk.injEq]
  exact and_iff_left rfl

end Rest

/-! ### The two paths -/

section Paths

variable [Platform] {event : PublishedEvidenceEvent} {context : PublishedContext}
  {published : PublishedObservation} {frozen : FrozenContext}

lemma attached_result {result : PublishedToolResult} (hchange : event.change = .upsert result)
    (hctx : event.context = some context)
    (h : attachedContext (normalize event) = some frozen) : frozen = resultFrozen context := by
  unfold normalize at h
  rw [hchange] at h
  dsimp only at h
  unfold normalizeResult at h
  rw [hctx, Option.filter_some] at h
  by_cases hsafe : isSafe context = true
  · rw [if_pos hsafe] at h
    dsimp only at h
    split_ifs at h
    · cases h
    · cases h
      rfl
  · rw [if_neg hsafe] at h
    cases h

lemma attached_message {kind : String} {msg : Message}
    (hchange : event.change = .observationUpsert published)
    (hctx : event.context = some context)
    (htyped : typedMessage? published.payload = some (kind, msg))
    (heligible : published.eligible = true)
    (h : attachedContext (normalize event) = some frozen) :
    publicContext context = .ok frozen := by
  unfold normalize at h
  rw [hchange] at h
  dsimp only at h
  unfold normalizeObservation at h
  rw [hctx, Option.filter_some] at h
  by_cases hsafe : isSafe context = true
  · rw [if_pos hsafe] at h
    dsimp only at h
    split_ifs at h
    · cases h
    · cases h
    · cases hpublic : publicContext context with
      | error error =>
        rw [hpublic] at h
        cases h
      | ok built =>
        rw [hpublic] at h
        dsimp only at h
        obtain ⟨observed, hobs, hpay⟩ :=
          @normalizePayload_typed _ _ context built _ _ htyped
        have hkind : observationKind published context built =
            (normalizeMessage published context msg kind).map fun _ => (observed, built) := by
          unfold observationKind
          rw [if_pos heligible, hpay]
        rw [hkind] at h
        cases hvalid : normalizeMessage published context msg kind with
        | error error =>
          rw [hvalid] at h
          cases h
        | ok _ =>
          rw [hvalid] at h
          have hmsg : isMessageKind observed = true := by
            cases observed with
            | toolResult _ _ _ =>
              cases hobs
              exact absurd htyped (typedMessage?_ne_result _ _)
            | userMessage _ | assistantMessage _ | toolCall _ => rfl
            | _ => cases hobs
          simp only [Except.map, attachedContext, if_pos hmsg, Option.some.injEq] at h
          rw [h]
  · rw [if_neg hsafe] at h
    cases h

/-- **A result and a message of one context are frozen with the same context exactly when every
request of it is plain.** -/
theorem frozen_contexts_agree_iff {resultEvent messageEvent : PublishedEvidenceEvent}
    {result : PublishedToolResult} {kind : String} {message : Message} {ofResult ofMessage : FrozenContext}
    (hresult : resultEvent.change = .upsert result)
    (hresultContext : resultEvent.context = some context)
    (hmessage : messageEvent.change = .observationUpsert published)
    (hmessageContext : messageEvent.context = some context)
    (htyped : typedMessage? published.payload = some (kind, message))
    (heligible : published.eligible = true)
    (hofResult : attachedContext (normalize resultEvent) = some ofResult)
    (hofMessage : attachedContext (normalize messageEvent) = some ofMessage) :
    ofResult = ofMessage ↔ ∀ request ∈ context.requests, IsPlainRequest request := by
  rw [attached_result hresult hresultContext hofResult]
  exact resultFrozen_eq_iff
    (attached_message hmessage hmessageContext htyped heligible hofMessage)

lemma attached_of_result {result : PublishedToolResult}
    (hchange : event.change = .upsert result) (h : ResultAdmitted event result context) :
    attachedContext (normalize event) = some (resultFrozen context) := by
  unfold normalize
  rw [hchange]
  dsimp only
  unfold normalizeResult
  rw [h.known, Option.filter_some, if_pos h.safe]
  dsimp only
  rw [if_neg (by simp [h.validity, h.branch, h.identity, h.order])]
  rfl

lemma attached_of_message {kind : String} {msg : Message}
    (hchange : event.change = .observationUpsert published)
    (h : MessageAdmitted event published context kind msg)
    (hfrozen : publicContext context = .ok frozen) :
    attachedContext (normalize event) = some frozen := by
  have hfirst : (published.firstEligiblePublication.any fun first =>
      decide (event.cursor < first)) = false := by
    rw [Option.any_eq_false]
    intro first hmem
    simpa using h.first first hmem
  obtain ⟨observed, hobs, hpay⟩ := @normalizePayload_typed _ _ context frozen _ _ h.payload
  have hmsg : normalizeMessage published context msg kind = .ok () :=
    normalizeMessage_ok_iff.mpr ⟨h.valid, h.named, h.source⟩
  have hkind : observationKind published context frozen = .ok (observed, frozen) := by
    unfold observationKind
    rw [if_pos h.eligible, hpay, hmsg]
    rfl
  have hown : isMessageKind observed = true := by
    cases observed with
    | toolResult _ _ _ =>
      cases hobs
      exact absurd h.payload (typedMessage?_ne_result _ _)
    | userMessage _ | assistantMessage _ | toolCall _ => rfl
    | _ => cases hobs
  unfold normalize
  rw [hchange]
  dsimp only
  unfold normalizeObservation
  rw [h.known, Option.filter_some, if_pos h.safe]
  dsimp only
  rw [if_neg (by simp [h.validity, h.branch, h.identity, h.order, hfirst]), if_neg (by simp [h.bounds]),
    hfrozen]
  dsimp only
  rw [hkind]
  dsimp only
  rw [if_pos hown]
  rfl

end Paths

/-! ### The answer to a question -/

def answeredSession (reply : Option Json) : PublishedContext :=
  { namedSession with
    requests := [("answer", .object (jsonField "in_reply_to" reply ++
      [("kind", .string "question_answer"), ("source", .string "opencode"),
        ("text", .string "Yes.")]))] }

def shellResult : PublishedToolResult := { blankNameResult with toolName := some "bash" }

def resultIn (context : PublishedContext) : PublishedEvidenceEvent :=
  { blankNameEvent with context := some context, change := .upsert shellResult }

def helloMessage : Message where
  id := "hello"
  value := .object [("content", .string "Hello."), ("id", .string "hello"),
    ("kind", .string "user_message"), ("role", .string "user"), ("source", .string "opencode")]

def helloObservation : PublishedObservation where
  identity := "hello"
  nativeOrder := "jsonl:5:0"
  firstEligiblePublication := none
  revision := 1
  eligible := true
  payloadComplete := true
  validity := .valid
  payload := .userMessage helloMessage

def messageIn (context : PublishedContext) : PublishedEvidenceEvent :=
  { blankNameEvent with context := some context, change := .observationUpsert helloObservation }

lemma resultIn_admitted (reply : Option Json) :
    ResultAdmitted (resultIn (answeredSession reply)) shellResult (answeredSession reply) where
  known := rfl
  safe := (by decide : isSafe namedSession = true)
  validity := rfl
  branch := (by decide : isBlank "main" = false)
  identity := by decide
  order := by decide
  final := rfl

lemma messageIn_admitted {reply : Option Json} (hbounds : (measureJson
    (.array [helloObservation.written, (answeredSession reply).written]) PUBLIC_LIMITS).isOk = true)
    (hsess : (@publicContext asciiPlatform (answeredSession reply)).isOk = true) :
    @MessageAdmitted asciiPlatform (messageIn (answeredSession reply)) helloObservation
      (answeredSession reply) "user_message" helloMessage := by
  let _ := asciiPlatform
  exact {
    payload := rfl
    known := rfl
    safe := (by decide : isSafe namedSession = true)
    validity := rfl
    branch := (by decide : isBlank "main" = false)
    identity := by decide
    order := by decide
    first := fun _ h => nomatch h
    bounds := hbounds
    session := hsess
    eligible := rfl
    valid := by decide
    named := rfl
    source := (by decide : (helloMessage.value.index "source").asStr = some namedSession.agentName) }

/-- The result of a session whose answer names its question is frozen without that name. -/
theorem reply_binding_is_dropped :
    let _ := asciiPlatform
    ∃ ofResult ofMessage,
      attachedContext (normalize (resultIn (answeredSession (some (.string "question"))))) =
          some ofResult ∧
        attachedContext (normalize (messageIn (answeredSession (some (.string "question"))))) =
          some ofMessage ∧
        ofResult ≠ ofMessage := by
  let _ := asciiPlatform
  dsimp only
  have hok : (publicContext (answeredSession (some (.string "question")))).isOk = true := by
    decide
  obtain ⟨frozen, hfrozen⟩ := Except.isOk_iff.mp hok
  refine ⟨_, frozen, attached_of_result rfl (resultIn_admitted _),
    attached_of_message rfl (messageIn_admitted (by decide +kernel) hok) hfrozen, fun heq => ?_⟩
  have hplain := (resultFrozen_eq_iff hfrozen).mp heq _ List.mem_cons_self
  cases hplain.1

/-- Without the name the two contexts are one. -/
theorem frozen_contexts_agree_plain :
    let _ := asciiPlatform
    attachedContext (normalize (resultIn (answeredSession none))) =
      attachedContext (normalize (messageIn (answeredSession none))) := by
  let _ := asciiPlatform
  dsimp only
  have hok : (publicContext (answeredSession none)).isOk = true := by decide
  obtain ⟨frozen, hfrozen⟩ := Except.isOk_iff.mp hok
  have hresult := attached_of_result rfl (resultIn_admitted none)
  have hmessage := attached_of_message rfl (messageIn_admitted (by decide +kernel) hok) hfrozen
  have hplain : ∀ request ∈ (answeredSession none).requests, IsPlainRequest request := by
    intro request hrequest
    rw [List.mem_singleton.mp hrequest]
    refine ⟨rfl, ?_⟩
    rintro kind ⟨⟩
    rfl
  have hagree := (frozen_contexts_agree_iff rfl rfl rfl rfl rfl rfl hresult hmessage).mpr hplain
  rw [hresult, hmessage, hagree]

end Publication

end Antiburn
