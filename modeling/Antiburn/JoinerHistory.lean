/-
What happens to an OpenCode V2 joiner, event by event.

`history` names, in order, the events that a joiner handles and that decide what a
result is joined to: deliveries, new steps and the arguments of calls.  `Shrinks` is
what all other handlers do: they forget steps and calls or finish them, and add gaps.
-/
import Antiburn.CompositeSink
import Antiburn.JoinerBooks

namespace Antiburn

def EVIDENCE_STRING_CAP : Nat := 256

namespace Joiner

/-! ### Observations -/

/-- What `into_observation` makes of a result; the facts that are decoded from its name and
input are left out. -/
structure JoinedObservation where
  sessionId : String
  recordId : String
  callId : String
  resultId : String
  sequence : Nat
  toolName : String
  arguments : Option Json
  content : Option String
  status : TerminalStatus
  completeness : ToolResultCompleteness
  mainSession : Bool
  completeThroughEvent : Bool
  userMessages : List UserRequest
  outcome : Option NativeToolOutcome
  providerExecuted : Option Bool

/-- Whether a text is short enough to identify something. -/
def withinCap (text : String) : Bool := decide (text.utf8ByteSize ≤ EVIDENCE_STRING_CAP)

namespace JoinedToolResult

def userMessagesComplete (result : JoinedToolResult) : Bool :=
  !result.userMessages.isEmpty && withinCap result.sessionId &&
    result.userMessages.all fun message =>
      message.complete && withinCap message.messageId &&
        message.text.any fun text =>
          !text.isEmpty && decide (text.utf8ByteSize ≤ MAX_STRING_BYTES)

/-- The messages of the context; `isBounded` is `UserMessage::is_bounded`. -/
def contextMessages (isBounded : UserRequest → Bool) (mainSession : Bool)
    (result : JoinedToolResult) : List UserRequest :=
  result.userMessages.filter fun message =>
    mainSession && message.text.isSome && isBounded message

def completeThroughEvent (isBounded : UserRequest → Bool) (completeFromBoundary mainSession : Bool)
    (result : JoinedToolResult) : Bool :=
  mainSession && completeFromBoundary && result.gaps.isEmpty && result.userMessagesComplete &&
    (result.contextMessages isBounded mainSession).all UserRequest.complete

def identityIsBounded (result : JoinedToolResult) : Bool :=
  withinCap result.sessionId && withinCap result.assistantMessageId && withinCap result.callId &&
    withinCap result.eventId && withinCap result.toolName

def requestIsComplete (result : JoinedToolResult) : Bool :=
  result.requestMessageId.isSome && result.requestSequence.isSome && hasText result.requestText

def intoObservation (isBounded : UserRequest → Bool) (completeFromBoundary mainSession : Bool)
    (result : JoinedToolResult) : JoinedObservation where
  sessionId := result.sessionId
  recordId := result.assistantMessageId
  callId := result.callId
  resultId := result.eventId
  sequence := result.sequence
  toolName := result.toolName
  arguments := result.input
  content := result.content
  status := result.status
  completeness :=
    if !result.identityIsBounded then .unsafeIdentity
    else if !mainSession then .unsafeOwnership
    else if result.gaps.isEmpty && result.requestIsComplete &&
        result.completeThroughEvent isBounded completeFromBoundary mainSession &&
        result.input.isSome && result.content.isSome then .complete
    else .incomplete
  mainSession
  completeThroughEvent := result.completeThroughEvent isBounded completeFromBoundary mainSession
  userMessages := result.contextMessages isBounded mainSession
  outcome := result.outcome
  providerExecuted := result.providerExecuted

end JoinedToolResult

/-! ### Histories -/

inductive Happened where
  /-- A user item is delivered; the request history may start again with it. -/
  | delivered (request : UserRequest) (restart : Bool)
  /-- A step starts that is not retained yet. -/
  | started (messageId : String)
  /-- A call gets its arguments; its step is retained or not. -/
  | called (key : String × String) (input : Json) (retained : Bool)
  /-- The input of a call ends, and it can be read. -/
  | inputEnded (key : String × String) (input : Json)

section Happening

variable (codec : JoinerCodec)

def happening (joiner : Joiner) (kind : EventKind) (terminal : TerminalEvent) : Option Happened :=
  let data := terminal.data
  match kind with
  | .delivered =>
    match (boundedField data "inboxID").bind joiner.pendingInbox.lookup with
    | some (.user request) =>
      some (.delivered { request with sequence := terminal.sequence }
        (joiner.requestHistoryGap || !request.complete))
    | _ => none
  | .stepStarted =>
    match boundedField data "assistantMessageID" with
    | some messageId =>
      if joiner.steps.lookup messageId = none then some (.started messageId) else none
    | none => none
  | .toolCalled =>
    match boundedField data "assistantMessageID", boundedField data "id", data.get? "input" with
    | some messageId, some callId, some input =>
      some (.called (messageId, callId) input (joiner.steps.lookup messageId).isSome)
    | _, _, _ => none
  | .toolInputEnded =>
    match boundedField data "assistantMessageID", boundedField data "id",
      (data.get? "text").bind Json.asStr with
    | some messageId, some callId, some text =>
      (codec.readJson text).map (.inputEnded (messageId, callId))
    | _, _, _ => none
  | _ => none

def happened (joiner : Joiner) : JoinerInput → Option Happened
  | .markGap => none
  | .event event =>
    match (codec.eventDigest event).bind (joiner.receive event) with
    | some (.handled admitted kind terminal) => admitted.happening codec kind terminal
    | _ => none

def history (joiner : Joiner) : List JoinerInput → List Happened
  | [] => []
  | input :: rest =>
    (joiner.happened codec input).toList ++
      match joiner.feed codec input with
      | some next => next.history rest
      | none => []

end Happening

/-- The user items since the request history last started again, oldest first. -/
def sinceRestart (log : List Happened) : List UserRequest :=
  log.foldl (fun kept entry =>
    match entry with
    | .delivered request restart => if restart then [request] else kept ++ [request]
    | _ => kept) []

def lastArgument (key : String × String) (log : List Happened) : Option Json :=
  log.foldl (fun last entry =>
    match entry with
    | .called other input _ => if other = key then some input else last
    | .inputEnded other input => if other = key then some input else last
    | _ => last) none

/-- A step started, has not started again since, and some items had been delivered by then. -/
def StartedWith (log : List Happened) (messageId : String) (users : List UserRequest) : Prop :=
  ∃ before after, log = before ++ .started messageId :: after ∧ .started messageId ∉ after ∧
    users = sinceRestart before

/-- A call got arguments in a retained step that had started with some items. -/
def AnnouncedWith (log : List Happened) (key : String × String) (users : List UserRequest) :
    Prop :=
  ∃ before input after, log = before ++ .called key input true :: after ∧
    StartedWith before key.1 users

/-! ### Growing histories -/

lemma sinceRestart_snoc (log : List Happened) (entry : Happened) :
    sinceRestart (log ++ [entry]) =
      match entry with
      | .delivered request restart => if restart then [request] else sinceRestart log ++ [request]
      | _ => sinceRestart log := by
  unfold sinceRestart
  rw [List.foldl_append]
  rfl

lemma lastArgument_snoc (key : String × String) (log : List Happened) (entry : Happened) :
    lastArgument key (log ++ [entry]) =
      match entry with
      | .called other input _ | .inputEnded other input => if other = key then some input else lastArgument key log
      | _ => lastArgument key log := by
  unfold lastArgument
  rw [List.foldl_append]
  rfl

variable {data : Object} {step : Step} {messageId : String} {key : String × String}

section

variable {log : List Happened} {users : List UserRequest}

lemma StartedWith.snoc (h : StartedWith log messageId users) {entry : Happened}
    (hentry : entry ≠ .started messageId) : StartedWith (log ++ [entry]) messageId users := by
  obtain ⟨before, after, rfl, hnot, husers⟩ := h
  refine ⟨before, after ++ [entry], by simp, fun hmem => ?_, husers⟩
  rcases List.mem_append.mp hmem with hmem | hmem
  · exact hnot hmem
  · exact hentry (List.mem_singleton.mp hmem).symm

lemma AnnouncedWith.snoc (h : AnnouncedWith log key users) (entry : Happened) :
    AnnouncedWith (log ++ [entry]) key users := by
  obtain ⟨before, input, after, rfl, hstarted⟩ := h
  exact ⟨before, input, after ++ [entry], by simp, hstarted⟩

end

/-! ### Forgetting -/

structure Shrinks (joiner next : Joiner) : Prop where
  gaps : ∀ found ∈ joiner.gaps, found ∈ next.gaps
  users : next.users = joiner.users
  steps : ∀ messageId step, next.steps.lookup messageId = some step →
    ∃ old, joiner.steps.lookup messageId = some old ∧ step.context = old.context
  calls : ∀ key call, next.calls.lookup key = some call →
    ∃ old, joiner.calls.lookup key = some old ∧ (old.terminal ≠ none → call.terminal ≠ none) ∧
      (call.input = old.input ∧ call.context = old.context ∨
        call.input = none ∧ call.context.users = [])

variable {joiner mid next : Joiner}

/-- Nothing that results depend on changes, but for more gaps. -/
structure Same (joiner next : Joiner) : Prop where
  gaps : ∀ found ∈ joiner.gaps, found ∈ next.gaps
  users : next.users = joiner.users
  steps : next.steps = joiner.steps
  calls : next.calls = joiner.calls

lemma Same.refl (joiner : Joiner) : Same joiner joiner := ⟨fun _ h => h, rfl, rfl, rfl⟩

lemma Same.trans (h : Same joiner mid) (h' : Same mid next) : Same joiner next where
  gaps := fun found hfound => h'.gaps found (h.gaps found hfound)
  users := h'.users.trans h.users
  steps := h'.steps.trans h.steps
  calls := h'.calls.trans h.calls

lemma Same.shrinks (h : Same joiner next) : Shrinks joiner next where
  gaps := h.gaps
  users := h.users
  steps := fun _ step hstep => ⟨step, h.steps ▸ hstep, rfl⟩
  calls := fun _ call hcall => ⟨call, h.calls ▸ hcall, id, .inl ⟨rfl, rfl⟩⟩

lemma Shrinks.of_same (hgaps : ∀ found ∈ joiner.gaps, found ∈ next.gaps)
    (husers : next.users = joiner.users) (hsteps : next.steps = joiner.steps)
    (hcalls : next.calls = joiner.calls) : Shrinks joiner next :=
  Same.shrinks ⟨hgaps, husers, hsteps, hcalls⟩

lemma Shrinks.refl (joiner : Joiner) : Shrinks joiner joiner := (Same.refl joiner).shrinks

lemma Shrinks.trans (h : Shrinks joiner mid) (h' : Shrinks mid next) : Shrinks joiner next where
  gaps := fun found hfound => h'.gaps found (h.gaps found hfound)
  users := h'.users.trans h.users
  steps := fun messageId step hstep => by
    obtain ⟨between, hbetw, hsame⟩ := h'.steps messageId step hstep
    obtain ⟨old, hold, hsame'⟩ := h.steps messageId between hbetw
    exact ⟨old, hold, hsame.trans hsame'⟩
  calls := fun key call hcall => by
    obtain ⟨between, hbetw, hterm, hcase⟩ := h'.calls key call hcall
    obtain ⟨old, hold, hterm', hcase'⟩ := h.calls key between hbetw
    refine ⟨old, hold, fun hne => hterm (hterm' hne), ?_⟩
    rcases hcase with ⟨hinput, hctx⟩ | hcase
    · rw [hinput, hctx]
      exact hcase'
    · exact .inr hcase

lemma mem_gap (joiner : Joiner) (found : Gap) : found ∈ (joiner.gap found).gaps := by
  unfold gap
  dsimp only
  split
  · assumption
  · exact List.mem_append_right _ List.mem_cons_self

lemma gap_same (joiner : Joiner) (found : Gap) : Same joiner (joiner.gap found) := by
  refine ⟨fun other hother => ?_, rfl, rfl, rfl⟩
  unfold gap
  dsimp only
  split
  · exact hother
  · exact List.mem_append_left _ hother

lemma gap_shrinks (joiner : Joiner) (found : Gap) : Shrinks joiner (joiner.gap found) :=
  (gap_same joiner found).shrinks

lemma noteGap_shrinks (joiner : Joiner) (found : Option Gap) :
    Shrinks joiner (joiner.noteGap found) := by
  cases found with
  | none => exact .refl joiner
  | some found => exact gap_shrinks joiner found

lemma release_eq {bytes : Nat} (h : joiner.release bytes = some next) :
    next = { joiner with retainedBytes := joiner.retainedBytes - bytes } := by
  unfold release at h
  split at h
  · exact (Option.some.inj h).symm
  · cases h

lemma removeStep_shrinks
    (h : joiner.removeStep messageId step = some next) : Shrinks joiner next := by
  rw [release_eq h]
  refine { Shrinks.refl joiner with steps := fun other found hfound => ?_ }
  exact ⟨found, (Tally.lookup_erase_eq_some.mp hfound).2, rfl⟩

lemma touchStep_shrinks {changed : Step}
    (hstep : joiner.steps.lookup messageId = some step)
    (hsame : changed.context = step.context) :
    Shrinks joiner { joiner with steps := joiner.steps.insert messageId changed } := by
  refine { Shrinks.refl joiner with steps := fun other found hfound => ?_ }
  rcases Tally.lookup_insert_eq_some.mp hfound with ⟨rfl, rfl⟩ | ⟨-, hfound⟩
  · exact ⟨step, hstep, hsame⟩
  · exact ⟨found, hfound, rfl⟩

lemma observeStepEnded_shrinks
    (h : joiner.observeStepEnded data = some next) : Shrinks joiner next := by
  unfold observeStepEnded at h
  split at h
  next =>
    cases h
    exact gap_shrinks joiner _
  next =>
    split at h
    next =>
      cases h
      exact .refl joiner
    next step hstep =>
      dsimp only at h
      split at h
      next => exact removeStep_shrinks h
      next =>
        cases h
        exact touchStep_shrinks hstep rfl

lemma observeExecutionEnded_shrinks (h : joiner.observeExecutionEnded = some next) :
    Shrinks joiner next := by
  unfold observeExecutionEnded at h
  simp only [Option.bind_eq_bind, Option.bind_eq_some_iff] at h
  obtain ⟨first, hfirst, second, hsecond, hnext⟩ := h
  have hfirst := release_eq hfirst
  have hsecond := release_eq hsecond
  cases hnext
  rw [hsecond, hfirst]
  refine { Shrinks.refl joiner with steps := fun messageId step hstep => ?_, calls := ?_ }
  · dsimp only at hstep
    rw [AList.lookup_empty] at hstep
    cases hstep
  · intro key call hcall
    exact ⟨call, (Tally.lookup_retain.mp hcall).1, id, .inl ⟨rfl, rfl⟩⟩

section

variable {inboxId : String} (h : joiner.removeInbox inboxId = some next)
include h

lemma removeInbox_eq :
    ∃ inbox bytes, next = { joiner with pendingInbox := inbox, retainedBytes := bytes } := by
  unfold removeInbox at h
  split at h
  · cases h
    exact ⟨_, _, rfl⟩
  · have heq := release_eq h
    exact ⟨joiner.pendingInbox.erase inboxId, _, heq⟩

lemma removeInbox_shrinks :
    Shrinks joiner next := by
  obtain ⟨inbox, bytes, rfl⟩ := removeInbox_eq h
  exact .of_same (fun _ hfound => hfound) rfl rfl rfl

end

lemma observeInboxCancelled_shrinks
    (h : joiner.observeInboxCancelled data = some next) : Shrinks joiner next := by
  unfold observeInboxCancelled at h
  split at h
  · cases h
    exact gap_shrinks joiner _
  · exact removeInbox_shrinks h

lemma observeUserEnqueued_shrinks {sequence : Nat}
    (h : joiner.observeUserEnqueued sequence data = some next) : Shrinks joiner next := by
  unfold observeUserEnqueued at h
  split at h
  · cases h
    exact gap_shrinks joiner _
  next inboxId _ =>
    split at h
    · cases h
      exact gap_shrinks joiner _
    · dsimp only at h
      have hnoted := noteGap_shrinks joiner (pendingItem sequence inboxId data).2
      generalize joiner.noteGap (pendingItem sequence inboxId data).2 = noted at hnoted h
      split at h
      · cases h
        exact hnoted.trans (.of_same (fun _ hfound => hfound) rfl rfl rfl)
      · split at h
        · cases h
        next released hrel =>
          cases h
          rw [release_eq hrel]
          refine (hnoted.trans ?_).trans (gap_shrinks _ _)
          exact .of_same (fun _ hfound => hfound) rfl rfl rfl

/-! ### Opening calls -/

/-- A call is there, perhaps a new one, and nothing else is new. -/
structure Opens (key : String × String) (joiner next : Joiner) : Prop where
  gaps : ∀ found ∈ joiner.gaps, found ∈ next.gaps
  users : next.users = joiner.users
  steps : ∀ messageId step, next.steps.lookup messageId = some step →
    ∃ old, joiner.steps.lookup messageId = some old ∧ step.context = old.context
  calls : ∀ other call, next.calls.lookup other = some call →
    joiner.calls.lookup other = some call ∨
      other = key ∧ joiner.calls.lookup key = none ∧ call.input = none ∧ call.context.users = []

lemma withActiveCall_lookup {steps : Tally String Step} {other : String}
    (h : (withActiveCall steps messageId).lookup other = some step) :
    ∃ old, steps.lookup other = some old ∧ step.context = old.context := by
  unfold withActiveCall at h
  split at h
  next old hold =>
    rcases Tally.lookup_insert_eq_some.mp h with ⟨rfl, rfl⟩ | ⟨-, hfound⟩
    · exact ⟨old, hold, rfl⟩
    · exact ⟨step, hfound, rfl⟩
  next => exact ⟨step, h, rfl⟩

def Spoiled (joiner : Joiner) : Prop := ∃ found ∈ joiner.gaps, found ≠ .missingJoin

lemma Spoiled.gap {found : Gap} (h : found ≠ .missingJoin) : Spoiled (joiner.gap found) :=
  ⟨found, mem_gap joiner found, h⟩

lemma makeRoom_spec {room : Bool} (h : joiner.makeRoom = some (next, room)) :
    Shrinks joiner next ∧ (room = false → Spoiled next) ∧
      ∀ key call, next.calls.lookup key = some call → joiner.calls.lookup key = some call := by
  unfold makeRoom at h
  split at h
  · split at h
    · cases h
      exact ⟨gap_shrinks joiner _, fun _ => .gap nofun, fun _ _ hcall => hcall⟩
    next expired rest horder =>
      split at h
      · cases h
      next call hcall =>
        obtain ⟨released, hrel, heq⟩ := Option.map_eq_some_iff.mp h
        cases heq
        have hrel := release_eq hrel
        have hcalls : ∀ key found, next.calls.lookup key = some found →
            joiner.calls.lookup key = some found := by
          intro key found hfound
          rw [hrel] at hfound
          exact (Tally.lookup_erase_eq_some.mp hfound).2
        refine ⟨?_, nofun, hcalls⟩
        refine
          { gaps := fun found hfound => by rw [hrel]; exact hfound
            users := by rw [hrel]
            steps := fun messageId step hstep => ⟨step, by rw [hrel] at hstep; exact hstep, rfl⟩
            calls := fun key found hfound =>
              ⟨found, hcalls key found hfound, id, .inl ⟨rfl, rfl⟩⟩ }
  · cases h
    exact ⟨.refl joiner, nofun, fun _ _ hcall => hcall⟩

lemma ensureCall_spec {ready : Bool}
    (h : joiner.ensureCall key = some (next, ready)) :
    Opens key joiner next ∧ (ready = false → Spoiled next) ∧
      (ready = true → ∀ call, next.calls.lookup key = some call → call.terminal = none) := by
  unfold ensureCall at h
  split at h
  next call hcall =>
    split at h
    next =>
      cases h
      have hgap := gap_shrinks joiner .conflictingDuplicate
      exact ⟨⟨hgap.gaps, rfl, hgap.steps, fun _ _ hfound => .inl hfound⟩, fun _ => .gap nofun, nofun⟩
    next hterm =>
      cases h
      refine ⟨⟨fun _ hfound => hfound, rfl, fun _ step hstep => ⟨step, hstep, rfl⟩,
        fun _ _ hfound => .inl hfound⟩, nofun, fun _ found hfound => ?_⟩
      rw [hcall] at hfound
      cases hfound
      simpa using hterm
  next hnone =>
    split at h
    · cases h
    next roomed hroomed =>
      cases h
      obtain ⟨hshr, hspoiled, hcalls⟩ := makeRoom_spec hroomed
      exact ⟨⟨hshr.gaps, hshr.users, hshr.steps,
        fun other call hcall => .inl (hcalls other call hcall)⟩, fun _ => hspoiled rfl, nofun⟩
    next roomed hroomed =>
      cases h
      obtain ⟨hshr, -, hcalls⟩ := makeRoom_spec hroomed
      refine ⟨⟨hshr.gaps, hshr.users, fun messageId step hstep => ?_,
        fun other call hcall => ?_⟩, nofun, fun _ call hcall => ?_⟩
      · obtain ⟨between, hbetw, hsame⟩ := withActiveCall_lookup hstep
        obtain ⟨old, hold, hsame'⟩ := hshr.steps messageId between hbetw
        exact ⟨old, hold, hsame.trans hsame'⟩
      · rcases Tally.lookup_insert_eq_some.mp hcall with ⟨rfl, rfl⟩ | ⟨-, hcall⟩
        · exact .inr ⟨rfl, hnone, rfl, rfl⟩
        · exact .inl (hcalls other call hcall)
      · rcases Tally.lookup_insert_eq_some.mp hcall with ⟨-, rfl⟩ | ⟨hne, -⟩
        · rfl
        · exact absurd rfl hne

lemma replaceCall_spec {change : Joiner → Call → Call}
    {old new : Joiner → Call → Nat} (h : joiner.replaceCall key change old new = some next) :
    ∃ call bytes, joiner.calls.lookup key = some call ∧
      next = { joiner with
        retainedBytes := bytes
        calls := joiner.calls.insert key (change joiner call) } := by
  unfold replaceCall at h
  split at h
  · cases h
  next call hcall =>
    obtain ⟨released, hrel, rfl⟩ := Option.map_eq_some_iff.mp h
    rw [release_eq hrel]
    exact ⟨call, _, hcall, rfl⟩

/-! ### The other handlers -/

lemma replaceCall_shrinks {change : Joiner → Call → Call}
    {old new : Joiner → Call → Nat} (h : joiner.replaceCall key change old new = some next)
    (hsame : ∀ call, joiner.calls.lookup key = some call →
      (call.terminal ≠ none → (change joiner call).terminal ≠ none) ∧
        ((change joiner call).input = call.input ∧ (change joiner call).context = call.context ∨
          (change joiner call).input = none ∧ (change joiner call).context.users = [])) :
    Shrinks joiner next := by
  obtain ⟨call, bytes, hcall, rfl⟩ := replaceCall_spec h
  refine { Shrinks.refl joiner with calls := fun other found hfound => ?_ }
  rcases Tally.lookup_insert_eq_some.mp hfound with ⟨rfl, rfl⟩ | ⟨-, hfound⟩
  · exact ⟨call, hcall, hsame call hcall⟩
  · exact ⟨found, hfound, id, .inl ⟨rfl, rfl⟩⟩

lemma settleStep_shrinks
    (h : joiner.settleStep messageId = some next) : Shrinks joiner next := by
  unfold settleStep at h
  split at h
  · cases h
    exact .refl joiner
  next step hstep =>
    dsimp only at h
    split at h
    · exact removeStep_shrinks h
    · cases h
      exact touchStep_shrinks hstep rfl

lemma pushGap_ne_nil (gaps : List Gap) (found : Gap) : pushGap gaps found ≠ [] := by
  unfold pushGap
  split
  next hmem => exact List.ne_nil_of_mem hmem
  next => simp

lemma foldl_pushGap_eq_nil {more gaps : List Gap} (h : more.foldl pushGap gaps = []) :
    gaps = [] ∧ more = [] := by
  induction more generalizing gaps with
  | nil => exact ⟨h, rfl⟩
  | cons found rest ih => exact absurd (ih h).1 (pushGap_ne_nil _ _)

structure ResultOf (joiner : Joiner) (key : String × String) (call : Call)
    (result : JoinedToolResult) : Prop where
  key : (result.assistantMessageId, result.callId) = key
  input : result.input = call.input
  users : result.userMessages = call.context.userMessages
  request : result.requestMessageId = call.context.request.map UserRequest.messageId
  clean : result.gaps = [] → (∀ found ∈ joiner.gaps, found = .missingJoin) ∧
    call.context.gaps = []

lemma joinResult_of (codec : JoinerCodec) (joiner : Joiner) (terminal : TerminalEvent)
    (key : String × String) (call : Call) (name : String) :
    ResultOf joiner key call (joiner.joinResult codec terminal key call name).1 where
  key := rfl
  input := rfl
  users := rfl
  request := rfl
  clean := fun h => by
    have hgaps : joiner.resultGaps call = [] := by
      unfold joinResult at h
      dsimp only at h
      split at h
      · exact absurd h (pushGap_ne_nil _ _)
      · split at h
        · exact absurd h (pushGap_ne_nil _ _)
        · exact h
    obtain ⟨hbase, hctx⟩ := foldl_pushGap_eq_nil hgaps
    refine ⟨fun found hfound => ?_, hctx⟩
    by_contra hne
    exact List.filter_eq_nil_iff.mp hbase found hfound (by simpa using hne)

lemma observeTerminal_spec {codec : JoinerCodec} {terminal : TerminalEvent}
    {result : Option JoinedToolResult}
    (h : joiner.observeTerminal codec terminal = some (next, result)) :
    Shrinks joiner next ∧ ∀ found, result = some found →
      ∃ call, joiner.calls.lookup (found.assistantMessageId, found.callId) = some call ∧
        call.terminal = none ∧
        ResultOf joiner (found.assistantMessageId, found.callId) call found ∧
        ∀ finished, next.calls.lookup (found.assistantMessageId, found.callId) = some finished →
          finished.terminal ≠ none := by
  unfold observeTerminal at h
  split at h
  next messageId callId _ _ =>
    split at h
    next =>
      cases h
      exact ⟨gap_shrinks joiner _, fun _ hnone => nomatch hnone⟩
    next call hcall =>
      split at h
      next =>
        cases h
        exact ⟨gap_shrinks joiner _, fun _ hnone => nomatch hnone⟩
      next name _ =>
        split at h
        next =>
          cases h
          exact ⟨gap_shrinks joiner _, fun _ hnone => nomatch hnone⟩
        next =>
          split at h
          next =>
            cases h
            exact ⟨gap_shrinks joiner _, fun _ hnone => nomatch hnone⟩
          next =>
            dsimp only at h
            have hof := joinResult_of codec joiner terminal (messageId, callId) call name
            generalize joiner.joinResult codec terminal (messageId, callId) call name = joined at *
            split at h
            next =>
              split at h
              next =>
                cases h
                exact ⟨gap_shrinks joiner _, fun _ hnone => nomatch hnone⟩
              next =>
                cases h
                exact ⟨.refl joiner, fun _ hnone => nomatch hnone⟩
            next hopen =>
              split at h
              next => cases h
              next replaced hrepl =>
                obtain ⟨settled, hsett, heq⟩ := Option.map_eq_some_iff.mp h
                cases heq
                have hfinish := replaceCall_shrinks hrepl fun call _ =>
                  ⟨fun _ => nofun, .inr ⟨rfl, rfl⟩⟩
                have hsettle := settleStep_shrinks hsett
                have hord : Shrinks replaced { replaced with
                    terminalCallOrder := replaced.terminalCallOrder ++ [(messageId, callId)] } :=
                  .of_same (fun _ hfound => hfound) rfl rfl rfl
                refine ⟨(hfinish.trans hord).trans hsettle, fun found hfound => ?_⟩
                cases hfound
                have hkey := hof.key
                rw [hkey]
                refine ⟨call, hcall, hopen, hof, fun finished hfin => ?_⟩
                obtain ⟨old, hold, hterm, -⟩ := (hord.trans hsettle).calls _ _ hfin
                obtain ⟨was, bytes, -, hnext⟩ := replaceCall_spec hrepl
                rw [hnext] at hold
                dsimp only at hold
                rw [AList.lookup_insert] at hold
                cases hold
                exact hterm nofun
  next =>
    cases h
    exact ⟨gap_shrinks joiner _, fun _ hnone => nomatch hnone⟩

lemma expireSeen_same (order : List String) (h : joiner.expireSeen order = some next) :
    Same joiner next := by
  induction order generalizing joiner with
  | nil =>
    cases h
    exact ⟨fun _ hfound => hfound, rfl, rfl, rfl⟩
  | cons expired rest ih =>
    unfold expireSeen at h
    split at h
    · split at h
      · cases h
      next released hrel =>
        have hstep : Same joiner released := by
          rw [release_eq hrel]
          exact ⟨fun _ hfound => hfound, rfl, rfl, rfl⟩
        exact hstep.trans (ih h)
    · cases h
      exact ⟨fun _ hfound => hfound, rfl, rfl, rfl⟩

lemma remember_same {eventId digest : String}
    (h : joiner.remember eventId digest = some next) : Same joiner next := by
  obtain ⟨expired, hexpired, rfl⟩ := Option.map_eq_some_iff.mp h
  exact (expireSeen_same _ hexpired).trans ⟨fun _ hfound => hfound, rfl, rfl, rfl⟩

lemma receiveNew_same (event : Json) (eventId : String) (kind : EventKind) (data : Object) :
    Same joiner (joiner.receiveNew event eventId kind data).state := by
  have hord : ∀ sequence, Same joiner { joiner with lastSequence := some sequence } :=
    fun _ => ⟨fun _ hfound => hfound, rfl, rfl, rfl⟩
  unfold receiveNew
  split
  next => exact gap_same joiner _
  next sequence _ =>
    split
    next => exact gap_same joiner _
    next =>
      split
      next => exact gap_same joiner _
      next =>
        split
        next => exact gap_same joiner _
        next =>
          dsimp only
          split
          next => exact (hord sequence).trans (gap_same _ _)
          next sessionId _ =>
            split
            next =>
              split
              next => exact (hord sequence).trans (gap_same _ _)
              next => exact hord sequence
            next =>
              have hnamed : Same joiner { joiner with
                  lastSequence := some sequence
                  retainedBytes := joiner.retainedBytes + sessionId.utf8ByteSize
                  sessionId := some sessionId } := ⟨fun _ hfound => hfound, rfl, rfl, rfl⟩
              split
              next => exact hnamed.trans (gap_same _ _)
              next => exact hnamed

lemma receive_same {event : Json} {digest : String} {admission : Admission}
    (h : joiner.receive event digest = some admission) : Same joiner admission.state := by
  unfold receive at h
  split at h
  · split at h
    · cases h
      exact gap_same joiner _
    · split at h
      · cases h
        exact gap_same joiner _
      · split at h
        · cases h
          exact gap_same joiner _
        · split at h
          next prev _ =>
            cases h
            show Same joiner (if prev ≠ digest then joiner.gap .conflictingDuplicate
              else joiner)
            split
            · exact gap_same joiner _
            · exact .refl joiner
          next =>
            split at h
            · cases h
            next remembered hremem =>
              cases h
              exact (remember_same hremem).trans (receiveNew_same _ _ _ _)
  · cases h
    exact gap_same joiner _

end Joiner

end Antiburn
