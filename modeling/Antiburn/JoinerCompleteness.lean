/-
Complete results of the OpenCode V2 joiner.

`Explained` says how the users, steps and calls of a joiner follow from its history.  It
holds until there is a real gap, and no complete result comes after one.
-/
import Antiburn.JoinerChanges

namespace Antiburn

namespace Joiner

variable {joiner mid next : Joiner} {log : List Happened} {entry : Option Happened}

/-! ### States and histories -/

structure Explained (log : List Happened) (joiner : Joiner) : Prop where
  users : (joiner.users.map HistoryNode.request).reverse = sinceRestart log
  steps : ∀ messageId step, joiner.steps.lookup messageId = some step →
    StartedWith log messageId step.context.userMessages
  arguments : ∀ key call input, joiner.calls.lookup key = some call → call.input = some input →
    lastArgument key log = some input
  announced : ∀ key call, joiner.calls.lookup key = some call → call.context.gaps = [] →
    call.context.users ≠ [] → AnnouncedWith log key call.context.userMessages

lemma explained_empty : Explained [] {} where
  users := rfl
  steps := by simp
  arguments := by simp
  announced := by simp

lemma Explained.shrinks (h : Explained log joiner) (h' : Shrinks joiner next) :
    Explained log next where
  users := by rw [h'.users, h.users]
  steps := fun messageId step hstep => by
    obtain ⟨old, hold, hsame⟩ := h'.steps messageId step hstep
    rw [hsame]
    exact h.steps messageId old hold
  arguments := fun key call input hcall hinput => by
    obtain ⟨old, hold, -, ⟨hsame, -⟩ | ⟨hnone, -⟩⟩ := h'.calls key call hcall
    · exact h.arguments key old input hold (hsame ▸ hinput)
    · rw [hnone] at hinput
      cases hinput
  announced := fun key call hcall hclean husers => by
    obtain ⟨old, hold, -, ⟨-, hsame⟩ | ⟨-, hnone⟩⟩ := h'.calls key call hcall
    · rw [hsame] at hclean husers ⊢
      exact h.announced key old hold hclean husers
    · exact absurd hnone husers

variable {received : Joiner} {codec : JoinerCodec} {event : Json} {result : Option JoinedToolResult}
  {key : String × String}

lemma Explained.opens (h : Explained log joiner)
    (h' : Opens key joiner next) : Explained log next where
  users := by rw [h'.users, h.users]
  steps := fun messageId step hstep => by
    obtain ⟨old, hold, hsame⟩ := h'.steps messageId step hstep
    rw [hsame]
    exact h.steps messageId old hold
  arguments := fun other call input hcall hinput => by
    rcases h'.calls other call hcall with hold | ⟨-, -, hnone, -⟩
    · exact h.arguments other call input hold hinput
    · rw [hnone] at hinput
      cases hinput
  announced := fun other call hcall hclean husers => by
    rcases h'.calls other call hcall with hold | ⟨-, -, -, hnone⟩
    · exact h.announced other call hold hclean husers
    · exact absurd hnone husers

lemma Explained.delivered {request : UserRequest} {restart : Bool}
    (h : Explained log { next with users := joiner.users })
    (husers : next.users.map HistoryNode.request =
      if restart then [request] else request :: joiner.users.map HistoryNode.request) :
    Explained (log ++ [.delivered request restart]) next where
  users := by
    rw [husers, sinceRestart_snoc, ← h.users]
    cases restart <;> simp
  steps := fun messageId step hstep => (h.steps messageId step hstep).snoc nofun
  arguments := fun key call input hcall hinput => by
    rw [lastArgument_snoc]
    exact h.arguments key call input hcall hinput
  announced := fun key call hcall hclean husers => (h.announced key call hcall hclean husers).snoc _

lemma Explained.started {messageId : String} {context : StepContext}
    (h : Explained log { next with steps := joiner.steps })
    (hfresh : joiner.steps.lookup messageId = none) (husers : context.users = next.users)
    (hsteps : next.steps = joiner.steps.insert messageId { context }) :
    Explained (log ++ [.started messageId]) next where
  users := by
    rw [sinceRestart_snoc]
    exact h.users
  steps := fun other step hstep => by
    rw [hsteps] at hstep
    rcases Tally.lookup_insert_eq_some.mp hstep with ⟨rfl, rfl⟩ | ⟨hne, hstep⟩
    · refine ⟨log, [], rfl, List.not_mem_nil, ?_⟩
      unfold StepContext.userMessages
      dsimp only
      rw [husers]
      exact h.users
    · refine (h.steps other step hstep).snoc fun heq => ?_
      cases heq
      exact hne rfl
  arguments := fun key call input hcall hinput => by
    rw [lastArgument_snoc]
    exact h.arguments key call input hcall hinput
  announced := fun key call hcall hclean husers => (h.announced key call hcall hclean husers).snoc _

lemma Explained.argued {input : Json} {changed : Call}
    {last : Happened} (h : Explained log { next with calls := mid.calls })
    (hlast : (∃ retained, last = .called key input retained) ∨ last = .inputEnded key input)
    (harg : changed.input = some input)
    (hannounced : changed.context.gaps = [] → changed.context.users ≠ [] →
      AnnouncedWith (log ++ [last]) key changed.context.userMessages)
    (hcalls : next.calls = mid.calls.insert key changed) : Explained (log ++ [last]) next where
  users := by
    rw [sinceRestart_snoc]
    rcases hlast with ⟨retained, rfl⟩ | rfl
    · exact h.users
    · exact h.users
  steps := fun messageId step hstep => by
    refine (h.steps messageId step hstep).snoc ?_
    rcases hlast with ⟨retained, rfl⟩ | rfl <;> exact nofun
  arguments := fun other call found hcall hfound => by
    rw [hcalls] at hcall
    have hlastArgument : lastArgument other (log ++ [last]) =
        if key = other then some input else lastArgument other log := by
      rw [lastArgument_snoc]
      rcases hlast with ⟨retained, rfl⟩ | rfl <;> rfl
    rw [hlastArgument]
    rcases Tally.lookup_insert_eq_some.mp hcall with ⟨rfl, rfl⟩ | ⟨hne, hcall⟩
    · rw [if_pos rfl, ← harg, hfound]
    · rw [if_neg (Ne.symm hne)]
      exact h.arguments other call found hcall hfound
  announced := fun other call hcall hclean husers => by
    rw [hcalls] at hcall
    rcases Tally.lookup_insert_eq_some.mp hcall with ⟨rfl, rfl⟩ | ⟨-, hcall⟩
    · exact hannounced hclean husers
    · exact (h.announced other call hcall hclean husers).snoc _

lemma Explained.change (h : Explained log joiner) (h' : Change joiner next entry) :
    Spoiled next ∨ Explained (log ++ entry.toList) next := by
  cases h' with
  | shrinks key mid opens rest =>
    rw [Option.toList_none, List.append_nil]
    exact .inr ((h.opens opens).shrinks rest)
  | spoiled entry spoiled keeps => exact .inl spoiled
  | delivered request restart users rest => exact .inr ((h.shrinks rest).delivered users)
  | started messageId context fresh users steps rest =>
    refine .inr ((h.shrinks rest).started fresh ?_ steps)
    rw [users]
    exact rest.users.symm
  | called key input mid call changed opens found unfinished argument context calls rest =>
    have hmid := h.opens opens
    refine .inr ((hmid.shrinks rest).argued (.inl ⟨_, rfl⟩) argument (fun hclean _ => ?_) calls)
    obtain ⟨step, hstep, hsame⟩ := context hclean
    obtain ⟨old, hold, -⟩ := opens.steps key.1 step hstep
    rw [hsame, hold]
    exact ⟨log, input, [], rfl, hmid.steps key.1 step hstep⟩
  | inputEnded key input mid call changed opens found unfinished argument context calls rest =>
    have hmid := h.opens opens
    refine .inr ((hmid.shrinks rest).argued (.inr rfl) argument (fun hclean husers => ?_) calls)
    rw [context] at hclean husers ⊢
    exact (hmid.announced key call found hclean husers).snoc _

/-! ### One call of the joiner -/

lemma takeOmission_shrinks (joiner : Joiner) : Shrinks joiner joiner.takeOmission := by
  have hsame : Shrinks joiner { joiner with
      publicState := { joiner.publicState with outputOmitted := false } } :=
    .of_same (fun _ hfound => hfound) rfl rfl rfl
  unfold takeOmission
  dsimp only
  split
  · exact hsame.trans (gap_shrinks _ _)
  · exact hsame

structure Flushed (joiner : Joiner) : Prop where
  spoiled : Spoiled joiner
  calls : joiner.calls = ∅

lemma flush_flushed (joiner : Joiner) : Flushed joiner.flush := ⟨.gap nofun, rfl⟩

/-- An event is received, handled, and settled or flushed; a result is of a call that was
there without a terminal. -/
structure Observed (codec : JoinerCodec) (joiner : Joiner) (event : Json) (next : Joiner)
    (result : Option JoinedToolResult) (received handled : Joiner) : Prop where
  same : Same joiner received
  change : Change received handled (joiner.happened codec (.event event))
  settled : Shrinks handled next ∨ Flushed next
  result : ∀ found, result = some found → Shrinks handled next ∧
    ∃ call, received.calls.lookup (found.assistantMessageId, found.callId) = some call ∧
      call.terminal = none ∧ ResultOf received (found.assistantMessageId, found.callId) call found ∧
      ∀ finished, handled.calls.lookup (found.assistantMessageId, found.callId) = some finished →
        finished.terminal ≠ none

lemma dispatch_result {kind : EventKind} {terminal : TerminalEvent}
    {found : JoinedToolResult} (h : joiner.dispatch codec kind terminal = some (next, some found)) :
    ∃ call, joiner.calls.lookup (found.assistantMessageId, found.callId) = some call ∧
      call.terminal = none ∧ ResultOf joiner (found.assistantMessageId, found.callId) call found ∧
      ∀ finished, next.calls.lookup (found.assistantMessageId, found.callId) = some finished →
        finished.terminal ≠ none := by
  unfold dispatch at h
  dsimp only at h
  cases kind with
  | toolSuccess | toolFailed => exact (observeTerminal_spec h).2 found rfl
  | updated =>
    dsimp only at h
    split at h <;> cases h
  | enqueued | delivered | cancelled | stepEnded | executionEnded | toolStarted | toolInputEnded
  | toolCalled =>
    obtain ⟨_, -, heq⟩ := Option.map_eq_some_iff.mp h
    cases heq
  | stepStarted | continuity | ignored => cases h

lemma happened_done {digest : String}
    (hdigest : codec.eventDigest event = some digest)
    (hreceive : joiner.receive event digest = some (.done received)) :
    joiner.happened codec (.event event) = none := by
  unfold happened
  dsimp only
  rw [hdigest, Option.bind_some, hreceive]

lemma happened_handled {digest : String}
    {kind : EventKind} {terminal : TerminalEvent}
    (hdigest : codec.eventDigest event = some digest)
    (hreceive : joiner.receive event digest = some (.handled received kind terminal)) :
    joiner.happened codec (.event event) = received.happening codec kind terminal := by
  unfold happened
  dsimp only
  rw [hdigest, Option.bind_some, hreceive]

lemma observe_observed
    (h : joiner.observe codec event = some (next, result)) :
    ∃ received handled, Observed codec joiner event next result received handled := by
  unfold observe at h
  cases hdigest : codec.eventDigest event with
  | none =>
    rw [hdigest] at h
    cases h
    have hentry : joiner.happened codec (.event event) = none := by
      unfold happened
      dsimp only
      rw [hdigest]
      rfl
    refine ⟨joiner, joiner, .refl joiner, ?_, .inl (gap_shrinks joiner _),
      fun _ hnone => nomatch hnone⟩
    rw [hentry]
    exact .of_shrinks (.refl joiner)
  | some digest =>
    rw [hdigest] at h
    obtain ⟨⟨handled, found⟩, hhandl, heq⟩ := Option.map_eq_some_iff.mp h
    -- what comes after the handler
    have hsettled : (Shrinks handled next ∧ result = found) ∨ Flushed next ∧ result = none := by
      dsimp only at heq
      split at heq
      · cases heq
        exact .inr ⟨flush_flushed _, rfl⟩
      · cases heq
        exact .inl ⟨takeOmission_shrinks handled, rfl⟩
    unfold observeEvent at hhandl
    cases hreceive : joiner.receive event digest with
    | none =>
      rw [hreceive] at hhandl
      cases hhandl
    | some admission =>
      have hsame := receive_same hreceive
      rw [hreceive] at hhandl
      cases admission with
      | done received =>
        cases hhandl
        refine ⟨handled, handled, hsame, ?_, hsettled.imp And.left And.left, ?_⟩
        · rw [happened_done hdigest hreceive]
          exact .of_shrinks (.refl handled)
        · rintro last rfl
          rcases hsettled with ⟨-, hnone⟩ | ⟨-, hnone⟩ <;> cases hnone
      | handled received kind terminal =>
        obtain ⟨⟨dispatched, last⟩, hdisp, hpublic⟩ := Option.map_eq_some_iff.mp hhandl
        cases hpublic
        have hpublic : ∀ state, Shrinks dispatched { dispatched with publicState := state } :=
          fun _ => .of_same (fun _ hfound => hfound) rfl rfl rfl
        refine ⟨received, dispatched, hsame, ?_, ?_, ?_⟩
        · rw [happened_handled hdigest hreceive]
          exact dispatch_change hdisp
        · exact hsettled.imp (fun hshr => (hpublic _).trans hshr.1) And.left
        · rintro kept rfl
          rcases hsettled with ⟨hshr, heq⟩ | ⟨-, hnone⟩
          · cases heq
            exact ⟨(hpublic _).trans hshr, dispatch_result hdisp⟩
          · cases hnone

def Known (log : List Happened) (joiner : Joiner) : Prop := Spoiled joiner ∨ Explained log joiner

lemma Spoiled.mono (h : Spoiled joiner) (hgaps : ∀ found ∈ joiner.gaps, found ∈ next.gaps) :
    Spoiled next := by
  obtain ⟨found, hfound, hne⟩ := h
  exact ⟨found, hgaps found hfound, hne⟩

lemma Known.shrinks (h : Known log joiner) (h' : Shrinks joiner next) : Known log next :=
  h.imp (fun hspoiled => hspoiled.mono h'.gaps) fun hexplained => hexplained.shrinks h'

lemma Known.observed
    {handled : Joiner} (h : Known log joiner)
    (h' : Observed codec joiner event next result received handled) :
    Known (log ++ (joiner.happened codec (.event event)).toList) next := by
  have hrecv := h.shrinks h'.same.shrinks
  have hhandl : Known (log ++ (joiner.happened codec (.event event)).toList) handled := by
    rcases hrecv with hspoiled | hexplained
    · exact .inl (h'.change.spoils hspoiled)
    · exact hexplained.change h'.change
  rcases h'.settled with hshr | hflus
  · exact hhandl.shrinks hshr
  · exact .inl hflus.spoiled

lemma Observed.keeps
    {handled : Joiner} (h : Observed codec joiner event next result received handled) :
    Keeps joiner next := by
  have hhandl : Keeps joiner handled := by
    intro key old call hold hterminal hcall
    refine h.change.keeps key old call ?_ hterminal hcall
    rw [h.same.calls]
    exact hold
  rcases h.settled with hshr | hflus
  · exact hhandl.shrinks hshr
  · intro key old call _ _ hcall
    rw [hflus.calls, AList.lookup_empty] at hcall
    cases hcall

lemma feed_known {input : JoinerInput} (h : Known log joiner)
    (hfeed : joiner.feed codec input = some next) :
    Known (log ++ (joiner.happened codec input).toList) next ∧ Keeps joiner next := by
  cases input with
  | event event =>
    obtain ⟨⟨found, result⟩, hobserve, rfl⟩ := Option.map_eq_some_iff.mp hfeed
    obtain ⟨received, handled, hobserved⟩ := observe_observed hobserve
    exact ⟨h.observed hobserved, hobserved.keeps⟩
  | markGap =>
    cases hfeed
    exact ⟨.inl (.gap nofun), (gap_shrinks joiner _).keeps⟩

lemma feedAll_known (codec : JoinerCodec) (inputs : List JoinerInput) (h : Known log joiner)
    (hrun : inputs.foldlM (feed codec) joiner = some next) :
    Known (log ++ joiner.history codec inputs) next := by
  induction inputs generalizing joiner log with
  | nil =>
    cases hrun
    rw [history, List.append_nil]
    exact h
  | cons input rest ih =>
    rw [List.foldlM_cons] at hrun
    obtain ⟨fed, hfeed, hrest⟩ := Option.bind_eq_some_iff.mp hrun
    have hknown := ih (feed_known h hfeed).1 hrest
    rw [history, hfeed]
    rwa [List.append_assoc] at hknown

/-! ### Results -/

lemma finished_stays (codec : JoinerCodec) (more : List JoinerInput)
    {last : Joiner} (hfinished : ∀ call, joiner.calls.lookup key = some call → call.terminal ≠ none)
    (hrun : more.foldlM (feed codec) joiner = some last)
    (hretained : ∀ part state, part <+: more → part.foldlM (feed codec) joiner = some state →
      state.calls.lookup key ≠ none) :
    ∀ call, last.calls.lookup key = some call → call.terminal ≠ none := by
  induction more generalizing joiner with
  | nil =>
    cases hrun
    exact hfinished
  | cons input rest ih =>
    rw [List.foldlM_cons] at hrun
    obtain ⟨fed, hfeed, hrest⟩ := Option.bind_eq_some_iff.mp hrun
    have hkeeps : Keeps joiner fed := by
      cases input with
      | event event =>
        obtain ⟨⟨found, result⟩, hobserve, rfl⟩ := Option.map_eq_some_iff.mp hfeed
        obtain ⟨received, handled, hobserved⟩ := observe_observed hobserve
        exact hobserved.keeps
      | markGap =>
        cases hfeed
        exact (gap_shrinks joiner _).keeps
    refine ih (fun call hcall => ?_) hrest fun part state hpart hstate => ?_
    · obtain ⟨old, hold⟩ := Option.ne_none_iff_exists'.mp
        (hretained [] joiner (List.nil_prefix) rfl)
      exact hkeeps key old call hold (hfinished old hold) hcall
    · refine hretained (input :: part) state (List.cons_prefix_cons.mpr ⟨rfl, hpart⟩) ?_
      rw [List.foldlM_cons, hfeed]
      exact hstate

lemma complete_parts {isBounded : UserRequest → Bool} {result : JoinedToolResult}
    (h : (result.intoObservation isBounded true true).completeness = .complete) :
    result.gaps = [] ∧ result.requestMessageId.isSome = true ∧ result.input.isSome = true ∧
      ∀ msg ∈ result.userMessages, msg.complete = true ∧ hasText msg.text = true := by
  unfold JoinedToolResult.intoObservation at h
  dsimp only at h
  split at h
  · cases h
  split at h
  · cases h
  split at h
  next hall =>
    simp only [Bool.and_eq_true, JoinedToolResult.requestIsComplete,
      JoinedToolResult.completeThroughEvent, JoinedToolResult.userMessagesComplete,
      List.all_eq_true, List.isEmpty_iff] at hall
    obtain ⟨⟨⟨⟨hgaps, ⟨hrequest, -⟩, -⟩, ⟨-, -, hmessages⟩, -⟩, hinput⟩, -⟩ := hall
    refine ⟨hgaps, hrequest, hinput, fun msg hmsg => ?_⟩
    obtain ⟨⟨hcomplete, -⟩, htext⟩ := hmessages msg hmsg
    refine ⟨hcomplete, ?_⟩
    unfold hasText
    cases hsome : msg.text with
    | none =>
      rw [hsome] at htext
      cases htext
    | some text =>
      rw [hsome, Option.any_some, Bool.and_eq_true] at htext
      exact htext.1
  · cases h

/-- **A complete result is what its history says.** -/
theorem complete_result_is_joined (codec : JoinerCodec) (isBounded : UserRequest → Bool)
    (inputs : List JoinerInput) {event : Json} {joiner next : Joiner} {result : JoinedToolResult}
    (hrun : feedAll codec inputs = some joiner)
    (hobserve : joiner.observe codec event = some (next, some result))
    (hcomplete : (result.intoObservation isBounded true true).completeness = .complete) :
    (∀ found ∈ joiner.gaps, found = .missingJoin) ∧
      AnnouncedWith (history codec {} inputs) (result.assistantMessageId, result.callId)
        result.userMessages ∧
      result.input.isSome = true ∧
      result.input =
        lastArgument (result.assistantMessageId, result.callId) (history codec {} inputs) ∧
      (∀ message ∈ result.userMessages,
        message.complete = true ∧ hasText message.text = true) ∧
      ∀ more last, more.foldlM (feed codec) next = some last →
        (∀ part state, part <+: more → part.foldlM (feed codec) next = some state →
          state.calls.lookup (result.assistantMessageId, result.callId) ≠ none) →
        ∀ later after again, last.observe codec later = some (after, some again) →
          (again.assistantMessageId, again.callId) ≠
            (result.assistantMessageId, result.callId) := by
  obtain ⟨hgaps, hrequest, hinput, hmessages⟩ := complete_parts hcomplete
  have hknown : Known ([] ++ history codec {} inputs) joiner :=
    feedAll_known codec inputs (.inr explained_empty) hrun
  rw [List.nil_append] at hknown
  obtain ⟨received, handled, hobserved⟩ := observe_observed hobserve
  obtain ⟨hsettled, call, hcall, -, hof, hfinished⟩ := hobserved.result result rfl
  obtain ⟨hclean, hcontext⟩ := hof.clean hgaps
  have hexplained : Explained (history codec {} inputs) received := by
    rcases hknown.shrinks hobserved.same.shrinks with ⟨found, hfound, hne⟩ | hexplained
    · exact absurd (hclean found hfound) hne
    · exact hexplained
  have husers : call.context.users ≠ [] := by
    intro hnone
    rw [hof.request, StepContext.request, hnone] at hrequest
    cases hrequest
  refine ⟨fun found hfound => hclean found (hobserved.same.gaps found hfound), ?_, hinput, ?_,
    hmessages, fun more last hmore hretained later after again hlater heq => ?_⟩
  · rw [hof.users]
    exact hexplained.announced _ call hcall hcontext husers
  · obtain ⟨input, hsome⟩ := Option.isSome_iff_exists.mp hinput
    rw [hsome]
    rw [hof.input] at hsome
    exact (hexplained.arguments _ call input hcall hsome).symm
  · -- the call has its terminal, so nothing more comes of it
    have hterminal : ∀ found,
        next.calls.lookup (result.assistantMessageId, result.callId) = some found →
          found.terminal ≠ none := by
      intro found hfound
      obtain ⟨old, hold, hkept, -⟩ := hsettled.calls _ _ hfound
      exact hkept (hfinished old hold)
    have hstays := finished_stays codec more hterminal hmore hretained
    obtain ⟨received', handled', hobserved'⟩ := observe_observed hlater
    obtain ⟨-, open_, hopen, hnone, -, -⟩ := hobserved'.result again rfl
    rw [heq, hobserved'.same.calls] at hopen
    exact hstays open_ hopen hnone

/-! ### A late call -/

def shortCodec : JoinerCodec where
  eventDigest := fun _ => some ""
  encodedWithin := fun _ _ => true
  contentDigest := id
  readJson := fun text => if text = "{}" then some (.object []) else none
  valueSize := 32
  attribution := fun _ => {}
  toolOutcome := fun _ _ _ _ => none
  observePublic := fun state _ _ _ _ _ => state

/-- An event of the session `s`. -/
def sessionEvent (sequence version eventType : String) (fields : Object) : Json :=
  .object
    [("data", .object (fields ++ [("sessionID", .string "s")])),
      ("durable", .object
        [("aggregateID", .string "s"), ("seq", .number ⟨sequence⟩), ("version", .number ⟨version⟩)]),
      ("id", .string ("e" ++ sequence)), ("type", .string eventType)]

/-- The fields that name a call of the message `m`. -/
def callFields (callId : String) : Object :=
  [("assistantMessageID", .string "m"), ("id", .string callId)]

/-- Two calls start in a step, which ends; then one of them gets its arguments, and an input
that is no JSON. -/
def lateInputs : List JoinerInput :=
  [.event (sessionEvent "1" "1" "session.inbox.enqueued"
      [("inboxID", .string "u"), ("item", .object
        [("payload", .object [("text", .string "hi")]), ("type", .string "user")])]),
    .event (sessionEvent "2" "1" "session.inbox.delivered" [("inboxID", .string "u")]),
    .event (sessionEvent "3" "1" "session.step.started" [("assistantMessageID", .string "m")]),
    .event (sessionEvent "4" "1" "session.tool.input.started"
      (callFields "a" ++ [("name", .string "read")])),
    .event (sessionEvent "5" "1" "session.tool.input.started"
      (callFields "b" ++ [("name", .string "read")])),
    .event (sessionEvent "6" "1" "session.step.ended" [("assistantMessageID", .string "m")]),
    .event (sessionEvent "7" "1" "session.tool.called"
      (callFields "b" ++ [("input", .object [])])),
    .event (sessionEvent "8" "1" "session.tool.input.ended"
      (callFields "b" ++ [("text", .string "[")]))]

def lateSuccess : Json :=
  sessionEvent "9" "2" "session.tool.success" (callFields "b" ++
    [("content", .array [.object [("text", .string "ok"), ("type", .string "text")]])])

def lastCompleteness (inputs : List JoinerInput) (event : Json) : Option ToolResultCompleteness :=
  ((feedAll shortCodec inputs).bind fun joiner =>
    (joiner.observe shortCodec event).bind Prod.snd).map fun result =>
      (result.intoObservation (fun _ => true) true true).completeness

/-- A result is complete although its step had ended before its only `tool.called`, and
although its last input cannot be read. -/
theorem late_call_is_complete :
    lastCompleteness lateInputs lateSuccess = some .complete ∧
      ((feedAll shortCodec (lateInputs.take 6)).bind fun joiner =>
        (joiner.steps.lookup "m").map Step.ended) = some true ∧
      lateInputs.drop 6 =
        [.event (sessionEvent "7" "1" "session.tool.called"
            (callFields "b" ++ [("input", .object [])])),
          .event (sessionEvent "8" "1" "session.tool.input.ended"
            (callFields "b" ++ [("text", .string "[")]))] ∧
      (shortCodec.readJson "[").isSome = false :=
  ⟨by decide, by decide, rfl, by decide⟩

/-- The late call is joined as its history says. -/
theorem late_call_is_joined :
    ∃ joiner next result, feedAll shortCodec lateInputs = some joiner ∧
      joiner.observe shortCodec lateSuccess = some (next, some result) ∧
      AnnouncedWith (history shortCodec {} lateInputs) (result.assistantMessageId, result.callId)
        result.userMessages := by
  have hcomplete : lastCompleteness lateInputs lateSuccess = some .complete := by decide
  obtain ⟨result, hresult, hcomplete⟩ := Option.map_eq_some_iff.mp hcomplete
  obtain ⟨joiner, hrun, hobserved⟩ := Option.bind_eq_some_iff.mp hresult
  obtain ⟨⟨next, found⟩, hobserve, rfl⟩ := Option.bind_eq_some_iff.mp hobserved
  exact ⟨joiner, next, result, hrun, hobserve,
    (complete_result_is_joined shortCodec (fun _ => true) lateInputs hrun hobserve hcomplete).2.1⟩

end Joiner

end Antiburn
