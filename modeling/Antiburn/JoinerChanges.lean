/-
What one event changes of an OpenCode V2 joiner.

`Change` says everything that handling an event can do to what results depend on, and
which entry of the history goes with it.
-/
import Antiburn.JoinerHistory

namespace Antiburn

namespace Joiner

variable {joiner mid next : Joiner} {entry : Option Happened}

/-- A call that has a terminal keeps one for as long as it is retained. -/
def Keeps (joiner next : Joiner) : Prop :=
  ∀ key old call, joiner.calls.lookup key = some old → old.terminal ≠ none →
    next.calls.lookup key = some call → call.terminal ≠ none

lemma Shrinks.keeps (h : Shrinks joiner next) : Keeps joiner next := by
  intro key old call hold hterm hcall
  obtain ⟨was, hwas, hkept, -⟩ := h.calls key call hcall
  rw [hold] at hwas
  cases hwas
  exact hkept hterm

lemma Keeps.shrinks (h : Keeps joiner mid) (h' : Shrinks mid next) : Keeps joiner next := by
  intro key old call hold hterm hcall
  obtain ⟨between, hbetween, hkept, -⟩ := h'.calls key call hcall
  exact hkept (h key old between hold hterm hbetween)

variable {codec : JoinerCodec} {key : String × String} {terminal : TerminalEvent}

lemma Opens.keeps (h : Opens key joiner next) : Keeps joiner next := by
  intro other old call hold hterm hcall
  rcases h.calls other call hcall with hsame | ⟨rfl, hnone, -⟩
  · rw [hold] at hsame
    cases hsame
    exact hterm
  · rw [hold] at hnone
    cases hnone

lemma Opens.refl (key : String × String) (joiner : Joiner) : Opens key joiner joiner where
  gaps := fun _ hfound => hfound
  users := rfl
  steps := fun _ step hstep => ⟨step, hstep, rfl⟩
  calls := fun _ _ hcall => .inl hcall

/-- What handling an event does, and what it is in the history. -/
inductive Change (joiner next : Joiner) : Option Happened → Prop
  | shrinks (key : String × String) (mid : Joiner) (opens : Opens key joiner mid)
      (rest : Shrinks mid next) : Change joiner next none
  | spoiled (entry : Option Happened) (spoiled : Spoiled next) (keeps : Keeps joiner next) :
      Change joiner next entry
  | delivered (request : UserRequest) (restart : Bool)
      (users : next.users.map HistoryNode.request =
        if restart then [request] else request :: joiner.users.map HistoryNode.request)
      (rest : Shrinks joiner { next with users := joiner.users }) :
      Change joiner next (some (.delivered request restart))
  | started (messageId : String) (context : StepContext)
      (fresh : joiner.steps.lookup messageId = none) (users : context.users = joiner.users)
      (steps : next.steps = joiner.steps.insert messageId { context })
      (rest : Shrinks joiner { next with steps := joiner.steps }) :
      Change joiner next (some (.started messageId))
  | called (key : String × String) (input : Json) (mid : Joiner) (call changed : Call)
      (opens : Opens key joiner mid) (found : mid.calls.lookup key = some call)
      (unfinished : call.terminal = none) (argument : changed.input = some input)
      (context : changed.context.gaps = [] →
        ∃ step, mid.steps.lookup key.1 = some step ∧ changed.context = step.context)
      (calls : next.calls = mid.calls.insert key changed)
      (rest : Shrinks mid { next with calls := mid.calls }) :
      Change joiner next (some (.called key input (joiner.steps.lookup key.1).isSome))
  | inputEnded (key : String × String) (input : Json) (mid : Joiner) (call changed : Call)
      (opens : Opens key joiner mid) (found : mid.calls.lookup key = some call)
      (unfinished : call.terminal = none) (argument : changed.input = some input)
      (context : changed.context = call.context)
      (calls : next.calls = mid.calls.insert key changed)
      (rest : Shrinks mid { next with calls := mid.calls }) :
      Change joiner next (some (.inputEnded key input))

lemma Change.of_shrinks (h : Shrinks joiner next) : Change joiner next none :=
  .shrinks ("", "") joiner (.refl _ joiner) h

lemma Change.of_gap (entry : Option Happened) {found : Gap} (h : found ≠ .missingJoin) :
    Change joiner (joiner.gap found) entry :=
  .spoiled entry (.gap h) (gap_shrinks joiner found).keeps

lemma Change.keeps_argued {call changed : Call}
    (opens : Opens key joiner mid) (found : mid.calls.lookup key = some call)
    (unfinished : call.terminal = none) (calls : next.calls = mid.calls.insert key changed) :
    Keeps joiner next := by
  intro other old last hold hterm hlast
  rw [calls] at hlast
  rcases Tally.lookup_insert_eq_some.mp hlast with ⟨rfl, -⟩ | ⟨-, hmid⟩
  · -- it had no terminal before
    rcases opens.calls _ call found with hsame | ⟨-, hnone, -⟩
    · rw [hold] at hsame
      cases hsame
      exact absurd unfinished hterm
    · rw [hold] at hnone
      cases hnone
  · exact opens.keeps other old last hold hterm hmid

lemma Change.keeps (h : Change joiner next entry) : Keeps joiner next := by
  cases h with
  | shrinks key mid opens rest => exact opens.keeps.shrinks rest
  | spoiled entry spoiled keeps => exact keeps
  | delivered request restart users rest => exact rest.keeps
  | started messageId ctx fresh users steps rest => exact rest.keeps
  | called key input mid call changed opens found unfinished argument ctx calls rest
  | inputEnded key input mid call changed opens found unfinished argument ctx calls rest =>
    exact Change.keeps_argued opens found unfinished calls

lemma Opens.gaps_of (opens : Opens key joiner mid)
    (hgaps : ∀ found ∈ mid.gaps, found ∈ next.gaps) (h : Spoiled joiner) : Spoiled next := by
  obtain ⟨found, hfound, hne⟩ := h
  exact ⟨found, hgaps found (opens.gaps found hfound), hne⟩

lemma Change.spoils (h : Change joiner next entry) (hspoil : Spoiled joiner) :
    Spoiled next := by
  cases h with
  | shrinks key mid opens rest => exact opens.gaps_of rest.gaps hspoil
  | spoiled entry spoiled keeps => exact spoiled
  | delivered request restart users rest | started messageId ctx fresh users steps rest =>
    exact (Opens.refl ("", "") joiner).gaps_of rest.gaps hspoil
  | called key input mid call changed opens found unfinished argument ctx calls rest
  | inputEnded key input mid call changed opens found unfinished argument ctx calls rest =>
    exact opens.gaps_of rest.gaps hspoil

/-! ### Handlers -/

lemma observeToolStarted_change {data : Object}
    (h : joiner.observeToolStarted data = some next) : Change joiner next none := by
  unfold observeToolStarted at h
  split at h
  next messageId callId name _ _ _ =>
    split at h
    next => cases h
    next opened hopened =>
      cases h
      obtain ⟨hopens, hspoil, -⟩ := ensureCall_spec hopened
      exact .spoiled _ (hspoil rfl) hopens.keeps
    next opened hopened =>
      obtain ⟨hopens, -, -⟩ := ensureCall_spec hopened
      split at h
      next => cases h
      next call _ =>
        split at h
        next =>
          cases h
          exact .shrinks _ opened hopens (gap_shrinks _ _)
        next =>
          exact .shrinks _ opened hopens
            (replaceCall_shrinks h fun _ _ => ⟨id, .inl ⟨rfl, rfl⟩⟩)
  next =>
    cases h
    exact .of_gap none nofun

lemma observeStepStarted_change (codec : JoinerCodec) (joiner : Joiner)
    (terminal : TerminalEvent) :
    Change joiner (joiner.observeStepStarted codec terminal.data)
      (joiner.happening codec .stepStarted terminal) := by
  unfold observeStepStarted happening
  dsimp only
  cases hfield : boundedField terminal.data "assistantMessageID" with
  | none => exact .of_gap none nofun
  | some messageId =>
    dsimp only
    split
    next => exact .of_gap _ nofun
    next =>
      generalize (!StepContext.isComplete _ || joiner.requestHistoryGap) = missing
      have hnoted : Shrinks joiner (if missing = true then joiner.gap .missingJoin else joiner) := by
        split
        · exact gap_shrinks joiner _
        · exact .refl joiner
      have hsteps : (if missing = true then joiner.gap .missingJoin else joiner).steps =
          joiner.steps := by
        split <;> rfl
      have husers : (if missing = true then
          ({ requester := codec.attribution ((terminal.data.get? "model").getD .null)
             users := joiner.users
             gaps := pushGap [] .missingJoin } : StepContext)
          else { requester := codec.attribution ((terminal.data.get? "model").getD .null)
                 users := joiner.users }).users = joiner.users := by
        split <;> rfl
      generalize (if missing = true then joiner.gap .missingJoin else joiner) = noted at *
      generalize (if missing = true then
          ({ requester := codec.attribution ((terminal.data.get? "model").getD .null)
             users := joiner.users
             gaps := pushGap [] .missingJoin } : StepContext)
          else { requester := codec.attribution ((terminal.data.get? "model").getD .null)
                 users := joiner.users }) = ctx at *
      split
      next existing hexist =>
        rw [hsteps] at hexist
        have hold : ¬joiner.steps.lookup messageId = none := by
          rw [hexist]
          exact nofun
        have hentry : (if joiner.steps.lookup messageId = none then
            some (Happened.started messageId) else none) = none := if_neg hold
        rw [hentry]
        split
        · exact .of_shrinks hnoted
        · exact .of_shrinks (hnoted.trans (gap_shrinks _ _))
      next hnone =>
        rw [hsteps] at hnone
        rw [if_pos hnone]
        refine .started messageId ctx hnone husers ?_ ?_
        · show noted.steps.insert messageId _ = _
          rw [hsteps]
        · exact { hnoted with steps := fun _ step hstep => ⟨step, hstep, rfl⟩ }

lemma observeUserDelivered_change (codec : JoinerCodec)
    (h : joiner.observeUserDelivered terminal.sequence terminal.data = some next) :
    Change joiner next (joiner.happening codec .delivered terminal) := by
  unfold observeUserDelivered at h
  unfold happening
  dsimp only
  cases hfield : boundedField terminal.data "inboxID" with
  | none =>
    rw [hfield] at h
    cases h
    exact .of_gap _ nofun
  | some messageId =>
    rw [hfield] at h
    dsimp only [Option.bind_some] at h ⊢
    split at h
    next request hpend =>
      rw [hpend]
      dsimp only
      split at h
      next => cases h
      next removed hrem =>
        cases h
        obtain ⟨inbox, bytes, rfl⟩ := removeInbox_eq hrem
        unfold deliver
        dsimp only
        obtain ⟨users, husers⟩ : ∃ users, users =
            if (joiner.requestHistoryGap || !request.complete) = true then []
            else joiner.users := ⟨_, rfl⟩
        rw [← husers]
        split
        next =>
          refine .spoiled _ (.gap nofun) fun key old call hold hterm hcall => ?_
          rw [show joiner.calls.lookup key = some call from hcall] at hold
          cases hold
          exact hterm
        next =>
          refine .delivered _ _ ?_ (.of_same (fun _ hfound => hfound) rfl rfl rfl)
          dsimp only
          rw [List.map_cons, husers]
          split <;> rfl
    next hpend =>
      rw [hpend]
      exact .of_shrinks (removeInbox_shrinks h)
    next hpend =>
      rw [hpend]
      cases h
      exact .of_shrinks ((gap_shrinks joiner .missingJoin).trans
        (.of_same (fun _ hfound => hfound) rfl rfl rfl))

lemma observeToolInputEnded_change
    (h : joiner.observeToolInputEnded codec terminal.data = some next) :
    Change joiner next (joiner.happening codec .toolInputEnded terminal) := by
  unfold observeToolInputEnded at h
  split at h
  next messageId callId text hmsg hcallId htext =>
    have hhappened : joiner.happening codec .toolInputEnded terminal =
        (codec.readJson text).map (.inputEnded (messageId, callId)) := by
      unfold happening
      dsimp only
      rw [hmsg, hcallId, htext]
    rw [hhappened]
    split at h
    next =>
      cases h
      exact .of_gap _ fun hgap => by cases hgap
    next =>
      split at h
      next hunread =>
        cases h
        rw [hunread]
        exact .of_shrinks (.refl joiner)
      next input hread =>
        rw [hread]
        split at h
        next => cases h
        next opened hopened =>
          cases h
          obtain ⟨hopens, hspoil, -⟩ := ensureCall_spec hopened
          exact .spoiled _ (hspoil rfl) hopens.keeps
        next opened hopened =>
          obtain ⟨hopens, -, hunfin⟩ := ensureCall_spec hopened
          obtain ⟨call, bytes, hcall, rfl⟩ := replaceCall_spec h
          exact .inputEnded _ input opened call
            { call with
              input := some input
              inputBytes := jsonPayloadBytes codec.valueSize input }
            hopens hcall (hunfin rfl call hcall) rfl rfl rfl (.of_same (fun _ hfound => hfound) rfl rfl rfl)
  next hmissing =>
    cases h
    exact .of_gap _ fun hgap => by cases hgap

lemma calledContext_clean {messageId : String}
    (h : (joiner.calledContext messageId).gaps = []) :
    ∃ step, joiner.steps.lookup messageId = some step ∧
      joiner.calledContext messageId = step.context := by
  unfold calledContext at h ⊢
  dsimp only at h ⊢
  cases hstep : joiner.steps.lookup messageId with
  | none =>
    rw [hstep] at h
    have hempty : ¬({} : StepContext).isComplete = true := Bool.false_ne_true
    dsimp only [Option.map_none, Option.getD_none] at h
    rw [if_neg hempty] at h
    exact absurd h (pushGap_ne_nil [] .missingJoin)
  | some step =>
    rw [hstep] at h
    dsimp only [Option.map_some, Option.getD_some] at h ⊢
    split at h
    next hcomp => exact ⟨step, rfl, by rw [if_pos hcomp]⟩
    next => exact absurd h (pushGap_ne_nil _ _)

lemma observeToolCalled_change
    (h : joiner.observeToolCalled codec terminal.data = some next) :
    Change joiner next (joiner.happening codec .toolCalled terminal) := by
  unfold observeToolCalled at h
  split at h
  next =>
    cases h
    exact .of_gap _ nofun
  next =>
    split at h
    next messageId callId input hmsg hcallId hinput =>
      have hhappened : joiner.happening codec .toolCalled terminal =
          some (.called (messageId, callId) input (joiner.steps.lookup messageId).isSome) := by
        unfold happening
        dsimp only
        rw [hmsg, hcallId, hinput]
      rw [hhappened]
      split at h
      next =>
        cases h
        exact .of_gap _ nofun
      next =>
        split at h
        next => cases h
        next opened hopened =>
          cases h
          obtain ⟨hopens, hspoil, -⟩ := ensureCall_spec hopened
          exact .spoiled _ (hspoil rfl) hopens.keeps
        next opened hopened =>
          obtain ⟨hopens, -, hunfin⟩ := ensureCall_spec hopened
          dsimp only at h
          generalize (StepContext.isComplete _) = complete at h
          have hnoted : Shrinks opened (if complete = true then opened
              else opened.gap .missingJoin) := by
            split
            · exact .refl opened
            · exact gap_shrinks opened _
          have hsame : (if complete = true then opened else opened.gap .missingJoin).steps =
              opened.steps ∧ (if complete = true then opened else opened.gap .missingJoin).calls =
              opened.calls := by
            split <;> exact ⟨rfl, rfl⟩
          generalize (if complete = true then opened else opened.gap .missingJoin) = noted at *
          obtain ⟨call, bytes, hcall, rfl⟩ := replaceCall_spec h
          rw [hsame.2] at hcall
          refine .called (messageId, callId) input opened call
            { call with
              input := some input
              inputBytes := jsonPayloadBytes codec.valueSize input
              providerExecuted := (terminal.data.get? "executed").bind Json.asBool
              context := noted.calledContext messageId }
            hopens hcall (hunfin rfl call hcall) rfl (fun hclean => ?_) ?_ ?_
          · obtain ⟨step, hstep, heq⟩ := calledContext_clean hclean
            rw [hsame.1] at hstep
            exact ⟨step, hstep, heq⟩
          · show noted.calls.insert _ _ = _
            rw [hsame.2]
          · exact { hnoted with calls := fun key found hfound =>
              ⟨found, hfound, id, .inl ⟨rfl, rfl⟩⟩ }
    next hmissing =>
      cases h
      exact .of_gap _ nofun

lemma dispatch_change {kind : EventKind}
    {result : Option JoinedToolResult}
    (h : joiner.dispatch codec kind terminal = some (next, result)) :
    Change joiner next (joiner.happening codec kind terminal) := by
  unfold dispatch at h
  dsimp only at h
  cases kind with
  | updated =>
    dsimp only at h
    split at h
    · cases h
      exact .of_shrinks (.refl joiner)
    · cases h
      exact .of_gap none nofun
  | enqueued =>
    obtain ⟨found, hfound, heq⟩ := Option.map_eq_some_iff.mp h
    cases heq
    exact .of_shrinks (observeUserEnqueued_shrinks hfound)
  | delivered =>
    obtain ⟨found, hfound, heq⟩ := Option.map_eq_some_iff.mp h
    cases heq
    exact observeUserDelivered_change codec hfound
  | cancelled =>
    obtain ⟨found, hfound, heq⟩ := Option.map_eq_some_iff.mp h
    cases heq
    exact .of_shrinks (observeInboxCancelled_shrinks hfound)
  | stepStarted =>
    cases h
    exact observeStepStarted_change codec joiner terminal
  | stepEnded =>
    obtain ⟨found, hfound, heq⟩ := Option.map_eq_some_iff.mp h
    cases heq
    exact .of_shrinks (observeStepEnded_shrinks hfound)
  | executionEnded =>
    obtain ⟨found, hfound, heq⟩ := Option.map_eq_some_iff.mp h
    cases heq
    exact .of_shrinks (observeExecutionEnded_shrinks hfound)
  | toolStarted =>
    obtain ⟨found, hfound, heq⟩ := Option.map_eq_some_iff.mp h
    cases heq
    exact observeToolStarted_change hfound
  | toolInputEnded =>
    obtain ⟨found, hfound, heq⟩ := Option.map_eq_some_iff.mp h
    cases heq
    exact observeToolInputEnded_change hfound
  | toolCalled =>
    obtain ⟨found, hfound, heq⟩ := Option.map_eq_some_iff.mp h
    cases heq
    exact observeToolCalled_change hfound
  | toolSuccess | toolFailed => exact .of_shrinks (observeTerminal_spec h).1
  | continuity =>
    cases h
    exact .of_gap none nofun
  | ignored =>
    cases h
    exact .of_shrinks (.refl joiner)

end Joiner

end Antiburn
