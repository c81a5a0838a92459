/-
The counter of the OpenCode V2 joiner.

`Balanced joiner debt` says that the counter is what the tables weigh, and a debt that
is still to be given back.  Every handler starts and ends without debt, so no
subtraction underflows and the tables stay in step with their orders.
-/
import Antiburn.Joiner

namespace Antiburn

namespace Joiner

def charged (joiner : Joiner) : Nat :=
  lengthOf joiner.sessionId + joiner.seenEventIds.weigh (fun eventId _ => seenBytes eventId) +
    joiner.steps.weigh stepBytes + joiner.calls.weigh callBytes +
    (joiner.terminalCallOrder.map keyBytes).sum + joiner.pendingInbox.weigh inboxBytes

/-- The tables are in step with their orders, and the counter with the tables. -/
structure Balanced (joiner : Joiner) (debt : Nat) : Prop where
  books : joiner.retainedBytes = joiner.charged + debt
  distinct : joiner.terminalCallOrder.Nodup
  terminal : ∀ key, key ∈ joiner.terminalCallOrder ↔
    ∃ call, joiner.calls.lookup key = some call ∧ call.terminal ≠ none
  seenDistinct : joiner.seenEventIdOrder.Nodup
  seen : ∀ eventId, eventId ∈ joiner.seenEventIdOrder ↔ joiner.seenEventIds.lookup eventId ≠ none
  session : lengthOf joiner.sessionId ≤ MAX_STRING_BYTES

abbrev Accounted (joiner : Joiner) : Prop := Balanced joiner 0

/-- There is a next state, and its books are balanced. -/
def Sound (next : Option Joiner) : Prop := ∃ joiner, next = some joiner ∧ Accounted joiner

variable {joiner : Joiner} {debt : Nat}

/-- What the books read. -/
def counted (joiner : Joiner) :=
  (joiner.retainedBytes, joiner.sessionId, joiner.seenEventIds, joiner.seenEventIdOrder,
    joiner.calls, joiner.terminalCallOrder, joiner.pendingInbox, joiner.steps)

lemma Balanced.of_counted {next : Joiner} (h : Balanced joiner debt)
    (hsame : next.counted = joiner.counted) : Balanced next debt := by
  obtain ⟨hbytes, hsess, hseen, hseenOrder, hcalls, horder, hinbox, hsteps⟩ :
      next.retainedBytes = joiner.retainedBytes ∧ next.sessionId = joiner.sessionId ∧
        next.seenEventIds = joiner.seenEventIds ∧
        next.seenEventIdOrder = joiner.seenEventIdOrder ∧ next.calls = joiner.calls ∧
        next.terminalCallOrder = joiner.terminalCallOrder ∧
        next.pendingInbox = joiner.pendingInbox ∧ next.steps = joiner.steps := by
    simpa only [counted, Prod.mk.injEq] using hsame
  refine ⟨?_, ?_, ?_, ?_, ?_, ?_⟩
  · unfold charged
    rw [hbytes, hsess, hseen, hcalls, horder, hinbox, hsteps]
    exact h.books
  · exact horder ▸ h.distinct
  · rw [horder, hcalls]
    exact h.terminal
  · exact hseenOrder ▸ h.seenDistinct
  · rw [hseenOrder, hseen]
    exact h.seen
  · exact hsess ▸ h.session

lemma accounted_empty : Accounted {} where
  books := rfl
  distinct := List.nodup_nil
  terminal := by simp
  seenDistinct := List.nodup_nil
  seen := by simp
  session := Nat.zero_le _

lemma Sound.of_some (h : Accounted joiner) : Sound (some joiner) := ⟨joiner, rfl, h⟩

lemma Balanced.gap (h : Balanced joiner debt) (found : Gap) :
    Balanced (joiner.gap found) debt :=
  h.of_counted rfl

lemma Balanced.noteGap (h : Balanced joiner debt) (found : Option Gap) :
    Balanced (joiner.noteGap found) debt := by
  cases found with
  | none => exact h
  | some found => exact h.gap found

lemma Balanced.release (h : Balanced joiner debt) : Sound (joiner.release debt) := by
  have hbooks := h.books
  refine ⟨{ joiner with retainedBytes := joiner.retainedBytes - debt }, if_pos (by omega), ?_⟩
  refine { h with books := ?_ }
  show joiner.retainedBytes - debt = joiner.charged + 0
  omega

/-! ### Steps -/

lemma Balanced.touchStep (h : Balanced joiner debt) {messageId : String} {step changed : Step}
    (hstep : joiner.steps.lookup messageId = some step)
    (hsame : changed.context = step.context) :
    Balanced { joiner with steps := joiner.steps.insert messageId changed } debt := by
  refine { h with books := ?_ }
  have hweigh := @Tally.weigh_insert_old _ _ _ stepBytes _ _ changed _ hstep
  have hbytes : stepBytes messageId changed = stepBytes messageId step := by
    unfold stepBytes
    rw [hsame]
  have hbooks := h.books
  unfold charged at hbooks ⊢
  dsimp only
  omega

lemma Balanced.removeStep (h : Accounted joiner) {messageId : String} {step changed : Step}
    (hstep : joiner.steps.lookup messageId = some step)
    (hsame : changed.context = step.context) : Sound (joiner.removeStep messageId changed) := by
  have hbytes : stepBytes messageId changed = stepBytes messageId step := by
    unfold stepBytes
    rw [hsame]
  unfold Joiner.removeStep
  rw [hbytes]
  refine Balanced.release { h with books := ?_ }
  have hweigh := @Tally.weigh_erase _ _ _ stepBytes _ _ _ hstep
  have hbooks := h.books
  unfold charged at hbooks ⊢
  dsimp only
  omega

lemma Balanced.observeStepEnded (h : Accounted joiner) (data : Object) :
    Sound (joiner.observeStepEnded data) := by
  unfold Joiner.observeStepEnded
  split
  next => exact .of_some (h.gap _)
  next messageId _ =>
    split
    next => exact .of_some h
    next step hstep =>
      dsimp only
      split
      next => exact Balanced.removeStep h hstep rfl
      next => exact .of_some (h.touchStep hstep rfl)

lemma Balanced.observeStepStarted (codec : JoinerCodec) (h : Accounted joiner) (data : Object) :
    Accounted (joiner.observeStepStarted codec data) := by
  unfold Joiner.observeStepStarted
  split
  next => exact h.gap _
  next messageId _ =>
    split
    next => exact h.gap _
    next =>
      dsimp only
      generalize (!StepContext.isComplete _ || joiner.requestHistoryGap) = missing
      have hnoted : Accounted (if missing = true then joiner.gap .missingJoin else joiner) := by
        split
        · exact h.gap _
        · exact h
      have hsteps : (if missing = true then joiner.gap .missingJoin else joiner).steps =
          joiner.steps := by
        split <;> rfl
      generalize (if missing = true then joiner.gap .missingJoin else joiner) = noted at *
      generalize (if missing = true then _ else _ : StepContext) = ctx
      split
      next existing hexisting =>
        split
        · exact hnoted
        · exact hnoted.gap _
      next hnone =>
        refine { hnoted with books := ?_ }
        have hweigh := @Tally.weigh_insert_new _ _ _ stepBytes _ _ ⟨ctx, 0, false⟩ hnone
        have hbooks := hnoted.books
        unfold charged at hbooks ⊢
        unfold charge
        dsimp only
        have hbytes : stepBytes messageId ⟨ctx, 0, false⟩ =
            messageId.utf8ByteSize + ctx.requester.retainedBytes := rfl
        omega

lemma Balanced.observeExecutionEnded (h : Accounted joiner) :
    Sound joiner.observeExecutionEnded := by
  have hbooks := h.books
  have hsplit := @Tally.weigh_retain _ _ callBytes (fun _ call => call.terminal.isSome)
    joiner.calls
  have hgoing : (joiner.calls.retain fun _ call => !call.terminal.isSome) =
      joiner.calls.retain fun _ call => call.terminal.isNone := by
    congr 1
    funext _ call
    exact Option.not_isSome _
  rw [hgoing] at hsplit
  unfold charged at hbooks
  unfold Joiner.observeExecutionEnded Joiner.release
  rw [if_pos (by omega)]
  simp only [Option.bind_eq_bind, Option.bind_some]
  rw [if_pos (by omega)]
  refine ⟨_, rfl, ?_⟩
  refine { h with books := ?_, terminal := fun key => ?_ }
  · unfold charged
    simp only [Tally.weigh_empty]
    omega
  · refine (h.terminal key).trans (exists_congr fun call => ?_)
    rw [Tally.lookup_retain, and_assoc]
    refine and_congr_right fun _ => ?_
    rw [Option.isSome_iff_ne_none, and_self]

/-! ### Inbox -/

section

variable (h : Accounted joiner)
include h

lemma Balanced.removeInbox (inboxId : String) :
    Sound (joiner.removeInbox inboxId) := by
  unfold Joiner.removeInbox
  split
  next => exact .of_some h
  next pending hpend =>
    refine Balanced.release { h with books := ?_ }
    have hweigh := @Tally.weigh_erase _ _ _ inboxBytes _ _ _ hpend
    have hbooks := h.books
    unfold charged at hbooks ⊢
    dsimp only
    omega

lemma Balanced.observeInboxCancelled (data : Object) :
    Sound (joiner.observeInboxCancelled data) := by
  unfold Joiner.observeInboxCancelled
  split
  next => exact .of_some (h.gap _)
  next => exact Balanced.removeInbox h _

lemma Balanced.deliver (request : UserRequest) :
    Accounted (joiner.deliver request) := by
  refine h.of_counted ?_
  unfold Joiner.deliver
  dsimp only
  generalize (if (joiner.requestHistoryGap || !request.complete) = true then []
    else joiner.users) = users
  split <;> rfl

lemma Balanced.observeUserDelivered (sequence : Nat) (data : Object) :
    Sound (joiner.observeUserDelivered sequence data) := by
  unfold Joiner.observeUserDelivered
  split
  next => exact .of_some (h.gap _)
  next messageId _ =>
    obtain ⟨next, hnext, hsound⟩ := Balanced.removeInbox h messageId
    split
    next request _ =>
      rw [hnext]
      exact .of_some (Balanced.deliver hsound _)
    next => exact ⟨next, hnext, hsound⟩
    next =>
      exact .of_some ((h.gap .missingJoin).of_counted rfl)

lemma Balanced.observeUserEnqueued (sequence : Nat) (data : Object) :
    Sound (joiner.observeUserEnqueued sequence data) := by
  unfold Joiner.observeUserEnqueued
  split
  next => exact .of_some (h.gap _)
  next inboxId _ =>
    split
    next => exact .of_some (h.gap _)
    next =>
      dsimp only
      have hnoted := h.noteGap (pendingItem sequence inboxId data).2
      generalize joiner.noteGap (pendingItem sequence inboxId data).2 = noted at hnoted ⊢
      generalize (pendingItem sequence inboxId data).1 = pending
      have hbooks := hnoted.books
      unfold charged at hbooks
      split
      next hnone =>
        refine .of_some { hnoted with books := ?_ }
        have hweigh := @Tally.weigh_insert_new _ _ _ inboxBytes _ _ pending hnone
        unfold charged charge
        dsimp only
        omega
      next prev hprev =>
        -- the new item is charged before the old one is given back
        have howes : Balanced { noted.charge (inboxBytes inboxId pending) with
            pendingInbox := noted.pendingInbox.insert inboxId pending }
            (inboxBytes inboxId prev) := by
          refine { hnoted with books := ?_ }
          have hweigh := @Tally.weigh_insert_old _ _ _ inboxBytes _ _ pending _ hprev
          unfold charged charge
          dsimp only
          omega
        obtain ⟨next, hnext, hsound⟩ := howes.release
        rw [hnext]
        exact .of_some (hsound.gap _)

end

/-! ### Calls -/

section

variable {key : String × String} {call : Call} {change : Joiner → Call → Call}
  {old new : Joiner → Call → Nat} (h : Accounted joiner)
  (hcall : joiner.calls.lookup key = some call) (hold : old joiner call ≤ call.payloadBytes)
include h hcall hold

lemma replaceCall_eq :
    joiner.replaceCall key change old new = some { joiner with
      retainedBytes := joiner.retainedBytes - old joiner call + new joiner call
      calls := joiner.calls.insert key (change joiner call) } ∧
      old joiner call ≤ joiner.retainedBytes := by
  have hweigh := @Tally.weigh_erase _ _ _ callBytes _ _ _ hcall
  have hbooks := h.books
  have hbytes : callBytes key call = keyBytes key + call.payloadBytes := rfl
  have hle : old joiner call ≤ joiner.retainedBytes := by
    unfold charged at hbooks
    omega
  refine ⟨?_, hle⟩
  unfold replaceCall Joiner.release
  rw [hcall]
  dsimp only
  rw [if_pos hle]
  rfl

lemma Balanced.replaceCall (hbytes : (change joiner call).payloadBytes + old joiner call =
      call.payloadBytes + new joiner call)
    (hterm : (change joiner call).terminal = call.terminal) :
    Sound (joiner.replaceCall key change old new) := by
  obtain ⟨heq, hle⟩ := @replaceCall_eq joiner key call change old new h hcall hold
  refine ⟨_, heq, { h with books := ?_, terminal := fun other => ?_ }⟩
  · have hweigh := @Tally.weigh_insert_old _ _ _ callBytes _ _ (change joiner call) _ hcall
    have hnew : callBytes key (change joiner call) =
        keyBytes key + (change joiner call).payloadBytes := rfl
    have hcallBytes : callBytes key call = keyBytes key + call.payloadBytes := rfl
    have hbooks := h.books
    unfold charged at hbooks ⊢
    dsimp only
    omega
  · rw [h.terminal other]
    by_cases heq : other = key
    · subst heq
      dsimp only
      rw [AList.lookup_insert, hcall]
      simp [hterm]
    · dsimp only
      rw [AList.lookup_insert_ne heq]

end

lemma Balanced.makeRoom (h : Accounted joiner) :
    ∃ next room, joiner.makeRoom = some (next, room) ∧ Accounted next ∧
      ∀ key, joiner.calls.lookup key = none → next.calls.lookup key = none := by
  unfold Joiner.makeRoom
  split
  next =>
    split
    next => exact ⟨_, _, rfl, h.gap _, fun _ hnone => hnone⟩
    next expired rest horder =>
      obtain ⟨call, hcall, -⟩ := (h.terminal expired).mp (horder ▸ List.mem_cons_self)
      rw [hcall]
      dsimp only
      have howes : Balanced { joiner with
          terminalCallOrder := rest
          calls := joiner.calls.erase expired } (keyBytes expired * 2 + call.payloadBytes) := by
        have hdist := h.distinct
        rw [horder, List.nodup_cons] at hdist
        refine { h with books := ?_, distinct := hdist.2, terminal := fun key => ?_ }
        · have hweigh := @Tally.weigh_erase _ _ _ callBytes _ _ _ hcall
          have hcallBytes : callBytes expired call = keyBytes expired + call.payloadBytes := rfl
          have hbooks := h.books
          unfold charged at hbooks ⊢
          rw [horder, List.map_cons, List.sum_cons] at hbooks
          dsimp only
          omega
        · have hkey := h.terminal key
          rw [horder, List.mem_cons] at hkey
          dsimp only
          constructor
          · intro hmem
            obtain ⟨found, hfound, hterm⟩ := hkey.mp (.inr hmem)
            have hne : key ≠ expired := fun heq => hdist.1 (heq ▸ hmem)
            exact ⟨found, Tally.lookup_erase_eq_some.mpr ⟨hne, hfound⟩, hterm⟩
          · rintro ⟨found, hfound, hterm⟩
            obtain ⟨hne, hfound⟩ := Tally.lookup_erase_eq_some.mp hfound
            exact (hkey.mpr ⟨found, hfound, hterm⟩).resolve_left hne
      obtain ⟨next, hnext, hsound⟩ := howes.release
      rw [hnext]
      refine ⟨_, _, rfl, hsound, fun key hnone => ?_⟩
      have hcalls : next.calls = joiner.calls.erase expired := by
        unfold Joiner.release at hnext
        split at hnext
        · rw [← Option.some.inj hnext]
        · cases hnext
      rw [hcalls]
      by_contra hsome
      obtain ⟨found, hfound⟩ := Option.ne_none_iff_exists'.mp hsome
      rw [(Tally.lookup_erase_eq_some.mp hfound).2] at hnone
      cases hnone
  next => exact ⟨_, _, rfl, h, fun _ hnone => hnone⟩

lemma weigh_withActiveCall (steps : Tally String Step) (messageId : String) :
    (withActiveCall steps messageId).weigh stepBytes = steps.weigh stepBytes := by
  unfold withActiveCall
  split
  next step hstep =>
    have hweigh := @Tally.weigh_insert_old _ _ _ stepBytes _ _
      { step with activeCalls := step.activeCalls + 1 } _ hstep
    have hsame : stepBytes messageId { step with activeCalls := step.activeCalls + 1 } =
      stepBytes messageId step := rfl
    omega
  next => rfl

lemma Balanced.ensureCall (h : Accounted joiner) (key : String × String) :
    ∃ next ready, joiner.ensureCall key = some (next, ready) ∧ Accounted next ∧
      (ready = true → ∃ call, next.calls.lookup key = some call ∧ call.terminal = none) := by
  unfold Joiner.ensureCall
  split
  next call hcall =>
    split
    next => exact ⟨_, _, rfl, h.gap _, nofun⟩
    next hterm =>
      exact ⟨_, _, rfl, h, fun _ => ⟨call, hcall, by simpa using hterm⟩⟩
  next hnone =>
    obtain ⟨next, room, hroom, hnext, hgone⟩ := Balanced.makeRoom h
    rw [hroom]
    cases room with
    | false => exact ⟨_, _, rfl, hnext, nofun⟩
    | true =>
      have hnew := hgone key hnone
      refine ⟨_, _, rfl, ?_, fun _ => ⟨{}, AList.lookup_insert _, rfl⟩⟩
      have hsteps := weigh_withActiveCall next.steps key.1
      refine { hnext with books := ?_, terminal := fun other => ?_ }
      · have hweigh := @Tally.weigh_insert_new _ _ _ callBytes _ _ {} hnew
        have hcallBytes : callBytes key {} = keyBytes key := rfl
        have hbooks := hnext.books
        unfold charged at hbooks ⊢
        unfold charge
        dsimp only
        omega
      · refine (hnext.terminal other).trans ?_
        dsimp only [charge]
        by_cases heq : other = key
        · subst heq
          rw [AList.lookup_insert, hnew]
          simp
        · rw [AList.lookup_insert_ne heq]

/-! ### Tools -/

lemma Balanced.observeToolStarted (h : Accounted joiner) (data : Object) :
    Sound (joiner.observeToolStarted data) := by
  unfold Joiner.observeToolStarted
  split
  next messageId callId name _ _ _ =>
    obtain ⟨next, ready, hready, hnext, hcall⟩ := Balanced.ensureCall h (messageId, callId)
    rw [hready]
    cases ready with
    | false => exact .of_some hnext
    | true =>
      obtain ⟨call, hcall, -⟩ := hcall rfl
      dsimp only
      rw [hcall]
      dsimp only
      split
      next => exact .of_some (hnext.gap _)
      next =>
        refine hnext.replaceCall hcall ?_ ?_ rfl
        · unfold Call.payloadBytes
          omega
        · unfold Call.payloadBytes
          dsimp only
          rw [show lengthOf (some name) = name.utf8ByteSize from rfl]
          omega
  next => exact .of_some (h.gap _)

lemma Balanced.observeToolInputEnded (codec : JoinerCodec) (h : Accounted joiner)
    (data : Object) : Sound (joiner.observeToolInputEnded codec data) := by
  unfold Joiner.observeToolInputEnded
  split
  next messageId callId text _ _ _ =>
    split
    next => exact .of_some (h.gap _)
    next =>
      split
      next => exact .of_some h
      next input _ =>
        obtain ⟨next, ready, hready, hnext, hcall⟩ := Balanced.ensureCall h (messageId, callId)
        rw [hready]
        cases ready with
        | false => exact .of_some hnext
        | true =>
          obtain ⟨call, hcall, -⟩ := hcall rfl
          refine hnext.replaceCall hcall ?_ ?_ rfl
          · unfold Call.payloadBytes
            omega
          · unfold Call.payloadBytes
            dsimp only
            omega
  next => exact .of_some (h.gap _)

lemma Balanced.observeToolCalled (codec : JoinerCodec) (h : Accounted joiner) (data : Object) :
    Sound (joiner.observeToolCalled codec data) := by
  unfold Joiner.observeToolCalled
  split
  next => exact .of_some (h.gap _)
  next =>
    split
    next messageId callId input _ _ _ =>
      split
      next => exact .of_some (h.gap _)
      next =>
        obtain ⟨next, ready, hready, hnext, hcall⟩ := Balanced.ensureCall h (messageId, callId)
        rw [hready]
        cases ready with
        | false => exact .of_some hnext
        | true =>
          obtain ⟨call, hcall, -⟩ := hcall rfl
          dsimp only
          generalize (StepContext.isComplete _) = complete
          have hnoted : Accounted (if complete = true then next else next.gap .missingJoin) := by
            split
            · exact hnext
            · exact hnext.gap _
          have hcalls : (if complete = true then next else next.gap .missingJoin).calls.lookup
              (messageId, callId) = some call := by
            split <;> exact hcall
          refine hnoted.replaceCall hcalls ?_ ?_ rfl
          · unfold Call.payloadBytes
            omega
          · unfold Call.payloadBytes
            dsimp only
            omega
    next => exact .of_some (h.gap _)

lemma Balanced.settleStep (h : Accounted joiner) (messageId : String) :
    Sound (joiner.settleStep messageId) := by
  unfold Joiner.settleStep
  split
  next => exact .of_some h
  next step hstep =>
    dsimp only
    split
    next => exact Balanced.removeStep h hstep rfl
    next => exact .of_some (h.touchStep hstep rfl)

/-- There is a next state with balanced books, and what comes with it. -/
def SoundPair (next : Option (Joiner × Option JoinedToolResult)) : Prop :=
  ∃ joiner result, next = some (joiner, result) ∧ Accounted joiner

lemma SoundPair.of_some (h : Accounted joiner) (result : Option JoinedToolResult) :
    SoundPair (some (joiner, result)) := ⟨joiner, result, rfl, h⟩

lemma Sound.pair {next : Option Joiner} (h : Sound next) (result : Option JoinedToolResult) :
    SoundPair (next.map (·, result)) := by
  obtain ⟨joiner, rfl, haccoun⟩ := h
  exact .of_some haccoun result

lemma Balanced.observeTerminal (codec : JoinerCodec) (h : Accounted joiner)
    (terminal : TerminalEvent) : SoundPair (joiner.observeTerminal codec terminal) := by
  unfold Joiner.observeTerminal
  split
  next messageId callId _ _ =>
    split
    next => exact .of_some (h.gap _) _
    next call hcall =>
      split
      next => exact .of_some (h.gap _) _
      next name _ =>
        split
        next => exact .of_some (h.gap _) _
        next =>
          split
          next => exact .of_some (h.gap _) _
          next =>
            dsimp only
            generalize joiner.joinResult codec terminal (messageId, callId) call name = joined
            split
            next =>
              split
              next => exact .of_some (h.gap _) _
              next => exact .of_some h _
            next hopen =>
              obtain ⟨heq, hle⟩ := @replaceCall_eq joiner (messageId, callId) call
                (fun _ call => call.finish joined.2) (fun _ call => call.payloadBytes)
                (fun _ call => (call.finish joined.2).payloadBytes + keyBytes (messageId, callId))
                h hcall (Nat.le_refl _)
              rw [heq]
              refine Sound.pair (Balanced.settleStep ?_ messageId) _
              have hnot : (messageId, callId) ∉ joiner.terminalCallOrder := by
                intro hmem
                obtain ⟨found, hfound, hterm⟩ := (h.terminal _).mp hmem
                rw [hcall] at hfound
                exact hterm (Option.some.inj hfound ▸ hopen)
              refine { h with books := ?_, distinct := ?_, terminal := fun other => ?_ }
              · have hweigh := @Tally.weigh_insert_old _ _ _ callBytes _ _
                  (call.finish joined.2) _ hcall
                have hnew : callBytes (messageId, callId) (call.finish joined.2) =
                    keyBytes (messageId, callId) + (call.finish joined.2).payloadBytes := rfl
                have hold : callBytes (messageId, callId) call =
                    keyBytes (messageId, callId) + call.payloadBytes := rfl
                have hbooks := h.books
                unfold charged at hbooks ⊢
                dsimp only
                rw [List.map_append, List.sum_append, List.map_singleton, List.sum_singleton]
                omega
              · rw [List.nodup_append]
                refine ⟨h.distinct, List.nodup_singleton _, fun other hother last hlast heq => ?_⟩
                rw [List.mem_singleton.mp hlast] at heq
                exact hnot (heq ▸ hother)
              · dsimp only
                rw [List.mem_append, List.mem_singleton, h.terminal other]
                by_cases heq : other = (messageId, callId)
                · subst heq
                  rw [AList.lookup_insert]
                  simp [Call.finish]
                · rw [AList.lookup_insert_ne heq]
                  simp [heq]
  next => exact .of_some (h.gap _) _

/-! ### Events -/

lemma boundedField_le {data : Object} {key text : String}
    (h : boundedField data key = some text) : text.utf8ByteSize ≤ MAX_STRING_BYTES := by
  unfold boundedField at h
  have htest := (Option.filter_eq_some_iff.mp h).2
  rw [Bool.and_eq_true, decide_eq_true_eq] at htest
  exact htest.2

lemma Balanced.expireSeen (order : List String)
    (h : Accounted { joiner with seenEventIdOrder := order }) :
    ∃ next, joiner.expireSeen order = some next ∧ Accounted next ∧
      ∀ eventId, joiner.seenEventIds.lookup eventId = none →
        next.seenEventIds.lookup eventId = none := by
  induction order generalizing joiner with
  | nil => exact ⟨_, rfl, h, fun _ hnone => hnone⟩
  | cons expired rest ih =>
    unfold Joiner.expireSeen
    split
    next =>
      obtain ⟨digest, hdigest⟩ := Option.ne_none_iff_exists'.mp
        ((h.seen expired).mp List.mem_cons_self)
      have hdist := List.nodup_cons.mp h.seenDistinct
      have howes : Balanced { joiner with
          seenEventIds := joiner.seenEventIds.erase expired
          seenEventIdOrder := rest } (seenBytes expired) := by
        refine { h with books := ?_, seenDistinct := hdist.2, seen := fun eventId => ?_ }
        · have hweigh := @Tally.weigh_erase _ _ _ (fun eventId _ => seenBytes eventId) _ _ _
            hdigest
          have hbooks := h.books
          unfold charged at hbooks ⊢
          dsimp only at hbooks hweigh ⊢
          omega
        · have hseen := h.seen eventId
          dsimp only at hseen ⊢
          rw [List.mem_cons] at hseen
          by_cases heq : eventId = expired
          · subst heq
            rw [AList.lookup_erase]
            exact ⟨fun hmem => absurd hmem hdist.1, fun hne => absurd rfl hne⟩
          · rw [AList.lookup_erase_ne heq, ← hseen]
            simp [heq]
      obtain ⟨next, hnext, hsound⟩ := howes.release
      -- the order is set when the loop ends
      have hrel : { joiner with
          seenEventIds := joiner.seenEventIds.erase expired }.release (seenBytes expired) =
          some { joiner with
            seenEventIds := joiner.seenEventIds.erase expired
            retainedBytes := joiner.retainedBytes - seenBytes expired } ∧
          Accounted { joiner with
            seenEventIds := joiner.seenEventIds.erase expired
            retainedBytes := joiner.retainedBytes - seenBytes expired
            seenEventIdOrder := rest } := by
        unfold Joiner.release at hnext ⊢
        split at hnext
        next hle =>
          have heq := Option.some.inj hnext
          dsimp only at hle heq ⊢
          rw [if_pos hle]
          exact ⟨rfl, heq ▸ hsound⟩
        next => cases hnext
      rw [hrel.1]
      dsimp only
      obtain ⟨last, hlast, haccoun, hgone⟩ := @ih { joiner with
        seenEventIds := joiner.seenEventIds.erase expired
        retainedBytes := joiner.retainedBytes - seenBytes expired } hrel.2
      refine ⟨last, hlast, haccoun, fun eventId hnone => hgone eventId ?_⟩
      by_contra hsome
      obtain ⟨found, hfound⟩ := Option.ne_none_iff_exists'.mp hsome
      rw [(Tally.lookup_erase_eq_some.mp hfound).2] at hnone
      cases hnone
    next => exact ⟨_, rfl, h, fun _ hnone => hnone⟩

lemma Balanced.remember (h : Accounted joiner) {eventId : String} (digest : String)
    (hnew : joiner.seenEventIds.lookup eventId = none) :
    Sound (joiner.remember eventId digest) := by
  obtain ⟨next, hnext, hsound, hgone⟩ := Balanced.expireSeen joiner.seenEventIdOrder h
  have hnone := hgone eventId hnew
  unfold Joiner.remember
  rw [hnext]
  refine ⟨_, rfl, { hsound with books := ?_, seenDistinct := ?_, seen := fun other => ?_ }⟩
  · have hweigh := @Tally.weigh_insert_new _ _ _ (fun eventId _ => seenBytes eventId) _ _ digest
      hnone
    have hbooks := hsound.books
    unfold charged at hbooks ⊢
    unfold charge
    dsimp only at hweigh ⊢
    omega
  · show (next.seenEventIdOrder ++ [eventId]).Nodup
    rw [List.nodup_append]
    refine ⟨hsound.seenDistinct, List.nodup_singleton _, fun other hother last hlast heq => ?_⟩
    rw [List.mem_singleton.mp hlast] at heq
    exact (hsound.seen other).mp hother (heq ▸ hnone)
  · show other ∈ next.seenEventIdOrder ++ [eventId] ↔
      (next.seenEventIds.insert eventId digest).lookup other ≠ none
    rw [List.mem_append, List.mem_singleton, hsound.seen other]
    by_cases heq : other = eventId
    · subst heq
      rw [AList.lookup_insert]
      simp
    · rw [AList.lookup_insert_ne heq]
      simp [heq]

section

variable (codec : JoinerCodec) (h : Accounted joiner) (kind : EventKind) (terminal : TerminalEvent)
include codec h kind terminal

lemma Balanced.dispatch : SoundPair (joiner.dispatch codec kind terminal) := by
  unfold Joiner.dispatch
  dsimp only
  cases kind with
  | updated =>
    dsimp only
    split
    · exact .of_some h _
    · exact .of_some (h.gap _) _
  | enqueued => exact Sound.pair (Balanced.observeUserEnqueued h _ _) _
  | delivered => exact Sound.pair (Balanced.observeUserDelivered h _ _) _
  | cancelled => exact Sound.pair (Balanced.observeInboxCancelled h _) _
  | stepStarted => exact .of_some (Balanced.observeStepStarted codec h _) _
  | stepEnded => exact Sound.pair (Balanced.observeStepEnded h _) _
  | executionEnded => exact Sound.pair (Balanced.observeExecutionEnded h) _
  | toolStarted => exact Sound.pair (Balanced.observeToolStarted h _) _
  | toolInputEnded => exact Sound.pair (Balanced.observeToolInputEnded codec h _) _
  | toolCalled => exact Sound.pair (Balanced.observeToolCalled codec h _) _
  | toolSuccess | toolFailed => exact Balanced.observeTerminal codec h _
  | continuity => exact .of_some (h.gap _) _
  | ignored => exact .of_some h _

lemma Balanced.handle : SoundPair (joiner.handle codec kind terminal) := by
  obtain ⟨next, result, hnext, hsound⟩ := Balanced.dispatch codec h kind terminal
  unfold Joiner.handle
  rw [hnext]
  exact ⟨_, _, rfl, hsound.of_counted rfl⟩

end

lemma Balanced.receiveNew (h : Accounted joiner) (event : Json) (eventId : String)
    (kind : EventKind) (data : Object) :
    Accounted (joiner.receiveNew event eventId kind data).state := by
  unfold Joiner.receiveNew
  split
  next => exact h.gap _
  next sequence _ =>
    split
    next => exact h.gap _
    next aggregateId _ =>
      split
      next => exact h.gap _
      next =>
        split
        next => exact h.gap _
        next =>
          have hord : Accounted { joiner with lastSequence := some sequence } :=
            h.of_counted rfl
          dsimp only
          split
          next => exact hord.gap _
          next sessionId hsess =>
            split
            next known _ =>
              split
              next => exact hord.gap _
              next => exact hord
            next hnone =>
              -- the session is named for the first time
              have hnamed : Accounted { joiner with
                  lastSequence := some sequence
                  retainedBytes := joiner.retainedBytes + sessionId.utf8ByteSize
                  sessionId := some sessionId } := by
                refine { h with books := ?_, session := boundedField_le hsess }
                have hbooks := h.books
                have hempty : lengthOf joiner.sessionId = 0 := by
                  rw [hnone]
                  rfl
                have hlen : lengthOf (some sessionId) = sessionId.utf8ByteSize := rfl
                unfold charged at hbooks ⊢
                dsimp only
                omega
              split
              next => exact hnamed.gap _
              next => exact hnamed

lemma Balanced.receive (h : Accounted joiner) (event : Json) (digest : String) :
    ∃ admission, joiner.receive event digest = some admission ∧ Accounted admission.state := by
  unfold Joiner.receive
  split
  next eventId eventType data _ _ _ =>
    split
    next => exact ⟨_, rfl, h.gap _⟩
    next expectedVersion kind _ =>
      split
      next => exact ⟨_, rfl, h.gap _⟩
      next =>
        split
        next => exact ⟨_, rfl, h.gap _⟩
        next =>
          split
          next prev _ =>
            refine ⟨_, rfl, ?_⟩
            show Accounted (if prev ≠ digest then joiner.gap .conflictingDuplicate else joiner)
            split
            · exact h.gap _
            · exact h
          next hnew =>
            obtain ⟨next, hnext, hsound⟩ := Balanced.remember h digest hnew
            rw [hnext]
            exact ⟨_, rfl, Balanced.receiveNew hsound event eventId kind data⟩
  next => exact ⟨_, rfl, h.gap _⟩

lemma Balanced.observeEvent (codec : JoinerCodec) (h : Accounted joiner) (event : Json)
    (digest : String) : SoundPair (joiner.observeEvent codec event digest) := by
  obtain ⟨admission, hadmn, hsound⟩ := Balanced.receive h event digest
  unfold Joiner.observeEvent
  rw [hadmn]
  cases admission with
  | done next => exact .of_some hsound _
  | handled next kind terminal => exact Balanced.handle codec hsound kind terminal

/-! ### The bound -/

lemma PublicState.retainedBytes_invalidateCycle (state : PublicState) :
    state.invalidateCycle.retainedBytes = state.retainedBytes := by
  unfold PublicState.invalidateCycle PublicState.retainedBytes
  dsimp only
  cases state.cycle <;> rfl

lemma retainedPayloadBytes_gap (joiner : Joiner) (found : Gap) :
    (joiner.gap found).retainedPayloadBytes = joiner.retainedPayloadBytes := by
  unfold retainedPayloadBytes
  rw [show (joiner.gap found).publicState = joiner.publicState.invalidateCycle from rfl,
    PublicState.retainedBytes_invalidateCycle]
  rfl

lemma Balanced.flush (h : Accounted joiner) : Accounted joiner.flush where
  books := by
    show lengthOf joiner.sessionId = _
    unfold charged Joiner.flush Joiner.gap
    simp
  distinct := List.nodup_nil
  terminal := fun key => by simp [Joiner.flush, Joiner.gap]
  seenDistinct := List.nodup_nil
  seen := fun eventId => by simp [Joiner.flush, Joiner.gap]
  session := h.session

lemma retainedPayloadBytes_flush (joiner : Joiner) :
    joiner.flush.retainedPayloadBytes = lengthOf joiner.sessionId := by
  unfold Joiner.flush
  rw [retainedPayloadBytes_gap]
  rfl

lemma Balanced.takeOmission (h : Accounted joiner) : Accounted joiner.takeOmission := by
  have hsame : Accounted { joiner with
      publicState := { joiner.publicState with outputOmitted := false } } := h.of_counted rfl
  unfold Joiner.takeOmission
  dsimp only
  split
  · exact hsame.gap _
  · exact hsame

/-- What holds between events. -/
structure Settled (joiner : Joiner) : Prop where
  accounted : Accounted joiner
  bounded : joiner.retainedPayloadBytes ≤ MAX_RETAINED_PAYLOAD_BYTES

lemma Settled.gap (h : Settled joiner) (found : Gap) : Settled (joiner.gap found) where
  accounted := h.accounted.gap found
  bounded := (retainedPayloadBytes_gap joiner found).symm ▸ h.bounded

lemma Settled.observe (codec : JoinerCodec) (h : Settled joiner) (event : Json) :
    ∃ next result, joiner.observe codec event = some (next, result) ∧ Settled next := by
  unfold Joiner.observe
  split
  next => exact ⟨_, _, rfl, h.gap _⟩
  next digest _ =>
    obtain ⟨next, result, hnext, hsound⟩ := Balanced.observeEvent codec h.accounted event digest
    unfold observeWithDigest
    rw [hnext]
    dsimp only [Option.map_some]
    have homit := Balanced.takeOmission hsound
    split
    next =>
      refine ⟨_, _, rfl, homit.flush, ?_⟩
      rw [retainedPayloadBytes_flush]
      exact homit.session.trans (by decide)
    next hbounded => exact ⟨_, _, rfl, homit, Nat.not_lt.mp hbounded⟩

lemma Settled.feed (codec : JoinerCodec) (h : Settled joiner) (input : JoinerInput) :
    ∃ next, joiner.feed codec input = some next ∧ Settled next := by
  cases input with
  | event event =>
    obtain ⟨next, result, hnext, hsettled⟩ := Settled.observe codec h event
    exact ⟨next, by rw [Joiner.feed, hnext]; rfl, hsettled⟩
  | markGap => exact ⟨_, rfl, h.gap _⟩

lemma Settled.feedAll (codec : JoinerCodec) (inputs : List JoinerInput) (h : Settled joiner) :
    ∃ next, inputs.foldlM (Joiner.feed codec) joiner = some next ∧ Settled next := by
  induction inputs generalizing joiner with
  | nil => exact ⟨joiner, rfl, h⟩
  | cons input rest ih =>
    obtain ⟨next, hnext, hsettled⟩ := Settled.feed codec h input
    obtain ⟨last, hlast, hdone⟩ := ih hsettled
    refine ⟨last, ?_, hdone⟩
    rw [List.foldlM_cons, hnext]
    exact hlast

/-- **The joiner accounts for every retained byte.** -/
theorem joiner_accounts (codec : JoinerCodec) (inputs : List JoinerInput) :
    ∃ joiner, feedAll codec inputs = some joiner ∧
      joiner.retainedBytes =
        lengthOf joiner.sessionId +
          joiner.seenEventIds.weigh (fun eventId _ => eventId.utf8ByteSize * 2 + 32) +
          joiner.steps.weigh stepBytes + joiner.calls.weigh callBytes +
          (joiner.terminalCallOrder.map keyBytes).sum + joiner.pendingInbox.weigh inboxBytes ∧
      joiner.terminalCallOrder.Nodup ∧
      (∀ key, key ∈ joiner.terminalCallOrder ↔
        ∃ call, joiner.calls.lookup key = some call ∧ call.terminal ≠ none) ∧
      joiner.retainedPayloadBytes ≤ MAX_RETAINED_PAYLOAD_BYTES := by
  have hstart : Settled {} := ⟨accounted_empty, Nat.zero_le _⟩
  obtain ⟨joiner, hjoiner, hsettled⟩ := Settled.feedAll codec inputs hstart
  exact ⟨joiner, hjoiner, hsettled.accounted.books, hsettled.accounted.distinct,
    hsettled.accounted.terminal, hsettled.bounded⟩

end Joiner

end Antiburn
