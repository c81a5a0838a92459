/-
Runs of the idle protocol.

The induction is on the calls, newest last, with `Watched` as its invariant: what was
published of the present observer lies before its revision, and while continuity
stands, the deadline lies behind every time at which the session was last active.
-/
import Antiburn.Observers

namespace Antiburn

namespace Observers

variable {scopeCwd : String} {store : ObserverStore}

/-! ### One call -/

lemma apply_attach (session : SourceSession) (current : Option ObservedAttribution)
    (receipt epoch : String) (nowMs : Int) :
    (quietFrom scopeCwd store (.attach session current receipt epoch nowMs) = none ∧
        apply scopeCwd store (.attach session current receipt epoch nowMs) = store) ∨
      ∃ format, store.row.observerEpoch = none ∧
        quietFrom scopeCwd store (.attach session current receipt epoch nowMs) = some nowMs ∧
          apply scopeCwd store (.attach session current receipt epoch nowMs) =
            attached store session format current receipt epoch nowMs := by
  have happly : apply scopeCwd store (.attach session current receipt epoch nowMs) =
      (attachIn store session current receipt epoch nowMs).toOption.getD store := rfl
  rw [happly]
  unfold attachIn quietFrom
  dsimp only
  cases hepoch : store.row.observerEpoch with
  | some _ => exact .inl ⟨rfl, rfl⟩
  | none =>
    cases hformat : observerFormat session with
    | none => exact .inl ⟨rfl, rfl⟩
    | some format => exact .inr ⟨format, rfl, rfl, rfl⟩

def active (store : ObserverStore) (activity : NativeActivity) (nowMs : Int) : ObserverStore :=
  { store with
    row :=
      { store.row with
        lastActivityToken := some activity.token
        lastActivityOrder := some activity.position
        lastActivityAtMs := activity.nativeAtMs
        activityRevision := store.row.activityRevision + 1
        idleDeadlineMs := some (nowMs + IDLE_MS)
        idleEmittedRevision := none
        idlePublication := none } }

lemma apply_activity (session : SourceSession) (activity : NativeActivity) (nowMs : Int) :
    apply scopeCwd store (.activity session activity nowMs) =
      if (isToken activity.token && isAccepted scopeCwd store session activity) = true then
        active store activity nowMs
      else store := by
  have happly : apply scopeCwd store (.activity session activity nowMs) =
      (activityIn scopeCwd store session activity nowMs).toOption.getD store := rfl
  rw [happly]
  unfold activityIn
  cases isToken activity.token with
  | false => rfl
  | true =>
    cases isAccepted scopeCwd store session activity with
    | false | true => rfl

lemma acceptedPosition_activity (session : SourceSession) (activity : NativeActivity)
    (nowMs : Int) :
    acceptedPosition scopeCwd store (.activity session activity nowMs) =
      if (isToken activity.token && isAccepted scopeCwd store session activity) = true then
        some activity.position
      else none := rfl

def rebound (store : ObserverStore) (session : SourceSession) (format : SourceFormat) :
    ObserverStore :=
  { store with
    row :=
      { store.row with
        sourceLabel := some session.sourceLabel
        sourceFormat := some format
        sourceReceipt := none
        lastActivityToken := none
        lastActivityOrder := none
        lastActivityAtMs := none
        sessionSelection := none
        activityRevision := store.row.activityRevision + 1
        continuityEligible := false
        observationStartedAtMs := none
        idleDeadlineMs := none
        idleEmittedRevision := none
        idlePublication := none } }

lemma apply_rebindSource (session : SourceSession) (format : SourceFormat) :
    apply scopeCwd store (.rebindSource session format) =
      if isRebound scopeCwd store session format = true then rebound store session format
      else store := by
  have happly : apply scopeCwd store (.rebindSource session format) =
      (rebindSourceIn scopeCwd store session format).toOption.getD store := rfl
  rw [happly]
  unfold rebindSourceIn
  cases isRebound scopeCwd store session format with
  | false | true => rfl

/-- The row after continuity is lost. -/
def broken (store : ObserverStore) : ObserverStore :=
  { store with
    row :=
      { forgetSelection store.row with
        continuityEligible := false
        idleDeadlineMs := none
        activityRevision := store.row.activityRevision + 1
        idleEmittedRevision := none } }

lemma forgetSelection_eq (row : Attachment) :
    ∃ selection, forgetSelection row = { row with sessionSelection := selection } := by
  unfold forgetSelection
  split_ifs
  · exact ⟨none, rfl⟩
  · exact ⟨row.sessionSelection, rfl⟩

lemma apply_breakContinuity :
    (store.row.continuityEligible = true ∧
        apply scopeCwd store .breakContinuity = broken store) ∨
      store.row.continuityEligible = false ∧ ∃ selection,
        apply scopeCwd store .breakContinuity =
          { store with row := { store.row with sessionSelection := selection } } := by
  obtain ⟨selection, hseln⟩ := forgetSelection_eq store.row
  have happly : apply scopeCwd store .breakContinuity =
      (breakContinuityIn store).toOption.getD store := rfl
  rw [happly]
  unfold breakContinuityIn broken
  rw [hseln]
  dsimp only
  cases helig : store.row.continuityEligible with
  | true => exact .inl ⟨rfl, rfl⟩
  | false => exact .inr ⟨rfl, selection, rfl⟩

lemma reached_eq (row : Attachment) (session : SourceSession) (receipt : String) (nowMs : Int) :
    reached scopeCwd row session receipt nowMs = row ∨
      (row.observerEpoch.isSome && isBound scopeCwd row session) = true ∧
        ∃ started, reached scopeCwd row session receipt nowMs =
          { row with
            sourceReceipt := some receipt
            idleDeadlineMs :=
              if row.continuityEligible then row.idleDeadlineMs else some (nowMs + IDLE_MS)
            observationStartedAtMs := started
            continuityEligible := true } := by
  unfold reached
  by_cases hbound : (row.observerEpoch.isSome && isBound scopeCwd row session) = true
  · rw [if_pos hbound]
    exact .inr ⟨hbound, _, rfl⟩
  · rw [if_neg hbound]
    exact .inl rfl

lemma apply_frontier (session : SourceSession) (receipt : String) (usable : Bool) (nowMs : Int) :
    apply scopeCwd store (.frontier session receipt usable nowMs) = store ∨
      usable = true ∧
        (apply scopeCwd store (.frontier session receipt usable nowMs) =
            { store with row := reached scopeCwd store.row session receipt nowMs } ∨
          ∃ epoch, (reached scopeCwd store.row session receipt nowMs).observerEpoch = some epoch ∧
            isIdle scopeCwd (reached scopeCwd store.row session receipt nowMs) session receipt
              nowMs = true ∧
            apply scopeCwd store (.frontier session receipt usable nowMs) =
              { row :=
                  { reached scopeCwd store.row session receipt nowMs with
                    idleEmittedRevision :=
                      some (reached scopeCwd store.row session receipt nowMs).activityRevision
                    idlePublication := some store.published.length }
                published := store.published ++
                  [.idle epoch (reached scopeCwd store.row session receipt nowMs).activityRevision
                    120 (reached scopeCwd store.row session receipt nowMs).lastActivityAtMs nowMs
                    (reached scopeCwd store.row session receipt nowMs).sessionSelection] }) := by
  have happly : apply scopeCwd store (.frontier session receipt usable nowMs) =
      (frontierIn scopeCwd store session receipt usable nowMs).toOption.getD store := rfl
  rw [happly]
  unfold frontierIn
  cases usable with
  | false => exact .inl rfl
  | true =>
    dsimp only [Bool.not_true]
    cases hidle : isIdle scopeCwd (reached scopeCwd store.row session receipt nowMs) session receipt
        nowMs with
    | false => exact .inr ⟨rfl, .inl rfl⟩
    | true =>
      cases hepoch : (reached scopeCwd store.row session receipt nowMs).observerEpoch with
      | none => exact .inl rfl
      | some epoch =>
        cases hformat : (reached scopeCwd store.row session receipt nowMs).sourceFormat with
        | none => exact .inl rfl
        | some format => exact .inr ⟨rfl, .inr ⟨epoch, rfl, rfl, rfl⟩⟩

/-! ### The last activity and the revision -/

lemma reached_activity (row : Attachment) (session : SourceSession) (receipt : String)
    (nowMs : Int) :
    (reached scopeCwd row session receipt nowMs).lastActivityOrder = row.lastActivityOrder ∧
      (reached scopeCwd row session receipt nowMs).activityRevision = row.activityRevision ∧
        (reached scopeCwd row session receipt nowMs).observerEpoch = row.observerEpoch ∧
          (reached scopeCwd row session receipt nowMs).idleEmittedRevision =
            row.idleEmittedRevision := by
  rcases @reached_eq scopeCwd row session receipt nowMs with heq | ⟨-, started, heq⟩
  · rw [heq]
    exact ⟨rfl, rfl, rfl, rfl⟩
  · rw [heq]
    exact ⟨rfl, rfl, rfl, rfl⟩

lemma frontier_activity (session : SourceSession) (receipt : String) (usable : Bool)
    (nowMs : Int) :
    (apply scopeCwd store (.frontier session receipt usable nowMs)).row.lastActivityOrder =
        store.row.lastActivityOrder ∧
      (apply scopeCwd store (.frontier session receipt usable nowMs)).row.activityRevision =
        store.row.activityRevision := by
  obtain ⟨horder, hrev, -⟩ := @reached_activity scopeCwd store.row session receipt nowMs
  rcases @apply_frontier scopeCwd store session receipt usable nowMs with
    heq | ⟨-, heq | ⟨epoch, -, -, heq⟩⟩
  · rw [heq]
    exact ⟨rfl, rfl⟩
  · rw [heq]
    exact ⟨horder, hrev⟩
  · rw [heq]
    exact ⟨horder, hrev⟩

variable {call : Call} {time nowMs : Int} {calls : List Call} {next : ObserverStore}
  {epoch : String}

/-- **The revision rises with every accepted activity, rebinding and loss of continuity, and
with nothing else; the last position is that of the last accepted activity.** -/
lemma activity_apply {call : Call} (h : call.isEnroll = false) :
    (apply scopeCwd store call).row.activityRevision = store.row.activityRevision +
        (if ((acceptedPosition scopeCwd store call).isSome || rebinds scopeCwd store call ||
          breaks store call) = true then 1 else 0) ∧
      (rebinds scopeCwd store call = false → (apply scopeCwd store call).row.lastActivityOrder =
        (acceptedPosition scopeCwd store call).or store.row.lastActivityOrder) := by
  cases call with
  | enroll => cases h
  | attach session current receipt epoch nowMs =>
    rcases @apply_attach scopeCwd store session current receipt epoch nowMs with
      ⟨-, heq⟩ | ⟨format, -, -, heq⟩
    · rw [heq]
      exact ⟨rfl, fun _ => rfl⟩
    · rw [heq]
      exact ⟨rfl, fun _ => rfl⟩
  | activity session activity nowMs =>
    rw [apply_activity, acceptedPosition_activity]
    by_cases haccd : (isToken activity.token && isAccepted scopeCwd store session activity) = true
    · rw [if_pos haccd, if_pos haccd]
      exact ⟨rfl, fun _ => rfl⟩
    · rw [if_neg haccd, if_neg haccd]
      exact ⟨rfl, fun _ => rfl⟩
  | rebindSource session format =>
    have hrebinds : rebinds scopeCwd store (.rebindSource session format) =
        isRebound scopeCwd store session format := rfl
    rw [apply_rebindSource, hrebinds]
    cases isRebound scopeCwd store session format with
    | false => exact ⟨rfl, fun _ => rfl⟩
    | true => exact ⟨rfl, fun hsame => Bool.noConfusion hsame⟩
  | breakContinuity =>
    have hbreaks : breaks store .breakContinuity = store.row.continuityEligible := rfl
    obtain ⟨selection, hseln⟩ := forgetSelection_eq store.row
    rw [hbreaks]
    rcases @apply_breakContinuity scopeCwd store with ⟨helig, heq⟩ | ⟨helig, _, heq⟩
    · rw [heq, helig]
      unfold broken
      rw [hseln]
      exact ⟨rfl, fun _ => rfl⟩
    · rw [heq, helig]
      exact ⟨rfl, fun _ => rfl⟩
  | frontier session receipt usable nowMs =>
    obtain ⟨horder, hrev⟩ := @frontier_activity scopeCwd store session receipt usable nowMs
    rw [horder, hrev]
    exact ⟨rfl, fun _ => rfl⟩

lemma accepted_after {position last : ToolResultPosition}
    (h : acceptedPosition scopeCwd store call = some position)
    (hlast : store.row.lastActivityOrder = some last) : order last < order position := by
  cases call with
  | activity session activity nowMs =>
    rw [acceptedPosition_activity] at h
    split_ifs at h with haccd
    cases h
    unfold isAccepted at haccd
    rw [hlast] at haccd
    simp only [Option.any_some, Bool.and_eq_true, Bool.not_eq_true', decide_eq_false_iff_not,
      not_le] at haccd
    exact haccd.2.2
  | _ => cases h

lemma lastActivityOrder_accepted {position : ToolResultPosition}
    (h : acceptedPosition scopeCwd store call = some position) :
    (apply scopeCwd store call).row.lastActivityOrder = some position := by
  cases call with
  | activity session activity nowMs =>
    rw [acceptedPosition_activity] at h
    rw [apply_activity]
    split_ifs at h with haccd
    cases h
    rw [if_pos haccd]
    rfl
  | _ => cases h

lemma after_snoc (calls : List Call) (call : Call) :
    after scopeCwd (calls ++ [call]) = apply scopeCwd (after scopeCwd calls) call := by
  unfold after
  rw [List.foldl_append]
  rfl

/-- Calls among which the source is not bound anew. -/
def Unbroken (scopeCwd : String) (earlier between : List Call) : Prop :=
  ∀ mid call tail, between = mid ++ call :: tail →
    call.isEnroll = false ∧ rebinds scopeCwd (after scopeCwd (earlier ++ mid)) call = false

lemma lastActivityOrder_after {earlier between : List Call} {first : ToolResultPosition}
    (hfirst : (after scopeCwd earlier).row.lastActivityOrder = some first)
    (hunbroken : Unbroken scopeCwd earlier between) :
    ∃ last, (after scopeCwd (earlier ++ between)).row.lastActivityOrder = some last ∧
      order first ≤ order last := by
  induction between using List.reverseRecOn with
  | nil => exact ⟨first, by rw [List.append_nil]; exact hfirst, le_rfl⟩
  | append_singleton between call ih =>
    have hbefore : Unbroken scopeCwd earlier between := fun mid other tail heq =>
      hunbroken mid other (tail ++ [call]) (by rw [heq, List.append_assoc, List.cons_append])
    obtain ⟨last, hlast, hle⟩ := ih hbefore
    obtain ⟨henroll, hrebinds⟩ := hunbroken between call [] rfl
    rw [← List.append_assoc, after_snoc, (activity_apply henroll).2 hrebinds, hlast]
    cases haccd : acceptedPosition scopeCwd (after scopeCwd (earlier ++ between)) call with
    | none => exact ⟨last, rfl, hle⟩
    | some position =>
      refine ⟨position, rfl, hle.trans ?_⟩
      exact (accepted_after haccd hlast).le

/-! ### When the session was active -/

/-- A call of the run attached the observer, took an activity or regained continuity then. -/
def IsQuietFrom (scopeCwd : String) (calls : List Call) (time : Int) : Prop :=
  ∃ earlier cause rest, calls = earlier ++ cause :: rest ∧
    quietFrom scopeCwd (after scopeCwd earlier) cause = some time

lemma isQuietFrom_snoc
    (h : IsQuietFrom scopeCwd (calls ++ [call]) time) :
    IsQuietFrom scopeCwd calls time ∨
      quietFrom scopeCwd (after scopeCwd calls) call = some time := by
  obtain ⟨earlier, cause, rest, heq, hcause⟩ := h
  rcases List.eq_nil_or_concat rest with rfl | ⟨rest, last, rfl⟩
  · obtain ⟨rfl, hlast⟩ := List.append_inj' heq rfl
    cases hlast
    exact .inr hcause
  · rw [List.concat_eq_append] at heq
    have hsplit : calls ++ [call] = (earlier ++ cause :: rest) ++ [last] := by
      rw [heq, List.append_assoc, List.cons_append]
    exact .inl ⟨earlier, cause, rest, (List.append_inj' hsplit rfl).1, hcause⟩

lemma nowMs?_of_quietFrom
    (h : quietFrom scopeCwd store call = some time) : call.nowMs? = some time := by
  cases call with
  | attach session current receipt epoch nowMs | activity session activity nowMs
  | frontier session receipt usable nowMs =>
    unfold quietFrom at h
    dsimp only at h
    split_ifs at h
    exact h
  | _ => cases h

lemma isQuietFrom_le
    (htimes : ((calls ++ [call]).filterMap Call.nowMs?).Pairwise (· ≤ ·))
    (hnow : call.nowMs? = some nowMs) (h : IsQuietFrom scopeCwd (calls ++ [call]) time) :
    time ≤ nowMs := by
  rcases isQuietFrom_snoc h with ⟨earlier, cause, rest, rfl, hcause⟩ | hcall
  · have hmem : time ∈ (earlier ++ cause :: rest).filterMap Call.nowMs? :=
      List.mem_filterMap.mpr ⟨cause, by simp, nowMs?_of_quietFrom hcause⟩
    rw [List.filterMap_append] at htimes
    refine (List.pairwise_append.mp htimes).2.2 time hmem nowMs ?_
    exact List.mem_filterMap.mpr ⟨call, List.mem_cons_self, hnow⟩
  · have hsame := (nowMs?_of_quietFrom hcall).symm.trans hnow
    cases hsame
    exact le_rfl

/-! ### The invariant -/

structure Watched (scopeCwd : String) (calls : List Call) (store : ObserverStore) : Prop where
  /-- Only epochs that were drawn are published. -/
  known : ∀ publication ∈ store.published, publication.epoch ∈ calls.filterMap Call.epoch?
  own : ∀ epoch ∈ store.row.observerEpoch, epoch ∈ calls.filterMap Call.epoch?
  starts : ∀ epoch, store.published.countP (HostPublication.isStartOf epoch) ≤ 1
  idles : ∀ epoch revision, store.published.countP (HostPublication.isIdleOf epoch revision) ≤ 1
  /-- The observer was not idle at a revision that is to come, -/
  later : ∀ epoch ∈ store.row.observerEpoch, ∀ revision, store.row.activityRevision < revision →
    store.published.countP (HostPublication.isIdleOf epoch revision) = 0
  /-- nor at this one unless the row says so. -/
  unemitted : ∀ epoch ∈ store.row.observerEpoch, store.row.idleEmittedRevision = none →
    store.published.countP (HostPublication.isIdleOf epoch store.row.activityRevision) = 0
  /-- While continuity stands, the deadline lies behind all activity. -/
  quiet : store.row.continuityEligible = true → ∀ deadline ∈ store.row.idleDeadlineMs,
    ∀ time, IsQuietFrom scopeCwd calls time → time + IDLE_MS ≤ deadline

lemma Watched.empty : Watched scopeCwd [] {} where
  known := fun _ h => absurd h List.not_mem_nil
  own := fun _ h => nomatch h
  starts := fun _ => Nat.zero_le _
  idles := fun _ _ => Nat.zero_le _
  later := fun _ h => nomatch h
  unemitted := fun _ h => nomatch h
  quiet := fun h => nomatch h

lemma epochs_snoc (call : Call)
    (h : epoch ∈ calls.filterMap Call.epoch?) : epoch ∈ (calls ++ [call]).filterMap Call.epoch? := by
  rw [List.filterMap_append]
  exact List.mem_append_left _ h

lemma Watched.quietCall {calls : List Call} {next : ObserverStore}
    (h : Watched scopeCwd calls store) (call : Call) (hpub : next.published = store.published)
    (hepoch : next.row.observerEpoch = store.row.observerEpoch)
    (hrev : next.row.activityRevision = store.row.activityRevision ∧
        next.row.idleEmittedRevision = store.row.idleEmittedRevision ∨
      next.row.activityRevision = store.row.activityRevision + 1)
    (hquiet : next.row.continuityEligible = true → ∀ deadline ∈ next.row.idleDeadlineMs,
      ∀ time, IsQuietFrom scopeCwd (calls ++ [call]) time → time + IDLE_MS ≤ deadline) :
    Watched scopeCwd (calls ++ [call]) next := by
  refine ⟨?_, ?_, ?_, ?_, ?_, ?_, hquiet⟩
  · rw [hpub]
    exact fun publication hmem => epochs_snoc call (h.known publication hmem)
  · rw [hepoch]
    exact fun epoch hmem => epochs_snoc call (h.own epoch hmem)
  · rw [hpub]
    exact h.starts
  · rw [hpub]
    exact h.idles
  · rw [hpub, hepoch]
    rcases hrev with ⟨hsame, -⟩ | hraised
    · rw [hsame]
      exact h.later
    · rw [hraised]
      exact fun epoch hmem rev hlt => h.later epoch hmem rev (Nat.lt_of_succ_lt hlt)
  · rw [hpub, hepoch]
    rcases hrev with ⟨hsame, hemit⟩ | hraised
    · rw [hsame, hemit]
      exact h.unemitted
    · rw [hraised]
      exact fun epoch hmem _ => h.later epoch hmem _ (Nat.lt_succ_self _)

lemma Watched.enroll (h : Watched scopeCwd calls store) :
    Watched scopeCwd (calls ++ [.enroll]) { store with row := {} } where
  known := fun publication hmem => epochs_snoc _ (h.known publication hmem)
  own := fun _ hmem => nomatch hmem
  starts := h.starts
  idles := h.idles
  later := fun _ hmem => nomatch hmem
  unemitted := fun _ hmem => nomatch hmem
  quiet := fun helig => nomatch helig

lemma deadline_from_now
    (htimes : ((calls ++ [call]).filterMap Call.nowMs?).Pairwise (· ≤ ·))
    (hnow : call.nowMs? = some nowMs) :
    ∀ deadline ∈ some (nowMs + IDLE_MS), ∀ time,
      IsQuietFrom scopeCwd (calls ++ [call]) time → time + IDLE_MS ≤ deadline := by
  rintro deadline ⟨⟩ time hquiet
  have hle := isQuietFrom_le htimes hnow hquiet
  omega

section

variable (h : Watched scopeCwd calls (after scopeCwd calls))
include h

lemma Watched.quiet_snoc (hnone : quietFrom scopeCwd (after scopeCwd calls) call = none)
    (helig : (after scopeCwd calls).row.continuityEligible = true) :
    ∀ deadline ∈ (after scopeCwd calls).row.idleDeadlineMs, ∀ time,
      IsQuietFrom scopeCwd (calls ++ [call]) time → time + IDLE_MS ≤ deadline := by
  intro deadline hdeadl time hquiet
  rcases isQuietFrom_snoc hquiet with hold | hcall
  · exact h.quiet helig deadline hdeadl time hold
  · rw [hnone] at hcall
    cases hcall

lemma Watched.attach
    {session : SourceSession} {format : SourceFormat} {current : Option ObservedAttribution}
    {receipt : String}
    (htimes : ((calls ++ [Call.attach session current receipt epoch nowMs]).filterMap
      Call.nowMs?).Pairwise (· ≤ ·))
    (hfresh : epoch ∉ calls.filterMap Call.epoch?) :
    Watched scopeCwd (calls ++ [.attach session current receipt epoch nowMs])
      (attached (after scopeCwd calls) session format current receipt epoch nowMs) := by
  have hdrawn : epoch ∈ (calls ++ [Call.attach session current receipt epoch nowMs]).filterMap
      Call.epoch? := by
    rw [List.filterMap_append]
    exact List.mem_append_right _ List.mem_cons_self
  have hidle : ∀ other rev, (attached (after scopeCwd calls) session format current receipt
      epoch nowMs).published.countP (HostPublication.isIdleOf other rev) =
        (after scopeCwd calls).published.countP (HostPublication.isIdleOf other rev) := by
    intro other rev
    show ((after scopeCwd calls).published ++ [_]).countP _ = _
    rw [List.countP_append]
    rfl
  have hnew : ∀ p : HostPublication → Bool, (∀ publication, p publication = true →
      publication.epoch = epoch) → (after scopeCwd calls).published.countP p = 0 := by
    intro p hp
    rw [List.countP_eq_zero]
    intro publication hmem hfound
    exact hfresh (hp publication hfound ▸ h.known publication hmem)
  have hidleEpoch : ∀ rev publication,
      HostPublication.isIdleOf epoch rev publication = true → publication.epoch = epoch := by
    intro rev publication hfound
    cases publication with
    | start _ _ _ => cases hfound
    | idle other _ _ _ _ _ => exact beq_iff_eq.mp (Bool.and_eq_true_iff.mp hfound).1
  have hstartEpoch : ∀ publication,
      HostPublication.isStartOf epoch publication = true → publication.epoch = epoch := by
    intro publication hfound
    cases publication with
    | start other _ _ => exact beq_iff_eq.mp hfound
    | idle _ _ _ _ _ _ => cases hfound
  refine ⟨?_, ?_, ?_, ?_, ?_, ?_, ?_⟩
  · intro publication hmem
    rcases List.mem_append.mp hmem with hold | hlast
    · exact epochs_snoc _ (h.known publication hold)
    · rw [List.mem_singleton.mp hlast]
      exact hdrawn
  · rintro other ⟨⟩
    exact hdrawn
  · intro other
    show ((after scopeCwd calls).published ++ [_]).countP _ ≤ 1
    rw [List.countP_append]
    by_cases hsame : epoch = other
    · subst hsame
      rw [hnew _ hstartEpoch, Nat.zero_add]
      exact List.countP_le_length
    · have hnot : [HostPublication.start epoch nowMs current].countP
          (HostPublication.isStartOf other) = 0 := by
        rw [List.countP_eq_zero]
        intro publication hmem hfound
        rw [List.mem_singleton.mp hmem] at hfound
        exact hsame (beq_iff_eq.mp hfound)
      rw [hnot]
      exact h.starts other
  · intro other rev
    rw [hidle]
    exact h.idles other rev
  · rintro other ⟨⟩ rev -
    rw [hidle]
    exact hnew _ (hidleEpoch rev)
  · rintro other ⟨⟩ -
    rw [hidle]
    exact hnew _ (hidleEpoch _)
  · exact fun _ => deadline_from_now htimes rfl

lemma Watched.reached {session : SourceSession} {receipt : String}
    (htimes : ((calls ++ [Call.frontier session receipt true nowMs]).filterMap
      Call.nowMs?).Pairwise (· ≤ ·)) :
    (reached scopeCwd (after scopeCwd calls).row session receipt nowMs).continuityEligible = true →
      ∀ deadline ∈ (reached scopeCwd (after scopeCwd calls).row session receipt nowMs).idleDeadlineMs,
        ∀ time, IsQuietFrom scopeCwd (calls ++ [.frontier session receipt true nowMs]) time →
          time + IDLE_MS ≤ deadline := by
  intro helig
  have hstands : (after scopeCwd calls).row.continuityEligible = true →
      quietFrom scopeCwd (after scopeCwd calls) (.frontier session receipt true nowMs) = none := by
    intro hstands
    unfold quietFrom
    dsimp only
    rw [hstands, if_neg]
    simp
  rcases @reached_eq scopeCwd (after scopeCwd calls).row session receipt nowMs with
    heq | ⟨-, started, heq⟩
  · rw [heq] at helig ⊢
    exact h.quiet_snoc (hstands helig) helig
  · rw [heq]
    dsimp only
    by_cases hold : (after scopeCwd calls).row.continuityEligible = true
    · rw [if_pos hold]
      exact h.quiet_snoc (hstands hold) hold
    · rw [if_neg hold]
      exact deadline_from_now htimes rfl

end

lemma Watched.idle (call : Call)
    (h : Watched scopeCwd (calls ++ [call]) next) {publication : Nat}
    {activityAt selection nowMs} (hepoch : next.row.observerEpoch = some epoch)
    (hnone : next.row.idleEmittedRevision = none) :
    Watched scopeCwd (calls ++ [call])
      { row :=
          { next.row with
            idleEmittedRevision := some next.row.activityRevision
            idlePublication := some publication }
        published := next.published ++
          [.idle epoch next.row.activityRevision 120 activityAt nowMs selection] } := by
  have hstart : ∀ other, (next.published ++ [HostPublication.idle epoch next.row.activityRevision
      120 activityAt nowMs selection]).countP (HostPublication.isStartOf other) =
        next.published.countP (HostPublication.isStartOf other) := by
    intro other
    rw [List.countP_append]
    rfl
  have hidle : ∀ other rev, ¬(epoch = other ∧ next.row.activityRevision = rev) →
      (next.published ++ [HostPublication.idle epoch next.row.activityRevision 120 activityAt nowMs
        selection]).countP (HostPublication.isIdleOf other rev) =
          next.published.countP (HostPublication.isIdleOf other rev) := by
    intro other rev hother
    have hnot : [HostPublication.idle epoch next.row.activityRevision 120 activityAt nowMs
        selection].countP (HostPublication.isIdleOf other rev) = 0 := by
      rw [List.countP_eq_zero]
      intro found hmem hfound
      rw [List.mem_singleton.mp hmem] at hfound
      obtain ⟨hsame, hrev⟩ := Bool.and_eq_true_iff.mp hfound
      exact hother ⟨beq_iff_eq.mp hsame, beq_iff_eq.mp hrev⟩
    rw [List.countP_append, hnot, Nat.add_zero]
  refine ⟨?_, h.own, ?_, ?_, ?_, ?_, h.quiet⟩
  · intro found hmem
    rcases List.mem_append.mp hmem with hold | hlast
    · exact h.known found hold
    · rw [List.mem_singleton.mp hlast]
      exact h.own epoch hepoch
  · intro other
    exact (hstart other).le.trans (h.starts other)
  · intro other rev
    by_cases hsame : epoch = other ∧ next.row.activityRevision = rev
    · obtain ⟨rfl, rfl⟩ := hsame
      rw [List.countP_append, h.unemitted epoch hepoch hnone, Nat.zero_add]
      exact List.countP_le_length
    · exact (hidle other rev hsame).le.trans (h.idles other rev)
  · intro other hother rev hlt
    exact (hidle other rev fun hsame => absurd hsame.2 (ne_of_lt hlt)).trans
      (h.later other hother rev hlt)
  · exact fun _ _ hemit => nomatch hemit

/-- **Every call keeps the observer watched.** -/
lemma watched_snoc
    (h : Watched scopeCwd calls (after scopeCwd calls))
    (htimes : ((calls ++ [call]).filterMap Call.nowMs?).Pairwise (· ≤ ·))
    (hepochs : ((calls ++ [call]).filterMap Call.epoch?).Nodup) :
    Watched scopeCwd (calls ++ [call]) (after scopeCwd (calls ++ [call])) := by
  rw [after_snoc]
  have hsame : quietFrom scopeCwd (after scopeCwd calls) call = none →
      Watched scopeCwd (calls ++ [call]) (after scopeCwd calls) :=
    fun hnone => h.quietCall call rfl rfl (.inl ⟨rfl, rfl⟩) (h.quiet_snoc hnone)
  cases call with
  | enroll => exact h.enroll
  | attach session current receipt epoch nowMs =>
    rcases @apply_attach scopeCwd (after scopeCwd calls) session current receipt epoch nowMs with
      ⟨hnone, heq⟩ | ⟨format, -, -, heq⟩
    · rw [heq]
      exact hsame hnone
    · rw [heq]
      rw [List.filterMap_append] at hepochs
      exact h.attach htimes fun hmem =>
        (List.nodup_append.mp hepochs).2.2 epoch hmem epoch List.mem_cons_self rfl
  | activity session activity nowMs =>
    rw [apply_activity]
    by_cases haccd : (isToken activity.token &&
        isAccepted scopeCwd (after scopeCwd calls) session activity) = true
    · rw [if_pos haccd]
      exact h.quietCall _ rfl rfl (.inr rfl) fun _ => deadline_from_now htimes rfl
    · rw [if_neg haccd]
      exact hsame (if_neg haccd)
  | rebindSource session format =>
    rw [apply_rebindSource]
    by_cases hrebound : isRebound scopeCwd (after scopeCwd calls) session format = true
    · rw [if_pos hrebound]
      exact h.quietCall _ rfl rfl (.inr rfl) fun helig => nomatch helig
    · rw [if_neg hrebound]
      exact hsame rfl
  | breakContinuity =>
    obtain ⟨selection, hseln⟩ := forgetSelection_eq (after scopeCwd calls).row
    rcases @apply_breakContinuity scopeCwd (after scopeCwd calls) with ⟨-, heq⟩ | ⟨-, _, heq⟩
    · rw [heq]
      unfold broken
      rw [hseln]
      exact h.quietCall _ rfl rfl (.inr rfl) fun helig => nomatch helig
    · rw [heq]
      exact h.quietCall _ rfl rfl (.inl ⟨rfl, rfl⟩) fun helig => h.quiet_snoc rfl helig
  | frontier session receipt usable nowMs =>
    rcases @apply_frontier scopeCwd (after scopeCwd calls) session receipt usable nowMs with
      heq | ⟨rfl, hrchd⟩
    · rw [heq]
      refine h.quietCall _ rfl rfl (.inl ⟨rfl, rfl⟩) fun helig => h.quiet_snoc ?_ helig
      unfold quietFrom
      dsimp only
      rw [helig, if_neg]
      simp
    · obtain ⟨-, hrev, hepoch, hemit⟩ :=
        @reached_activity scopeCwd (after scopeCwd calls).row session receipt nowMs
      have hnext : Watched scopeCwd (calls ++ [.frontier session receipt true nowMs])
          { after scopeCwd calls with
            row := reached scopeCwd (after scopeCwd calls).row session receipt nowMs } :=
        h.quietCall _ rfl hepoch (.inl ⟨hrev, hemit⟩) (h.reached htimes)
      rcases hrchd with heq | ⟨epoch, hsome, hidle, heq⟩
      · rw [heq]
        exact hnext
      · rw [heq]
        refine hnext.idle _ hsome ?_
        unfold isIdle at hidle
        simp only [Bool.and_eq_true, Option.isNone_iff_eq_none] at hidle
        exact hidle.1.2

lemma watched_after
    (htimes : (calls.filterMap Call.nowMs?).Pairwise (· ≤ ·))
    (hepochs : (calls.filterMap Call.epoch?).Nodup) :
    Watched scopeCwd calls (after scopeCwd calls) := by
  induction calls using List.reverseRecOn with
  | nil => exact .empty
  | append_singleton calls call ih =>
    have htimes' := htimes
    have hepochs' := hepochs
    rw [List.filterMap_append] at htimes' hepochs'
    exact watched_snoc (ih (List.pairwise_append.mp htimes').1 (List.nodup_append.mp hepochs').1)
      htimes hepochs

/-- **Idle is published no earlier than two minutes after the last activity.** -/
lemma idle_after_quiet
    (h : Watched scopeCwd calls (after scopeCwd calls))
    (htimes : ((calls ++ [call]).filterMap Call.nowMs?).Pairwise (· ≤ ·))
    {publication : HostPublication} {idleAt : Int}
    (hnew : publication ∈ (apply scopeCwd (after scopeCwd calls) call).published.drop
      (after scopeCwd calls).published.length) (hidleAt : publication.idleAt? = some idleAt) :
    (apply scopeCwd (after scopeCwd calls) call).row.continuityEligible = true ∧
      ∀ time, IsQuietFrom scopeCwd (calls ++ [call]) time → time + IDLE_MS ≤ idleAt := by
  have hnoth : ∀ next : ObserverStore, next.published = (after scopeCwd calls).published →
      publication ∉ next.published.drop (after scopeCwd calls).published.length := by
    intro next heq hmem
    rw [heq, List.drop_length] at hmem
    cases hmem
  cases call with
  | enroll => exact absurd hnew (hnoth _ rfl)
  | attach session current receipt epoch nowMs =>
    rcases @apply_attach scopeCwd (after scopeCwd calls) session current receipt epoch nowMs with
      ⟨-, heq⟩ | ⟨format, -, -, heq⟩
    · rw [heq] at hnew
      exact absurd hnew (hnoth _ rfl)
    · rw [heq] at hnew
      unfold attached at hnew
      rw [List.drop_left] at hnew
      rw [List.mem_singleton.mp hnew] at hidleAt
      cases hidleAt
  | activity session activity nowMs =>
    rw [apply_activity] at hnew
    split_ifs at hnew
    · exact absurd hnew (hnoth _ rfl)
    · exact absurd hnew (hnoth _ rfl)
  | rebindSource session format =>
    rw [apply_rebindSource] at hnew
    split_ifs at hnew
    · exact absurd hnew (hnoth _ rfl)
    · exact absurd hnew (hnoth _ rfl)
  | breakContinuity =>
    rcases @apply_breakContinuity scopeCwd (after scopeCwd calls) with ⟨-, heq⟩ | ⟨-, _, heq⟩
    · rw [heq] at hnew
      exact absurd hnew (hnoth _ rfl)
    · rw [heq] at hnew
      exact absurd hnew (hnoth _ rfl)
  | frontier session receipt usable nowMs =>
    rcases @apply_frontier scopeCwd (after scopeCwd calls) session receipt usable nowMs with
      heq | ⟨rfl, heq | ⟨epoch, -, hidle, heq⟩⟩
    · rw [heq] at hnew
      exact absurd hnew (hnoth _ rfl)
    · rw [heq] at hnew
      exact absurd hnew (hnoth _ rfl)
    · rw [heq] at hnew ⊢
      rw [List.drop_left] at hnew
      rw [List.mem_singleton.mp hnew] at hidleAt
      cases hidleAt
      unfold isIdle at hidle
      simp only [Bool.and_eq_true] at hidle
      obtain ⟨⟨⟨⟨-, helig⟩, hdeadl⟩, -⟩, -⟩ := hidle
      obtain ⟨deadline, hmem, hpassed⟩ := (Option.any_eq_true _ _).mp hdeadl
      rw [decide_eq_true_eq] at hpassed
      exact ⟨helig, fun time hquiet =>
        (h.reached htimes helig deadline hmem time hquiet).trans hpassed⟩

/-- **The idle protocol emits once and never too early.** -/
theorem idle_once_and_never_early {scopeCwd : String} {calls : List Call}
    (htimes : (calls.filterMap Call.nowMs?).Pairwise (· ≤ ·))
    (hepochs : (calls.filterMap Call.epoch?).Nodup) :
    (∀ epoch, (after scopeCwd calls).published.countP (HostPublication.isStartOf epoch) ≤ 1) ∧
      (∀ epoch revision,
        (after scopeCwd calls).published.countP (HostPublication.isIdleOf epoch revision) ≤ 1) ∧
      ∀ before call rest, calls = before ++ call :: rest →
        (∀ publication ∈ (after scopeCwd (before ++ [call])).published.drop
            (after scopeCwd before).published.length, ∀ idleAt ∈ publication.idleAt?,
          (after scopeCwd (before ++ [call])).row.continuityEligible = true ∧
            ∀ time, IsQuietFrom scopeCwd (before ++ [call]) time → time + IDLE_MS ≤ idleAt) ∧
        (call.isEnroll = false → (after scopeCwd (before ++ [call])).row.activityRevision =
          (after scopeCwd before).row.activityRevision +
            if ((acceptedPosition scopeCwd (after scopeCwd before) call).isSome ||
              rebinds scopeCwd (after scopeCwd before) call ||
              breaks (after scopeCwd before) call) = true then 1 else 0) ∧
        ∀ position ∈ acceptedPosition scopeCwd (after scopeCwd before) call,
          ∀ earlier first between, before = earlier ++ first :: between →
            ∀ old ∈ acceptedPosition scopeCwd (after scopeCwd earlier) first,
              Unbroken scopeCwd (earlier ++ [first]) between → order old < order position := by
  have hwatched : Watched scopeCwd calls (after scopeCwd calls) := watched_after htimes hepochs
  refine ⟨hwatched.starts, hwatched.idles, ?_⟩
  rintro before call rest rfl
  have hsplit : before ++ call :: rest = (before ++ [call]) ++ rest := by
    rw [List.append_assoc, List.singleton_append]
  rw [hsplit, List.filterMap_append] at htimes
  rw [List.filterMap_append] at hepochs
  have htimesCall := (List.pairwise_append.mp htimes).1
  have htimesBefore := htimesCall
  rw [List.filterMap_append] at htimesBefore
  have hbefore : Watched scopeCwd before (after scopeCwd before) :=
    watched_after (List.pairwise_append.mp htimesBefore).1 (List.nodup_append.mp hepochs).1
  rw [after_snoc]
  refine ⟨fun publication hnew idleAt hidleAt => idle_after_quiet hbefore htimesCall hnew hidleAt,
    fun hcall => (activity_apply hcall).1, ?_⟩
  rintro position hposition earlier first between rfl old hold hunbroken
  have hfirst : (after scopeCwd (earlier ++ [first])).row.lastActivityOrder = some old := by
    rw [after_snoc, lastActivityOrder_accepted hold]
  obtain ⟨last, hlast, hle⟩ := lastActivityOrder_after hfirst hunbroken
  rw [List.append_assoc, List.singleton_append] at hlast
  exact hle.trans_lt (accepted_after hposition hlast)

def codexSession : SourceSession := ⟨"codex", "codex:file", some "/work"⟩

/-- A session that takes one activity and is quiet for two minutes. -/
def quietRun : List Call :=
  [.attach codexSession none "receipt-1" "epoch" 0,
    .activity codexSession ⟨"token", .jsonl 3 0, none⟩ 1000,
    .frontier codexSession "receipt-2" true 121000,
    .frontier codexSession "receipt-3" true 122000]

/-- It is idle at its revision exactly once. -/
theorem idle_once_quietRun :
    (after "/work" quietRun).published.countP (HostPublication.isIdleOf "epoch" 1) = 1 := by
  obtain ⟨-, hidles, -⟩ := @idle_once_and_never_early "/work" quietRun (by decide) (by decide)
  exact le_antisymm (hidles "epoch" 1) (by decide)

end Observers

end Antiburn
