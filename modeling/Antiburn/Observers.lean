/-
The observer of one attached session.

A row of an activation and a session records when the session was last active.  Five
operations read and write it: attachment, activity, a change of the source, a loss
of continuity, and a frontier of the source, at which the session may be idle.  Each
runs in a transaction, so that one that fails leaves the row as it was.
-/
import Antiburn.NativeFiles
import Antiburn.Publications
import Mathlib

namespace Antiburn

namespace Observers

/-- How long a session is quiet before it is idle. -/
def IDLE_MS : Int := 120000

inductive ToolResultPosition where
  | jsonl (recordIndex itemIndex : Nat)
  | fileBytes (recordStart recordEnd itemIndex : Nat)
  | openCodeEvent (sequence itemIndex : Nat)
  | openCodeV2Event (sequence itemIndex : Nat)

/-- The order of positions: their kind, then their place in the source. -/
def order : ToolResultPosition → Nat ×ₗ Nat ×ₗ Nat ×ₗ Nat
  | .fileBytes recordStart recordEnd itemIndex =>
    toLex (0, toLex (recordStart, toLex (recordEnd, itemIndex)))
  | .jsonl recordIndex itemIndex => toLex (1, toLex (recordIndex, toLex (0, itemIndex)))
  | .openCodeEvent sequence itemIndex => toLex (2, toLex (sequence, toLex (0, itemIndex)))
  | .openCodeV2Event sequence itemIndex => toLex (3, toLex (sequence, toLex (0, itemIndex)))

structure SourceSession where
  agent : String
  sourceLabel : String
  cwd : Option String

/-- `burn_check_session_attachment`, for one activation, session and incarnation. -/
structure Attachment where
  observerEpoch : Option String := none
  sourceLabel : Option String := none
  sourceFormat : Option SourceFormat := none
  sourceReceipt : Option String := none
  observationStartedAtMs : Option Int := none
  startPublication : Option Nat := none
  lastActivityToken : Option String := none
  lastActivityOrder : Option ToolResultPosition := none
  lastActivityAtMs : Option Int := none
  activityRevision : Nat := 0
  idleDeadlineMs : Option Int := none
  idleEmittedRevision : Option Nat := none
  idlePublication : Option Nat := none
  continuityEligible : Bool := false
  sessionSelection : Option ObservedAttribution := none

/-- `HostSessionObservation`, of the one activation and session. -/
inductive HostPublication where
  | start (epoch : String) (observedAtMs : Int) (selection : Option ObservedAttribution)
  | idle (epoch : String) (activityRevision idleSeconds : Nat) (lastActivityAtMs : Option Int)
      (observedAtMs : Int) (selection : Option ObservedAttribution)

/-- The row, and what was published; a publication is known by its place. -/
structure ObserverStore where
  row : Attachment := {}
  published : List HostPublication := []

structure NativeActivity where
  token : String
  position : ToolResultPosition
  nativeAtMs : Option Int

def openCodeV2 : SourceFormat := .other "open_code_v2_sqlite"

def openCodeV1 : SourceFormat := .other "open_code_sqlite"

def observerFormat (session : SourceSession) : Option SourceFormat :=
  if session.agent = "opencode" then
    if ":open_code_v2_sqlite".toList.isSuffixOf session.sourceLabel.toList then some openCodeV2
    else some openCodeV1
  else sourceFormat session.agent

/-- One call of the protocol; the session is read anew by each.  `enroll` writes a row without
an observer, as the activation does. -/
inductive Call where
  | enroll
  | attach (session : SourceSession) (current : Option ObservedAttribution) (receipt epoch : String)
      (nowMs : Int)
  | activity (session : SourceSession) (activity : NativeActivity) (nowMs : Int)
  | rebindSource (session : SourceSession) (format : SourceFormat)
  | breakContinuity
  | frontier (session : SourceSession) (receipt : String) (usable : Bool) (nowMs : Int)

section Operations

variable (scopeCwd : String) (store : ObserverStore)

def isBound (row : Attachment) (session : SourceSession) : Bool :=
  row.sourceLabel == some session.sourceLabel && session.cwd == some scopeCwd

def attached (session : SourceSession) (format : SourceFormat)
    (current : Option ObservedAttribution) (receipt epoch : String) (nowMs : Int) :
    ObserverStore where
  row :=
    { store.row with
      observerEpoch := some epoch
      sourceLabel := some session.sourceLabel
      sourceFormat := some format
      sourceReceipt := some receipt
      observationStartedAtMs := some nowMs
      idleDeadlineMs := some (nowMs + IDLE_MS)
      continuityEligible := true
      sessionSelection := current
      startPublication := some store.published.length }
  published := store.published ++ [.start epoch nowMs current]

def attachIn (session : SourceSession) (current : Option ObservedAttribution)
    (receipt epoch : String) (nowMs : Int) : Except String ObserverStore :=
  match store.row.observerEpoch, observerFormat session with
  | some _, _ => .ok store
  | none, none => .error "unsupported observer source"
  | none, some format => .ok (attached store session format current receipt epoch nowMs)

/-- An activity is new where its token is, and it comes after the last one. -/
def isAccepted (session : SourceSession) (activity : NativeActivity) : Bool :=
  store.row.observerEpoch.isSome && isBound scopeCwd store.row session &&
    store.row.lastActivityToken != some activity.token &&
    !store.row.lastActivityOrder.any fun last => order activity.position ≤ order last

def isToken (token : String) : Bool := token != "" && token.utf8ByteSize ≤ 4096

def activityIn (session : SourceSession) (activity : NativeActivity) (nowMs : Int) :
    Except String ObserverStore :=
  if !isToken activity.token then .error "invalid activity token"
  else if isAccepted scopeCwd store session activity then
    .ok { store with
      row :=
        { store.row with
          lastActivityToken := some activity.token
          lastActivityOrder := some activity.position
          lastActivityAtMs := activity.nativeAtMs
          activityRevision := store.row.activityRevision + 1
          idleDeadlineMs := some (nowMs + IDLE_MS)
          idleEmittedRevision := none
          idlePublication := none } }
  else .ok store

def isRebound (session : SourceSession) (format : SourceFormat) : Bool :=
  store.row.observerEpoch.isSome && session.cwd == some scopeCwd &&
    (store.row.sourceLabel != some session.sourceLabel || store.row.sourceFormat != some format)

def rebindSourceIn (session : SourceSession) (format : SourceFormat) :
    Except String ObserverStore :=
  if isRebound scopeCwd store session format then
    .ok { store with
      row :=
        { store.row with
          sourceLabel := some session.sourceLabel
          sourceFormat := some format
          sourceReceipt := none
          lastActivityToken := none
          lastActivityOrder := none
          lastActivityAtMs := none
          sessionSelection := none
          activityRevision := store.row.activityRevision + 1
          continuityEligible := false
          observationStartedAtMs := none
          idleDeadlineMs := none
          idleEmittedRevision := none
          idlePublication := none } }
  else .ok store

def forgetSelection (row : Attachment) : Attachment :=
  if row.sourceFormat = some openCodeV2 then { row with sessionSelection := none } else row

def breakContinuityIn : Except String ObserverStore :=
  let row := forgetSelection store.row
  if row.continuityEligible then
    .ok { store with
      row :=
        { row with
          continuityEligible := false
          idleDeadlineMs := none
          activityRevision := row.activityRevision + 1
          idleEmittedRevision := none } }
  else .ok { store with row }

/-- The row at a frontier; continuity that was lost is regained. -/
def reached (row : Attachment) (session : SourceSession) (receipt : String) (nowMs : Int) :
    Attachment :=
  if row.observerEpoch.isSome && isBound scopeCwd row session then
    { row with
      sourceReceipt := some receipt
      idleDeadlineMs :=
        if row.continuityEligible then row.idleDeadlineMs else some (nowMs + IDLE_MS)
      observationStartedAtMs :=
        if row.continuityEligible then row.observationStartedAtMs else some nowMs
      continuityEligible := true }
  else row

/-- The row is quiet since its deadline, and that was not published. -/
def isIdle (row : Attachment) (session : SourceSession) (receipt : String) (nowMs : Int) : Bool :=
  row.sourceReceipt == some receipt && row.continuityEligible &&
    (row.idleDeadlineMs.any fun deadline => deadline ≤ nowMs) && row.idleEmittedRevision.isNone &&
    isBound scopeCwd row session

def frontierIn (session : SourceSession) (receipt : String) (usable : Bool) (nowMs : Int) :
    Except String ObserverStore :=
  if !usable then .ok store
  else
    let row := reached scopeCwd store.row session receipt nowMs
    if isIdle scopeCwd row session receipt nowMs then
      match row.observerEpoch, row.sourceFormat with
      | some epoch, some _ =>
        .ok
          { row :=
              { row with
                idleEmittedRevision := some row.activityRevision
                idlePublication := some store.published.length }
            published := store.published ++
              [.idle epoch row.activityRevision 120 row.lastActivityAtMs nowMs
                row.sessionSelection] }
      | _, _ => .error "a required column is null"
    else .ok { store with row }

def perform : Call → Except String ObserverStore
  | .enroll => .ok { store with row := {} }
  | .attach session current receipt epoch nowMs =>
    attachIn store session current receipt epoch nowMs
  | .activity session activity nowMs => activityIn scopeCwd store session activity nowMs
  | .rebindSource session format => rebindSourceIn scopeCwd store session format
  | .breakContinuity => breakContinuityIn store
  | .frontier session receipt usable nowMs => frontierIn scopeCwd store session receipt usable nowMs

def apply (call : Call) : ObserverStore := (perform scopeCwd store call).toOption.getD store

end Operations

def after (scopeCwd : String) (calls : List Call) : ObserverStore :=
  calls.foldl (apply scopeCwd) {}

/-! ### What a call does -/

section Observed

variable (scopeCwd : String) (store : ObserverStore)

def acceptedPosition : Call → Option ToolResultPosition
  | .activity session activity _ =>
    if isToken activity.token && isAccepted scopeCwd store session activity then
      some activity.position
    else none
  | _ => none

def rebinds : Call → Bool
  | .rebindSource session format => isRebound scopeCwd store session format
  | _ => false

def breaks : Call → Bool
  | .breakContinuity => store.row.continuityEligible
  | _ => false

def quietFrom : Call → Option Int
  | .attach session _ _ _ nowMs =>
    if store.row.observerEpoch.isNone && (observerFormat session).isSome then some nowMs else none
  | .activity session activity nowMs =>
    if isToken activity.token && isAccepted scopeCwd store session activity then some nowMs
    else none
  | .frontier session _ usable nowMs =>
    if usable && store.row.observerEpoch.isSome && isBound scopeCwd store.row session &&
        !store.row.continuityEligible then some nowMs
    else none
  | _ => none

end Observed

namespace Call

def nowMs? : Call → Option Int
  | attach _ _ _ _ nowMs => some nowMs
  | activity _ _ nowMs => some nowMs
  | frontier _ _ _ nowMs => some nowMs
  | _ => none

def epoch? : Call → Option String
  | attach _ _ _ epoch _ => some epoch
  | _ => none

/-- The row of the observer is written anew. -/
def isEnroll : Call → Bool
  | enroll => true
  | _ => false

end Call

namespace HostPublication

def epoch : HostPublication → String
  | start epoch _ _ => epoch
  | idle epoch _ _ _ _ _ => epoch

def isStartOf (epoch : String) : HostPublication → Bool
  | start other _ _ => other == epoch
  | _ => false

def isIdleOf (epoch : String) (revision : Nat) : HostPublication → Bool
  | idle other found _ _ _ _ => other == epoch && found == revision
  | _ => false

def idleAt? : HostPublication → Option Int
  | idle _ _ _ _ observedAtMs _ => some observedAtMs
  | _ => none

end HostPublication

end Observers

end Antiburn
