/-
Repeated context that was paid for.

The scan goes over the main rows of a session by thread, and keeps one previous
request.  A pair of requests is considered or skipped when the later of them, or
whatever breaks the link between them, arrives.
-/
import Antiburn.Decimal
import Antiburn.Metrics
import Mathlib

namespace Antiburn

/-! ### The scan -/

/-- A row of `turn` in scope `main`, as the scan reads it. -/
structure TurnRow where
  threadId : String
  tsMs : Option Int
  inputTokens : Int
  cacheReadTokens : Int
  cacheWriteTokens : Int
  isCompactionBoundary : Bool
  sourceKey : String
  role : String
  model : Option String
  provider : Option String
  api : Option String
  uuid : Option String
  parentUuid : Option String
  turnIndex : Int
  outputTokens : Int

inductive RepeatedContextAccounting where
  | cacheWrite | uncachedInput
  deriving DecidableEq

def requestAccounting (agent : String) (provider api : Option String) :
    Option RepeatedContextAccounting :=
  match agent, provider, api with
  | "claude", none, none | "claude-code", none, none => some .cacheWrite
  | "claude", some "anthropic", none | "claude", some "anthropic", some "messages"
  | "claude", some "anthropic", some "anthropic-messages"
  | "claude-code", some "anthropic", none | "claude-code", some "anthropic", some "messages"
  | "claude-code", some "anthropic", some "anthropic-messages" => some .cacheWrite
  | "codex", none, none => some .uncachedInput
  | "codex", some "openai", none | "codex", some "openai", some "responses"
  | "codex", some "openai", some "openai-responses" => some .uncachedInput
  | "opencode", some "anthropic", none => some .cacheWrite
  | "opencode", some "openai", none => some .uncachedInput
  | "pi", some "anthropic", some "anthropic-messages" => some .cacheWrite
  | "pi", some "openai", some "openai-responses" | "pi", some "openai", some "openai-completions"
  | "pi", some "openai-codex", some "openai-codex-responses" => some .uncachedInput
  | _, _, _ => none

namespace TurnRow

def thread (row : TurnRow) : String × String := (row.sourceKey, row.threadId)

def route (row : TurnRow) : Option String × Option String × Option String :=
  (row.model, row.provider, row.api)

def depth (row : TurnRow) : Nat :=
  saturatingAdd (saturatingAdd row.inputTokens.toNat row.cacheReadTokens.toNat)
    row.cacheWriteTokens.toNat

/-- `i64::checked_add(1)` of the last index is the index of the row. -/
def follows (row : TurnRow) (index : Int) : Bool :=
  decide (index < I64_MAX) && index + 1 == row.turnIndex

/-- `linked`, behind a row of this identity and index in the thread. -/
def isLinked (agent : String) (lastUuid : Option String) (lastIndex : Option Int)
    (row : TurnRow) : Bool :=
  if agent = "opencode" then
    lastIndex.all row.follows && row.uuid.any (· != "") && row.uuid != lastUuid
  else if agent = "codex" then
    lastIndex.all row.follows &&
      (row.parentUuid.isNone || (lastUuid.isSome && row.parentUuid == lastUuid))
  else
    row.uuid.any (· != "") && lastUuid.isSome && row.parentUuid == lastUuid &&
      row.uuid != lastUuid

def isEmptyCodex (agent : String) (row : TurnRow) : Bool :=
  agent == "codex" && row.depth == 0 && row.outputTokens == 0

end TurnRow

structure RepeatedContextTotals where
  accounting : Option RepeatedContextAccounting
  incomplete : Bool := false
  cacheWriteTokens : Nat := 0
  uncachedInputTokens : Nat := 0
  cacheWritePaidTokens : Nat := 0
  uncachedInputPaidTokens : Nat := 0
  pairsConsidered : Nat := 0
  pairsSkipped : Nat := 0

/-- The variables of the loop in `query_repeated_context`. -/
structure RepeatedScan extends totals : RepeatedContextTotals where
  currentThread : Option (String × String) := none
  /-- Timestamp, depth and route. -/
  previous : Option (Option Int × Nat × Option String × Option String × Option String) := none
  lastUuid : Option String := none
  lastIndex : Option Int := none

namespace RepeatedScan

/-- Forget the last thread at the first row of another one. -/
def enter (scan : RepeatedScan) (row : TurnRow) : RepeatedScan :=
  if scan.currentThread = some row.thread then scan
  else { scan with
    currentThread := some row.thread, previous := none, lastUuid := none, lastIndex := none }

/-- Skip the pair that the previous request would have opened. -/
def skip (scan : RepeatedScan) : RepeatedScan :=
  if scan.previous.isSome then
    { scan with
      previous := none
      pairsSkipped := saturatingAdd scan.pairsSkipped 1
      incomplete := true }
  else scan

def inOrder : Option Int → Option Int → Bool
  | some previous, some ts => decide (previous ≤ ts)
  | _, _ => false

/-- An eligible request, behind the previous one. -/
def pair (scan : RepeatedScan) (row : TurnRow) : RepeatedScan :=
  match scan.previous with
  | none => scan
  | some (previousTs, previousDepth, previousRoute) =>
    if inOrder previousTs row.tsMs && row.route == previousRoute then
      let growth := row.depth - previousDepth
      { scan with
        pairsConsidered := saturatingAdd scan.pairsConsidered 1
        cacheWriteTokens :=
          saturatingAdd scan.cacheWriteTokens (row.cacheWriteTokens.toNat - growth)
        uncachedInputTokens :=
          saturatingAdd scan.uncachedInputTokens (row.inputTokens.toNat - growth) }
    else
      { scan with pairsSkipped := saturatingAdd scan.pairsSkipped 1, incomplete := true }

/-- An eligible request: it is paid for, and is the previous one from now on. -/
def admitRow (scan : RepeatedScan) (row : TurnRow) : RepeatedScan :=
  let scan := { scan with
    cacheWritePaidTokens := saturatingAdd scan.cacheWritePaidTokens row.cacheWriteTokens.toNat
    uncachedInputPaidTokens := saturatingAdd scan.uncachedInputPaidTokens row.inputTokens.toNat }
  { scan.pair row with previous := some (row.tsMs, row.depth, row.route) }

def request (agent : String) (scan : RepeatedScan) (row : TurnRow) : RepeatedScan :=
  let mode := requestAccounting agent row.provider row.api
  let scan := { scan with accounting := scan.accounting.or mode }
  if row.isEmptyCodex agent then scan
  else if mode.isNone || mode != scan.accounting || blankModel row.model || row.depth == 0 then
    { scan.skip with incomplete := true }
  else scan.admitRow row

/-- One round of the loop. -/
def step (agent : String) (scan : RepeatedScan) (row : TurnRow) : RepeatedScan :=
  let scan := scan.enter row
  let linked := row.isLinked agent scan.lastUuid scan.lastIndex
  let scan := { scan with
    lastUuid := row.uuid
    lastIndex := some row.turnIndex
    incomplete := scan.incomplete || (agent == "opencode" && row.isCompactionBoundary) }
  let scan := if row.isCompactionBoundary || !linked then scan.skip else scan
  if row.isCompactionBoundary || row.role != "assistant" then scan else scan.request agent row

def start (agent : String) : RepeatedScan := { accounting := requestAccounting agent none none }

end RepeatedScan

/-- `query_repeated_context` on the rows, in the order of the query. -/
def queryRepeatedContext (agent : String) (rows : List TurnRow) : RepeatedContextTotals :=
  (rows.foldl (RepeatedScan.step agent) (.start agent)).totals

/-! ### What it accounts for -/

/-- `ORDER BY source_key, thread_id, turn_index`. -/
def ScanOrder (a b : TurnRow) : Prop :=
  a.sourceKey < b.sourceKey ∨ a.sourceKey = b.sourceKey ∧
    (a.threadId < b.threadId ∨ a.threadId = b.threadId ∧ a.turnIndex ≤ b.turnIndex)

namespace RepeatedContextTotals

def tokens (totals : RepeatedContextTotals) : RepeatedContextAccounting → Nat
  | .cacheWrite => totals.cacheWriteTokens
  | .uncachedInput => totals.uncachedInputTokens

def paid (totals : RepeatedContextTotals) : RepeatedContextAccounting → Nat
  | .cacheWrite => totals.cacheWritePaidTokens
  | .uncachedInput => totals.uncachedInputPaidTokens

end RepeatedContextTotals

namespace TurnRow

def paid (row : TurnRow) : RepeatedContextAccounting → Nat
  | .cacheWrite => row.cacheWriteTokens.toNat
  | .uncachedInput => row.inputTokens.toNat

def mode (agent : String) (row : TurnRow) : Option RepeatedContextAccounting :=
  requestAccounting agent row.provider row.api

def isRequest (row : TurnRow) : Bool := !row.isCompactionBoundary && row.role == "assistant"

def isNonempty (agent : String) (row : TurnRow) : Bool := row.isRequest && !row.isEmptyCodex agent

/-- Whether a row counts towards the paid sums of a scan with this accounting. -/
def isEligible (agent : String) (accounting : Option RepeatedContextAccounting) (row : TurnRow) :
    Bool :=
  row.isNonempty agent && (row.mode agent).isSome && row.mode agent == accounting &&
    !blankModel row.model && row.depth != 0

/-- The paid tokens of a request beyond its growth over another one. -/
def repeated (mode : RepeatedContextAccounting) (previous row : TurnRow) : Nat :=
  row.paid mode - (row.depth - previous.depth)

end TurnRow

def scanAccounting (agent : String) (rows : List TurnRow) : Option RepeatedContextAccounting :=
  (requestAccounting agent none none).or
    ((rows.filter TurnRow.isRequest).findSome? (TurnRow.mode agent))

def withLinks (agent : String) : Option TurnRow → List TurnRow → List (TurnRow × Bool)
  | _, [] => []
  | last, row :: rest =>
    let last := last.filter (·.thread == row.thread)
    (row, row.isLinked agent (last.bind (·.uuid)) (last.map (·.turnIndex))) ::
      withLinks agent (some row) rest

/-- Whether a row, with its link, closes the request before it: a compaction, an unlinked row or
a nonempty row. -/
def closes (agent : String) (entry : TurnRow × Bool) : Bool :=
  entry.1.isCompactionBoundary || !entry.2 || entry.1.isNonempty agent

def isFollowed (agent : String) (row : TurnRow) (rest : List (TurnRow × Bool)) : Bool :=
  rest.any fun later => later.1.thread == row.thread && closes agent later

def followedCount (agent : String) (accounting : Option RepeatedContextAccounting) :
    List (TurnRow × Bool) → Nat
  | [] => 0
  | entry :: rest =>
    (if entry.1.isEligible agent accounting && isFollowed agent entry.1 rest then 1 else 0) +
      followedCount agent accounting rest

def adjacentSum (mode : RepeatedContextAccounting) : List TurnRow → Nat
  | previous :: row :: rest =>
    (if previous.thread = row.thread then TurnRow.repeated mode previous row else 0) +
      adjacentSum mode (row :: rest)
  | _ => 0

/-! ### One row -/

/-- What part of a scan does to the totals: the pairs it counts, the tokens it adds as paid and
as repeated, and what must hold for the totals to stay complete. -/
structure Effect (pairs : Nat) (paid repeated : RepeatedContextAccounting → Nat) (sound : Prop)
    (before after : RepeatedContextTotals) : Prop where
  paid_eq : ∀ mode, after.paid mode = before.paid mode + paid mode
  pairs_eq : after.pairsConsidered + after.pairsSkipped =
    before.pairsConsidered + before.pairsSkipped + pairs
  tokens_le : ∀ mode, after.tokens mode ≤ before.tokens mode + paid mode
  complete : after.incomplete = false → before.incomplete = false ∧ sound ∧
    after.pairsSkipped = before.pairsSkipped ∧
      ∀ mode, after.tokens mode = before.tokens mode + repeated mode

section

variable {pairs pairs' : Nat} {paid paid' repeated repeated' : _ → Nat} {sound sound' : Prop}

lemma Effect.trans {first second third : RepeatedContextTotals}
    (h : Effect pairs paid repeated sound first second)
    (h' : Effect pairs' paid' repeated' sound' second third) :
    Effect (pairs + pairs') (fun mode => paid mode + paid' mode)
      (fun mode => repeated mode + repeated' mode) (sound ∧ sound') first third where
  paid_eq mode := by rw [h'.paid_eq, h.paid_eq, Nat.add_assoc]
  pairs_eq := by rw [h'.pairs_eq, h.pairs_eq, Nat.add_assoc]
  tokens_le mode := by
    have := h.tokens_le mode
    have := h'.tokens_le mode
    omega
  complete hcomplete := by
    obtain ⟨hsecond, hsound', hskipped', htokens'⟩ := h'.complete hcomplete
    obtain ⟨hfirst, hsound, hskipped, htokens⟩ := h.complete hsecond
    refine ⟨hfirst, ⟨hsound, hsound'⟩, hskipped'.trans hskipped, fun mode => ?_⟩
    rw [htokens', htokens, Nat.add_assoc]

lemma Effect.of {before after : RepeatedContextTotals}
    (h : Effect pairs paid repeated sound before after) (hpairs : pairs = pairs')
    (hpaid : ∀ mode, paid mode = paid' mode)
    (hsound : sound → sound' ∧ ∀ mode, repeated mode = repeated' mode) :
    Effect pairs' paid' repeated' sound' before after where
  paid_eq mode := by rw [h.paid_eq, hpaid]
  pairs_eq := by rw [h.pairs_eq, hpairs]
  tokens_le mode := hpaid mode ▸ h.tokens_le mode
  complete hcomplete := by
    obtain ⟨hbefore, hold, hskipped, htokens⟩ := h.complete hcomplete
    obtain ⟨hnew, hrepeated⟩ := hsound hold
    exact ⟨hbefore, hnew, hskipped, fun mode => hrepeated mode ▸ htokens mode⟩

end

namespace RepeatedScan

structure At (last prev : Option TurnRow) (scan : RepeatedScan) : Prop where
  thread : scan.currentThread = last.map TurnRow.thread
  uuid : scan.lastUuid = last.bind (·.uuid)
  index : scan.lastIndex = last.map (·.turnIndex)
  previous : scan.previous = prev.map fun row => (row.tsMs, row.depth, row.route)
  same : ∀ row ∈ prev, last.map TurnRow.thread = some row.thread

variable {agent : String} {accounting : Option RepeatedContextAccounting}
  {last prev : Option TurnRow} {scan : RepeatedScan}

lemma skip_effect (h : At last prev scan)
    (hfits : scan.pairsConsidered + scan.pairsSkipped + prev.toList.length ≤ U64_MAX) :
    At last none scan.skip ∧ scan.skip.accounting = scan.accounting ∧
      Effect prev.toList.length (fun _ => 0) (fun _ => 0) (prev = none)
        scan.totals scan.skip.totals := by
  unfold skip
  rw [h.previous]
  cases prev with
  | none =>
    refine ⟨⟨h.thread, h.uuid, h.index, h.previous, by simp⟩, rfl,
      ⟨fun _ => rfl, rfl, fun _ => le_rfl, fun hcomplete => ?_⟩⟩
    exact ⟨hcomplete, rfl, rfl, fun _ => rfl⟩
  | some row =>
    have hadd := @saturatingAdd_of_le scan.pairsSkipped 1
      (by simp only [Option.toList_some, List.length_singleton] at hfits; omega)
    refine ⟨⟨h.thread, h.uuid, h.index, rfl, by simp⟩, rfl, ⟨fun mode => by cases mode <;> rfl, ?_,
      fun mode => by cases mode <;> exact le_rfl, fun hcomplete => by cases hcomplete⟩⟩
    exact (congrArg (scan.pairsConsidered + ·) hadd).trans (Nat.add_assoc _ _ _).symm

lemma admit_effect {row : TurnRow} (h : At (some row) prev scan)
    (hpairs : scan.pairsConsidered + scan.pairsSkipped + prev.toList.length ≤ U64_MAX)
    (hpaid : ∀ mode, scan.paid mode + row.paid mode ≤ U64_MAX)
    (htokens : ∀ mode, scan.tokens mode ≤ scan.paid mode) :
    At (some row) (some row) (scan.admitRow row) ∧ (scan.admitRow row).accounting = scan.accounting ∧
      Effect prev.toList.length row.paid (fun mode => prev.elim 0 (TurnRow.repeated mode · row))
        True scan.totals (scan.admitRow row).totals := by
  have hcache := hpaid .cacheWrite
  have hinput := hpaid .uncachedInput
  have hcache' := htokens .cacheWrite
  have hinput' := htokens .uncachedInput
  simp only [RepeatedContextTotals.paid, RepeatedContextTotals.tokens, TurnRow.paid]
    at hcache hinput hcache' hinput'
  unfold admitRow pair
  simp only [saturatingAdd_of_le hcache, saturatingAdd_of_le hinput]
  rw [h.previous]
  cases prev with
  | none =>
    exact ⟨⟨h.thread, h.uuid, h.index, rfl, by simp⟩, rfl, ⟨fun mode => by cases mode <;> rfl, rfl,
      fun mode => by cases mode <;> exact Nat.le_add_right _ _,
      fun hcomplete => ⟨hcomplete, trivial, rfl, fun mode => by cases mode <;> rfl⟩⟩⟩
  | some earlier =>
    dsimp only [Option.map_some]
    simp only [Option.toList_some, List.length_singleton] at hpairs
    split_ifs with hsame
    · have hle : ∀ paid, paid - (row.depth - earlier.depth) ≤ paid := fun _ => Nat.sub_le _ _
      have hcount := @saturatingAdd_of_le scan.pairsConsidered 1 (by omega)
      have haddCache := @saturatingAdd_of_le scan.cacheWriteTokens
        (row.cacheWriteTokens.toNat - (row.depth - earlier.depth))
        (by have := hle row.cacheWriteTokens.toNat; omega)
      have haddInput := @saturatingAdd_of_le scan.uncachedInputTokens
        (row.inputTokens.toNat - (row.depth - earlier.depth))
        (by have := hle row.inputTokens.toNat; omega)
      rw [hcount, haddCache, haddInput]
      refine ⟨⟨h.thread, h.uuid, h.index, rfl, by simp⟩, rfl, ⟨fun mode => by cases mode <;> rfl,
        Nat.add_right_comm _ _ _, fun mode => ?_,
        fun hcomplete => ⟨hcomplete, trivial, rfl, fun mode => by cases mode <;> rfl⟩⟩⟩
      cases mode <;> exact Nat.add_le_add_left (hle _) _
    · have hcount := @saturatingAdd_of_le scan.pairsSkipped 1 (by omega)
      rw [hcount]
      exact ⟨⟨h.thread, h.uuid, h.index, rfl, by simp⟩, rfl, ⟨fun mode => by cases mode <;> rfl,
        (Nat.add_assoc _ _ _).symm, fun mode => by cases mode <;> exact Nat.le_add_right _ _,
        fun hcomplete => by cases hcomplete⟩⟩

lemma request_effect {row : TurnRow} (h : At (some row) prev scan)
    (hreq : row.isRequest = true)
    (hmode : (row.mode agent).isSome = true → scan.accounting.or (row.mode agent) = accounting)
    (hpairs : scan.pairsConsidered + scan.pairsSkipped + prev.toList.length ≤ U64_MAX)
    (hpaid : row.isEligible agent accounting = true →
      ∀ mode, scan.paid mode + row.paid mode ≤ U64_MAX)
    (htokens : ∀ mode, scan.tokens mode ≤ scan.paid mode) :
    At (some row) (if row.isEligible agent accounting then some row
        else if row.isNonempty agent then none else prev) (scan.request agent row) ∧
      (scan.request agent row).accounting = scan.accounting.or (row.mode agent) ∧
      Effect (if row.isNonempty agent then prev.toList.length else 0)
        (fun mode => if row.isEligible agent accounting then row.paid mode else 0)
        (fun mode => if row.isEligible agent accounting then
          prev.elim 0 (TurnRow.repeated mode · row) else 0)
        (row.isNonempty agent = true → row.isEligible agent accounting = true)
        scan.totals (scan.request agent row).totals := by
  let next : RepeatedScan := { scan with accounting := scan.accounting.or (row.mode agent) }
  have hat : At (some row) prev next := ⟨h.thread, h.uuid, h.index, h.previous, h.same⟩
  let refused := (row.mode agent).isNone || row.mode agent != next.accounting ||
    blankModel row.model || row.depth == 0
  have hcases : scan.request agent row = if row.isEmptyCodex agent then next
      else if refused then { next.skip with incomplete := true } else next.admitRow row := rfl
  have hnonem : row.isNonempty agent = !row.isEmptyCodex agent := by
    rw [TurnRow.isNonempty, hreq, Bool.true_and]
  have helig : row.isEligible agent accounting = (row.isNonempty agent && !refused) := by
    cases hmode' : row.mode agent with
    | none => simp [TurnRow.isEligible, refused, hmode']
    | some mode =>
      have hacct : next.accounting = accounting := hmode (by rw [hmode']; rfl)
      simp only [TurnRow.isEligible, refused, hacct, hmode', Option.isSome_some,
        Option.isNone_some, bne, Bool.false_or, Bool.not_or, Bool.not_not, Bool.and_true,
        Bool.and_assoc]
  rw [hcases, helig, hnonem]
  rw [helig, hnonem] at hpaid
  cases hempty : row.isEmptyCodex agent with
  | true =>
    exact ⟨hat, rfl, fun _ => rfl, rfl, fun _ => le_rfl,
      fun hcomplete => ⟨hcomplete, fun h => absurd h (by decide), rfl, fun _ => rfl⟩⟩
  | false =>
    cases href : refused with
    | true =>
      obtain ⟨hat', hacct, heffect⟩ := skip_effect hat hpairs
      exact ⟨⟨hat'.thread, hat'.uuid, hat'.index, hat'.previous, by simp⟩, hacct,
        heffect.paid_eq, heffect.pairs_eq, heffect.tokens_le, fun hcomplete => by cases hcomplete⟩
    | false =>
      rw [hempty, href] at hpaid
      obtain ⟨hat', hacct, heffect⟩ := admit_effect hat hpairs (hpaid rfl) htokens
      refine ⟨hat', hacct, heffect.paid_eq, heffect.pairs_eq, heffect.tokens_le,
        fun hcomplete => ?_⟩
      obtain ⟨hbefore, -, hskipped, hrepeated⟩ := heffect.complete hcomplete
      exact ⟨hbefore, fun _ => rfl, hskipped, hrepeated⟩

/-- What one row does.  `opened` is the previous request of its thread. -/
lemma step_effect (row : TurnRow) (h : At last prev scan)
    (hmode : row.isRequest = true → (row.mode agent).isSome = true →
      scan.accounting.or (row.mode agent) = accounting)
    (hpairs : scan.pairsConsidered + scan.pairsSkipped + prev.toList.length ≤ U64_MAX)
    (hpaid : row.isEligible agent accounting = true →
      ∀ mode, scan.paid mode + row.paid mode ≤ U64_MAX)
    (htokens : ∀ mode, scan.tokens mode ≤ scan.paid mode) :
    let opened := prev.filter (·.thread == row.thread)
    let behind := last.filter (·.thread == row.thread)
    let linked := row.isLinked agent (behind.bind (·.uuid)) (behind.map (·.turnIndex))
    At (some row) (if row.isEligible agent accounting then some row
        else if closes agent (row, linked) then none else opened) (scan.step agent row) ∧
      (scan.step agent row).accounting =
        (if row.isRequest then scan.accounting.or (row.mode agent) else scan.accounting) ∧
      Effect (if closes agent (row, linked) then opened.toList.length else 0)
        (fun mode => if row.isEligible agent accounting then row.paid mode else 0)
        (fun mode => if row.isEligible agent accounting then
          opened.elim 0 (TurnRow.repeated mode · row) else 0)
        ((row.isNonempty agent = true → row.isEligible agent accounting = true) ∧
          (closes agent (row, linked) = true → opened.isSome = true →
            row.isEligible agent accounting = true))
        scan.totals (scan.step agent row).totals := by
  intro opened behind linked
  -- The thread is entered, and the row becomes the last one.
  let entered : RepeatedScan := { scan.enter row with
    lastUuid := row.uuid
    lastIndex := some row.turnIndex
    incomplete := (scan.enter row).incomplete || (agent == "opencode" && row.isCompactionBoundary) }
  have henter : (scan.enter row).currentThread = some row.thread ∧
      (scan.enter row).lastUuid = behind.bind (·.uuid) ∧
      (scan.enter row).lastIndex = behind.map (·.turnIndex) ∧
      (scan.enter row).previous = opened.map (fun row => (row.tsMs, row.depth, row.route)) ∧
      (scan.enter row).totals = scan.totals := by
    unfold enter
    rw [h.thread]
    split_ifs with hthread
    · have hbehind : behind = last := by
        cases last with
        | none => rfl
        | some earlier => exact if_pos (beq_iff_eq.mpr (Option.some.inj hthread))
      have hopened : opened = prev := by
        cases prev with
        | none => rfl
        | some earlier =>
          exact if_pos (beq_iff_eq.mpr (Option.some.inj ((h.same earlier rfl).symm.trans hthread)))
      rw [hbehind, hopened]
      exact ⟨h.thread.trans hthread, h.uuid, h.index, h.previous, rfl⟩
    · have hbehind : behind = none := by
        refine Option.filter_eq_none_iff.mpr fun earlier hearl hsame => hthread ?_
        rw [hearl, Option.map_some, beq_iff_eq.mp hsame]
      have hopened : opened = none := by
        refine Option.filter_eq_none_iff.mpr fun earlier hearl hsame => hthread ?_
        rw [h.same earlier hearl, beq_iff_eq.mp hsame]
      rw [hbehind, hopened]
      exact ⟨rfl, rfl, rfl, rfl, rfl⟩
  obtain ⟨hthread, huuid, hindex, hprevious, htotals⟩ := henter
  have hat : At (some row) opened entered :=
    ⟨hthread, rfl, rfl, hprevious, fun earlier hearl =>
      congrArg some (beq_iff_eq.mp (Option.filter_eq_some_iff.mp hearl).2).symm⟩
  have hent : Effect 0 (fun _ => 0) (fun _ => 0) True scan.totals
      entered.totals := by
    rw [← htotals]
    exact ⟨fun mode => by cases mode <;> rfl, rfl, fun mode => by cases mode <;> exact le_rfl,
      fun hcomplete => ⟨(Bool.or_eq_false_iff.mp hcomplete).1, trivial, rfl,
        fun mode => by cases mode <;> rfl⟩⟩
  have hfewer : opened.toList.length ≤ prev.toList.length := by
    cases hopened : opened with
    | none => exact Nat.zero_le _
    | some earlier =>
      rw [(Option.filter_eq_some_iff.mp hopened).1]
  have hacct : entered.accounting = scan.accounting :=
    (congrArg RepeatedContextTotals.accounting htotals :)
  -- A compaction or a broken link closes the previous request.
  let broken := row.isCompactionBoundary || !linked
  let linkedScan := if broken then entered.skip else entered
  have hlinked : At (some row) (if broken then none else opened) linkedScan ∧
      linkedScan.accounting = scan.accounting ∧
      Effect (if broken then opened.toList.length else 0) (fun _ => 0) (fun _ => 0)
        (broken = true → opened = none) scan.totals
        linkedScan.totals := by
    cases hbroken : broken with
    | false =>
      simp only [linkedScan, hbroken, Bool.false_eq_true, if_false]
      exact ⟨hat, hacct, hent.of rfl (fun _ => rfl) fun _ => ⟨by simp, fun _ => rfl⟩⟩
    | true =>
      simp only [linkedScan, hbroken, if_true]
      have hcount := hent.pairs_eq
      obtain ⟨hat', hacct', heffect⟩ := skip_effect hat (by omega)
      exact ⟨hat', hacct'.trans hacct, (hent.trans heffect).of (Nat.zero_add _)
        (fun _ => rfl) fun h => ⟨fun _ => h.2, fun _ => rfl⟩⟩
  obtain ⟨hat', hacct', heffect⟩ := hlinked
  have hstep : scan.step agent row = if row.isCompactionBoundary || row.role != "assistant" then
      linkedScan else linkedScan.request agent row := by
    have hlink : linked =
        row.isLinked agent (scan.enter row).lastUuid (scan.enter row).lastIndex := by
      rw [huuid, hindex]
    simp only [linkedScan, broken, hlink]
    rfl
  have hreq : row.isRequest = !(row.isCompactionBoundary || row.role != "assistant") := by
    simp [TurnRow.isRequest, bne]
  have hcloses : closes agent (row, linked) = (broken || row.isNonempty agent) := rfl
  rw [hcloses]
  cases hcase : row.isRequest with
  | false =>
    have hother : (row.isCompactionBoundary || row.role != "assistant") = true := by
      rw [← Bool.not_eq_false', ← hreq, hcase]
    have hempty : row.isNonempty agent = false := by simp [TurnRow.isNonempty, hcase]
    have hinel : row.isEligible agent accounting = false := by
      simp [TurnRow.isEligible, hempty]
    rw [hstep, if_pos hother, hempty, hinel, Bool.or_false]
    refine ⟨hat', hacct', heffect.of rfl (fun _ => rfl) fun h =>
      ⟨⟨by simp, ?_⟩, fun _ => rfl⟩⟩
    intro hbroken hopened
    rw [h hbroken] at hopened
    cases hopened
  | true =>
    have hother : (row.isCompactionBoundary || row.role != "assistant") = false := by
      rw [← Bool.not_eq_true', ← hreq, hcase]
    have hpairs' := heffect.pairs_eq
    have hpaid' := heffect.paid_eq
    have hleft : (if broken then opened.toList.length else 0) +
        (if broken then none else opened : Option TurnRow).toList.length =
          opened.toList.length := by
      cases broken <;> simp
    obtain ⟨hat'', hacct'', hrequested⟩ := @request_effect agent accounting _ _ row hat' hcase
      (by rw [hacct']; exact hmode hcase) (by omega)
      (fun helig mode => by rw [hpaid']; exact hpaid helig mode)
      (fun mode => by rw [hpaid']; exact (heffect.tokens_le mode).trans (htokens mode))
    rw [hstep, hother, if_neg Bool.false_ne_true]
    refine ⟨?_, by rw [hacct'', hacct', if_pos rfl], (heffect.trans hrequested).of ?_
      (fun _ => Nat.zero_add _) fun h => ⟨⟨h.2, ?_⟩, ?_⟩⟩
    · cases helig : row.isEligible agent accounting <;>
        cases hnonem : row.isNonempty agent <;>
        cases hbroken : broken <;>
        simpa [helig, hnonem, hbroken] using hat''
    · cases row.isNonempty agent <;> cases broken <;> simp
    · intro hclosed hopened
      cases hbroken : broken with
      | true => rw [h.1 hbroken] at hopened; cases hopened
      | false => rw [hbroken, Bool.false_or] at hclosed; exact h.2 hclosed
    · intro mode
      cases hbroken : broken with
      | true => rw [h.1 hbroken]; simp
      | false => simp

end RepeatedScan

/-! ### All rows -/

/-- A thread that was left is not entered again. -/
lemma ScanOrder.thread_ne {first second third : TurnRow} (h : ScanOrder first second)
    (h' : ScanOrder second third) (hne : first.thread ≠ second.thread) :
    third.thread ≠ first.thread := by
  intro hsame
  obtain ⟨hsource, hid⟩ := Prod.mk.inj hsame
  unfold ScanOrder at h h'
  rw [hsource, hid] at h'
  refine hne (Prod.ext_iff.mpr ?_)
  rcases h with hlt | ⟨heq, hlt | ⟨heq', -⟩⟩
  · rcases h' with hgt | ⟨heq, -⟩
    · exact absurd hlt hgt.asymm
    · exact absurd heq hlt.ne'
  · rcases h' with hgt | ⟨-, hgt | ⟨heq', -⟩⟩
    · exact absurd heq hgt.ne'
    · exact absurd hlt hgt.asymm
    · exact absurd heq' hlt.ne'
  · exact ⟨heq, heq'⟩

lemma withLinks_fst (agent : String) (last : Option TurnRow) (rows : List TurnRow) :
    (withLinks agent last rows).map Prod.fst = rows := by
  induction rows generalizing last with
  | nil => rfl
  | cons row rest ih => rw [withLinks, List.map_cons, ih]

lemma isFollowed_cons (agent : String) (earlier : TurnRow) (entry : TurnRow × Bool)
    (rest : List (TurnRow × Bool)) :
    isFollowed agent earlier (entry :: rest) =
      (entry.1.thread == earlier.thread && closes agent entry || isFollowed agent earlier rest) :=
  List.any_cons

lemma isFollowed_of_ne {agent : String} {last : Option TurnRow} {rows : List TurnRow}
    {row : TurnRow} (h : ∀ later ∈ rows, later.thread ≠ row.thread) :
    isFollowed agent row (withLinks agent last rows) = false := by
  refine List.any_eq_false.mpr fun later hlater hcloses => ?_
  have hmem := List.mem_map_of_mem (f := Prod.fst) hlater
  rw [withLinks_fst] at hmem
  exact h later.1 hmem (beq_iff_eq.mp (Bool.and_eq_true_iff.mp hcloses).1)

lemma adjacentSum_cons_of_ne {mode : RepeatedContextAccounting} {row : TurnRow}
    {rows : List TurnRow} (h : ∀ later ∈ rows, later.thread ≠ row.thread) :
    adjacentSum mode (row :: rows) = adjacentSum mode rows := by
  cases rows with
  | nil => rfl
  | cons later rest =>
    rw [adjacentSum, if_neg (h later (List.mem_cons_self ..)).symm, Nat.zero_add]

namespace RepeatedScan

variable {agent : String} {accounting : Option RepeatedContextAccounting}

lemma foldl_effect (rows : List TurnRow) {last prev : Option TurnRow} {scan : RepeatedScan}
    (h : At last prev scan)
    (hordered : (last.toList ++ rows).Pairwise ScanOrder)
    (hmode : scan.accounting.or
      ((rows.filter TurnRow.isRequest).findSome? (TurnRow.mode agent)) = accounting)
    (hpairs : scan.pairsConsidered + scan.pairsSkipped + prev.toList.length + rows.length ≤
      U64_MAX)
    (hpaid : ∀ mode, scan.paid mode +
      ((rows.filter (TurnRow.isEligible agent accounting)).map (TurnRow.paid · mode)).sum ≤ U64_MAX)
    (htokens : ∀ mode, scan.tokens mode ≤ scan.paid mode) :
    Effect ((if prev.any (isFollowed agent · (withLinks agent last rows)) then 1 else 0) +
        followedCount agent accounting (withLinks agent last rows))
      (fun mode =>
        ((rows.filter (TurnRow.isEligible agent accounting)).map (TurnRow.paid · mode)).sum)
      (fun mode => adjacentSum mode (prev.toList ++ rows.filter (TurnRow.isNonempty agent)))
      (∀ row ∈ rows, row.isNonempty agent = true → row.isEligible agent accounting = true)
      scan.totals (rows.foldl (step agent) scan).totals := by
  induction rows generalizing last prev scan with
  | nil =>
    refine ⟨fun _ => rfl, ?_, fun _ => le_rfl, fun hcomplete => ⟨hcomplete, by simp, rfl, ?_⟩⟩
    · cases prev <;> rfl
    · intro mode
      cases prev <;> rfl
  | cons row rest ih =>
    -- The previous request is of the thread of the row, or of a thread that is over.
    have hopened : prev.filter (·.thread == row.thread) = prev ∧
          (∀ earlier ∈ prev, row.thread = earlier.thread) ∨
        prev.filter (·.thread == row.thread) = none ∧
          ∀ earlier ∈ prev, ∀ later ∈ row :: rest, later.thread ≠ earlier.thread := by
      cases prev with
      | none => exact .inl ⟨rfl, by simp⟩
      | some earlier =>
        by_cases hsame : earlier.thread = row.thread
        · exact .inl ⟨if_pos (beq_iff_eq.mpr hsame), by rintro _ ⟨⟩; exact hsame.symm⟩
        · refine .inr ⟨if_neg (fun heq => hsame (beq_iff_eq.mp heq)), ?_⟩
          rintro _ ⟨⟩ later hlater
          have hthread := h.same earlier rfl
          obtain ⟨behind, rfl, hbehind⟩ := Option.map_eq_some_iff.mp hthread
          rw [← hbehind] at hsame ⊢
          obtain ⟨hfirst, hrest⟩ := List.pairwise_cons.mp hordered
          rcases List.mem_cons.mp hlater with rfl | hlater
          · exact Ne.symm hsame
          · exact (hfirst row (List.mem_cons_self ..)).thread_ne
              ((List.pairwise_cons.mp hrest).1 later hlater) hsame
    have hnonem : row.isEligible agent accounting = true → row.isNonempty agent = true := by
      intro helig
      simp only [TurnRow.isEligible, Bool.and_eq_true] at helig
      exact helig.1.1.1.1
    have hsum : ∀ mode, (((row :: rest).filter (TurnRow.isEligible agent accounting)).map
        (TurnRow.paid · mode)).sum =
          (if row.isEligible agent accounting then row.paid mode else 0) +
          ((rest.filter (TurnRow.isEligible agent accounting)).map (TurnRow.paid · mode)).sum := by
      intro mode
      cases helig : row.isEligible agent accounting <;> simp [helig]
    rw [List.length_cons] at hpairs
    obtain ⟨hat, hacct, heffect⟩ := @step_effect agent accounting _ _ _ row h
      (fun hreq hsome => by
        obtain ⟨mode, hmode'⟩ := Option.isSome_iff_exists.mp hsome
        rw [List.filter_cons_of_pos hreq, List.findSome?_cons, hmode'] at hmode
        rw [hmode', hmode])
      (by omega)
      (fun helig mode => by
        have := hpaid mode
        rw [hsum, if_pos helig] at this
        omega)
      htokens
    generalize prev.filter (·.thread == row.thread) = opened at hopened hat heffect
    rw [withLinks]
    generalize row.isLinked agent ((last.filter (·.thread == row.thread)).bind (·.uuid))
      ((last.filter (·.thread == row.thread)).map (·.turnIndex)) = linked at hat heffect ⊢
    have hcloses : row.isEligible agent accounting = true → closes agent (row, linked) = true := by
      intro helig
      rw [closes, hnonem helig, Bool.or_true]
    have hfewer : opened.toList.length ≤ prev.toList.length := by
      rcases hopened with ⟨rfl, -⟩ | ⟨rfl, -⟩
      · exact le_rfl
      · exact Nat.zero_le _
    have hone : opened.toList.length ≤ 1 := by cases opened <;> simp
    have hcount := heffect.pairs_eq
    have hpaid' := heffect.paid_eq
    have hrun := ih hat (List.pairwise_append.mp hordered).2.1
      (by
        rw [hacct, ← hmode, List.filter_cons]
        cases row.isRequest with
        | false => rfl
        | true =>
          simp only [if_true, List.findSome?_cons]
          cases hmode' : row.mode agent <;> cases scan.accounting <;> simp)
      (by
        cases helig : row.isEligible agent accounting with
        | true =>
          rw [hcloses helig] at hcount
          simp only [if_true, Option.toList_some, List.length_singleton] at hcount ⊢
          omega
        | false =>
          cases hclosed : closes agent (row, linked) <;>
            simp only [hclosed, if_true, Bool.false_eq_true, if_false, Option.toList_none,
              List.length_nil] at hcount ⊢ <;> omega)
      (fun mode => by
        have := hpaid mode
        rw [hsum] at this
        rw [hpaid']
        omega)
      (fun mode => by
        have := heffect.tokens_le mode
        have := htokens mode
        rw [hpaid']
        omega)
    refine (heffect.trans hrun).of ?_ (fun mode => (hsum mode).symm) ?_
    · have hrow : (if (if row.isEligible agent accounting then some row else none).any
          (isFollowed agent · (withLinks agent (some row) rest)) then 1 else 0) =
            if row.isEligible agent accounting &&
              isFollowed agent row (withLinks agent (some row) rest) then 1 else 0 := by
        cases row.isEligible agent accounting <;> simp
      rw [followedCount, ← Nat.add_assoc, ← Nat.add_assoc]
      congr 1
      rcases hopened with ⟨rfl, hsame⟩ | ⟨rfl, hother⟩
      · cases opened with
        | none => simpa using hrow
        | some earlier =>
          rw [Option.any_some, isFollowed_cons, beq_iff_eq.mpr (hsame earlier rfl), Bool.true_and]
          cases hclosed : closes agent (row, linked) with
          | true =>
            rw [Bool.true_or, if_pos rfl, if_pos rfl, if_pos rfl, hrow]
            rfl
          | false =>
            have hinel : row.isEligible agent accounting = false :=
              Bool.eq_false_iff.mpr fun helig =>
                Bool.false_ne_true (hclosed.symm.trans (hcloses helig))
            simp [hinel]
      · rw [Option.toList_none, List.length_nil, ite_self, ite_self, Nat.zero_add, hrow]
        cases prev with
        | none => simp
        | some earlier =>
          have hfirst : (row.thread == earlier.thread) = false :=
            beq_false_of_ne (hother earlier rfl row (List.mem_cons_self ..))
          have hlater : isFollowed agent earlier (withLinks agent (some row) rest) = false :=
            isFollowed_of_ne fun later hlater =>
              hother earlier rfl later (List.mem_cons_of_mem row hlater)
          rw [Option.any_some, isFollowed_cons, hfirst, hlater]
          simp
    · rintro ⟨⟨hsound, hclosed⟩, hrest⟩
      refine ⟨List.forall_mem_cons.mpr ⟨hsound, hrest⟩, fun mode => ?_⟩
      have hadjacent : adjacentSum mode
          (prev.toList ++ (row :: rest).filter (TurnRow.isNonempty agent)) =
            (if row.isNonempty agent then opened.elim 0 (TurnRow.repeated mode · row) else 0) +
              adjacentSum mode ((if row.isNonempty agent then some row else opened).toList ++
                rest.filter (TurnRow.isNonempty agent)) := by
        rcases hopened with ⟨rfl, hsame⟩ | ⟨rfl, hother⟩
        · cases opened with
          | none => cases hnon : row.isNonempty agent <;> simp [hnon]
          | some earlier =>
            have hthread := (hsame earlier rfl).symm
            cases hnon : row.isNonempty agent <;> simp [hnon, adjacentSum, hthread]
        · cases prev with
          | none => cases hnon : row.isNonempty agent <;> simp [hnon]
          | some earlier =>
            rw [Option.toList_some, List.singleton_append,
              adjacentSum_cons_of_ne fun later hlater =>
              hother earlier rfl later (List.mem_of_mem_filter hlater)]
            cases hnon : row.isNonempty agent <;> simp [hnon]
      rw [hadjacent]
      cases hnon : row.isNonempty agent with
      | true => rw [hsound hnon]; rfl
      | false =>
        have hinel : row.isEligible agent accounting = false :=
          Bool.eq_false_iff.mpr fun helig =>
            Bool.false_ne_true (hnon.symm.trans (hnonem helig))
        rw [hinel] at hclosed ⊢
        cases hclosed' : closes agent (row, linked) with
        | false => rfl
        | true =>
          cases opened with
          | none => rfl
          | some earlier => cases hclosed hclosed' rfl

end RepeatedScan

/-- The paid totals are the sums over the eligible rows, and bound the repeated ones.  Every
eligible row that a later row of its thread closes makes one pair.  A complete scan has no
nonempty row that is not eligible, skips nothing, and repeats what adjacent nonempty rows do. -/
theorem repeated_context_balances (agent : String) (rows : List TurnRow)
    (hordered : rows.Pairwise ScanOrder) (hlength : rows.length ≤ U64_MAX)
    (hpaid : ∀ mode, ((rows.filter (TurnRow.isEligible agent (scanAccounting agent rows))).map
      (TurnRow.paid · mode)).sum ≤ U64_MAX) :
    let totals := queryRepeatedContext agent rows
    let eligible := TurnRow.isEligible agent (scanAccounting agent rows)
    (∀ mode, totals.paid mode = ((rows.filter eligible).map (TurnRow.paid · mode)).sum) ∧
      (∀ mode, totals.tokens mode ≤ totals.paid mode) ∧
      totals.pairsConsidered + totals.pairsSkipped =
        followedCount agent (scanAccounting agent rows) (withLinks agent none rows) ∧
      (totals.incomplete = false →
        (∀ row ∈ rows, row.isNonempty agent = true → eligible row = true) ∧
          totals.pairsSkipped = 0 ∧
          ∀ mode,
            totals.tokens mode = adjacentSum mode (rows.filter (TurnRow.isNonempty agent))) := by
  intro totals eligible
  have hzero : ∀ mode, (RepeatedScan.start agent).paid mode = 0 ∧
      (RepeatedScan.start agent).tokens mode = 0 := by
    intro mode
    cases mode <;> exact ⟨rfl, rfl⟩
  have heffect := @RepeatedScan.foldl_effect agent _ rows none none (.start agent)
    ⟨rfl, rfl, rfl, rfl, by simp⟩ hordered rfl (by simpa [RepeatedScan.start] using hlength)
    (fun mode => by rw [(hzero mode).1, Nat.zero_add]; exact hpaid mode)
    (fun mode => by rw [(hzero mode).1, (hzero mode).2])
  have hpaid_eq : ∀ mode,
      totals.paid mode = ((rows.filter eligible).map (TurnRow.paid · mode)).sum := fun mode =>
    (heffect.paid_eq mode).trans (by rw [(hzero mode).1, Nat.zero_add]; rfl)
  refine ⟨hpaid_eq, fun mode => ?_, heffect.pairs_eq.trans ?_, fun hcomplete => ?_⟩
  · rw [hpaid_eq]
    exact (heffect.tokens_le mode).trans (by rw [(hzero mode).2, Nat.zero_add]; rfl)
  · exact (Nat.zero_add _).trans (Nat.zero_add _)
  · obtain ⟨-, hsound, hskipped, htokens⟩ := heffect.complete hcomplete
    refine ⟨hsound, hskipped, fun mode => (htokens mode).trans ?_⟩
    rw [(hzero mode).2, Nat.zero_add]
    rfl

/-- Two Codex requests in a row make one pair. -/
theorem repeated_context_balances_codex :
    let first : TurnRow :=
      { threadId := "t", tsMs := some 1, inputTokens := 7, cacheReadTokens := 0
        cacheWriteTokens := 0, isCompactionBoundary := false, sourceKey := "s"
        role := "assistant", model := some "m", provider := none, api := none
        uuid := none, parentUuid := none, turnIndex := 0, outputTokens := 1 }
    let second : TurnRow := { first with inputTokens := 9, turnIndex := 1 }
    (queryRepeatedContext "codex" [first, second]).pairsConsidered +
      (queryRepeatedContext "codex" [first, second]).pairsSkipped = 1 := by
  intro first second
  refine (repeated_context_balances "codex" [first, second] ?_ (by decide) ?_).2.2.1.trans
    (by decide)
  · exact List.pairwise_pair.mpr (.inr ⟨rfl, .inr ⟨rfl, by decide⟩⟩)
  · intro mode
    cases mode <;> decide

/-- An assistant row that is a compaction is no request, and leaves the scan complete. -/
theorem compaction_is_not_eligible :
    let row : TurnRow :=
      { threadId := "t", tsMs := some 1, inputTokens := 7, cacheReadTokens := 0
        cacheWriteTokens := 5, isCompactionBoundary := true, sourceKey := "s"
        role := "assistant", model := some "m", provider := none, api := none
        uuid := some "u", parentUuid := none, turnIndex := 0, outputTokens := 1 }
    row.role = "assistant" ∧ row.isEmptyCodex "claude" = false ∧
      (queryRepeatedContext "claude" [row]).incomplete = false ∧
      (queryRepeatedContext "claude" [row]).cacheWritePaidTokens = 0 ∧
      row.isEligible "claude" (scanAccounting "claude" [row]) = false := by
  decide

end Antiburn
