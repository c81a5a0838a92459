/-
The token-burn figures of a report.

`TokenBurnAccumulator.finish` estimates how many of the tokens of all sessions
the detectors' findings burn.  A session counts once: with the largest share of
any detector that looks at turns, or with the sum of the shares of unused sources
where that is more.  `estimatedTokenBurnForActiveDetectors` computes the figure
again from a finished report, for the detectors that a user left on.
-/
import Antiburn.OverthinkingSweep
import Mathlib

namespace Antiburn

/-! ### Detectors -/

inductive DetectorId where
  | sessionsOverDepth
  | modelOverthinking
  | overpoweredSubagents
  | unusedMcpServers
  | unusedBuiltInTools
  | unusedSkills
  | oldModelUsage
  | overuseOfFastMode
  | cacheChurn
  deriving DecidableEq

namespace DetectorId

def ALL : List DetectorId :=
  [sessionsOverDepth, modelOverthinking, overpoweredSubagents, unusedMcpServers,
    unusedBuiltInTools, unusedSkills, oldModelUsage, overuseOfFastMode, cacheChurn]

def index : DetectorId → Nat
  | sessionsOverDepth => 0
  | modelOverthinking => 1
  | overpoweredSubagents => 2
  | unusedMcpServers => 3
  | unusedBuiltInTools => 4
  | unusedSkills => 5
  | oldModelUsage => 6
  | overuseOfFastMode => 7
  | cacheChurn => 8

end DetectorId

/-- Findings of at least one session: `status` builds no others. -/
structure DetectorFindings where
  findingSessions : Nat
  positive : 0 < findingSessions

inductive DetectorStatus where
  | findings (findings : DetectorFindings)
  | clean
  | notAssessed

inductive SourceGroup where
  | mcp
  | builtInTools
  | skills
  deriving DecidableEq

def SourceGroup.detector : SourceGroup → DetectorId
  | mcp => .unusedMcpServers
  | builtInTools => .unusedBuiltInTools
  | skills => .unusedSkills

/-! ### What a session brings -/

structure TokenBurnSourceEvidence where
  scope : String
  name : String
  replicatedTokens : Nat
  invoked : Bool

structure SessionTokenBurnEvidence where
  totalTokens : Option Nat
  overdepthAvoidableTokens : Option Nat
  repeatedContextAvoidableTokens : Option Nat
  modelOverthinking : Option Nat
  overpoweredSubagents : Option Nat
  oldModel : Option Nat
  fastMode : Option Nat
  mcpSources : Option (List TokenBurnSourceEvidence)
  builtInToolSources : Option (List TokenBurnSourceEvidence)
  skillSources : Option (List TokenBurnSourceEvidence)

def SessionTokenBurnEvidence.sources (evidence : SessionTokenBurnEvidence) :
    SourceGroup → Option (List TokenBurnSourceEvidence)
  | .mcp => evidence.mcpSources
  | .builtInTools => evidence.builtInToolSources
  | .skills => evidence.skillSources

/-- One call of `observe`. -/
structure TokenBurnObservation where
  tokenEvidence : SessionTokenBurnEvidence
  findings : DetectorId → Bool
  sourceEligible : SourceGroup → Bool
  cacheAssessed : Bool

structure SessionTokenContribution where
  overdepth : Option Nat
  repeatedContext : Option Nat
  modelOverthinking : Option Nat
  overpoweredSubagents : Option Nat
  oldModel : Option Nat
  fastMode : Option Nat

/-- `value_for` of the detectors that look at turns. -/
def SessionTokenContribution.valueFor (session : SessionTokenContribution) :
    DetectorId → Option Nat
  | .sessionsOverDepth => session.overdepth
  | .cacheChurn => session.repeatedContext
  | .modelOverthinking => session.modelOverthinking
  | .overpoweredSubagents => session.overpoweredSubagents
  | .oldModelUsage => session.oldModel
  | .overuseOfFastMode => session.fastMode
  | _ => none

structure SourceAggregate where
  invoked : Bool := false
  bySession : List (Nat × Nat) := []

/-! ### The accumulator -/

structure TokenBurnAccumulator where
  totalComplete : Bool := true
  totalTokens : Nat := 0
  sessions : List SessionTokenContribution := []
  sources : SourceGroup → List ((String × String) × SourceAggregate) := fun _ => []
  sourceComplete : SourceGroup → Bool := fun _ => true

namespace TokenBurnAccumulator

/-- `by_session.entry(session).or_default()` with tokens added, if they fit. -/
def addTokens (session tokens : Nat) : List (Nat × Nat) → List (Nat × Nat) × Bool
  | [] =>
    match Checked.cap FitsU128 (0 + tokens) with
    | some total => ([(session, total)], true)
    | none => ([(session, 0)], false)
  | entry :: rest =>
    if entry.1 = session then
      match Checked.cap FitsU128 (entry.2 + tokens) with
      | some total => ((session, total) :: rest, true)
      | none => (entry :: rest, false)
    else
      let added := addTokens session tokens rest
      (entry :: added.1, added.2)

def addSource (session : Nat) (counts : Bool) (source : TokenBurnSourceEvidence) :
    List ((String × String) × SourceAggregate) →
      List ((String × String) × SourceAggregate) × Bool
  | [] =>
    let added := if counts then addTokens session source.replicatedTokens [] else ([], true)
    ([((source.scope, source.name), ⟨source.invoked, added.1⟩)], added.2)
  | (key, aggregate) :: rest =>
    if key = (source.scope, source.name) then
      let added :=
        if counts then addTokens session source.replicatedTokens aggregate.bySession
        else (aggregate.bySession, true)
      ((key, ⟨aggregate.invoked || source.invoked, added.1⟩) :: rest, added.2)
    else
      let added := addSource session counts source rest
      ((key, aggregate) :: added.1, added.2)

def addSources (session : Nat) (counts : Bool) (sources : List TokenBurnSourceEvidence)
    (group : List ((String × String) × SourceAggregate) × Bool) :
    List ((String × String) × SourceAggregate) × Bool :=
  sources.foldl (fun group source =>
    let added := addSource session counts source group.1
    (added.1, group.2 && added.2)) group

def observe (accumulator : TokenBurnAccumulator) (observation : TokenBurnObservation) :
    TokenBurnAccumulator :=
  let evidence := observation.tokenEvidence
  let total :=
    match evidence.totalTokens with
    | none => (accumulator.totalTokens, accumulator.totalComplete)
    | some tokens =>
      match Checked.cap FitsU128 (accumulator.totalTokens + tokens) with
      | some total => (total, accumulator.totalComplete)
      | none => (accumulator.totalTokens, false)
  let found := fun detector value => if observation.findings detector then value else some 0
  let group := fun group : SourceGroup =>
    match evidence.sources group with
    | none => (accumulator.sources group, accumulator.sourceComplete group)
    | some sources =>
      addSources accumulator.sessions.length
        (observation.sourceEligible group && observation.findings group.detector) sources
        (accumulator.sources group, accumulator.sourceComplete group)
  { totalComplete := total.2
    totalTokens := total.1
    sessions := accumulator.sessions ++ [{
      overdepth := found .sessionsOverDepth evidence.overdepthAvoidableTokens
      repeatedContext :=
        if observation.findings .cacheChurn then evidence.repeatedContextAvoidableTokens
        else if observation.cacheAssessed then some 0
        else none
      modelOverthinking := found .modelOverthinking evidence.modelOverthinking
      overpoweredSubagents := found .overpoweredSubagents evidence.overpoweredSubagents
      oldModel := found .oldModelUsage evidence.oldModel
      fastMode := found .overuseOfFastMode evidence.fastMode }]
    sources := fun source => (group source).1
    sourceComplete := fun source => (group source).2 }

def denominator (accumulator : TokenBurnAccumulator) : Option Nat :=
  if accumulator.totalComplete && decide (accumulator.totalTokens > 0) then
    some accumulator.totalTokens
  else none

end TokenBurnAccumulator

/-! ### Figures -/

def MAX_ESTIMATED_TOKEN_BURN_BASIS_POINTS : Nat := 10000

def BASIS_POINTS_SCALE : Nat := 10000

def tokenBurnBasisPoints (numerator denominator : Nat) : Option Nat := do
  let scaled ← Checked.cap FitsU128 (numerator * BASIS_POINTS_SCALE)
  let rounded ← Checked.cap FitsU128 (scaled + denominator / 2)
  return min (rounded / denominator) MAX_ESTIMATED_TOKEN_BURN_BASIS_POINTS

/-- A conservative proxy when a finding has no attributable token or pricing evidence. -/
def fallbackTokenBurnBasisPoints (detector : DetectorId) (findingSessions assessedSessions : Nat) :
    Option Nat := do
  if findingSessions = 0 || assessedSessions = 0 then none
  else
    let detectorShare :=
      match detector with
      | .sessionsOverDepth => 1000
      | .modelOverthinking => 2000
      | .overpoweredSubagents => 2500
      | .unusedMcpServers | .unusedBuiltInTools | .unusedSkills => 500
      | .oldModelUsage => 1500
      | .overuseOfFastMode => 1000
      | .cacheChurn => 1000
    let product ← Checked.cap FitsU128 (detectorShare * findingSessions)
    let scaled ← Checked.cap FitsU128 (product + assessedSessions / 2)
    return min (max (scaled / assessedSessions) 1) MAX_ESTIMATED_TOKEN_BURN_BASIS_POINTS

structure TokenBurnResult where
  combined : Option Nat
  estimates : DetectorId → Option Nat
  contributions : DetectorId → Option (List Nat)

def emptyTokenBurnResult : TokenBurnResult := ⟨none, fun _ => none, fun _ => none⟩

def checkedSum (values : List Nat) : Option Nat :=
  values.foldlM (fun total value => Checked.cap FitsU128 (total + value)) 0

def zipInto (f : Nat → Nat → Nat) : List Nat → List Nat → List Nat
  | total :: totals, value :: values => f total value :: zipInto f totals values
  | totals, _ => totals

def checkedZipAdd : List Nat → List Nat → Option (List Nat)
  | total :: totals, value :: values => do
    let sum ← Checked.cap FitsU128 (total + value)
    return sum :: (← checkedZipAdd totals values)
  | totals, _ => some totals

def checkedAddAt : Nat → Nat → List Nat → Option (List Nat)
  | _, _, [] => some []
  | 0, tokens, value :: rest => do
    let total ← Checked.cap FitsU128 (value + tokens)
    return total :: rest
  | session + 1, tokens, value :: rest => do
    return value :: (← checkedAddAt session tokens rest)

/-- What `finish` has summed up. -/
structure Measuring where
  numerators : DetectorId → Option Nat := fun _ => none
  contributions : DetectorId → Option (List Nat) := fun _ => none
  combinedBySession : List Nat
  sourceCombinedBySession : List Nat

namespace TokenBurnAccumulator

/-- One round of the first loop of `finish`; `none` is the empty result. -/
def measureDetector (accumulator : TokenBurnAccumulator) (statuses : DetectorId → DetectorStatus)
    (measuring : Measuring) (detector : DetectorId) : Option Measuring :=
  match statuses detector with
  | .clean =>
    some { measuring with numerators := Function.update measuring.numerators detector (some 0) }
  | .notAssessed => some measuring
  | .findings _ =>
    if accumulator.denominator.isNone then some measuring
    else if accumulator.sessions.any fun session => (session.valueFor detector).isNone then
      some measuring
    else do
      let values := accumulator.sessions.map fun session => (session.valueFor detector).getD 0
      let total ← checkedSum values
      return { measuring with
        numerators := Function.update measuring.numerators detector (some total)
        contributions := Function.update measuring.contributions detector (some values)
        combinedBySession := zipInto max measuring.combinedBySession values }

def unusedSources (accumulator : TokenBurnAccumulator) (group : SourceGroup) :
    List ((String × String) × SourceAggregate) :=
  (accumulator.sources group).filter fun source => !source.2.invoked

/-- One round of the second loop. -/
def measureSources (accumulator : TokenBurnAccumulator) (statuses : DetectorId → DetectorStatus)
    (measuring : Measuring) (group : SourceGroup) : Option Measuring :=
  match statuses group.detector with
  | .clean =>
    some { measuring with
      numerators := Function.update measuring.numerators group.detector (some 0) }
  | .notAssessed => some measuring
  | .findings _ =>
    if accumulator.denominator.isNone || !accumulator.sourceComplete group then some measuring
    else do
      let unused := accumulator.unusedSources group
      let bySession ← unused.foldlM (fun shares source =>
        source.2.bySession.foldlM (fun shares entry => checkedAddAt entry.1 entry.2 shares) shares)
        (List.replicate accumulator.sessions.length 0)
      if unused.isEmpty then some measuring
      else
        let total ← checkedSum bySession
        let sourceCombined ← checkedZipAdd measuring.sourceCombinedBySession bySession
        return { measuring with
          numerators := Function.update measuring.numerators group.detector (some total)
          contributions := Function.update measuring.contributions group.detector (some bySession)
          sourceCombinedBySession := sourceCombined }

def TURN_DETECTORS : List DetectorId :=
  [.sessionsOverDepth, .cacheChurn, .modelOverthinking, .overpoweredSubagents, .oldModelUsage,
    .overuseOfFastMode]

def SOURCE_GROUPS : List SourceGroup := [.mcp, .builtInTools, .skills]

/-- Both loops of `finish`. -/
def measure (accumulator : TokenBurnAccumulator) (statuses : DetectorId → DetectorStatus) :
    Option Measuring := do
  let zeros := List.replicate accumulator.sessions.length 0
  let measuring ← TURN_DETECTORS.foldlM (accumulator.measureDetector statuses)
    { combinedBySession := zeros, sourceCombinedBySession := zeros }
  SOURCE_GROUPS.foldlM (accumulator.measureSources statuses) measuring

/-- `Option::max` of figures: a missing one is the least. -/
def greater (a b : Option Nat) : Option Nat :=
  match a, b with
  | some a, some b => some (max a b)
  | some a, none => some a
  | none, b => b

/-- `percentage` of `finish`. -/
def percentage (accumulator : TokenBurnAccumulator) (numerator : Nat) : Option Nat := do
  tokenBurnBasisPoints numerator (← accumulator.denominator)

def estimate (accumulator : TokenBurnAccumulator) (statuses : DetectorId → DetectorStatus)
    (measuring : Measuring) (detector : DetectorId) : Option Nat :=
  match statuses detector with
  | .findings findings =>
    ((measuring.numerators detector).bind accumulator.percentage).or
      (fallbackTokenBurnBasisPoints detector findings.findingSessions accumulator.sessions.length)
  | .clean => some 0
  | .notAssessed => none

def measuredFinding (statuses : DetectorId → DetectorStatus) (measuring : Measuring)
    (detector : DetectorId) : Bool :=
  match statuses detector with
  | .findings _ => (measuring.numerators detector).isSome
  | _ => false

def finish (accumulator : TokenBurnAccumulator) (statuses : DetectorId → DetectorStatus) :
    TokenBurnResult :=
  match accumulator.measure statuses with
  | none => emptyTokenBurnResult
  | some measuring =>
    let combinedBySession :=
      zipInto max measuring.combinedBySession measuring.sourceCombinedBySession
    let estimates := accumulator.estimate statuses measuring
    let hasMeasuredFinding := DetectorId.ALL.any (measuredFinding statuses measuring)
    let combined :=
      if hasMeasuredFinding then (checkedSum combinedBySession).bind accumulator.percentage
      else (DetectorId.ALL.map estimates).foldl greater none
    ⟨combined, estimates, measuring.contributions⟩

end TokenBurnAccumulator

/-! ### The figure of a report -/

structure EfficiencyReport where
  assessedSessions : Nat
  detectorStatuses : DetectorId → DetectorStatus
  estimatedTokenBurnBasisPoints : Option Nat
  detectorEstimatedTokenBurnBasisPoints : DetectorId → Option Nat
  tokenBurnDenominator : Option Nat
  tokenBurnByDetectorBySession : DetectorId → Option (List Nat)

def TokenBurnAccumulator.report (accumulator : TokenBurnAccumulator)
    (statuses : DetectorId → DetectorStatus) : EfficiencyReport :=
  let result := accumulator.finish statuses
  { assessedSessions := accumulator.sessions.length
    detectorStatuses := statuses
    estimatedTokenBurnBasisPoints := result.combined
    detectorEstimatedTokenBurnBasisPoints := result.estimates
    tokenBurnDenominator := accumulator.denominator
    tokenBurnByDetectorBySession := result.contributions }

structure ResourceTokenBurnAssessment where
  detector : DetectorId
  findingCount : Nat
  clean : Bool
  tokensBySession : Option (List (Nat × Nat))

structure ActiveBurn where
  nonResourceBySession : List Nat
  resourceBySession : List Nat
  measuredFinding : Bool := false
  fallback : Option Nat := none

namespace EfficiencyReport

open TokenBurnAccumulator

def estimatedTokenBurnForAttributedTokens (report : EfficiencyReport) (tokens : Nat) :
    Option Nat := do
  tokenBurnBasisPoints tokens (← report.tokenBurnDenominator)

/-- The share of a resource; nothing if a session is not of the report or a sum overflows. -/
def resourceContribution (report : EfficiencyReport) (tokens : List (Nat × Nat)) :
    Option (List Nat) :=
  tokens.foldlM (fun contribution entry =>
    if entry.1 < contribution.length then checkedAddAt entry.1 entry.2 contribution else none)
    (List.replicate report.assessedSessions 0)

/-- One round of the loop over detectors; `none` is an early return. -/
def activeStep (report : EfficiencyReport) (activeDetectorMask : Nat)
    (resources : List ResourceTokenBurnAssessment) (burn : ActiveBurn) (detector : DetectorId) :
    Option ActiveBurn :=
  if !activeDetectorMask.testBit detector.index then some burn
  else
    let resource := resources.find? fun assessment => assessment.detector = detector
    let (findingCount, clean, contribution) :=
      match resource with
      | some resource =>
        (resource.findingCount, resource.clean,
          resource.tokensBySession.bind report.resourceContribution)
      | none =>
        let (findingCount, clean) :=
          match report.detectorStatuses detector with
          | .findings findings => (findings.findingSessions, false)
          | .clean => (0, true)
          | .notAssessed => (0, false)
        (findingCount, clean, report.tokenBurnByDetectorBySession detector)
    if findingCount > 0 then
      let burn := { burn with
        fallback := greater burn.fallback
          (fallbackTokenBurnBasisPoints detector findingCount report.assessedSessions) }
      match report.tokenBurnDenominator, contribution with
      | some _, some contribution =>
        if resource.isSome then do
          return { burn with
            measuredFinding := true
            resourceBySession := ← checkedZipAdd burn.resourceBySession contribution }
        else
          some { burn with
            measuredFinding := true
            nonResourceBySession := zipInto max burn.nonResourceBySession contribution }
      | _, _ => some burn
    else if clean then some { burn with fallback := greater burn.fallback (some 0) }
    else some burn

def estimatedTokenBurnForActiveDetectors (report : EfficiencyReport) (activeDetectorMask : Nat)
    (resources : List ResourceTokenBurnAssessment) : Option Nat := do
  let zeros := List.replicate report.assessedSessions 0
  let burn ← DetectorId.ALL.foldlM (report.activeStep activeDetectorMask resources)
    { nonResourceBySession := zeros, resourceBySession := zeros }
  if !burn.measuredFinding then burn.fallback
  else
    let numerator ← checkedSum (zipInto max burn.nonResourceBySession burn.resourceBySession)
    report.estimatedTokenBurnForAttributedTokens numerator

def ownResources (report : EfficiencyReport) : List ResourceTokenBurnAssessment :=
  SOURCE_GROUPS.map fun group =>
    { detector := group.detector
      findingCount :=
        match report.detectorStatuses group.detector with
        | .findings findings => findings.findingSessions
        | _ => 0
      clean :=
        match report.detectorStatuses group.detector with
        | .clean => true
        | _ => false
      tokensBySession := (report.tokenBurnByDetectorBySession group.detector).map fun shares =>
        shares.zipIdx.map fun (tokens, session) => (session, tokens) }

end EfficiencyReport

end Antiburn
