import Antiburn.StatusMessages
import Antiburn.EditSelections
import Antiburn.RepeatedContext
import Antiburn.Triggers
import Antiburn.Isolation
import Antiburn.FramingAgreement
import Antiburn.TokenConservation
import Antiburn.Dispatch
import Antiburn.UsageLedger
import Antiburn.DeliveryFences
import Antiburn.PublicationLog
import Antiburn.StandingStatus
import Antiburn.AccessPromise
import Antiburn.DecimalOrder
import Antiburn.CheckpointText
import Antiburn.EvaluationDepth
import Antiburn.Rendering
import Antiburn.Serializable
import Antiburn.SavedAssessments
import Antiburn.Globs
import Antiburn.Reordering
import Antiburn.CandidateIdentity
import Antiburn.TextTemplates
import Antiburn.ActiveExact
import Antiburn.FitShrinks
import Antiburn.SharedBudget
import Antiburn.NativeAccounting
import Antiburn.TokenBurnFigures
import Antiburn.CacheMissAgreement
import Antiburn.EfficiencyAgreement
import Antiburn.CompositeSinkRuns
import Antiburn.JoinerCompleteness
import Antiburn.FrozenContexts
import Antiburn.QuotaConservation
import Antiburn.QuotaTiling
import Antiburn.ObserverRuns
import Antiburn.ScanQueue
