import LosslessHermes.Store.WalkBound
import LosslessHermes.Store.SharedConnection
import LosslessHermes.Store.MaintenanceRuns
import LosslessHermes.Summarize.KeptText
import LosslessHermes.Ingest.Injectivity
import LosslessHermes.Ingest.GuardAgain
import LosslessHermes.Ingest.Interleaving
import LosslessHermes.Compaction.Progress
import LosslessHermes.Compaction.Growth
import LosslessHermes.Compaction.FileReferences
import LosslessHermes.Compaction.SweepRuns
import LosslessHermes.Migration.Agreement
import LosslessHermes.Assembler.Conservative
import LosslessHermes.Assembler.Modes
import LosslessHermes.Engine.HostRun
import LosslessHermes.Engine.AntiThrashing
import LosslessHermes.Engine.RoundTrip
import LosslessHermes.Engine.BreakerRuns
import LosslessHermes.Engine.SessionRuns
import LosslessHermes.Voyage.RerankAnswers
import LosslessHermes.Operator.Hiding
import LosslessHermes.Operator.PurgeRange
import LosslessHermes.Embeddings.Suppression
import LosslessHermes.Synthesis.HonestSource
import LosslessHermes.Synthesis.Rendering
import LosslessHermes.Synthesis.Accounting
import LosslessHermes.Synthesis.CachedAnswers
import LosslessHermes.Extraction.Attempts
import LosslessHermes.Doctor.Rebuilt
import LosslessHermes.Doctor.Interference
import LosslessHermes.Doctor.IntegrityRuns
import LosslessHermes.Operator.PurgeHistories
import LosslessHermes.Cli.ImportOpenclaw
import LosslessHermes.Tools.EntityVisibility
import LosslessHermes.Embeddings.OncePerTick
import LosslessHermes.Tools.VerbatimSearch
import LosslessHermes.Tools.CompactCap
import LosslessHermes.Operator.BackfillAutostart
import LosslessHermes.Tools.DescribePages
import LosslessHermes.Synthesis.PromptVersions
import LosslessHermes.Store.TransactionMutex
import LosslessHermes.Embeddings.NearestHits
import LosslessHermes.Doctor.Detection
import LosslessHermes.Store.CjkSearch
import LosslessHermes.Store.SanitizedQuery
import LosslessHermes.Concurrency.WorkerLoop
import LosslessHermes.Operator.DryRun
import LosslessHermes.Tools.ExpansionSlots
import LosslessHermes.Tools.CalendarPeriods
