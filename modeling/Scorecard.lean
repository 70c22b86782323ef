import Scorecard.Main
import Scorecard.Proofs.AddedFacts
import Scorecard.Proofs.CodebaseCounters
import Scorecard.Proofs.CommitLog
import Scorecard.Proofs.ConfigDocument
import Scorecard.Proofs.ConfigPrecedence
import Scorecard.Proofs.ExitStatus
import Scorecard.Proofs.FactTypes
import Scorecard.Proofs.FunctionMetrics
import Scorecard.Proofs.InactiveRules
import Scorecard.Proofs.LineNumbers
import Scorecard.Proofs.LooserLimits
import Scorecard.Proofs.NamePatterns
import Scorecard.Proofs.Noninterference
import Scorecard.Proofs.Rendering
import Scorecard.Proofs.ReportedTenths
import Scorecard.Proofs.RuleFailures
import Scorecard.Proofs.TestGate
import Scorecard.Proofs.VersionControl
import Scorecard.Proofs.WeightResolution
