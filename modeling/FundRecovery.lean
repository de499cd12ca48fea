import FundRecovery.Json.MigrationForms
import FundRecovery.Json.Parser
import FundRecovery.Json.Printer
import FundRecovery.Json.ScanForms
import FundRecovery.Proofs.Discovery.AddedSchemes
import FundRecovery.Proofs.Discovery.Batches
import FundRecovery.Proofs.Discovery.BulkAnswers
import FundRecovery.Proofs.Discovery.BulkExtents
import FundRecovery.Proofs.Discovery.CancelledScans
import FundRecovery.Proofs.Discovery.ChainIndices
import FundRecovery.Proofs.Discovery.CrashedScans
import FundRecovery.Proofs.Discovery.FailureReports
import FundRecovery.Proofs.Discovery.GapWindow
import FundRecovery.Proofs.Discovery.GivenSchemes
import FundRecovery.Proofs.Discovery.Narratives
import FundRecovery.Proofs.Discovery.OldWalletSchemes
import FundRecovery.Proofs.Discovery.Passphrases
import FundRecovery.Proofs.Discovery.Positions
import FundRecovery.Proofs.Discovery.ProgressAccounts
import FundRecovery.Proofs.Discovery.ProgressTotals
import FundRecovery.Proofs.Discovery.RangeStrategies
import FundRecovery.Proofs.Discovery.Rejections
import FundRecovery.Proofs.Discovery.SingleWorker
import FundRecovery.Proofs.Discovery.Totals
import FundRecovery.Proofs.Discovery.WiderGaps
import FundRecovery.Proofs.Json.Forms
import FundRecovery.Proofs.Json.PartialOptions
import FundRecovery.Proofs.Migration.Conservation
import FundRecovery.Proofs.Migration.CurrentPlans
import FundRecovery.Proofs.Migration.FeeArithmetic
import FundRecovery.Proofs.Migration.Pricing
import FundRecovery.Proofs.Migration.RepeatedSources
import FundRecovery.Proofs.Migration.SearchedPlans
import FundRecovery.Proofs.Migration.Validations
import FundRecovery.Proofs.Simulation.Addresses
import FundRecovery.Proofs.Simulation.Attribution
import FundRecovery.Simulation.Session
