import CharacterArt.Main
import CharacterArt.Merge.Interleaving
import CharacterArt.Toolchain.Rehearsal
import CharacterArt.Proofs.Bundle.Corpus
import CharacterArt.Proofs.Index.Content
import CharacterArt.Proofs.Disk
import CharacterArt.Proofs.Index.Queries
import CharacterArt.Proofs.Index.SyncHistory
import CharacterArt.Proofs.Binary
import CharacterArt.Proofs.Bundle.Table
import CharacterArt.Proofs.Text.WrittenForm
import CharacterArt.Proofs.Bundle.Grammar
import CharacterArt.Proofs.Lz4.Expansion
import CharacterArt.Proofs.Bundle.RoundTrip
import CharacterArt.Proofs.Merge.Steps
import CharacterArt.Proofs.Job
import CharacterArt.Proofs.Merge.Numbers
import CharacterArt.Proofs.Merge.Attribution
import CharacterArt.Proofs.Merge.Outcomes
import CharacterArt.Proofs.Merge.Concurrency
import CharacterArt.Proofs.Precedence
import CharacterArt.Proofs.Resolution.Copies
import CharacterArt.Proofs.Index.Selection
import CharacterArt.Proofs.Index.Unread
import CharacterArt.Proofs.Index.Strays
import CharacterArt.Proofs.Failures
import CharacterArt.Proofs.Index.Tracking
import CharacterArt.Proofs.Alpha.Group
import CharacterArt.Proofs.Resolution.Opened
import CharacterArt.Proofs.Resolution.Ambiguity
import CharacterArt.Proofs.Resolution.Completeness
import CharacterArt.Proofs.Resolution.Dependence
import CharacterArt.Proofs.Resolution.Winners
import CharacterArt.Proofs.Disk.Places
import CharacterArt.Proofs.Disk.Evolution
import CharacterArt.Proofs.Disk.Names
import CharacterArt.Proofs.Disk.Routes
import CharacterArt.Proofs.Disk.Agreement
import CharacterArt.Proofs.Disk.Trees
import CharacterArt.Proofs.Disk.Directories
import CharacterArt.Proofs.Text.Lowercase
import CharacterArt.Proofs.Index.Resync
import CharacterArt.Proofs.Index.Opening
import CharacterArt.Proofs.Bundle.Listing
import CharacterArt.Proofs.Merge.Effects
import CharacterArt.Proofs.Merge.InOrder
import CharacterArt.Proofs.Merge.Confinement
import CharacterArt.Proofs.Merge.Locality
import CharacterArt.Proofs.Merge.Schedules
import CharacterArt.Proofs.Merge.Independence
import CharacterArt.Proofs.Merge.Targets
import CharacterArt.Proofs.Merge.Neighbors
import CharacterArt.Proofs.Reconciliation.Attempts
import CharacterArt.Proofs.Reconciliation.Walk
import CharacterArt.Proofs.Reconciliation.Agreement
import CharacterArt.Proofs.Reconciliation.Memory
import CharacterArt.Proofs.Extraction.Plans
import CharacterArt.Proofs.Extraction.Course
import CharacterArt.Proofs.Extraction.Outputs
import CharacterArt.Proofs.Extraction.Missing
import CharacterArt.Proofs.Extraction.Preparation
import CharacterArt.Proofs.Extraction.Effects
import CharacterArt.Proofs.Extraction.Accounts
import CharacterArt.Proofs.Extraction.Rerun
import CharacterArt.Proofs.Extraction.Unmended
import CharacterArt.Proofs.Extraction.LateMask
import CharacterArt.Proofs.Extraction.Registered
import CharacterArt.Proofs.Extraction.Tracking
import CharacterArt.Proofs.Extraction.Service
import CharacterArt.Proofs.Extraction.Keys
import CharacterArt.Proofs.Extraction.ResultMap
import CharacterArt.Proofs.Extraction.OverrideOrder
import CharacterArt.Proofs.Extraction.MainOrder
import CharacterArt.Proofs.Extraction.Workers
import CharacterArt.Proofs.Extraction.Confinement
import CharacterArt.Proofs.Bundle.Payload
import CharacterArt.Proofs.Text.LowerForms
import CharacterArt.Proofs.Alpha.Names
import CharacterArt.Proofs.Alpha.RuleChain
import CharacterArt.Proofs.Alpha.LetterCase
import CharacterArt.Proofs.Alpha.TieBreak
import CharacterArt.Proofs.Index.MaskPattern
import CharacterArt.Proofs.Alpha.Catalog
import CharacterArt.Proofs.Extraction.SharedMasks
import CharacterArt.Proofs.Extraction.PlanOrder
import CharacterArt.Proofs.Reconciliation.Donors
import CharacterArt.Proofs.Reconciliation.Passes
import CharacterArt.Proofs.Reconciliation.Outcomes
import CharacterArt.Proofs.Merge.Masks
import CharacterArt.Proofs.Reconciliation.Opacity
import CharacterArt.Proofs.Index.Insertion
import CharacterArt.Proofs.Index.Chunks
import CharacterArt.Proofs.Index.Balance
import CharacterArt.Proofs.Merge.Ends
import CharacterArt.Proofs.Merge.Atomicity
import CharacterArt.Proofs.Merge.Watching
import CharacterArt.Proofs.Merge.Contract
import CharacterArt.Proofs.Merge.Composition
import CharacterArt.Proofs.Reconciliation.Composition
import CharacterArt.Proofs.Alpha.Overrides
import CharacterArt.Proofs.Bundle.Limits
import CharacterArt.Proofs.Bundle.Names
import CharacterArt.Proofs.Bundle.Orders
import CharacterArt.Proofs.Index.Rescan
import CharacterArt.Proofs.Index.Whereabouts
import CharacterArt.Proofs.Reconciliation.Stems
import CharacterArt.Proofs.Alpha.Inverses
import CharacterArt.Proofs.Extraction.Deadline
