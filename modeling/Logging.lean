import Logging.Expression.Parser
import Logging.Filter.Evaluate
import Logging.Filter.Printer
import Logging.Json.Printer
import Logging.Level.Usage
import Logging.Metrics.Usage
import Logging.Pattern.Replacement
import Logging.Session.Callbacks
import Logging.Session.LiveNames
import Logging.Session.Outline
import Logging.Session.Step
import Logging.Session.Trial
import Logging.Settings
import Logging.Sink.Failure
import Logging.Sink.Usage
import Logging.Proofs.Tree.Inheritance
import Logging.Proofs.Tree.Changes
import Logging.Proofs.Tree.Contents
import Logging.Proofs.Tree.Entries
import Logging.Proofs.Tree.Spare
import Logging.Proofs.Tree.Names
import Logging.Proofs.Tree.Lookups
import Logging.Proofs.Tree.Paths
import Logging.Proofs.Session.Moves
import Logging.Proofs.Session.Things
import Logging.Proofs.Session.Ends
import Logging.Proofs.Session.Courses
import Logging.Proofs.Session.Callbacks
import Logging.Proofs.Session.Conduct
import Logging.Proofs.Session.Runs
import Logging.Proofs.Session.Steps
import Logging.Proofs.Session.EffectiveLevels
import Logging.Proofs.Expression.Grammar
import Logging.Proofs.Expression.Reader
import Logging.Proofs.Expression.Tokens
import Logging.Proofs.Expression.RoundTrip
import Logging.Proofs.Expression.Layout
import Logging.Proofs.Expression.Inlining
import Logging.Proofs.Session.FilterTexts
import Logging.Proofs.Tree.Pairing
import Logging.Proofs.Session.LiveNames
import Logging.Proofs.Session.Walks
import Logging.Proofs.Session.Quiet
import Logging.Proofs.Session.Likeness
import Logging.Proofs.Session.Settling
import Logging.Proofs.Session.Echoes
import Logging.Proofs.Session.Mirror
import Logging.Proofs.Session.Retention
import Logging.Proofs.Session.Ownership
import Logging.Proofs.Session.Bookkeeping
import Logging.Proofs.Session.Garbage
import Logging.Proofs.Session.FullNames
import Logging.Proofs.Session.Deliveries
import Logging.Proofs.Session.EntryPoints
import Logging.Proofs.Session.Standing
import Logging.Proofs.Session.Conservation
import Logging.Proofs.Session.Enumeration
import Logging.Proofs.Level.Writes
import Logging.Proofs.Session.Lookups
import Logging.Proofs.Session.Hooks
import Logging.Proofs.Session.Shutdown
import Logging.Proofs.Session.Closing
import Logging.Proofs.Session.Resets
import Logging.Proofs.Session.Thresholds
import Logging.Proofs.Filter.Laws
import Logging.Proofs.Filter.Dialogue
import Logging.Proofs.Session.FilterChains
import Logging.Proofs.Filter.Frame
import Logging.Proofs.Session.NamedFilters
import Logging.Proofs.Level.Independence
import Logging.Proofs.Sink.Usage
import Logging.Proofs.Tree.Attachments
import Logging.Proofs.Session.Attachments
import Logging.Proofs.Expression.Stuck
import Logging.Proofs.Expression.Errors
import Logging.Proofs.Session.Baseline
import Logging.Proofs.Session.Registrations
import Logging.Proofs.Filter.Nesting
import Logging.Proofs.Session.Nesting
