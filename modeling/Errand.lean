import Errand.Catalog.Basic
import Errand.Catalog.Folder
import Errand.Catalog.Layout
import Errand.Catalog.Shipped
import Errand.Decimal
import Errand.FileTree
import Errand.Kind
import Errand.Node.Basic
import Errand.Node.Interface
import Errand.Node.Options
import Errand.Notice
import Errand.Pool
import Errand.Proofs.Batch
import Errand.Proofs.Catalog.Loading
import Errand.Proofs.Catalog.Refusal
import Errand.Proofs.Catalog.Writing
import Errand.Proofs.Node.Caching
import Errand.Proofs.Node.OutputLines
import Errand.Proofs.Node.PrototypeSources
import Errand.Proofs.Prototype.Weights
import Errand.Proofs.Prototype.Writing
import Errand.Proofs.Random.Shuffle
import Errand.Proofs.Session.Accounting
import Errand.Proofs.Session.Agreement
import Errand.Proofs.Session.Commuting
import Errand.Proofs.Session.Concatenation
import Errand.Proofs.Session.Concealment
import Errand.Proofs.Session.Conservation
import Errand.Proofs.Session.Coupling
import Errand.Proofs.Session.Demand
import Errand.Proofs.Session.DepthFirst
import Errand.Proofs.Session.EveryLevel
import Errand.Proofs.Session.Exhaustion
import Errand.Proofs.Session.History
import Errand.Proofs.Session.Independence
import Errand.Proofs.Session.Itinerary
import Errand.Proofs.Session.MetadataLines
import Errand.Proofs.Session.Obfuscation
import Errand.Proofs.Session.Pronoun
import Errand.Proofs.Session.Recall
import Errand.Proofs.Session.Run
import Errand.Proofs.Session.Sharing
import Errand.Proofs.Session.Shortage
import Errand.Proofs.Session.Soundness
import Errand.Proofs.Session.Step
import Errand.Proofs.Session.Substitution
import Errand.Proofs.Session.Tiling
import Errand.Proofs.Session.UnbrokenLines
import Errand.Proofs.Session.Walk
import Errand.Proofs.Text.Lines
import Errand.Proofs.Value.LongNumbers
import Errand.Proofs.Wildcard.Acceptance
import Errand.Proofs.Wildcard.Balance
import Errand.Proofs.Wildcard.Braces
import Errand.Proofs.Wildcard.Concatenation
import Errand.Proofs.Wildcard.Depth
import Errand.Proofs.Wildcard.Grammar
import Errand.Proofs.Wildcard.Keycode
import Errand.Proofs.Wildcard.Marker
import Errand.Proofs.Wildcard.Qualified
import Errand.Proofs.Wildcard.Recast
import Errand.Proofs.Wildcard.Segmentation
import Errand.Prototype.Choice
import Errand.Prototype.Line
import Errand.Random.Dice
import Errand.Random.Twister
import Errand.Session.Basic
import Errand.Session.Metadata
import Errand.Session.Resolve
import Errand.Session.Work
import Errand.Task.Basic
import Errand.Task.Printer
import Errand.Text.Basic
import Errand.Text.Case
import Errand.Text.Digit
import Errand.Text.Lines
import Errand.Text.Quoted
import Errand.Text.Word
import Errand.Tier
import Errand.Value.Basic
import Errand.Value.Printer
import Errand.Value.Reader
import Errand.Value.Writer
import Errand.Wildcard.Basic
import Errand.Wildcard.Body
import Errand.Wildcard.Reading
import Errand.Wildcard.Segment
