import ContextDb.Text.White
import ContextDb.Text.Bytes
import ContextDb.Text.LowerCase
import ContextDb.Text.Occurrence
import ContextDb.Text.Quoted
import ContextDb.SortedMap
import ContextDb.Uri
import ContextDb.Glob.Match
import ContextDb.Json.Printer
import ContextDb.Json.Lexical
import ContextDb.Json.Reader
import ContextDb.Json.Fitting
import ContextDb.Uuid
import ContextDb.Config.Setting
import ContextDb.Config.Environment
import ContextDb.Digest
import ContextDb.Gate
import ContextDb.Capability.Rule
import ContextDb.Store.Operation
import ContextDb.Rest.Encoding
import ContextDb.Rest.Document
import ContextDb.Capability.Catalog
import ContextDb.Config.File
import ContextDb.Bridge.Conversation
import ContextDb.Http.Target
import ContextDb.CommandLine.Program
import ContextDb.Main
import ContextDb.Proofs.Pieces
import ContextDb.Proofs.SortedMap
import ContextDb.Proofs.Trail
import ContextDb.Proofs.Tree
import ContextDb.Proofs.Writing
import ContextDb.Proofs.Removing
import ContextDb.Proofs.Traversal
import ContextDb.Proofs.Moving
import ContextDb.Proofs.Packing
import ContextDb.Proofs.Linking
import ContextDb.Proofs.Reachable
import ContextDb.Proofs.Reading
import ContextDb.Proofs.Failing
import ContextDb.Proofs.Grafting
import ContextDb.Proofs.Obstacles
import ContextDb.Proofs.Describing
import ContextDb.Proofs.Escaping
import ContextDb.Proofs.Paths
import ContextDb.Proofs.Dispatching
import ContextDb.Proofs.Reaching
import ContextDb.Proofs.Guarding
import ContextDb.Proofs.Observing
import ContextDb.Proofs.Registering
import ContextDb.Proofs.Placing
import ContextDb.Proofs.Restoring
import ContextDb.Proofs.Forms
import ContextDb.Proofs.Addresses
import ContextDb.Proofs.Filling
import ContextDb.Proofs.Asking
import ContextDb.Proofs.Answering
import ContextDb.Decimal.Plain
import ContextDb.Proofs.Sparing
import ContextDb.Proofs.Timing
import ContextDb.Proofs.Remembering
import ContextDb.Proofs.Listing
import ContextDb.Proofs.ByteOrder
import ContextDb.Proofs.Walking
import ContextDb.Proofs.Pruning
import ContextDb.Proofs.Lowering
import ContextDb.Proofs.Planting
import ContextDb.Proofs.Widening
import ContextDb.Proofs.Enveloping
import ContextDb.Proofs.Containing
import ContextDb.Proofs.Returning
import ContextDb.Proofs.Commuting
import ContextDb.Proofs.Relinking
import ContextDb.Proofs.Excerpts
import ContextDb.Proofs.Counting
import ContextDb.Proofs.Scanning
import ContextDb.Proofs.Ranking
import ContextDb.Proofs.Wildcards
import ContextDb.Proofs.Globbing
import ContextDb.Proofs.Expanding
import ContextDb.Proofs.Canonical
import ContextDb.Proofs.Descriptions
import ContextDb.Proofs.Advertising
import ContextDb.Proofs.Naming
import ContextDb.Proofs.Classifying
import ContextDb.Proofs.Dividing
import ContextDb.Proofs.Segments
import ContextDb.Proofs.Cuts
import ContextDb.Proofs.Cutting
import ContextDb.Proofs.Emptying
import ContextDb.Proofs.Abstracting
import ContextDb.Proofs.Rounding
import ContextDb.Proofs.Numerals
import ContextDb.Proofs.Printing
import ContextDb.Proofs.Rereading
import ContextDb.Proofs.Conveying
import ContextDb.Proofs.Presenting
