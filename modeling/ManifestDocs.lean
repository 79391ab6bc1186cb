import ManifestDocs.Configuration
import ManifestDocs.Datum
import ManifestDocs.Datum.Display
import ManifestDocs.Datum.Figures
import ManifestDocs.Datum.Printer
import ManifestDocs.Datum.Reader
import ManifestDocs.Datum.Real
import ManifestDocs.Diagnostic
import ManifestDocs.Dialect
import ManifestDocs.DocComment
import ManifestDocs.DocComment.Record
import ManifestDocs.Documenting
import ManifestDocs.Entry
import ManifestDocs.Entry.Record
import ManifestDocs.Entry.Schema
import ManifestDocs.Extraction
import ManifestDocs.Fault
import ManifestDocs.Journal
import ManifestDocs.Journal.Line
import ManifestDocs.Journal.Template
import ManifestDocs.Journal.Template.Conversion
import ManifestDocs.Journal.Template.Slot
import ManifestDocs.Journal.Verbosity
import ManifestDocs.Listing
import ManifestDocs.Listing.Record
import ManifestDocs.Manifest
import ManifestDocs.Manifest.Grammar
import ManifestDocs.Node
import ManifestDocs.Node.Record
import ManifestDocs.Node.Schema
import ManifestDocs.Options
import ManifestDocs.Path
import ManifestDocs.Pattern
import ManifestDocs.Pattern.CharSet
import ManifestDocs.Pattern.Escape
import ManifestDocs.Pattern.Flag
import ManifestDocs.Pattern.Matching
import ManifestDocs.Pattern.Problem
import ManifestDocs.Pattern.Reader
import ManifestDocs.Pattern.Sign
import ManifestDocs.PlanPolicy
import ManifestDocs.Plugin
import ManifestDocs.Plugin.Puppet
import ManifestDocs.Proofs.Balance
import ManifestDocs.Proofs.Derivation
import ManifestDocs.Registry
import ManifestDocs.Registry.Bundled
import ManifestDocs.Registry.Configurations
import ManifestDocs.Schema
import ManifestDocs.Table
import ManifestDocs.Text.Blank
import ManifestDocs.Text.CaseAgreement
import ManifestDocs.Text.CharName
import ManifestDocs.Text.Identifier
import ManifestDocs.Text.Integer
import ManifestDocs.Text.Letter
import ManifestDocs.Text.LetterCase
import ManifestDocs.Text.LooseInteger
import ManifestDocs.Text.Numeral
import ManifestDocs.Text.Printable
import ManifestDocs.Text.Quoted
import ManifestDocs.Text.Ranges
import ManifestDocs.Text.Slice
import ManifestDocs.Text.WordChar
import ManifestDocs.Token
import ManifestDocs.Token.Cursor
import ManifestDocs.Token.Heredoc
import ManifestDocs.Token.Lexeme
import ManifestDocs.Token.Piece
import ManifestDocs.Token.Scanning
import ManifestDocs.VersionOrder
import ManifestDocs.Yaml
import ManifestDocs.Proofs.Recognition
import ManifestDocs.Proofs.Headers
import ManifestDocs.Proofs.Pieces
import ManifestDocs.Proofs.Runs
import ManifestDocs.Proofs.Places
import ManifestDocs.Proofs.Items
import ManifestDocs.Proofs.Partition
import ManifestDocs.Proofs.Shift
import ManifestDocs.Proofs.Seam
import ManifestDocs.Proofs.Joining
import ManifestDocs.Proofs.Printing
import ManifestDocs.Proofs.RoundTrip
import ManifestDocs.Proofs.Bodies
import ManifestDocs.Proofs.Tiling
import ManifestDocs.Proofs.Lines
import ManifestDocs.Proofs.CommentBlocks
import ManifestDocs.Proofs.Documented
import ManifestDocs.Proofs.DocRoundTrip
import ManifestDocs.Proofs.TokenTexts
import ManifestDocs.Proofs.GenuineComments
import ManifestDocs.Proofs.CommentOwners
import ManifestDocs.Proofs.Reports
import ManifestDocs.Proofs.Fusion
import ManifestDocs.Proofs.PlansAsCode
import ManifestDocs.Proofs.Correspondence
import ManifestDocs.Proofs.Resumption
import ManifestDocs.Proofs.Concatenation
import ManifestDocs.Proofs.Promptness
import ManifestDocs.Proofs.EarliestError
import ManifestDocs.Proofs.Histories
import ManifestDocs.Proofs.Cuts
import ManifestDocs.Proofs.Lifecycle
import ManifestDocs.Proofs.SelfContained
import ManifestDocs.Proofs.NearestBlock
import ManifestDocs.Proofs.Respelling
import ManifestDocs.Proofs.Layout
import ManifestDocs.Proofs.ListedTokens
import ManifestDocs.Proofs.OpaqueHeredocs
import ManifestDocs.Proofs.QuotedStrings
import ManifestDocs.Proofs.VersionSegments
import ManifestDocs.Proofs.VersionPlaces
import ManifestDocs.Proofs.VersionPrecedence
import ManifestDocs.Proofs.Upgrades
import ManifestDocs.Proofs.VersionsBothWays
import ManifestDocs.Proofs.Loading
import ManifestDocs.Proofs.Locality
import ManifestDocs.Proofs.MaximalMunch
import ManifestDocs.Proofs.Loops
import ManifestDocs.Proofs.Progress
