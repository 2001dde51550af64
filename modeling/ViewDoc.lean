import ViewDoc.Binary64.Decimal
import ViewDoc.Text.Blank
import ViewDoc.Text.Digit
import ViewDoc.Text.Case
import ViewDoc.Text.Quoted
import ViewDoc.Calendar.Iso
import ViewDoc.Value.Text
import ViewDoc.Outcome
import ViewDoc.Path
import ViewDoc.Format
import ViewDoc.Model.Wire
import ViewDoc.Variable
import ViewDoc.State
import ViewDoc.Action
import ViewDoc.Render
import ViewDoc.Html
import ViewDoc.Toml
import ViewDoc.Workspace
import ViewDoc.Proofs.Results
import ViewDoc.Proofs.Segments
import ViewDoc.Proofs.Rendering
import ViewDoc.Proofs.Pruning
import ViewDoc.Proofs.Formats
import ViewDoc.Proofs.ResolverFailures
import ViewDoc.Proofs.Pieces
import ViewDoc.Proofs.Markup
import ViewDoc.Proofs.Refusals
import ViewDoc.Proofs.Sharing
import ViewDoc.Proofs.Sessions
import ViewDoc.Proofs.Models
import ViewDoc.Proofs.PlainForms
import ViewDoc.Proofs.Chains
import ViewDoc.Proofs.KeyedForms
import ViewDoc.Proofs.RoundTrip
import ViewDoc.Proofs.TomlReading
import ViewDoc.Proofs.Loading
import ViewDoc.Proofs.Addresses
import ViewDoc.Proofs.PlainWalks
import ViewDoc.Proofs.NamedData
import ViewDoc.Proofs.SplitPaths
import ViewDoc.Proofs.Accumulation
import ViewDoc.Proofs.CalendarDays
import ViewDoc.Proofs.Redisplay
import ViewDoc.Proofs.Distances
import ViewDoc.Proofs.Instants
import ViewDoc.Proofs.Layers
import ViewDoc.Proofs.Visits
import ViewDoc.Proofs.Handlers
import ViewDoc.Proofs.StyleProperties
import ViewDoc.Proofs.RootLookup
import ViewDoc.Proofs.StateMaps
import ViewDoc.Proofs.NumberTexts
import ViewDoc.Proofs.Literals
import ViewDoc.Proofs.Problems
import ViewDoc.Proofs.OpeningTags
import ViewDoc.Proofs.StyleNames
