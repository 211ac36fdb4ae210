import Templating.Main
import Templating.State.Inspect
import Templating.Proofs.Expansion.Fuel
import Templating.Proofs.Expansion.Control
import Templating.Proofs.Expansion.Step
import Templating.Proofs.Expansion.Termination
import Templating.Proofs.Expansion.Frame
import Templating.Proofs.Expansion.Inert
import Templating.Proofs.Expansion.Content
import Templating.Proofs.Expansion.Completeness
import Templating.Proofs.Text.Utf16
import Templating.Proofs.Markup.Encoding
import Templating.Proofs.Markup.Reading
import Templating.Proofs.Markup.PrintedTag
import Templating.Proofs.Markup.PrintedToken
import Templating.Proofs.Markup.PrintedNode
import Templating.Proofs.Markup.RawText
import Templating.Proofs.Markup.Building
import Templating.Proofs.Markup.RoundTrip
import Templating.Proofs.Lookup
import Templating.Proofs.Loading
import Templating.Proofs.Injection
import Templating.Proofs.Expansion.Parameters
import Templating.Proofs.Markup.Settled
import Templating.Proofs.Markup.Legible
import Templating.Proofs.Markup.Writable
import Templating.Proofs.Markup.GenuineToken
import Templating.Proofs.Markup.GenuineDocument
import Templating.Proofs.Markup.Saving
import Templating.Proofs.Expansion.Ending
import Templating.Proofs.Expansion.Evaluation
import Templating.Proofs.Expansion.Depth
import Templating.Proofs.Expansion.Mounting
import Templating.Proofs.Expansion.Scope
import Templating.Proofs.Expansion.Stopping
import Templating.Proofs.Expansion.Shifting
import Templating.Proofs.Expansion.Siblings
import Templating.Proofs.Expansion.Interchange
import Templating.Proofs.Expansion.Regrowth
import Templating.Proofs.Markup.Nesting
import Templating.Proofs.Markup.Recovery
import Templating.Proofs.Markup.Agreement
import Templating.Proofs.Markup.Remainder
import Templating.Proofs.Markup.Splitting
import Templating.Proofs.Markup.Position
import Templating.Proofs.Expansion.Hooking
import Templating.Proofs.Keeping
import Templating.Proofs.Listing
import Templating.Proofs.Interpolation.Scanning
import Templating.Proofs.Expansion.Substitution
import Templating.Proofs.Markup.Continuing
import Templating.Proofs.Markup.Verbatim
import Templating.Proofs.Markup.EachReference
import Templating.Proofs.FileTree
import Templating.Proofs.Path
import Templating.Proofs.Site
import Templating.Proofs.Command
import Templating.Proofs.Command.Line
import Templating.Proofs.Markup.Serializable
