import Cimi.Main
import Cimi.Proofs.Filter.Canonical
import Cimi.Proofs.Filter.Derivation
import Cimi.Proofs.Session.Closing
import Cimi.Proofs.Session.Tickets
import Cimi.Proofs.Session.Writes
import Cimi.Proofs.Web.Agreement
import Cimi.Server.Memory
import Cimi.Session.Overlap
import Cimi.Web.Site
import Cimi.Proofs.Json.Scalars
import Cimi.Proofs.Json.Inside
import Cimi.Proofs.Json.Keyed
import Cimi.Proofs.Json.Written
import Cimi.Proofs.Session.Unchanged
import Cimi.Proofs.Text.Utf8
import Cimi.Proofs.Text.Percent
import Cimi.Proofs.Web.Query
import Cimi.Proofs.Web.Answering
import Cimi.Proofs.Web.Markup
import Cimi.Proofs.Text.Sent
import Cimi.Proofs.Web.Visiting
import Cimi.Proofs.Reference
import Cimi.Proofs.Session.Creating
import Cimi.Proofs.Document.Partition
import Cimi.Proofs.Filter.Outline
import Cimi.Proofs.Filter.Stops
import Cimi.Proofs.Filter.Blames
import Cimi.Proofs.Session.Refused
import Cimi.Proofs.Exchange
import Cimi.Proofs.Session.Contacts
import Cimi.Proofs.Session.Buttons
import Cimi.Proofs.Session.Serial
import Cimi.Proofs.Terminal.Confirmed
import Cimi.Proofs.Web.Destinations
import Cimi.Proofs.Web.Staying
import Cimi.Proofs.Json.Lookup
import Cimi.Proofs.Document.Collection
import Cimi.Proofs.Page.KeyOrder
import Cimi.Proofs.Page.Members
import Cimi.Proofs.Session.Cancelling
import Cimi.Proofs.Filter.Attached
import Cimi.Proofs.Location
import Cimi.Proofs.Document.Admission
import Cimi.Proofs.Editor
import Cimi.Proofs.Connecting
import Cimi.Proofs.Filter.Literals
import Cimi.Proofs.Filter.Clock
import Cimi.Proofs.Filter.Slices
import Cimi.Proofs.Precedence
import Cimi.Proofs.Terminal.Formatting
import Cimi.Proofs.Web.Rejected
