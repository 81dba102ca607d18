import DesignMarkup.Main
import DesignMarkup.Proofs.Markup.Entity
import DesignMarkup.Proofs.Markup.Reading
import DesignMarkup.Proofs.Page.Depiction
import DesignMarkup.Proofs.Stylesheet.Reading
import DesignMarkup.Proofs.Design.Damage
import DesignMarkup.Proofs.Page.Inlining
import DesignMarkup.Proofs.Page.Pruning
import DesignMarkup.Proofs.Design.Children
import DesignMarkup.Proofs.Design.Envelope
import DesignMarkup.Proofs.Design.Agreement
import DesignMarkup.Proofs.Page.Containment
import DesignMarkup.Proofs.Page.Placement
import DesignMarkup.Proofs.Page.Media
import DesignMarkup.Proofs.Page.Subtree
import DesignMarkup.Proofs.Page.Sessions
import DesignMarkup.Proofs.Page.Classes
import DesignMarkup.Proofs.Page.Pairing
import DesignMarkup.Proofs.Page.Coordinates
import DesignMarkup.Proofs.Api.Runs
import DesignMarkup.Proofs.Page.Addresses
import DesignMarkup.Proofs.Text.Ascending
import DesignMarkup.Proofs.Api.Client
import DesignMarkup.Proofs.Command.Fetching
import DesignMarkup.Proofs.Command.Requests
import DesignMarkup.Proofs.Design.Selection
import DesignMarkup.Proofs.Files.Path
import DesignMarkup.Proofs.Files.Following
import DesignMarkup.Proofs.Files.Changes
import DesignMarkup.Proofs.Asset.Place
import DesignMarkup.Proofs.Command.Output
import DesignMarkup.Proofs.Command.Downloads
import DesignMarkup.Proofs.Command.Building
import DesignMarkup.Proofs.Command.Failures
import DesignMarkup.Proofs.Text.Percent
import DesignMarkup.Proofs.Design.NodeId
import DesignMarkup.Proofs.Api.Query
import DesignMarkup.Proofs.Asset.Collisions
import DesignMarkup.Proofs.Style.Unambiguous
import DesignMarkup.Proofs.Api.Unrendered
import DesignMarkup.Proofs.Command.Reporting
import DesignMarkup.Proofs.Page.Sources
import DesignMarkup.Proofs.Page.Standalone
import DesignMarkup.Proofs.Number.Lossless
import DesignMarkup.Proofs.Design.Completeness
import DesignMarkup.Proofs.Style.Setting
import DesignMarkup.Proofs.Stylesheet.Interleaving
import DesignMarkup.Proofs.Command.Checking
