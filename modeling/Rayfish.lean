import Rayfish.Firewall.Transparency
import Rayfish.Forward.Bookkeeping
import Rayfish.Forward.RoundTrip
import Rayfish.Mesh.ReplayFloor
import Rayfish.Mesh.KeptEdits
import Rayfish.Invite.Replica
import Rayfish.Pairing.Unpair
import Rayfish.Mesh.Revocation
import Rayfish.Mesh.Kick
import Rayfish.Firewall.Acceptance
import Rayfish.ExitNode.Leases
import Rayfish.Control
import Rayfish.Deploy.Repeat
import Rayfish.Backup.Code
import Rayfish.Config.PendingRename
import Rayfish.Files.Delivery
import Rayfish.Files.Flush
import Rayfish.Connect.OneNetwork
import Rayfish.Management.Revocation
import Rayfish.Mesh.SoleCoordinator
import Rayfish.Forward.FragHistory
import Rayfish.Dns.Tables
import Rayfish.Firewall.Explain
import Rayfish.Forward.LazyDial
import Rayfish.Peers.Consistency
import Rayfish.Peers.RosterRoutes
import Rayfish.Mesh.PendingName
import Rayfish.Mesh.Canonical
