import PeerLink.Client.Scripted
import PeerLink.Main
import PeerLink.Pending.Bench
import PeerLink.Proofs.Client.Acks
import PeerLink.Proofs.Client.Binding
import PeerLink.Proofs.Client.Causes
import PeerLink.Proofs.Client.Channels
import PeerLink.Proofs.Client.CloseOnce
import PeerLink.Proofs.Client.Nested
import PeerLink.Proofs.Client.Refusals
import PeerLink.Proofs.Client.Tenancy
import PeerLink.Proofs.Frame.Chunks
import PeerLink.Proofs.Frame.Drafts
import PeerLink.Proofs.Frame.Words
import PeerLink.Proofs.Log.Columns
import PeerLink.Proofs.Log.Components
import PeerLink.Proofs.Node.Eviction
import PeerLink.Proofs.Node.Report
import PeerLink.Proofs.Node.Roster
import PeerLink.Proofs.Pending.Nesting
import PeerLink.Proofs.Pending.Wakeups
import PeerLink.Proofs.Session.Declined
import PeerLink.Proofs.Session.FailedWrite
import PeerLink.Proofs.Session.Idleness
import PeerLink.Proofs.Session.Outbound
import PeerLink.Proofs.Session.Reports
import PeerLink.Proofs.Session.Retry
import PeerLink.Proofs.Session.SendPaths
import PeerLink.Proofs.Settings.Dimensions
import PeerLink.Proofs.Settings.Precedence
import PeerLink.Session.Bench
