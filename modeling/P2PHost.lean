import P2PHost.OrdMap
import P2PHost.Types
import P2PHost.Capability
import P2PHost.State
import P2PHost.Dialer
import P2PHost.Acceptor
import P2PHost.Persistence
import P2PHost.Registry
import P2PHost.Invariant
import P2PHost.Sessions
import P2PHost.Lifecycle
import P2PHost.Seal
import P2PHost.Identity
import P2PHost.AcceptLoop
import P2PHost.Public
import P2PHost.RoundTrip
import P2PHost.KeepAlive
import P2PHost.Startup
import P2PHost.Shutdown
import P2PHost.DoneWorking
import P2PHost.System
