import Mathlib
import P2PHost.OrdMap

/-!
# Peers, sessions and the values the Host keeps about them

The records of `Host.h` with the fields the Host's own functions read or
write. Heap objects (`Peer`, `Session`) are named by references allocated from
one counter, so that object identity (a `shared_ptr`, a `Peer*` in
`m_pendingNodeConns`) is explicit. Cryptography, clocks and sockets are not
modelled beyond the values the Host compares or stores.
-/

namespace P2PHost

/-- A node id: the 64-byte public key `h512`, as the number its big-endian
bytes spell. `NodeId()` is `0`, the one value that tests false. -/
abbrev NodeId := Nat

/-- A 32-byte secret `h256`, as a number. -/
abbrev Secret := Nat

/-- A `std::chrono` time point, in nanoseconds since the clock's epoch. -/
abbrev TimePoint := Int

/-- A reference naming a heap object (`Peer`, `Session`). -/
abbrev Ref := Nat

/-- `bi::address`: IPv4 or IPv6, as the number of its big-endian bytes. The
default `bi::address()` is the unspecified IPv4 address. -/
inductive Address where
  | v4 (value : Fin (2 ^ 32))
  | v6 (value : Fin (2 ^ 128))
  deriving DecidableEq, Repr

instance : Inhabited Address := ⟨.v4 0⟩

/-- `bi::tcp::endpoint` and `bi::udp::endpoint`: an address and a port. -/
structure Endpoint where
  address : Address := default
  port : Nat := 0
  deriving DecidableEq, Repr, Inhabited

/-- `NodeIPEndpoint`: the discovery (UDP) and peer (TCP) endpoints of a node. -/
structure NodeIPEndpoint where
  udp : Endpoint := {}
  tcp : Endpoint := {}
  deriving DecidableEq, Repr, Inhabited

/-- `Node`: a node id with its endpoints. `Node()` has id `NodeId()`. -/
structure Node where
  id : NodeId := 0
  endpoint : NodeIPEndpoint := {}
  deriving DecidableEq, Repr, Inhabited

/-- Modelled from the spec: the reasons for a disconnect, numbered from
`NoDisconnect = 0` in this order; their declaration lies outside these sources. -/
inductive DisconnectReason where
  | noDisconnect | clientQuit | disconnectRequested | tcpError | badProtocol | uselessPeer
  | tooManyPeers | duplicatePeer | incompatibleProtocol | nullIdentity | unexpectedIdentity
  | localIdentity | pingTimeout | userReason
  deriving DecidableEq, Repr, Inhabited

/-- `Peer`: a node with the connection statistics of `Host.h`, at their
in-class defaults. -/
structure Peer extends Node where
  score : Int := 0
  rating : Int := 0
  lastConnected : TimePoint := 0
  lastAttempted : TimePoint := 0
  failedAttempts : Nat := 0
  lastDisconnect : DisconnectReason := .noDisconnect
  deriving Repr, Inhabited

/-- What the Host sees of a `Session`: the strong reference to its `Peer`,
whether a `weak_ptr` to it still locks, whether its socket is open, and the
capability instances `registerPeer` gave it, by descriptor with their first
message id. -/
structure Session (CapDesc : Type) [LinearOrder CapDesc] where
  peer : Ref
  alive : Bool := true
  socketOpen : Bool := true
  capabilities : OrdMap CapDesc Nat := .empty

instance {CapDesc : Type} [LinearOrder CapDesc] : Inhabited (Session CapDesc) :=
  ⟨{ peer := 0, alive := false, socketOpen := false }⟩

/-- `KeyPair`: a secret with the public key derived from it, the node's id. -/
structure KeyPair where
  secret : Secret
  pub : NodeId
  deriving DecidableEq, Repr

/-- `KeyPair(secret)`, the public key derived by the curve arithmetic `toPublic`. -/
def KeyPair.ofSecret (toPublic : Secret → NodeId) (s : Secret) : KeyPair := ⟨s, toPublic s⟩

/-- How a handler or call ends: normally, or with an exception leaving it, in
the state the exception left behind. -/
inductive Outcome (σ : Type) where
  | ok (s : σ)
  | raised (s : σ)

/-- The state an outcome leaves, whichever way it ended. -/
def Outcome.state {σ : Type} : Outcome σ → σ
  | .ok s | .raised s => s

end P2PHost
