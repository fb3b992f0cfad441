import P2PHost.Capability

/-!
# The Host's state

One record holds the members of `Host` that the modelled functions read or
write, the `async_connect` and `async_accept` operations in flight, the
discovery table's contents and the heap of `Peer` and `Session` objects.

`m_nodeTable` is reduced to what the Host asks of it: which node ids it knows,
with their endpoints. Sockets, timers, locks and log output are not part of
the state. Objects are allocated from one counter and never freed: a dead
`Session` stays in the heap with its `weak_ptr` no longer locking.
-/

namespace P2PHost

inductive NodeTableEventType where
  | nodeEntryAdded
  | nodeEntryRemoved
  deriving DecidableEq, Repr

/-- The Host's members, its operations in flight and its heap. -/
structure Host (CapDesc : Type) [LinearOrder CapDesc] where
  /-- `m_run`. -/
  run : Bool := false
  /-- `m_idealPeerCount`. -/
  idealPeerCount : Nat := 5
  /-- `m_alias`. -/
  keyAlias : KeyPair
  /-- `m_capabilities`. -/
  capabilities : Registry CapDesc := .empty
  /-- `m_peers`; `none` is a null `shared_ptr`. -/
  peerTable : OrdMap NodeId (Option Ref) := .empty
  /-- `m_sessions`. -/
  sessions : OrdMap NodeId Ref := .empty
  /-- `m_pendingNodeConns`. -/
  pendingNodeConns : Finset Ref := ∅
  /-- The Peer each outstanding `async_connect` handler has captured. -/
  connecting : List Ref := []
  /-- `m_accepting`. -/
  accepting : Bool := false
  /-- How many `async_accept` operations are outstanding. -/
  acceptsOutstanding : Nat := 0
  /-- The nodes `m_nodeTable` knows, with their endpoints. -/
  nodeTable : NodeId → Option NodeIPEndpoint := fun _ => none
  peerObj : Ref → Peer := fun _ => default
  sessionObj : Ref → Session CapDesc := fun _ => default
  nextRef : Ref := 0

variable {CapDesc : Type} [LinearOrder CapDesc]

namespace Host

/-- The host as its constructor leaves it, with the identity `getHostIdentifier` gave. -/
def init (keyAlias : KeyPair) : Host CapDesc := { keyAlias }

def id (h : Host CapDesc) : NodeId := h.keyAlias.pub

/-- Apply `f` to the `Peer` object `p`. -/
def modifyPeer (h : Host CapDesc) (p : Ref) (f : Peer → Peer) : Host CapDesc :=
  { h with peerObj := fun q => if q = p then f (h.peerObj p) else h.peerObj q }

/-- Apply `f` to the `Session` object `s`. -/
def modifySession (h : Host CapDesc) (s : Ref) (f : Session CapDesc → Session CapDesc) :
    Host CapDesc :=
  { h with sessionObj := fun q => if q = s then f (h.sessionObj s) else h.sessionObj q }

/-- `make_shared<Peer>`: a new object at the next reference. -/
def newPeer (h : Host CapDesc) (x : Peer) : Ref × Host CapDesc :=
  (h.nextRef, { h with
    peerObj := fun q => if q = h.nextRef then x else h.peerObj q
    nextRef := h.nextRef + 1 })

/-- `make_shared<Session>`: a new object at the next reference. -/
def newSession (h : Host CapDesc) (x : Session CapDesc) : Ref × Host CapDesc :=
  (h.nextRef, { h with
    sessionObj := fun q => if q = h.nextRef then x else h.sessionObj q
    nextRef := h.nextRef + 1 })

section Frame

variable (h : Host CapDesc) (p : Ref) (f : Peer → Peer) (g : Session CapDesc → Session CapDesc)
  (x : Peer) (y : Session CapDesc)

@[simp] theorem modifyPeer_peerObj (q : Ref) :
    (h.modifyPeer p f).peerObj q = if q = p then f (h.peerObj p) else h.peerObj q := rfl

@[simp] theorem modifySession_sessionObj (q : Ref) :
    (h.modifySession p g).sessionObj q = if q = p then g (h.sessionObj p) else h.sessionObj q := rfl

@[simp] theorem newPeer_fst : (h.newPeer x).1 = h.nextRef := rfl

@[simp] theorem newPeer_peerObj (q : Ref) :
    (h.newPeer x).2.peerObj q = if q = h.nextRef then x else h.peerObj q := rfl

@[simp] theorem newPeer_nextRef : (h.newPeer x).2.nextRef = h.nextRef + 1 := rfl

@[simp] theorem newSession_fst : (h.newSession y).1 = h.nextRef := rfl

@[simp] theorem newSession_sessionObj (q : Ref) :
    (h.newSession y).2.sessionObj q = if q = h.nextRef then y else h.sessionObj q := rfl

@[simp] theorem newSession_nextRef : (h.newSession y).2.nextRef = h.nextRef + 1 := rfl

end Frame

end Host

end P2PHost
