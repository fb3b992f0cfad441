import P2PHost.State

/-!
# Discovery events and outbound connections

`onNodeTableEvent` keeps `m_peers` in step with the discovery table and asks
`connect` to dial; `connect` guards against dialing a live node, an unknown
node, or a `Peer` object already being dialed, and its `async_connect`
handler stamps the Peer and builds the `Session`.

The handler is run once per outstanding dial. Whether the error code is set,
and whether the `Session` construction or `start()` throws, are inputs: the
socket and the remote are outside the model. An exception leaves the handler
where it was raised, as in the source, which has no `try` around it.
-/

namespace P2PHost

variable {CapDesc : Type} [LinearOrder CapDesc]

namespace Host

/-- `m_nodeTable->haveNode(n)`. -/
def haveNode (h : Host CapDesc) (n : NodeId) : Bool := (h.nodeTable n).isSome

/-- `(*m_nodeTable)[n]`: the node, or `Node()` when the table does not know it. -/
def nodeTableNode (h : Host CapDesc) (n : NodeId) : Node :=
  match h.nodeTable n with
  | some ep => { id := n, endpoint := ep }
  | none => {}

/-- `havePeerSession`: a session is registered under `id` and its `weak_ptr` locks. -/
def havePeerSession (h : Host CapDesc) (id : NodeId) : Bool :=
  match h.sessions.find? id with
  | some s => (h.sessionObj s).alive
  | none => false

/-- `peerCount()`: the size of `m_peers`. -/
def peerCount (h : Host CapDesc) : Nat := h.peerTable.size

/-- `peers()`: the registered sessions that lock and have an open socket, in
key order (each stands for the `m_info` the source returns); none while the
host is not running. -/
def peers (h : Host CapDesc) : List Ref :=
  if !h.run then []
  else h.sessions.entries.filterMap fun e =>
    if (h.sessionObj e.2).alive && (h.sessionObj e.2).socketOpen then some e.2 else none

/-- `connect`: dial the Peer object `p` unless the host is stopped, its node
has a live session, the node table does not know it, or `p` is already in
`m_pendingNodeConns`. -/
def connect (h : Host CapDesc) (p : Ref) : Host CapDesc :=
  if !h.run then h
  else if h.havePeerSession (h.peerObj p).id then h
  else if !h.haveNode (h.peerObj p).id then h
  else if p ∈ h.pendingNodeConns then h
  else { h with
    pendingNodeConns := insert p h.pendingNodeConns
    connecting := h.connecting ++ [p] }

/-- The `async_connect` handler of `connect` for the Peer `p`. A refused dial
stamps `TCPError` and the attempt time; an accepted one stamps the connection
time and builds and starts the `Session`, which may throw: only a handler that
does not throw reaches the erase from `m_pendingNodeConns`. -/
def connectHandler (h : Host CapDesc) (p : Ref) (refused raises : Bool) (now : TimePoint) :
    Outcome (Host CapDesc) :=
  let h := { h with connecting := h.connecting.erase p }
  if refused then
    .ok { h.modifyPeer p (fun q => { q with lastDisconnect := .tcpError, lastAttempted := now }) with
      pendingNodeConns := h.pendingNodeConns.erase p }
  else
    let h := h.modifyPeer p fun q => { q with lastConnected := now }
    if raises then .raised h
    else .ok { (h.newSession { peer := p }).2 with pendingNodeConns := h.pendingNodeConns.erase p }

/-- The peer-table part of `onNodeTableEvent` on `NodeEntryAdded` for a node
the table knows: the Peer under `n`, made and given the id `n` when
`m_peers[n]` is absent or null, with the discovered TCP endpoint. -/
def notePeer (h : Host CapDesc) (n : NodeId) (tcp : Endpoint) : Ref × Host CapDesc :=
  let (p, table) := h.peerTable.index n
  let (r, h) : Ref × Host CapDesc := match p with
    | some r => (r, { h with peerTable := table })
    | none =>
      let (r, h) := { h with peerTable := table }.newPeer { id := n }
      (r, { h with peerTable := h.peerTable.insert n (some r) })
  (r, h.modifyPeer r fun q => { q with endpoint := { q.endpoint with tcp := tcp } })

def onNodeTableEvent (h : Host CapDesc) (n : NodeId) : NodeTableEventType → Host CapDesc
  | .nodeEntryAdded =>
    let node := h.nodeTableNode n
    if node.id = 0 then h
    else
      let (r, h) := h.notePeer n node.endpoint.tcp
      if h.peerCount < h.idealPeerCount then h.connect r else h
  | .nodeEntryRemoved => { h with peerTable := h.peerTable.erase n }

theorem nodeTableNode_id (h : Host CapDesc) (n : NodeId) :
    (h.nodeTableNode n).id = 0 ∨ (h.nodeTableNode n).id = n := by
  unfold nodeTableNode
  split
  · exact .inr rfl
  · exact .inl rfl

theorem onNodeTableEvent_added (h : Host CapDesc) (n : NodeId) :
    h.onNodeTableEvent n .nodeEntryAdded =
      if (h.nodeTableNode n).id = 0 then h
      else if (h.notePeer n (h.nodeTableNode n).endpoint.tcp).2.peerCount <
          (h.notePeer n (h.nodeTableNode n).endpoint.tcp).2.idealPeerCount then
        (h.notePeer n (h.nodeTableNode n).endpoint.tcp).2.connect
          (h.notePeer n (h.nodeTableNode n).endpoint.tcp).1
      else (h.notePeer n (h.nodeTableNode n).endpoint.tcp).2 := rfl

theorem connect_cases (h : Host CapDesc) (p : Ref) :
    h.connect p = h ∨
      (p ∉ h.pendingNodeConns ∧ h.connect p = { h with
        pendingNodeConns := insert p h.pendingNodeConns
        connecting := h.connecting ++ [p] }) := by
  unfold connect
  iterate 3 (split; exact .inl rfl)
  split
  · exact .inl rfl
  · exact .inr ⟨‹_›, rfl⟩

theorem connect_peerTable (h : Host CapDesc) (p : Ref) : (h.connect p).peerTable = h.peerTable := by
  rcases connect_cases h p with heq | ⟨-, heq⟩ <;> rw [heq]

theorem connectHandler_refused (h : Host CapDesc) (p : Ref) (raises : Bool) (now : TimePoint) :
    h.connectHandler p true raises now = .ok { h.modifyPeer p (fun q =>
      { q with lastDisconnect := .tcpError, lastAttempted := now }) with
        connecting := h.connecting.erase p, pendingNodeConns := h.pendingNodeConns.erase p } := rfl

theorem connectHandler_started (h : Host CapDesc) (p : Ref) (now : TimePoint) :
    h.connectHandler p false false now = .ok { ((h.modifyPeer p fun q =>
      { q with lastConnected := now }).newSession { peer := p }).2 with
        connecting := h.connecting.erase p, pendingNodeConns := h.pendingNodeConns.erase p } := rfl

theorem connectHandler_raised (h : Host CapDesc) (p : Ref) (now : TimePoint) :
    h.connectHandler p false true now = .raised { h.modifyPeer p (fun q =>
      { q with lastConnected := now }) with connecting := h.connecting.erase p } := rfl

theorem connectHandler_peerTable {h h' : Host CapDesc} {p : Ref} {refused raises : Bool}
    {now : TimePoint} (hok : h.connectHandler p refused raises now = .ok h') :
    h'.peerTable = h.peerTable := by
  cases refused
  · cases raises
    · rw [connectHandler_started] at hok
      cases hok
      rfl
    · cases hok
  · rw [connectHandler_refused] at hok
    cases hok
    rfl

/-- With the node table knowing node `1`, `NodeEntryAdded` dials the new Peer
`0`; the dial connects but the `Session` throws, the exception leaves the
handler with `0` still in `m_pendingNodeConns`, and `connect` will never dial
that Peer again. -/
theorem connectHandler_raise_keeps_pending :
    let h : Host Nat := { Host.init ⟨7, 9⟩ with
      run := true, nodeTable := fun n => if n = 1 then some {} else none }
    (h.onNodeTableEvent 1 .nodeEntryAdded).connecting = [0] ∧
      ∃ h', (h.onNodeTableEvent 1 .nodeEntryAdded).connectHandler 0 false true 5 = .raised h' ∧
        h'.connecting = [] ∧ 0 ∈ h'.pendingNodeConns ∧ (h'.connect 0).connecting = [] := by
  intro h
  exact ⟨by decide, _, connectHandler_raised _ _ _, by decide, by decide, by decide⟩

theorem notePeer_spec (h : Host CapDesc) (n : NodeId) (tcp : Endpoint) :
    let (r, h') := h.notePeer n tcp
    h'.peerTable.find? n = some (some r) ∧
      (∀ k, k ≠ n → h'.peerTable.find? k = h.peerTable.find? k) ∧
      ((h.peerTable.find? n = some (some r) ∧ h'.nextRef = h.nextRef ∧
          ∀ q, (h'.peerObj q).id = (h.peerObj q).id) ∨
        (r = h.nextRef ∧ h'.nextRef = h.nextRef + 1 ∧ (h'.peerObj r).id = n ∧
          ∀ q, q ≠ r → (h'.peerObj q).id = (h.peerObj q).id)) ∧
      h'.sessions = h.sessions ∧ h'.sessionObj = h.sessionObj ∧
      h'.connecting = h.connecting ∧ h'.pendingNodeConns = h.pendingNodeConns ∧
      h'.run = h.run ∧ h'.nodeTable = h.nodeTable := by
  unfold notePeer OrdMap.index
  rcases hn : h.peerTable.find? n with _ | _ | r <;> simp only [hn]
  case some.some =>
    refine ⟨by simp [modifyPeer, hn], fun k _ => rfl, .inl ⟨trivial, rfl, fun q => ?_⟩, rfl, rfl, rfl, rfl, rfl, rfl⟩
    by_cases hq : q = r <;> simp [hq]
  all_goals
    refine ⟨by simp [newPeer, modifyPeer], fun k hk => by simp [newPeer, modifyPeer, hk],
      .inr ⟨rfl, rfl, by simp [newPeer], fun q hq => ?_⟩, rfl, rfl, rfl, rfl, rfl, rfl⟩
    simp only [newPeer_fst] at hq
    simp [newPeer, hq]

theorem notePeer_of_find? {h : Host CapDesc} {n : NodeId} {r : Ref}
    (hn : h.peerTable.find? n = some (some r)) (tcp : Endpoint) :
    (h.notePeer n tcp).1 = r ∧ (h.notePeer n tcp).2.peerTable = h.peerTable := by
  unfold notePeer OrdMap.index
  simp only [hn]
  exact ⟨trivial, rfl⟩

theorem onNodeTableEvent_added_find? {h : Host CapDesc} (n : NodeId) {k : NodeId} {r : Ref}
    (hk : h.peerTable.find? k = some (some r)) :
    (h.onNodeTableEvent n .nodeEntryAdded).peerTable.find? k = some (some r) := by
  have noted : (h.notePeer n (h.nodeTableNode n).endpoint.tcp).2.peerTable.find? k = some (some r) := by
    by_cases hkn : k = n
    · subst hkn
      rw [(notePeer_of_find? hk _).2, hk]
    · have spec := notePeer_spec h n (h.nodeTableNode n).endpoint.tcp
      generalize h.notePeer n (h.nodeTableNode n).endpoint.tcp = x at spec ⊢
      rw [spec.2.1 k hkn, hk]
  rw [onNodeTableEvent_added]
  split_ifs
  · exact hk
  · rw [connect_peerTable, noted]
  · exact noted

/-- `m_pendingNodeConns` holds Peer objects, not node ids: after `NodeEntryAdded`,
`NodeEntryRemoved` and `NodeEntryAdded` again for node `1`, the first dial is
still in flight when a second Peer of the same id is dialed. -/
theorem onNodeTableEvent_dials_node_twice :
    let table : NodeId → Option NodeIPEndpoint := fun n => if n = 1 then some {} else none
    let h₁ := ({ Host.init ⟨7, 9⟩ with run := true, nodeTable := table } : Host Nat).onNodeTableEvent 1
      .nodeEntryAdded
    let h₂ := ({ h₁ with nodeTable := fun _ => none } : Host Nat).onNodeTableEvent 1 .nodeEntryRemoved
    let h₃ := ({ h₂ with nodeTable := table } : Host Nat).onNodeTableEvent 1 .nodeEntryAdded
    h₃.connecting = [0, 1] ∧ (h₃.peerObj 0).id = 1 ∧ (h₃.peerObj 1).id = 1 := by
  decide

/-- `peerCount()` is the size of `m_peers`, offline Peers included: with an ideal
count of one, `NodeEntryAdded` finds `peerCount() = 1` against no live session
and does not dial. -/
theorem peerCount_counts_offline_peers :
    let h : Host Nat := ({ Host.init ⟨7, 9⟩ with
      run := true, idealPeerCount := 1
      nodeTable := fun n => if n = 1 then some {} else none } : Host Nat).onNodeTableEvent 1
        .nodeEntryAdded
    h.peerCount = 1 ∧ h.peers.length = 0 ∧ h.connecting = [] := by
  decide

end Host

end P2PHost
