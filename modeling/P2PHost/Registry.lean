import P2PHost.Acceptor
import P2PHost.Persistence

/-!
# The Host over whole runs

`registerPeer` records a session in `m_sessions` under its Peer's id, stores
that Peer in `m_peers` when the id has no entry yet, and gives the session its
capability instances. With the discovery events, the dial and accept
handlers, the end of sessions, `restoreNodes` and the lifecycle's effects on
`m_run` and `m_sessions`, these are the steps of the Host, taken in any order.

A step whose handler throws ends the run: the exception leaves the worker
thread, or reaches the caller of `restoreNodes`.
-/

namespace P2PHost

variable {CapDesc : Type} [LinearOrder CapDesc]

namespace Host

def registerPeer (userPacket : Nat) (h : Host CapDesc) (s : Ref) (caps : List CapDesc) :
    Host CapDesc :=
  let p := (h.sessionObj s).peer
  let k := (h.peerObj p).id
  let h := if h.peerTable.contains k then h else { h with peerTable := h.peerTable.insert k (some p) }
  let h := { h with sessions := h.sessions.insert k s }
  h.modifySession s fun x =>
    { x with capabilities := instantiateCaps h.capabilities caps (userPacket % 2 ^ 32) x.capabilities }

theorem registerPeer_eq (userPacket : Nat) (h : Host CapDesc) (s : Ref) (caps : List CapDesc) :
    h.registerPeer userPacket s caps =
      { h with
        peerTable := if h.peerTable.contains (h.peerObj (h.sessionObj s).peer).id then h.peerTable
          else h.peerTable.insert (h.peerObj (h.sessionObj s).peer).id (some (h.sessionObj s).peer)
        sessions := h.sessions.insert (h.peerObj (h.sessionObj s).peer).id s
        sessionObj := fun q => if q = s then { h.sessionObj s with
            capabilities := instantiateCaps h.capabilities caps (userPacket % 2 ^ 32)
              (h.sessionObj s).capabilities }
          else h.sessionObj q } := by
  unfold registerPeer modifySession
  dsimp only
  split_ifs <;> rfl

theorem registerPeer_capabilities (userPacket : Nat) (h : Host CapDesc) (s : Ref) (caps : List CapDesc) :
    ((h.registerPeer userPacket s caps).sessionObj s).capabilities =
      instantiateCaps h.capabilities caps (userPacket % 2 ^ 32) (h.sessionObj s).capabilities := by
  rw [registerPeer_eq]
  simp

/-- Two hosts whose registries agree on the `messageCount()` of every shared
descriptor, each registering a new session from the other's `caps()`, give
both ends the same instances: the shared descriptors, at the same ids. -/
theorem registerPeer_caps_agree (userPacket : Nat) (hA hB : Host CapDesc) (sA sB : Ref)
    (freshA : (hA.sessionObj sA).capabilities = .empty) (freshB : (hB.sessionObj sB).capabilities = .empty)
    (same : ∀ d a b, hA.capabilities.find? d = some a → hB.capabilities.find? d = some b →
      a.messageCount = b.messageCount) :
    ((hA.registerPeer userPacket sA (caps hB.capabilities)).sessionObj sA).capabilities =
        ((hB.registerPeer userPacket sB (caps hA.capabilities)).sessionObj sB).capabilities ∧
      ∀ d, ((hA.registerPeer userPacket sA (caps hB.capabilities)).sessionObj sA).capabilities.contains d =
          true ↔ haveCapability hA.capabilities d = true ∧ haveCapability hB.capabilities d = true := by
  rw [registerPeer_capabilities, registerPeer_capabilities, freshA, freshB]
  exact instantiateCaps_agree userPacket _ _ same

/-- Two hosts sharing descriptor `2`, with the same count, each registering a
new session from the other's `caps()`: both sessions get the one instance. -/
theorem registerPeer_caps_agree_two_hosts :
    let hA : Host Nat := { Host.init ⟨7, 9⟩ with capabilities := (OrdMap.empty.insert 1 ⟨3⟩).insert 2 ⟨5⟩ }
    let hB : Host Nat := { Host.init ⟨8, 10⟩ with capabilities := (OrdMap.empty.insert 2 ⟨5⟩).insert 4 ⟨1⟩ }
    (hA.sessionObj 0).capabilities = .empty ∧ (hB.sessionObj 3).capabilities = .empty ∧
      (∀ d a b, hA.capabilities.find? d = some a → hB.capabilities.find? d = some b →
        a.messageCount = b.messageCount) ∧
      ((hA.registerPeer 16 0 (caps hB.capabilities)).sessionObj 0).capabilities =
          ((hB.registerPeer 16 3 (caps hA.capabilities)).sessionObj 3).capabilities ∧
        ∀ d, ((hA.registerPeer 16 0 (caps hB.capabilities)).sessionObj 0).capabilities.contains d =
            true ↔ haveCapability hA.capabilities d = true ∧ haveCapability hB.capabilities d = true := by
  intro hA hB
  have same : ∀ d a b, hA.capabilities.find? d = some a → hB.capabilities.find? d = some b →
      a.messageCount = b.messageCount := by
    intro d a b ha hb
    simp only [hA, hB, OrdMap.find?_insert, OrdMap.find?_empty] at ha hb
    split_ifs at ha hb <;> simp_all
  exact ⟨rfl, rfl, same, registerPeer_caps_agree 16 hA hB 0 3 rfl rfl same⟩

/-- `registerPeer`'s capability loop gives a new session, whose map is empty,
instances whose id ranges are disjoint and lie in `[UserPacket, UserPacket +
total)`, while the ids handed out, counted over every occurrence in `_caps`,
stay below `2^32`. For a list without repeats the instantiated descriptors
take consecutive ranges from `UserPacket` on, in the order of `_caps`, and the
registry's total bounds the ids handed out. -/
theorem registerPeer_ranges (userPacket : Nat) (h : Host CapDesc) (s : Ref) (cs : List CapDesc)
    (fresh : (h.sessionObj s).capabilities = .empty)
    (bound : userPacket + occurrenceTotal h.capabilities cs < 2 ^ 32) :
    let m := ((h.registerPeer userPacket s cs).sessionObj s).capabilities
    let r := h.capabilities
    RangesWithin r userPacket (userPacket + occurrenceTotal r cs) m ∧ RangesDisjoint r m ∧
      (cs.Nodup → ∀ j (hj : j < (cs.filter (haveCapability r)).length),
        m.find? ((cs.filter (haveCapability r)).get ⟨j, hj⟩) =
          some (userPacket + (((cs.filter (haveCapability r)).take j).map (capMessageCount r)).sum)) ∧
      (cs.Nodup → occurrenceTotal r cs ≤ registryTotal r) := by
  intro m r
  rw [show m = instantiateCaps r cs (userPacket % 2 ^ 32) .empty by
    rw [← fresh]; exact registerPeer_capabilities userPacket h s cs]
  exact instantiateCaps_empty_ranges userPacket r cs bound

theorem registerPeer_ranges_three_caps :
    let h : Host Nat := { Host.init ⟨7, 9⟩ with capabilities := (OrdMap.empty.insert 1 ⟨3⟩).insert 2 ⟨5⟩ }
    let m := ((h.registerPeer 16 0 [2, 7, 1]).sessionObj 0).capabilities
    let r := h.capabilities
    (h.sessionObj 0).capabilities = .empty ∧ 16 + occurrenceTotal r [2, 7, 1] < 2 ^ 32 ∧
      RangesWithin r 16 (16 + occurrenceTotal r [2, 7, 1]) m ∧ RangesDisjoint r m ∧
      ([2, 7, 1].Nodup → ∀ j (hj : j < ([2, 7, 1].filter (haveCapability r)).length),
        m.find? (([2, 7, 1].filter (haveCapability r)).get ⟨j, hj⟩) =
          some (16 + ((([2, 7, 1].filter (haveCapability r)).take j).map (capMessageCount r)).sum)) ∧
      ([2, 7, 1].Nodup → occurrenceTotal r [2, 7, 1] ≤ registryTotal r) := by
  intro h m r
  have bound : 16 + occurrenceTotal r [2, 7, 1] < 2 ^ 32 := by decide
  exact ⟨rfl, bound, registerPeer_ranges 16 h 0 [2, 7, 1] rfl bound⟩

theorem registerPeer_find?_of_find? (userPacket : Nat) (h : Host CapDesc) (s : Ref)
    (caps : List CapDesc) {k : NodeId} {v : Option Ref} (hk : h.peerTable.find? k = some v) :
    (h.registerPeer userPacket s caps).peerTable.find? k = some v := by
  rw [registerPeer_eq]
  dsimp only
  split_ifs with hc
  · exact hk
  · rw [OrdMap.find?_insert, if_neg]
    · exact hk
    · rintro rfl
      exact hc ((OrdMap.contains_iff _ _).2 ⟨v, hk⟩)

/-- Modelled from the spec: the Session's side of the handover, of which only
the call of `registerPeer` is fixed. A live session whose remote announces a
non-null id registers; its Peer, when it has no id yet (an inbound one),
takes the announced id first. A hello announcing `NodeId()` is refused. -/
def hello (userPacket : Nat) (h : Host CapDesc) (s : Ref) (id : NodeId) (caps : List CapDesc) :
    Host CapDesc :=
  let x := h.sessionObj s
  if !x.alive || id = 0 then h
  else
    let h := if (h.peerObj x.peer).id = 0 then h.modifyPeer x.peer fun q => { q with id := id } else h
    h.registerPeer userPacket s caps

theorem hello_find?_of_find? (userPacket : Nat) (h : Host CapDesc) (s : Ref) (id : NodeId)
    (caps : List CapDesc) {k : NodeId} {v : Option Ref} (hk : h.peerTable.find? k = some v) :
    (h.hello userPacket s id caps).peerTable.find? k = some v := by
  unfold hello
  dsimp only
  split_ifs
  · exact hk
  · exact registerPeer_find?_of_find? userPacket _ s caps hk
  · exact registerPeer_find?_of_find? userPacket h s caps hk

/-- A session ends: its `weak_ptr`s stop locking and its socket is closed. -/
def sessionEnds (h : Host CapDesc) (s : Ref) : Host CapDesc :=
  h.modifySession s fun x => { x with alive := false, socketOpen := false }

end Host

/-- What can happen to a Host next. -/
inductive Event (CapDesc : Type) where
  /-- `startedWorking` sets `m_run`, `stop` clears it. -/
  | setRun (running : Bool)
  | setIdealPeerCount (n : Nat)
  | registerCapability (d : CapDesc) (c : HostCapability)
  /-- The discovery table learns, or forgets, a node. -/
  | discover (n : NodeId) (ep : Option NodeIPEndpoint)
  /-- `processEvents` hands an event to `onNodeTableEvent`. -/
  | nodeTable (n : NodeId) (e : NodeTableEventType)
  /-- An outstanding `async_connect` for the Peer `p` completes. -/
  | connectDone (p : Ref) (refused raises : Bool) (now : TimePoint)
  | runAcceptor
  /-- An outstanding `async_accept` completes. -/
  | acceptDone (ec : Int) (socketOpen : Bool) (remote : Option Address) (sessionRaises : Bool)
  | hello (s : Ref) (id : NodeId) (caps : List CapDesc)
  | sessionEnds (s : Ref)
  | restoreNodes (r : RLP)
  /-- The end of `doneWorking`: `m_sessions.clear()`. -/
  | clearSessions

namespace Host

variable (userPacket : Nat) (toPublic : Secret → NodeId)

/-- One step. A completion only happens for an operation in flight; an
exception out of `restoreNodes` reaches its caller and leaves the Host as it
was left, while one out of the dial handler leaves the worker thread. -/
def step (h : Host CapDesc) : Event CapDesc → Outcome (Host CapDesc)
  | .setRun running => .ok { h with run := running }
  | .setIdealPeerCount n => .ok { h with idealPeerCount := n }
  | .registerCapability d c => .ok { h with capabilities := P2PHost.registerCapability h.capabilities d c }
  | .discover n ep => .ok { h with nodeTable := fun m => if m = n then ep else h.nodeTable m }
  | .nodeTable n e => .ok (h.onNodeTableEvent n e)
  | .connectDone p refused raises now =>
    if p ∈ h.connecting then h.connectHandler p refused raises now else .ok h
  | .runAcceptor => .ok h.runAcceptor
  | .acceptDone ec socketOpen remote sessionRaises =>
    if 0 < h.acceptsOutstanding then .ok (h.acceptHandler ec socketOpen remote sessionRaises).1
    else .ok h
  | .hello s id caps => .ok (h.hello userPacket s id caps)
  | .sessionEnds s => .ok (h.sessionEnds s)
  | .restoreNodes r => .ok (h.restoreNodes toPublic r).state
  | .clearSessions => .ok { h with sessions := .empty }

/-- The steps of `evs` from `h`, up to the first that throws. -/
def runEvents : Host CapDesc → List (Event CapDesc) → Outcome (Host CapDesc)
  | h, [] => .ok h
  | h, e :: evs =>
    match h.step userPacket toPublic e with
    | .ok h' => runEvents h' evs
    | .raised h' => .raised h'

/-- Runs: sequences of steps that return normally. -/
inductive Run : Host CapDesc → List (Event CapDesc) → Host CapDesc → Prop
  | nil (h : Host CapDesc) : Run h [] h
  | cons {h h' h'' : Host CapDesc} {e : Event CapDesc} {evs : List (Event CapDesc)} :
      h.step userPacket toPublic e = .ok h' → Run h' evs h'' → Run h (e :: evs) h''

/-- The states a Host reaches from its construction. -/
def Reachable (h : Host CapDesc) : Prop :=
  ∃ keyAlias evs, Run userPacket toPublic (Host.init keyAlias) evs h

theorem run_of_runEvents :
    ∀ {h h' : Host CapDesc} {evs : List (Event CapDesc)},
      runEvents userPacket toPublic h evs = .ok h' → Run userPacket toPublic h evs h'
  | h, h', [], hr => by cases hr; exact .nil h
  | h, h', e :: evs, hr => by
    simp only [runEvents] at hr
    split at hr
    · exact .cons ‹_› (run_of_runEvents hr)
    · cases hr

end Host

end P2PHost
