import P2PHost.Registry

/-!
# The invariant of reachable states

`Wf` is what every reachable state satisfies: each entry of `m_peers` is a
non-null Peer whose id is its key, each entry of `m_sessions` holds a session
whose Peer's id is its key, every object these name is allocated, and
`m_pendingNodeConns` is exactly the set of Peers with a dial in flight, each
in flight once. Each operation keeps it, so every step does, and so does
every run.
-/

namespace P2PHost

variable {CapDesc : Type} [LinearOrder CapDesc]

namespace Host

/-- The tables and the heap: `m_peers` holds non-null Peers under their own
ids, `m_sessions` holds sessions whose Peer's id is their key, and every
object these name, or a live session names, is allocated. -/
structure TablesWf (h : Host CapDesc) : Prop where
  peers_keyed : ∀ k v, h.peerTable.find? k = some v →
    ∃ r, v = some r ∧ r < h.nextRef ∧ (h.peerObj r).id = k ∧ k ≠ 0
  sessions_keyed : ∀ k s, h.sessions.find? k = some s →
    s < h.nextRef ∧ (h.sessionObj s).peer < h.nextRef ∧ (h.peerObj (h.sessionObj s).peer).id = k ∧
      k ≠ 0
  alive_lt : ∀ s, (h.sessionObj s).alive → s < h.nextRef ∧ (h.sessionObj s).peer < h.nextRef

/-- The dials: `m_pendingNodeConns` is the set of Peers with a dial in flight,
each in flight once, all allocated. -/
structure DialsWf (h : Host CapDesc) : Prop where
  connecting_lt : ∀ p ∈ h.connecting, p < h.nextRef
  pending_exact : ∀ p, p ∈ h.pendingNodeConns ↔ p ∈ h.connecting
  connecting_nodup : h.connecting.Nodup

/-- The invariant of reachable states. -/
structure Wf (h : Host CapDesc) : Prop where
  tables : TablesWf h
  dials : DialsWf h

theorem TablesWf.of_le {h h' : Host CapDesc} (wf : h.TablesWf) (next : h.nextRef ≤ h'.nextRef)
    (table : ∀ k v, h'.peerTable.find? k = some v → h.peerTable.find? k = some v ∨
      ∃ r, v = some r ∧ r < h'.nextRef ∧ (h'.peerObj r).id = k ∧ k ≠ 0)
    (sessions : ∀ k s, h'.sessions.find? k = some s → h.sessions.find? k = some s ∨
      (s < h'.nextRef ∧ (h'.sessionObj s).peer < h'.nextRef ∧
        (h'.peerObj (h'.sessionObj s).peer).id = k ∧ k ≠ 0))
    (ids : ∀ q, q < h.nextRef → (h.peerObj q).id ≠ 0 → (h'.peerObj q).id = (h.peerObj q).id)
    (objs : ∀ s, s < h.nextRef → (h'.sessionObj s).peer = (h.sessionObj s).peer)
    (alive : ∀ s, (h'.sessionObj s).alive →
      (h.sessionObj s).alive ∨ (h.nextRef ≤ s ∧ s < h'.nextRef ∧ (h'.sessionObj s).peer < h'.nextRef)) :
    h'.TablesWf := by
  refine ⟨fun k v hv => ?_, fun k s hs => ?_, fun s hs => ?_⟩
  · rcases table k v hv with old | new
    · obtain ⟨r, rfl, hr, hid, hk⟩ := wf.peers_keyed k v old
      exact ⟨r, rfl, lt_of_lt_of_le hr next, (ids r hr (hid ▸ hk)).trans hid, hk⟩
    · exact new
  · rcases sessions k s hs with old | new
    · obtain ⟨hs', hp, hid, hk⟩ := wf.sessions_keyed k s old
      rw [objs s hs']
      exact ⟨lt_of_lt_of_le hs' next, lt_of_lt_of_le hp next, (ids _ hp (hid ▸ hk)).trans hid, hk⟩
    · exact new
  · rcases alive s hs with hs | ⟨_, hs, hp⟩
    · obtain ⟨hs', hp⟩ := wf.alive_lt s hs
      rw [objs s hs']
      exact ⟨lt_of_lt_of_le hs' next, lt_of_lt_of_le hp next⟩
    · exact ⟨hs, hp⟩

theorem DialsWf.of_le {h h' : Host CapDesc} (wf : h.DialsWf) (next : h.nextRef ≤ h'.nextRef)
    (conn : h'.connecting = h.connecting) (pending : h'.pendingNodeConns = h.pendingNodeConns) :
    h'.DialsWf :=
  ⟨fun p hp => lt_of_lt_of_le (wf.connecting_lt p (conn ▸ hp)) next,
    fun p => by rw [conn, pending]; exact wf.pending_exact p, conn ▸ wf.connecting_nodup⟩

theorem Wf.of_frame {h h' : Host CapDesc} (wf : h.Wf) (next : h'.nextRef = h.nextRef)
    (table : h'.peerTable = h.peerTable) (sessions : h'.sessions = h.sessions)
    (peers : h'.peerObj = h.peerObj) (objs : h'.sessionObj = h.sessionObj)
    (conn : h'.connecting = h.connecting) (pending : h'.pendingNodeConns = h.pendingNodeConns) :
    h'.Wf :=
  ⟨wf.tables.of_le next.ge (fun k v hv => .inl (table ▸ hv)) (fun k s hs => .inl (sessions ▸ hs))
      (by simp [peers]) (by simp [objs]) (fun s hs => .inl (objs ▸ hs)),
    wf.dials.of_le next.ge conn pending⟩

theorem Wf.init (keyAlias : KeyPair) : (Host.init keyAlias : Host CapDesc).Wf :=
  ⟨⟨fun k v h => by simp [Host.init] at h, fun k s h => by simp [Host.init] at h,
      fun s h => by simp [Host.init, default] at h⟩,
    ⟨fun p h => by simp [Host.init] at h, fun p => by simp [Host.init], List.nodup_nil⟩⟩

theorem DialsWf.erase {h h' : Host CapDesc} (wf : h.DialsWf) (p : Ref) (next : h.nextRef ≤ h'.nextRef)
    (conn : h'.connecting = h.connecting.erase p)
    (pending : h'.pendingNodeConns = h.pendingNodeConns.erase p) : h'.DialsWf := by
  refine ⟨fun q hq => ?_, fun q => ?_, conn ▸ wf.connecting_nodup.erase p⟩
  · rw [conn] at hq
    exact lt_of_lt_of_le (wf.connecting_lt q (List.erase_subset _ _ hq)) next
  · rw [conn, pending, Finset.mem_erase, wf.connecting_nodup.mem_erase_iff, wf.pending_exact]

theorem TablesWf.newPeer {h : Host CapDesc} (wf : h.TablesWf) (x : Peer) : (h.newPeer x).2.TablesWf :=
  wf.of_le (Nat.le_succ _) (fun k v hv => .inl hv) (fun k s hs => .inl hs)
    (fun q hq _ => by simp [Nat.ne_of_lt hq]) (fun s _ => rfl) (fun s hs => .inl hs)

theorem TablesWf.newSession {h : Host CapDesc} (wf : h.TablesWf) {x : Session CapDesc}
    (hp : x.peer < h.nextRef) : (h.newSession x).2.TablesWf :=
  wf.of_le (Nat.le_succ _) (fun k v hv => .inl hv) (fun k s hs => .inl hs) (fun q _ _ => rfl)
    (fun s hs => by simp [Nat.ne_of_lt hs]) fun s hs => by
      by_cases hs' : s = h.nextRef
      · subst hs'
        exact .inr ⟨le_rfl, Nat.lt_succ_self _, by simpa using Nat.lt_succ_of_lt hp⟩
      · exact .inl (by simpa [hs'] using hs)

theorem TablesWf.modifyPeer {h : Host CapDesc} (wf : h.TablesWf) (p : Ref) {f : Peer → Peer}
    (hf : (h.peerObj p).id ≠ 0 → (f (h.peerObj p)).id = (h.peerObj p).id) :
    (h.modifyPeer p f).TablesWf :=
  wf.of_le le_rfl (fun k v hv => .inl hv) (fun k s hs => .inl hs)
    (fun q _ hq => by
      simp only [modifyPeer_peerObj]
      split_ifs with hqp
      · subst hqp
        exact hf hq
      · rfl)
    (fun s _ => rfl) (fun s hs => .inl hs)

theorem TablesWf.modifySession {h : Host CapDesc} (wf : h.TablesWf) (s : Ref)
    {g : Session CapDesc → Session CapDesc} (hpeer : (g (h.sessionObj s)).peer = (h.sessionObj s).peer)
    (halive : (g (h.sessionObj s)).alive → (h.sessionObj s).alive) :
    (h.modifySession s g).TablesWf :=
  wf.of_le le_rfl (fun k v hv => .inl hv) (fun k s hs => .inl hs) (fun q _ _ => rfl)
    (fun q _ => by
      simp only [modifySession_sessionObj]
      split_ifs with hq
      · rw [hq, hpeer]
      · rfl)
    fun q hq => .inl (by
      simp only [modifySession_sessionObj] at hq
      split_ifs at hq with hqs
      · exact hqs ▸ halive hq
      · exact hq)

theorem Wf.connect {h : Host CapDesc} (wf : h.Wf) {p : Ref} (hp : p < h.nextRef) :
    (h.connect p).Wf := by
  rcases connect_cases h p with heq | ⟨hnot, heq⟩ <;> rw [heq]
  · exact wf
  · have hnc : p ∉ h.connecting := fun hc => hnot ((wf.dials.pending_exact p).2 hc)
    refine ⟨wf.tables.of_le le_rfl (fun k v hv => .inl hv) (fun k s hs => .inl hs)
      (fun q _ _ => rfl) (fun s _ => rfl) (fun s hs => .inl hs), fun q hq => ?_, fun q => ?_, ?_⟩
    · rcases List.mem_append.1 hq with hq | hq
      · exact wf.dials.connecting_lt q hq
      · exact List.mem_singleton.1 hq ▸ hp
    · simp only [Finset.mem_insert, List.mem_append, List.mem_singleton, wf.dials.pending_exact q, or_comm]
    · exact List.nodup_append.2 ⟨wf.dials.connecting_nodup, List.nodup_singleton p, by simpa using hnc⟩

theorem Wf.notePeer {h : Host CapDesc} (wf : h.Wf) {n : NodeId} (hn : n ≠ 0) (tcp : Endpoint) :
    (h.notePeer n tcp).2.Wf ∧ (h.notePeer n tcp).1 < (h.notePeer n tcp).2.nextRef := by
  have spec := notePeer_spec h n tcp
  generalize h.notePeer n tcp = x at spec ⊢
  obtain ⟨r, h'⟩ := x
  obtain ⟨hfind, hother, hmade, hsess, hobjs, hconn, hpend, -, -⟩ := spec
  have made : r < h'.nextRef ∧ (h'.peerObj r).id = n ∧ h.nextRef ≤ h'.nextRef ∧
      ∀ q, q < h.nextRef → (h'.peerObj q).id = (h.peerObj q).id := by
    rcases hmade with ⟨hold, hnext, hids⟩ | ⟨rfl, hnext, hid, hids⟩
    · obtain ⟨r', hr', hlt, hid, -⟩ := wf.tables.peers_keyed n _ hold
      cases hr'
      exact ⟨hnext ▸ hlt, (hids _).trans hid, hnext.ge, fun q _ => hids q⟩
    · exact ⟨hnext ▸ Nat.lt_succ_self _, hid, hnext ▸ Nat.le_succ _, fun q hq => hids q (Nat.ne_of_lt hq)⟩
  obtain ⟨hr, hid, hnext, hids⟩ := made
  refine ⟨⟨wf.tables.of_le hnext (fun k v hv => ?_) (fun k s hs => .inl (hsess ▸ hs))
      (fun q hq _ => hids q hq) (fun s _ => by rw [hobjs]) (fun s hs => .inl (hobjs ▸ hs)),
    wf.dials.of_le hnext hconn hpend⟩, hr⟩
  by_cases hk : k = n
  · subst hk
    rw [hfind] at hv
    cases hv
    exact .inr ⟨r, rfl, hr, hid, hn⟩
  · exact .inl (hother k hk ▸ hv)

theorem Wf.onNodeTableEvent {h : Host CapDesc} (wf : h.Wf) (n : NodeId) (e : NodeTableEventType) :
    (h.onNodeTableEvent n e).Wf := by
  cases e with
  | nodeEntryAdded =>
    by_cases h0 : (h.nodeTableNode n).id = 0
    · rwa [onNodeTableEvent_added, if_pos h0]
    have hn : n ≠ 0 := by
      rcases nodeTableNode_id h n with h1 | h1
      · exact absurd h1 h0
      · exact h1 ▸ h0
    obtain ⟨wf', hr⟩ := wf.notePeer hn (h.nodeTableNode n).endpoint.tcp
    rw [onNodeTableEvent_added, if_neg h0]
    split_ifs
    · exact wf'.connect hr
    · exact wf'
  | nodeEntryRemoved =>
    refine ⟨wf.tables.of_le le_rfl (fun k v hv => .inl ?_) (fun k s hs => .inl hs)
      (fun q _ _ => rfl) (fun s _ => rfl) (fun s hs => .inl hs), wf.dials.of_le le_rfl rfl rfl⟩
    have hv : (h.peerTable.erase n).find? k = some v := hv
    rw [OrdMap.find?_erase] at hv
    split_ifs at hv
    exact hv

theorem Wf.connectHandler {h h' : Host CapDesc} (wf : h.Wf) {p : Ref} (hp : p ∈ h.connecting)
    {refused raises : Bool} {now : TimePoint} (hok : h.connectHandler p refused raises now = .ok h') :
    h'.Wf := by
  cases refused with
  | true =>
    rw [connectHandler_refused] at hok
    cases hok
    obtain ⟨t₁, t₂, t₃⟩ := wf.tables.modifyPeer p (f := fun q =>
      { q with lastDisconnect := .tcpError, lastAttempted := now }) fun _ => rfl
    exact ⟨⟨t₁, t₂, t₃⟩, wf.dials.erase p le_rfl rfl rfl⟩
  | false =>
    cases raises with
    | true => cases hok
    | false =>
      rw [connectHandler_started] at hok
      cases hok
      obtain ⟨t₁, t₂, t₃⟩ := (wf.tables.modifyPeer p (f := fun q => { q with lastConnected := now })
        fun _ => rfl).newSession (x := { peer := p }) (wf.dials.connecting_lt p hp)
      exact ⟨⟨t₁, t₂, t₃⟩, wf.dials.erase p (Nat.le_succ _) rfl rfl⟩

theorem Wf.doHandshake_inbound {h : Host CapDesc} (wf : h.Wf) (remote : Option Address)
    (sessionRaises : Bool) : (h.doHandshake 0 remote sessionRaises).state.1.Wf := by
  rw [Host.doHandshake_inbound]
  cases remote with
  | none => exact wf
  | some a =>
    have wf₁ : (h.newPeer { endpoint := { tcp := { address := a } } }).2.Wf :=
      ⟨wf.tables.newPeer _, wf.dials.of_le (Nat.le_succ _) rfl rfl⟩
    cases sessionRaises with
    | true => exact wf₁
    | false =>
      exact ⟨wf₁.tables.newSession (Nat.lt_succ_self _), wf₁.dials.of_le (Nat.le_succ _) rfl rfl⟩

theorem Wf.runAcceptor {h : Host CapDesc} (wf : h.Wf) : h.runAcceptor.Wf := by
  unfold Host.runAcceptor
  split_ifs
  · exact wf.of_frame rfl rfl rfl rfl rfl rfl rfl
  · exact wf

theorem Wf.acceptHandler {h : Host CapDesc} (wf : h.Wf) (ec : Int) (socketOpen : Bool)
    (remote : Option Address) (sessionRaises : Bool) :
    (h.acceptHandler ec socketOpen remote sessionRaises).1.Wf := by
  have wf₁ : (if ec = 0 then (h.doHandshake 0 remote sessionRaises).state.1 else h).Wf := by
    split_ifs
    · exact wf.doHandshake_inbound remote sessionRaises
    · exact wf
  rw [acceptHandler_fst]
  generalize (if ec = 0 then (h.doHandshake 0 remote sessionRaises).state.1 else h) = h₁ at wf₁ ⊢
  have wf₂ : ({ h₁ with accepting := false, acceptsOutstanding := h₁.acceptsOutstanding - 1 } :
      Host CapDesc).Wf := wf₁.of_frame rfl rfl rfl rfl rfl rfl rfl
  dsimp only
  split_ifs
  · exact wf₂.runAcceptor
  · exact wf₂

section Registration

variable (userPacket : Nat)

theorem Wf.registerPeer {h : Host CapDesc} (wf : h.Wf) {s : Ref} (hs : (h.sessionObj s).alive)
    (hid : (h.peerObj (h.sessionObj s).peer).id ≠ 0) (caps : List CapDesc) :
    (h.registerPeer userPacket s caps).Wf := by
  obtain ⟨hs, hp⟩ := wf.tables.alive_lt s hs
  rw [registerPeer_eq]
  refine ⟨wf.tables.of_le le_rfl (fun k v hv => ?_) (fun k s' hs' => ?_) (fun q _ _ => rfl)
    (fun q _ => ?_) (fun q hq => .inl ?_), wf.dials.of_le le_rfl rfl rfl⟩
  · dsimp only at hv
    split_ifs at hv
    · exact .inl hv
    · rw [OrdMap.find?_insert] at hv
      split_ifs at hv with hk
      · cases hv
        exact .inr ⟨_, rfl, hp, hk.symm, hk ▸ hid⟩
      · exact .inl hv
  · dsimp only at hs'
    rw [OrdMap.find?_insert] at hs'
    split_ifs at hs' with hk
    · cases hs'
      exact .inr ⟨hs, by simpa using hp, by simpa using hk.symm, hk ▸ hid⟩
    · exact .inl hs'
  · dsimp only
    split_ifs with hq
    · rw [hq]
    · rfl
  · dsimp only at hq
    split_ifs at hq with hqs
    · exact hqs ▸ hq
    · exact hq

theorem Wf.hello {h : Host CapDesc} (wf : h.Wf) (s : Ref) (id : NodeId) (caps : List CapDesc) :
    (h.hello userPacket s id caps).Wf := by
  unfold Host.hello
  dsimp only
  split_ifs with hx hid
  · exact wf
  all_goals obtain ⟨halive, hid0⟩ : (h.sessionObj s).alive = true ∧ id ≠ 0 := by simpa using hx
  · -- an inbound Peer takes the announced id first
    exact Wf.registerPeer userPacket ⟨wf.tables.modifyPeer _ fun h0 => absurd hid h0,
      wf.dials.of_le le_rfl rfl rfl⟩ halive (by simpa [modifyPeer] using hid0) caps
  · exact Wf.registerPeer userPacket wf halive hid caps

end Registration

theorem Wf.sessionEnds {h : Host CapDesc} (wf : h.Wf) (s : Ref) : (h.sessionEnds s).Wf :=
  ⟨wf.tables.modifySession s rfl (fun h => by cases h), wf.dials.of_le le_rfl rfl rfl⟩

section Runs

variable (userPacket : Nat) (toPublic : Secret → NodeId)

theorem Wf.step {h h' : Host CapDesc} (wf : h.Wf) {e : Event CapDesc}
    (hs : h.step userPacket toPublic e = .ok h') : h'.Wf := by
  cases e with
  | setRun running | setIdealPeerCount n | registerCapability d c | discover n ep =>
    cases hs
    exact wf.of_frame rfl rfl rfl rfl rfl rfl rfl
  | nodeTable n e =>
    cases hs
    exact wf.onNodeTableEvent n e
  | connectDone p refused raises now =>
    simp only [Host.step] at hs
    split_ifs at hs with hp
    · exact wf.connectHandler hp hs
    · cases hs
      exact wf
  | runAcceptor =>
    cases hs
    exact wf.runAcceptor
  | acceptDone ec socketOpen remote sessionRaises =>
    simp only [Host.step] at hs
    split_ifs at hs
    · cases hs
      exact wf.acceptHandler ec socketOpen remote sessionRaises
    · cases hs
      exact wf
  | hello s id caps =>
    cases hs
    exact wf.hello userPacket s id caps
  | sessionEnds s =>
    cases hs
    exact wf.sessionEnds s
  | restoreNodes r =>
    cases hs
    rw [restoreNodes_state]
    exact wf.of_frame rfl rfl rfl rfl rfl rfl rfl
  | clearSessions =>
    cases hs
    refine ⟨wf.tables.of_le le_rfl (fun k v hv => .inl hv) (fun k s hs => ?_) (fun q _ _ => rfl)
      (fun s _ => rfl) (fun s hs => .inl hs), wf.dials.of_le le_rfl rfl rfl⟩
    simp at hs

theorem Run.wf {h h' : Host CapDesc} {evs : List (Event CapDesc)}
    (hr : Run userPacket toPublic h evs h') (wf : h.Wf) : h'.Wf := by
  induction hr with
  | nil => exact wf
  | cons hs _ ih => exact ih (wf.step userPacket toPublic hs)

theorem reachable_wf {h : Host CapDesc} (hr : Reachable userPacket toPublic h) : h.Wf := by
  obtain ⟨keyAlias, evs, hr⟩ := hr
  exact hr.wf userPacket toPublic (Wf.init keyAlias)

/-- In every reachable state each value of `m_peers` is a non-null Peer whose
id is its key, so `nodes()` and `saveNodes()` dereference no null entry, and
`nodes()` lists every Peer under its own id. -/
theorem reachable_peers_non_null {h : Host CapDesc} (hr : Reachable userPacket toPublic h) :
    (∀ k v, h.peerTable.find? k = some v → ∃ r, v = some r ∧ (h.peerObj r).id = k) ∧
      (∃ ps, h.nodes = some ps ∧ ps.map (fun p => p.id) = h.peerTable.keys) ∧
      ∀ isPrivateAddress now, (h.saveNodes isPrivateAddress now).isSome := by
  have keyed : ∀ k v, h.peerTable.find? k = some v → ∃ r, v = some r ∧ (h.peerObj r).id = k :=
    fun k v hv => by
      obtain ⟨r, rfl, -, hid, -⟩ := (reachable_wf userPacket toPublic hr).tables.peers_keyed k v hv
      exact ⟨r, rfl, hid⟩
  obtain ⟨ps, hps, hmap⟩ := nodes_of_keyed keyed
  exact ⟨keyed, ⟨ps, hps, hmap⟩, fun isPrivateAddress now => by
    rw [saveNodes, saveLoop_eq isPrivateAddress now h h.peerTable.entries ps hps]; rfl⟩

end Runs

/-- The host after node `1` is noted and dialed and an inbound connection is
accepted and says hello as node `1`. -/
theorem reachable_peers_non_null_after_handshakes :
    ∃ h : Host Nat, Reachable 16 (fun s => s + 2) h ∧ h.peerTable.size = 1 ∧
      (∀ k v, h.peerTable.find? k = some v → ∃ r, v = some r ∧ (h.peerObj r).id = k) ∧
      (∃ ps, h.nodes = some ps ∧ ps.map (fun p => p.id) = h.peerTable.keys) ∧
      ∀ isPrivateAddress now, (h.saveNodes isPrivateAddress now).isSome :=
  let evs : List (Event Nat) := [.setRun true, .discover 1 (some {}), .nodeTable 1 .nodeEntryAdded,
    .runAcceptor, .acceptDone 0 true (some (.v4 0x01020304)) false, .hello 2 1 []]
  let hr : Reachable 16 (fun s => s + 2) (runEvents 16 (fun s => s + 2) (Host.init ⟨7, 9⟩) evs).state :=
    ⟨⟨7, 9⟩, evs, run_of_runEvents _ _ rfl⟩
  ⟨_, hr, by decide, reachable_peers_non_null 16 _ hr⟩

section Dials

variable (userPacket : Nat) (toPublic : Secret → NodeId)

/-- Over every run in which no handler throws, `m_pendingNodeConns` is exactly
the set of Peers with an `async_connect` in flight, and no Peer is in flight
twice: `connect` dials no Peer object already being dialed, and each
completion that returns releases its Peer. -/
theorem reachable_dials_single_flight {h : Host CapDesc} (hr : Reachable userPacket toPublic h) :
    (∀ p, p ∈ h.pendingNodeConns ↔ p ∈ h.connecting) ∧ h.connecting.Nodup :=
  let wf := reachable_wf userPacket toPublic hr
  ⟨wf.dials.pending_exact, wf.dials.connecting_nodup⟩

end Dials

/-- Node `1` is discovered twice while its first dial is in flight: the one
Peer object is dialed once. -/
theorem reachable_dials_single_flight_rediscovered :
    ∃ h : Host Nat, Reachable 16 (fun s => s + 2) h ∧ h.connecting = [0] ∧
      ((∀ p, p ∈ h.pendingNodeConns ↔ p ∈ h.connecting) ∧ h.connecting.Nodup) :=
  let evs : List (Event Nat) := [.setRun true, .discover 1 (some {}), .nodeTable 1 .nodeEntryAdded,
    .nodeTable 1 .nodeEntryAdded]
  let hr : Reachable 16 (fun s => s + 2) (runEvents 16 (fun s => s + 2) (Host.init ⟨7, 9⟩) evs).state :=
    ⟨⟨7, 9⟩, evs, run_of_runEvents _ _ rfl⟩
  ⟨_, hr, rfl, reachable_dials_single_flight 16 _ hr⟩

end Host

end P2PHost
