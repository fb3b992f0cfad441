import P2PHost.Invariant

/-!
# Sessions and the peer table

`m_sessions[k]` always holds a session whose Peer has the id `k`: that part of
the two tables' agreement is in `Wf`. `m_peers[k]` is another matter.
`registerPeer` fills it only when `k` has no entry, and nothing but
`NodeEntryRemoved` for `k` ever changes an entry that holds a Peer. So a
connected node can lose its `m_peers` entry to a `NodeEntryRemoved`, and an
inbound session for a node discovery already noted keeps a Peer object other
than the one in `m_peers`.

Nor is `m_sessions` ever swept: only `registerPeer` writes it, and only the
final clear of `doneWorking` removes anything, so the entry of a session that
has ended stays, with a `weak_ptr` that no longer locks, until the host stops.
-/

namespace P2PHost

variable {CapDesc : Type} [LinearOrder CapDesc]

namespace Host

section Runs

variable (userPacket : Nat) (toPublic : Secret → NodeId)

theorem step_keeps_peer_entry {h h' : Host CapDesc} {e : Event CapDesc} {k : NodeId} {r : Ref}
    (hs : h.step userPacket toPublic e = .ok h') (he : e ≠ .nodeTable k .nodeEntryRemoved)
    (hk : h.peerTable.find? k = some (some r)) : h'.peerTable.find? k = some (some r) := by
  cases e
  case nodeTable n e =>
    cases hs
    cases e with
    | nodeEntryAdded => exact onNodeTableEvent_added_find? n hk
    | nodeEntryRemoved =>
      have hkn : k ≠ n := fun hkn => he (hkn ▸ rfl)
      show (h.peerTable.erase n).find? k = _
      rw [OrdMap.find?_erase, if_neg hkn, hk]
  case connectDone p refused raises now =>
    simp only [Host.step] at hs
    split_ifs at hs
    · rw [connectHandler_peerTable hs, hk]
    · cases hs
      exact hk
  case acceptDone ec socketOpen remote sessionRaises =>
    simp only [Host.step] at hs
    split_ifs at hs <;> cases hs
    · rw [acceptHandler_peerTable, hk]
    · exact hk
  case runAcceptor =>
    cases hs
    unfold Host.runAcceptor
    split_ifs <;> exact hk
  case hello s id caps =>
    cases hs
    exact hello_find?_of_find? userPacket h s id caps hk
  case restoreNodes r =>
    cases hs
    rw [restoreNodes_state]
    exact hk
  all_goals
    cases hs
    exact hk

/-- Along any run, the Peer an entry of `m_peers` holds stays there until
`NodeEntryRemoved` for its key: no handshake or registration replaces it. -/
theorem run_keeps_peer_entry {h h' : Host CapDesc} {evs : List (Event CapDesc)} {k : NodeId}
    {r : Ref} (hr : Run userPacket toPublic h evs h') (he : ∀ e ∈ evs, e ≠ .nodeTable k .nodeEntryRemoved)
    (hk : h.peerTable.find? k = some (some r)) : h'.peerTable.find? k = some (some r) := by
  induction hr with
  | nil => exact hk
  | cons hs _ ih =>
    exact ih (fun e he' => he e (List.mem_cons_of_mem _ he'))
      (step_keeps_peer_entry userPacket toPublic hs (he _ (List.mem_cons_self _ _)) hk)

/-- Discovery notes node `1` as Peer `0`; an inbound connection then registers
a session for it whose Peer is `1`, and `m_peers[1]` still holds Peer `0`. -/
theorem run_keeps_peer_entry_after_inbound :
    ∃ h h' : Host Nat, Reachable 16 (fun s => s + 2) h ∧
      Run 16 (fun s => s + 2) h [.runAcceptor, .acceptDone 0 true (some (.v4 0x01020304)) false,
        .hello 2 1 []] h' ∧
      (∀ e ∈ [(.runAcceptor : Event Nat), .acceptDone 0 true (some (.v4 0x01020304)) false, .hello 2 1 []],
        e ≠ .nodeTable 1 .nodeEntryRemoved) ∧
      h.peerTable.find? 1 = some (some 0) ∧ h'.peerTable.find? 1 = some (some 0) ∧
      h'.sessions.find? 1 = some 2 ∧ (h'.sessionObj 2).peer = 1 :=
  let evs : List (Event Nat) := [.setRun true, .discover 1 (some {}), .nodeTable 1 .nodeEntryAdded]
  let later : List (Event Nat) := [.runAcceptor, .acceptDone 0 true (some (.v4 0x01020304)) false,
    .hello 2 1 []]
  let h := (runEvents 16 (fun s => s + 2) (Host.init ⟨7, 9⟩) evs).state
  let hr : Run 16 (fun s => s + 2) h later (runEvents 16 (fun s => s + 2) h later).state :=
    run_of_runEvents _ _ rfl
  ⟨h, _, ⟨⟨7, 9⟩, evs, run_of_runEvents _ _ rfl⟩, hr, by simp, by decide,
    run_keeps_peer_entry 16 _ hr (by simp [later]) (by decide), by decide, by decide⟩

end Runs

/-- Two reachable hosts with a live session registered for node `1`. In the
first, the node was dialed and registered, then left the discovery table: its
`m_peers` entry is gone. In the second, the node was noted (Peer `0`) and then
accepted inbound (Peer `1`): `m_peers[1]` is Peer `0`, the session's Peer is
`1`. -/
theorem registered_session_without_its_peer :
    (∃ h : Host Nat, Reachable 16 (fun s => s + 2) h ∧ h.sessions.find? 1 = some 1 ∧
        (h.sessionObj 1).alive = true ∧ h.peerTable.find? 1 = none) ∧
      ∃ h : Host Nat, Reachable 16 (fun s => s + 2) h ∧ h.sessions.find? 1 = some 2 ∧
        (h.sessionObj 2).alive = true ∧ h.peerTable.find? 1 = some (some 0) ∧
        (h.sessionObj 2).peer = 1 := by
  refine ⟨⟨_, ⟨⟨7, 9⟩, [.setRun true, .discover 1 (some {}), .nodeTable 1 .nodeEntryAdded,
      .connectDone 0 false false 0, .hello 1 1 [], .discover 1 none, .nodeTable 1 .nodeEntryRemoved],
      run_of_runEvents _ _ rfl⟩, by decide⟩,
    ⟨_, ⟨⟨7, 9⟩, [.setRun true, .discover 1 (some {}), .nodeTable 1 .nodeEntryAdded, .runAcceptor,
      .acceptDone 0 true (some (.v4 0x01020304)) false, .hello 2 1 []],
      run_of_runEvents _ _ rfl⟩, by decide⟩⟩

section Registry

variable (userPacket : Nat) (toPublic : Secret → NodeId)

theorem onNodeTableEvent_sessions (h : Host CapDesc) (n : NodeId) (e : NodeTableEventType) :
    (h.onNodeTableEvent n e).sessions = h.sessions ∧ (h.onNodeTableEvent n e).sessionObj = h.sessionObj := by
  cases e with
  | nodeEntryAdded =>
    obtain ⟨-, -, -, hsessions, hobj, -⟩ := notePeer_spec h n (h.nodeTableNode n).endpoint.tcp
    rw [onNodeTableEvent_added]
    split_ifs
    · exact ⟨rfl, rfl⟩
    · rcases connect_cases (h.notePeer n (h.nodeTableNode n).endpoint.tcp).2
        (h.notePeer n (h.nodeTableNode n).endpoint.tcp).1 with heq | ⟨-, heq⟩ <;>
        rw [heq] <;> exact ⟨hsessions, hobj⟩
    · exact ⟨hsessions, hobj⟩
  | nodeEntryRemoved => exact ⟨rfl, rfl⟩

theorem step_sessions {h h' : Host CapDesc} {e : Event CapDesc} (hs : h.step userPacket toPublic e = .ok h')
    (he : e ≠ .clearSessions) :
    h'.sessions = h.sessions ∨
      ∃ s id caps k, e = .hello s id caps ∧ h'.sessions = h.sessions.insert k s := by
  cases e
  case nodeTable n e =>
    cases hs
    exact .inl (onNodeTableEvent_sessions h n e).1
  case connectDone p refused raises now =>
    simp only [Host.step] at hs
    split_ifs at hs
    · cases refused <;> cases raises <;> cases hs <;> exact .inl rfl
    · cases hs
      exact .inl rfl
  case acceptDone ec socketOpen remote sessionRaises =>
    simp only [Host.step] at hs
    split_ifs at hs <;> cases hs
    · refine .inl ((acceptHandler_frame Host.sessions (fun _ _ _ => rfl) h ec socketOpen remote
        sessionRaises).trans ?_)
      split_ifs
      · rw [doHandshake_inbound]
        cases remote <;> cases sessionRaises <;> rfl
      · rfl
    · exact .inl rfl
  case runAcceptor =>
    cases hs
    unfold Host.runAcceptor
    split_ifs <;> exact .inl rfl
  case hello s id caps =>
    cases hs
    unfold Host.hello
    dsimp only
    split_ifs
    · exact .inl rfl
    all_goals
      rw [registerPeer_eq]
      exact .inr ⟨_, _, _, _, rfl, rfl⟩
  case restoreNodes r =>
    cases hs
    rw [restoreNodes_state]
    exact .inl rfl
  case clearSessions => exact absurd rfl he
  all_goals
    cases hs
    exact .inl rfl

theorem step_keeps_unregistered {h h' : Host CapDesc} {e : Event CapDesc}
    (hs : h.step userPacket toPublic e = .ok h') {q : Ref} (hhello : ∀ id caps, e ≠ .hello q id caps)
    (hunreg : ∀ k, h.sessions.find? k ≠ some q) : ∀ k, h'.sessions.find? k ≠ some q := by
  by_cases hclear : e = .clearSessions
  · subst hclear
    cases hs
    simp
  rcases step_sessions userPacket toPublic hs hclear with heq | ⟨s, id, caps, k', rfl, heq⟩
  · rwa [heq]
  · intro k
    rw [heq, OrdMap.find?_insert]
    split_ifs
    · exact fun hsq => hhello id caps (by cases hsq; rfl)
    · exact hunreg k

/-- Until `doneWorking` clears it, `m_sessions` only grows: every node id it
holds keeps an entry along any run, the entry of a session that has ended
included. No entry is swept. -/
theorem run_keeps_session_entries {h h' : Host CapDesc} {evs : List (Event CapDesc)}
    (hr : Run userPacket toPublic h evs h') (hclear : .clearSessions ∉ evs) {k : NodeId}
    (hk : h.sessions.contains k = true) : h'.sessions.contains k = true := by
  induction hr with
  | nil => exact hk
  | cons hs _ ih =>
    refine ih (fun h => hclear (List.mem_cons_of_mem _ h)) ?_
    rcases step_sessions userPacket toPublic hs fun he => hclear (he ▸ List.mem_cons_self _ _) with
      heq | ⟨s, -, -, k', -, heq⟩
    · rwa [heq]
    · rw [heq, OrdMap.contains_insert]
      exact .inr hk

end Registry

/-- The inbound session for node `5` ends, and the host goes on: its entry
stays in `m_sessions`, and no longer locks. -/
theorem run_keeps_session_entries_after_end :
    ∃ h h' : Host Nat, Reachable 16 (fun s => s + 2) h ∧
      Run 16 (fun s => s + 2) h [.sessionEnds 1, .nodeTable 5 .nodeEntryRemoved] h' ∧
      Event.clearSessions ∉ [(.sessionEnds 1 : Event Nat), .nodeTable 5 .nodeEntryRemoved] ∧
      h.sessions.contains 5 = true ∧ h'.sessions.contains 5 = true ∧ h'.havePeerSession 5 = false :=
  let evs : List (Event Nat) := [.setRun true, .runAcceptor,
    .acceptDone 0 true (some (.v4 0x01020304)) false, .hello 1 5 []]
  let h := (runEvents 16 (fun s => s + 2) (Host.init ⟨7, 9⟩) evs).state
  let hr : Run 16 (fun s => s + 2) h [.sessionEnds 1, .nodeTable 5 .nodeEntryRemoved]
      (runEvents 16 (fun s => s + 2) h [.sessionEnds 1, .nodeTable 5 .nodeEntryRemoved]).state :=
    run_of_runEvents _ _ rfl
  ⟨h, _, ⟨⟨7, 9⟩, evs, run_of_runEvents _ _ rfl⟩, hr, by simp, by decide,
    run_keeps_session_entries 16 _ hr (by simp) (by decide), by decide⟩

end Host

end P2PHost
