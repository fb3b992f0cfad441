import P2PHost.Invariant

/-!
# Disconnecting the sessions at shutdown

Once its accept loop has drained (`AcceptLoop`), `doneWorking` walks
`m_sessions` and tells each session that locks and is open `ClientQuit`; if it
told any, it polls the io_service so that the packets go out, and walks again,
until a walk finds none; then it clears `m_sessions`. `Session::disconnect` is
not among the sources: it sends the reason and closes the socket. A poll runs
the handlers that are ready: here, any sequence of the Host's events.

With `m_run` clear, `connect` and `runAcceptor` start nothing, but the
handlers of dials and accepts already in flight do not look at `m_run`, and
each may open one more session. A walk that tells a session closes it, so the
open sessions plus the dials and accepts in flight (`drainBound`) go down at
each walk that does not end the loop, and no poll raises them: the loop ends
within one walk more than that bound, with no session of `m_sessions` open
(`disconnectLoop_ends`). A dial whose `Session` throws throws out of the poll
and out of `doneWorking`; the bound is for polls in which none does.
-/

namespace P2PHost

variable {CapDesc : Type} [LinearOrder CapDesc]

namespace Host

/-- `p->isOpen()` on a `lock()` that succeeds. -/
def isOpenSession (h : Host CapDesc) (s : Ref) : Bool :=
  (h.sessionObj s).alive && (h.sessionObj s).socketOpen

/-- Modelled from the spec: `Session::disconnect`, which sends the reason and
closes the socket. -/
def disconnect (h : Host CapDesc) (s : Ref) : Host CapDesc :=
  h.modifySession s fun x => { x with socketOpen := false }

/-- The body of the walk: an entry of `m_sessions` whose session is open is
told `ClientQuit` and counted in `n`. -/
def quitStep (acc : Nat × Host CapDesc) (e : NodeId × Ref) : Nat × Host CapDesc :=
  if acc.2.isOpenSession e.2 then (acc.1 + 1, acc.2.disconnect e.2) else acc

/-- One walk of `m_sessions`: how many sessions it told, and the host after. -/
def disconnectPass (h : Host CapDesc) : Nat × Host CapDesc :=
  h.sessions.entries.foldl quitStep (0, h)

/-- The open sessions of the heap. -/
def openSessions (h : Host CapDesc) : Finset Ref :=
  (Finset.range h.nextRef).filter fun s => h.isOpenSession s

/-- What can still be an open session once `m_run` is clear: the open
sessions, the dials in flight and the accepts outstanding. -/
def drainBound (h : Host CapDesc) : Nat :=
  h.openSessions.card + h.connecting.length + h.acceptsOutstanding

section Loop

variable (userPacket : Nat) (toPublic : Secret → NodeId)

/-- `doneWorking`'s disconnect loop: a walk and, if it told any session, a
poll running the events `polls` gives for it (none once the list is used up),
then again. The host it leaves and how many walks it made; `none` when `fuel`
walks do not end it, or when a poll throws. -/
def disconnectLoop : Nat → List (List (Event CapDesc)) → Host CapDesc → Option (Host CapDesc × Nat)
  | 0, _, _ => none
  | fuel + 1, polls, h =>
    let (n, h) := h.disconnectPass
    if n = 0 then some (h, 1)
    else match h.runEvents userPacket toPublic (polls.headD []) with
      | .ok h => (disconnectLoop fuel polls.tail h).map fun r => (r.1, r.2 + 1)
      | .raised _ => none

end Loop

@[simp] theorem disconnect_nextRef (h : Host CapDesc) (s : Ref) :
    (h.disconnect s).nextRef = h.nextRef := rfl

theorem disconnect_isOpenSession (h : Host CapDesc) (s q : Ref) :
    (h.disconnect s).isOpenSession q = if q = s then false else h.isOpenSession q := by
  unfold disconnect isOpenSession
  split_ifs with hq <;> simp [hq]

theorem mem_openSessions {h : Host CapDesc} {s : Ref} :
    s ∈ h.openSessions ↔ s < h.nextRef ∧ h.isOpenSession s = true := by
  simp [openSessions]

theorem TablesWf.disconnect {h : Host CapDesc} (wf : h.TablesWf) (s : Ref) :
    (h.disconnect s).TablesWf :=
  wf.modifySession s rfl fun h => h

theorem TablesWf.lt_of_isOpenSession {h : Host CapDesc} (wf : h.TablesWf) {s : Ref}
    (hs : h.isOpenSession s = true) : s < h.nextRef :=
  (wf.alive_lt s (Bool.and_eq_true _ _ ▸ hs).1).1

theorem foldl_quitStep {P : Nat × Host CapDesc → Prop}
    (hstep : ∀ acc e, P acc → P (quitStep acc e)) :
    ∀ (es : List (NodeId × Ref)) (acc : Nat × Host CapDesc), P acc → P (es.foldl quitStep acc)
  | [], _, h => h
  | e :: es, acc, h => foldl_quitStep hstep es _ (hstep acc e h)

theorem disconnectPass_frame (h : Host CapDesc) :
    h.disconnectPass.2 = { h with sessionObj := h.disconnectPass.2.sessionObj } :=
  foldl_quitStep (P := fun acc => acc.2 = { h with sessionObj := acc.2.sessionObj })
    (fun acc e hacc => by
      unfold quitStep
      split_ifs
      · dsimp only
        rw [hacc]
        rfl
      · exact hacc) _ _ rfl

theorem TablesWf.disconnectPass {h : Host CapDesc} (wf : h.TablesWf) :
    h.disconnectPass.2.TablesWf ∧
      h.disconnectPass.2.openSessions.card + h.disconnectPass.1 ≤ h.openSessions.card ∧
      (h.disconnectPass.1 = 0 → h.disconnectPass.2 = h) :=
  foldl_quitStep (P := fun acc => acc.2.TablesWf ∧ acc.2.openSessions.card + acc.1 ≤ h.openSessions.card ∧
      (acc.1 = 0 → acc.2 = h))
    (fun acc e ⟨wf', hcard, hzero⟩ => by
      unfold quitStep
      split_ifs with hs
      · have herase : (acc.2.disconnect e.2).openSessions = acc.2.openSessions.erase e.2 := by
          ext q
          simp only [mem_openSessions, Finset.mem_erase, disconnect_isOpenSession]
          split_ifs with hq <;> simp [hq, disconnect]
        have := Finset.card_erase_add_one (mem_openSessions.2 ⟨wf'.lt_of_isOpenSession hs, hs⟩)
        refine ⟨wf'.disconnect e.2, ?_, fun h0 => absurd h0 (Nat.succ_ne_zero _)⟩
        dsimp only
        rw [herase]
        omega
      · exact ⟨wf', hcard, hzero⟩) _ _ ⟨wf, by simp, fun _ => rfl⟩

theorem disconnectPass_closes (h : Host CapDesc) :
    ∀ e ∈ h.sessions.entries, h.disconnectPass.2.isOpenSession e.2 = false := by
  have closed : ∀ q (es : List (NodeId × Ref)) (acc : Nat × Host CapDesc), acc.2.isOpenSession q = false →
      (es.foldl quitStep acc).2.isOpenSession q = false := fun q =>
    foldl_quitStep (P := fun acc => acc.2.isOpenSession q = false) fun acc e hq => by
      unfold quitStep
      split_ifs
      · dsimp only
        rw [disconnect_isOpenSession]
        split_ifs
        · rfl
        · exact hq
      · exact hq
  suffices ∀ (es : List (NodeId × Ref)) (acc : Nat × Host CapDesc), ∀ e ∈ es,
      (es.foldl quitStep acc).2.isOpenSession e.2 = false from this _ _
  intro es
  induction es with
  | nil => exact fun _ e he => absurd he (List.not_mem_nil e)
  | cons e' es ih =>
    intro acc e he
    rcases List.mem_cons.1 he with rfl | he
    · rw [List.foldl_cons]
      apply closed
      unfold quitStep
      split_ifs with ho
      · simp [disconnect_isOpenSession]
      · exact Bool.eq_false_iff.2 ho
    · exact ih _ e he

@[simp] theorem modifyPeer_sessionObj (h : Host CapDesc) (p : Ref) (f : Peer → Peer) :
    (h.modifyPeer p f).sessionObj = h.sessionObj := rfl

@[simp] theorem modifyPeer_nextRef (h : Host CapDesc) (p : Ref) (f : Peer → Peer) :
    (h.modifyPeer p f).nextRef = h.nextRef := rfl

@[simp] theorem newPeer_sessionObj (h : Host CapDesc) (x : Peer) :
    (h.newPeer x).2.sessionObj = h.sessionObj := rfl

theorem TablesWf.card_openSessions_le {h h' : Host CapDesc} (wf : h.TablesWf)
    (hopen : ∀ s, h'.isOpenSession s = true → h.isOpenSession s = true) :
    h'.openSessions.card ≤ h.openSessions.card :=
  Finset.card_le_card fun s hs =>
    have ho := hopen s (mem_openSessions.1 hs).2
    mem_openSessions.2 ⟨wf.lt_of_isOpenSession ho, ho⟩

theorem TablesWf.card_openSessions_le_succ {h h' : Host CapDesc} (wf : h.TablesWf) (r : Ref)
    (hopen : ∀ s, s ≠ r → h'.isOpenSession s = true → h.isOpenSession s = true) :
    h'.openSessions.card ≤ h.openSessions.card + 1 := by
  refine (Finset.card_le_card fun s hs => ?_).trans (Finset.card_insert_le r _)
  rw [Finset.mem_insert, mem_openSessions]
  by_cases hsr : s = r
  · exact .inl hsr
  · have ho := hopen s hsr (mem_openSessions.1 hs).2
    exact .inr ⟨wf.lt_of_isOpenSession ho, ho⟩

theorem TablesWf.drainBound_le {h h' : Host CapDesc} (wf : h.TablesWf)
    (hopen : ∀ s, h'.isOpenSession s = true → h.isOpenSession s = true)
    (hconn : h'.connecting = h.connecting) (hacc : h'.acceptsOutstanding = h.acceptsOutstanding) :
    h'.drainBound ≤ h.drainBound := by
  have := wf.card_openSessions_le hopen
  unfold drainBound
  rw [hconn, hacc]
  omega

theorem connect_of_not_run {h : Host CapDesc} (hrun : h.run = false) (p : Ref) : h.connect p = h := by
  simp [connect, hrun]

theorem runAcceptor_of_not_run {h : Host CapDesc} (hrun : h.run = false) : h.runAcceptor = h := by
  simp [runAcceptor, hrun]

theorem notePeer_acceptsOutstanding (h : Host CapDesc) (n : NodeId) (tcp : Endpoint) :
    (h.notePeer n tcp).2.acceptsOutstanding = h.acceptsOutstanding := by
  unfold notePeer
  rcases h.peerTable.index n with ⟨_ | r, table⟩ <;> rfl

theorem TablesWf.onNodeTableEvent_drainBound {h : Host CapDesc} (wf : h.TablesWf) (hrun : h.run = false)
    (n : NodeId) (e : NodeTableEventType) :
    (h.onNodeTableEvent n e).drainBound ≤ h.drainBound ∧ (h.onNodeTableEvent n e).run = false := by
  have noted : (h.notePeer n (h.nodeTableNode n).endpoint.tcp).2.drainBound ≤ h.drainBound ∧
      (h.notePeer n (h.nodeTableNode n).endpoint.tcp).2.run = false := by
    have hacc := notePeer_acceptsOutstanding h n (h.nodeTableNode n).endpoint.tcp
    have spec := notePeer_spec h n (h.nodeTableNode n).endpoint.tcp
    generalize h.notePeer n (h.nodeTableNode n).endpoint.tcp = x at spec hacc ⊢
    obtain ⟨-, -, -, -, hobj, hconn, -, hrun', -⟩ := spec
    refine ⟨wf.drainBound_le (fun s hs => ?_) hconn hacc, hrun'.trans hrun⟩
    simpa only [isOpenSession, hobj] using hs
  cases e with
  | nodeEntryAdded =>
    rw [onNodeTableEvent_added]
    split_ifs
    · exact ⟨le_rfl, hrun⟩
    · rwa [connect_of_not_run noted.2]
    · exact noted
  | nodeEntryRemoved => exact ⟨le_rfl, hrun⟩

theorem TablesWf.connectHandler_drainBound {h h' : Host CapDesc} (wf : h.TablesWf) {p : Ref}
    (hp : p ∈ h.connecting) {refused raises : Bool} {now : TimePoint}
    (hok : h.connectHandler p refused raises now = .ok h') :
    h'.drainBound ≤ h.drainBound ∧ h'.run = h.run := by
  have hlen := List.length_erase_of_mem hp
  have hpos := List.length_pos_of_mem hp
  have hcard : h'.openSessions.card ≤ h.openSessions.card + 1 ∧ h'.connecting = h.connecting.erase p ∧
      h'.acceptsOutstanding = h.acceptsOutstanding ∧ h'.run = h.run := by
    cases refused with
    | true =>
      rw [connectHandler_refused] at hok
      cases hok
      exact ⟨Nat.le_succ_of_le (wf.card_openSessions_le fun s hs => hs), rfl, rfl, rfl⟩
    | false =>
      cases raises with
      | true => cases hok
      | false =>
        rw [connectHandler_started] at hok
        cases hok
        refine ⟨wf.card_openSessions_le_succ h.nextRef fun s hs ho => ?_, rfl, rfl, rfl⟩
        simpa only [isOpenSession, newSession_sessionObj, modifyPeer_sessionObj, modifyPeer_nextRef,
          if_neg hs] using ho
  obtain ⟨hcard, hconn, hacc, hrun⟩ := hcard
  refine ⟨?_, hrun⟩
  unfold drainBound
  rw [hconn, hacc, hlen]
  omega

theorem TablesWf.doHandshake_inbound_card {h : Host CapDesc} (wf : h.TablesWf) (remote : Option Address)
    (sessionRaises : Bool) :
    (h.doHandshake 0 remote sessionRaises).state.1.openSessions.card ≤ h.openSessions.card + 1 ∧
      (h.doHandshake 0 remote sessionRaises).state.1.connecting = h.connecting ∧
      (h.doHandshake 0 remote sessionRaises).state.1.acceptsOutstanding = h.acceptsOutstanding ∧
      (h.doHandshake 0 remote sessionRaises).state.1.run = h.run := by
  rw [doHandshake_inbound]
  cases remote with
  | none => exact ⟨Nat.le_succ _, rfl, rfl, rfl⟩
  | some a =>
    cases sessionRaises with
    | true => exact ⟨Nat.le_succ_of_le (wf.card_openSessions_le fun s hs => hs), rfl, rfl, rfl⟩
    | false =>
      refine ⟨wf.card_openSessions_le_succ (h.nextRef + 1) fun s hs ho => ?_, rfl, rfl, rfl⟩
      simpa only [Bool.false_eq_true, if_false, Outcome.state, isOpenSession, newSession_sessionObj,
        newPeer_sessionObj, newPeer_nextRef, if_neg hs] using ho

theorem TablesWf.acceptHandler_drainBound {h : Host CapDesc} (wf : h.TablesWf) (hrun : h.run = false)
    (hacc : 0 < h.acceptsOutstanding) (ec : Int) (socketOpen : Bool) (remote : Option Address)
    (sessionRaises : Bool) :
    (h.acceptHandler ec socketOpen remote sessionRaises).1.drainBound ≤ h.drainBound ∧
      (h.acceptHandler ec socketOpen remote sessionRaises).1.run = false := by
  have handshake : (if ec = 0 then (h.doHandshake 0 remote sessionRaises).state.1 else h).openSessions.card ≤
        h.openSessions.card + 1 ∧
      (if ec = 0 then (h.doHandshake 0 remote sessionRaises).state.1 else h).connecting = h.connecting ∧
      (if ec = 0 then (h.doHandshake 0 remote sessionRaises).state.1 else h).acceptsOutstanding =
        h.acceptsOutstanding ∧
      (if ec = 0 then (h.doHandshake 0 remote sessionRaises).state.1 else h).run = h.run := by
    split_ifs
    · exact wf.doHandshake_inbound_card remote sessionRaises
    · exact ⟨Nat.le_succ _, rfl, rfl, rfl⟩
  rw [acceptHandler_fst]
  generalize (if ec = 0 then (h.doHandshake 0 remote sessionRaises).state.1 else h) = h₁ at handshake ⊢
  obtain ⟨hcard, hconn, hacc', hrun'⟩ := handshake
  dsimp only
  have h₂run : ({ h₁ with accepting := false, acceptsOutstanding := h₁.acceptsOutstanding - 1 } :
      Host CapDesc).run = false := hrun'.trans hrun
  have h₂bound : ({ h₁ with accepting := false, acceptsOutstanding := h₁.acceptsOutstanding - 1 } :
      Host CapDesc).drainBound ≤ h.drainBound := by
    show h₁.openSessions.card + h₁.connecting.length + (h₁.acceptsOutstanding - 1) ≤ h.drainBound
    unfold drainBound
    rw [hconn, hacc']
    omega
  split_ifs
  · rw [runAcceptor_of_not_run h₂run]
    exact ⟨h₂bound, h₂run⟩
  · exact ⟨h₂bound, h₂run⟩

theorem hello_isOpenSession (userPacket : Nat) (h : Host CapDesc) (s : Ref) (id : NodeId)
    (caps : List CapDesc) (q : Ref) :
    (h.hello userPacket s id caps).isOpenSession q = h.isOpenSession q := by
  unfold hello
  dsimp only
  split_ifs <;> simp only [registerPeer_eq, isOpenSession, modifyPeer] <;> split_ifs with hq <;>
    simp [hq]

theorem hello_frame (userPacket : Nat) (h : Host CapDesc) (s : Ref) (id : NodeId) (caps : List CapDesc) :
    (h.hello userPacket s id caps).connecting = h.connecting ∧
      (h.hello userPacket s id caps).acceptsOutstanding = h.acceptsOutstanding ∧
      (h.hello userPacket s id caps).run = h.run := by
  unfold hello
  dsimp only
  split_ifs
  · exact ⟨rfl, rfl, rfl⟩
  all_goals
    rw [registerPeer_eq]
    exact ⟨rfl, rfl, rfl⟩

section Polls

variable (userPacket : Nat) (toPublic : Secret → NodeId)

theorem Wf.drainBound_step {h h' : Host CapDesc} (wf : h.Wf) (hrun : h.run = false) {e : Event CapDesc}
    (he : e ≠ .setRun true) (hs : h.step userPacket toPublic e = .ok h') :
    h'.drainBound ≤ h.drainBound ∧ h'.run = false := by
  cases e with
  | setRun running =>
    cases running
    · cases hs
      exact ⟨le_rfl, rfl⟩
    · exact absurd rfl he
  | nodeTable n e =>
    cases hs
    exact wf.tables.onNodeTableEvent_drainBound hrun n e
  | connectDone p refused raises now =>
    simp only [Host.step] at hs
    split_ifs at hs with hp
    · exact (wf.tables.connectHandler_drainBound hp hs).imp_right (·.trans hrun)
    · cases hs
      exact ⟨le_rfl, hrun⟩
  | runAcceptor =>
    cases hs
    rw [runAcceptor_of_not_run hrun]
    exact ⟨le_rfl, hrun⟩
  | acceptDone ec socketOpen remote sessionRaises =>
    simp only [Host.step] at hs
    split_ifs at hs with hacc
    · cases hs
      exact wf.tables.acceptHandler_drainBound hrun hacc ec socketOpen remote sessionRaises
    · cases hs
      exact ⟨le_rfl, hrun⟩
  | hello s id caps =>
    cases hs
    obtain ⟨hconn, hacc, hrun'⟩ := hello_frame userPacket h s id caps
    exact ⟨wf.tables.drainBound_le (fun q hq => (hello_isOpenSession userPacket h s id caps q) ▸ hq)
      hconn hacc, hrun'.trans hrun⟩
  | sessionEnds s =>
    cases hs
    refine ⟨wf.tables.drainBound_le (fun q hq => ?_) rfl rfl, hrun⟩
    simp only [Host.sessionEnds, isOpenSession, modifySession_sessionObj] at hq ⊢
    split_ifs at hq with hqs
    · simp at hq
    · exact hq
  | restoreNodes r =>
    cases hs
    rw [restoreNodes_state]
    exact ⟨le_rfl, hrun⟩
  | setIdealPeerCount | registerCapability | discover | clearSessions =>
    cases hs
    exact ⟨le_rfl, hrun⟩

theorem step_ok (h : Host CapDesc) {e : Event CapDesc} (he : ∀ p now, e ≠ .connectDone p false true now) :
    ∃ h', h.step userPacket toPublic e = .ok h' := by
  cases e
  case connectDone p refused raises now =>
    simp only [Host.step]
    split_ifs
    · cases refused
      · cases raises
        · exact ⟨_, connectHandler_started _ _ _⟩
        · exact absurd rfl (he p now)
      · exact ⟨_, connectHandler_refused _ _ _ _⟩
    · exact ⟨_, rfl⟩
  case acceptDone =>
    simp only [Host.step]
    split_ifs <;> exact ⟨_, rfl⟩
  all_goals exact ⟨_, rfl⟩

theorem Wf.runEvents_drainBound {h : Host CapDesc} (wf : h.Wf) (hrun : h.run = false)
    {evs : List (Event CapDesc)}
    (hevs : ∀ e ∈ evs, e ≠ .setRun true ∧ ∀ p now, e ≠ .connectDone p false true now) :
    ∃ h', h.runEvents userPacket toPublic evs = .ok h' ∧ h'.Wf ∧ h'.run = false ∧
      h'.drainBound ≤ h.drainBound := by
  induction evs generalizing h with
  | nil => exact ⟨h, rfl, wf, hrun, le_rfl⟩
  | cons e evs ih =>
    obtain ⟨hset, hraise⟩ := hevs e (List.mem_cons_self _ _)
    obtain ⟨h₁, hs⟩ := step_ok userPacket toPublic h hraise
    obtain ⟨hle₁, hrun₁⟩ := wf.drainBound_step userPacket toPublic hrun hset hs
    obtain ⟨h', hr, wf', hrun', hle'⟩ :=
      ih (wf.step userPacket toPublic hs) hrun₁ fun e' he' => hevs e' (List.mem_cons_of_mem _ he')
    refine ⟨h', ?_, wf', hrun', hle'.trans hle₁⟩
    simp only [runEvents, hs, hr]

theorem forall_mem_headD {α : Type} {Q : α → Prop} {polls : List (List α)}
    (hpolls : ∀ evs ∈ polls, ∀ e ∈ evs, Q e) : ∀ e ∈ polls.headD [], Q e := by
  cases polls with
  | nil => exact fun e he => absurd he (List.not_mem_nil e)
  | cons evs _ => exact hpolls evs (List.mem_cons_self _ _)

theorem Wf.disconnectPass {h : Host CapDesc} (wf : h.Wf) : h.disconnectPass.2.Wf :=
  ⟨wf.tables.disconnectPass.1, by rw [disconnectPass_frame]; exact wf.dials.of_le le_rfl rfl rfl⟩

theorem Wf.disconnectLoop_bound {h : Host CapDesc} (wf : h.Wf) (hrun : h.run = false)
    {polls : List (List (Event CapDesc))}
    (hpolls : ∀ evs ∈ polls, ∀ e ∈ evs, e ≠ .setRun true ∧ ∀ p now, e ≠ .connectDone p false true now)
    {fuel : Nat} (hfuel : h.drainBound < fuel) :
    ∃ h' k, disconnectLoop userPacket toPublic fuel polls h = some (h', k) ∧ k ≤ h.drainBound + 1 ∧
      ∀ e ∈ h'.sessions.entries, h'.isOpenSession e.2 = false := by
  induction fuel generalizing h polls with
  | zero => exact absurd hfuel (Nat.not_lt_zero _)
  | succ fuel ih =>
    obtain ⟨-, hcard, hzero⟩ := wf.tables.disconnectPass
    have wf₁ := wf.disconnectPass
    have hframe := disconnectPass_frame h
    have hclosed := disconnectPass_closes h
    rcases hpass : h.disconnectPass with ⟨n, h₁⟩
    simp only [hpass] at wf₁ hcard hzero hframe hclosed
    have hsessions : h₁.sessions = h.sessions := by rw [hframe]
    simp only [disconnectLoop, hpass]
    split_ifs with hn
    · exact ⟨h₁, 1, rfl, by omega, hsessions ▸ hclosed⟩
    have hbound : h₁.drainBound + 1 ≤ h.drainBound := by
      have hconn : h₁.connecting = h.connecting := by rw [hframe]
      have hacc : h₁.acceptsOutstanding = h.acceptsOutstanding := by rw [hframe]
      unfold drainBound
      rw [hconn, hacc]
      omega
    have hrun₁ : h₁.run = false := by rw [hframe]; exact hrun
    obtain ⟨h₂, hr, wf₂, hrun₂, hle₂⟩ :=
      wf₁.runEvents_drainBound userPacket toPublic hrun₁ (forall_mem_headD hpolls)
    obtain ⟨h', k, hloop, hk, hclosed'⟩ := ih wf₂ hrun₂ (fun evs hevs => hpolls evs (List.mem_of_mem_tail hevs))
      (by omega)
    refine ⟨h', k + 1, ?_, by omega, hclosed'⟩
    simp only [hr, hloop, Option.map_some']

/-- From any reachable state with `m_run` clear, and whatever the polls run
short of a restart or a `Session` that throws, `doneWorking`'s disconnect loop
ends within one walk more than the open sessions, dials in flight and accepts
outstanding it starts with, and leaves no session of `m_sessions` open. -/
theorem disconnectLoop_ends {h : Host CapDesc} (hr : Reachable userPacket toPublic h)
    (hrun : h.run = false) {polls : List (List (Event CapDesc))}
    (hpolls : ∀ evs ∈ polls, ∀ e ∈ evs, e ≠ .setRun true ∧ ∀ p now, e ≠ .connectDone p false true now)
    {fuel : Nat} (hfuel : h.drainBound < fuel) :
    ∃ h' k, disconnectLoop userPacket toPublic fuel polls h = some (h', k) ∧ k ≤ h.drainBound + 1 ∧
      ∀ e ∈ h'.sessions.entries, h'.isOpenSession e.2 = false :=
  (reachable_wf userPacket toPublic hr).disconnectLoop_bound userPacket toPublic hrun hpolls hfuel

end Polls

/-- A stopped host with one open session, node `1`'s dial in flight and an
accept outstanding: the first walk tells the session, the poll completes the
dial, whose session says hello as node `1`, the second walk tells that one,
and the third finds none. -/
theorem disconnectLoop_ends_after_dial :
    ∃ h : Host Nat, Reachable 16 (fun s => s + 2) h ∧ h.run = false ∧ h.drainBound = 3 ∧
      (disconnectLoop 16 (fun s => s + 2) 4 [[.connectDone 0 false false 0, .hello 3 1 []]] h).map
        Prod.snd = some 3 ∧
      ∃ h' k, disconnectLoop 16 (fun s => s + 2) 4 [[.connectDone 0 false false 0, .hello 3 1 []]] h =
        some (h', k) ∧ k ≤ h.drainBound + 1 ∧ ∀ e ∈ h'.sessions.entries, h'.isOpenSession e.2 = false :=
  let evs : List (Event Nat) := [.setRun true, .discover 1 (some {}), .nodeTable 1 .nodeEntryAdded,
    .runAcceptor, .acceptDone 0 true (some (.v4 0x01020304)) false, .hello 2 5 [], .setRun false]
  let hr : Reachable 16 (fun s => s + 2) (runEvents 16 (fun s => s + 2) (Host.init ⟨7, 9⟩) evs).state :=
    ⟨⟨7, 9⟩, evs, run_of_runEvents _ _ rfl⟩
  ⟨_, hr, by decide, by decide, by decide,
    disconnectLoop_ends 16 _ hr (by decide) (by simp) (by decide)⟩

end Host

end P2PHost
