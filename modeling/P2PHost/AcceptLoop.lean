import P2PHost.Registry

/-!
# The accept loop

`runAcceptor` arms an `async_accept` only when `m_accepting` is clear, and the
accept's handler clears it before it calls `runAcceptor` again. Of the Host the
two read and write `m_run`, `m_accepting` and the accepts in flight, and every
other step leaves those alone: the Host's steps refine a machine of three
fields, `AcceptLoop`, where what the loop guarantees is proved and from where it
is carried back to the Host.

`doneWorking` cancels and closes the acceptor, then polls until `m_accepting`
clears; the cancelled accept completes with `operation_aborted`, one of the
arbitrary error values a completion carries. With `m_run` false from there on,
no step arms an accept until `startedWorking` sets `m_run` again.
-/

namespace P2PHost

/-- The accept loop's part of the Host: `m_run`, `m_accepting` and the number
of `async_accept`s in flight. -/
structure AcceptLoop where
  run : Bool
  accepting : Bool
  outstanding : Nat
  deriving DecidableEq, Repr

/-- What reaches the accept loop: `m_run` set or cleared, a call of
`runAcceptor`, or the completion of an accept with its error value. -/
inductive AcceptEvent where
  | setRun (running : Bool)
  | runAcceptor
  | complete (ec : Int)
  deriving DecidableEq, Repr

namespace AcceptLoop

def runAcceptor (a : AcceptLoop) : AcceptLoop :=
  if a.run && !a.accepting then { a with accepting := true, outstanding := a.outstanding + 1 }
  else a

/-- One event; a completion only happens for an accept in flight, and its
handler re-arms for `ec.value() < 1`. -/
def step (a : AcceptLoop) : AcceptEvent → AcceptLoop
  | .setRun running => { a with run := running }
  | .runAcceptor => a.runAcceptor
  | .complete ec =>
    if 0 < a.outstanding then
      let a := { a with accepting := false, outstanding := a.outstanding - 1 }
      if ec < 1 then a.runAcceptor else a
    else a

/-- The flag is exact: one accept is in flight when it is set, none otherwise. -/
def Wf (a : AcceptLoop) : Prop := a.outstanding = a.accepting.toNat

/-- Stopped and drained: `m_run` and `m_accepting` clear, no accept in flight. -/
def Drained (a : AcceptLoop) : Prop := a.run = false ∧ a.accepting = false ∧ a.outstanding = 0

theorem Wf.exact {a : AcceptLoop} (wf : a.Wf) :
    a.outstanding ≤ 1 ∧ (a.accepting = true ↔ a.outstanding = 1) := by
  obtain ⟨run, _ | _, outstanding⟩ := a <;> simp_all [Wf]

theorem Wf.idle {a : AcceptLoop} (wf : a.Wf) (clear : a.accepting = false) : a.outstanding = 0 := by
  rw [wf, clear]
  rfl

theorem Wf.runAcceptor {a : AcceptLoop} (wf : a.Wf) : a.runAcceptor.Wf := by
  unfold AcceptLoop.runAcceptor
  split_ifs with h
  · simp only [Bool.and_eq_true, Bool.not_eq_true'] at h
    show a.outstanding + 1 = 1
    rw [wf, h.2]
    rfl
  · exact wf

theorem Wf.step {a : AcceptLoop} (wf : a.Wf) (e : AcceptEvent) : (a.step e).Wf := by
  cases e with
  | setRun running => exact wf
  | runAcceptor => exact wf.runAcceptor
  | complete ec =>
    have done : ({ a with accepting := false, outstanding := a.outstanding - 1 } : AcceptLoop).Wf := by
      obtain ⟨run, _ | _, outstanding⟩ := a <;> simp_all [Wf]
    simp only [AcceptLoop.step]
    split_ifs
    · exact done.runAcceptor
    · exact done
    · exact wf

theorem Drained.step {a : AcceptLoop} (hd : a.Drained) {e : AcceptEvent}
    (he : e ≠ .setRun true) : (a.step e).Drained := by
  obtain ⟨run, accepting, outstanding⟩ := a
  obtain ⟨rfl, rfl, rfl⟩ := hd
  cases e with
  | setRun running =>
    cases running
    · exact ⟨rfl, rfl, rfl⟩
    · exact absurd rfl he
  | runAcceptor => exact ⟨rfl, rfl, rfl⟩
  | complete ec => exact ⟨rfl, rfl, rfl⟩

end AcceptLoop

variable {CapDesc : Type} [LinearOrder CapDesc]

/-- The accept loop's event of a Host event, for the events that reach it. -/
def Event.acceptEvent : Event CapDesc → Option AcceptEvent
  | .setRun running => some (.setRun running)
  | .runAcceptor => some .runAcceptor
  | .acceptDone ec _ _ _ => some (.complete ec)
  | _ => none

omit [LinearOrder CapDesc] in
theorem Event.acceptEvent_ne_setRun_true {e : Event CapDesc} (he : e ≠ .setRun true) :
    e.acceptEvent ≠ some (.setRun true) := by
  cases e <;> simp_all [Event.acceptEvent]

namespace Host

/-- The accept loop's fields of a Host. -/
def acceptLoop (h : Host CapDesc) : AcceptLoop := ⟨h.run, h.accepting, h.acceptsOutstanding⟩

section Frame

variable (h : Host CapDesc)

@[simp] theorem modifyPeer_acceptLoop (p : Ref) (f : Peer → Peer) :
    (h.modifyPeer p f).acceptLoop = h.acceptLoop := rfl

@[simp] theorem modifySession_acceptLoop (s : Ref) (f : Session CapDesc → Session CapDesc) :
    (h.modifySession s f).acceptLoop = h.acceptLoop := rfl

@[simp] theorem newPeer_acceptLoop (x : Peer) : (h.newPeer x).2.acceptLoop = h.acceptLoop := rfl

@[simp] theorem newSession_acceptLoop (y : Session CapDesc) :
    (h.newSession y).2.acceptLoop = h.acceptLoop := rfl

theorem connect_acceptLoop (p : Ref) : (h.connect p).acceptLoop = h.acceptLoop := by
  rcases connect_cases h p with heq | ⟨-, heq⟩
  · rw [heq]
  · rw [heq]
    rfl

theorem notePeer_acceptLoop (n : NodeId) (tcp : Endpoint) :
    (h.notePeer n tcp).2.acceptLoop = h.acceptLoop := by
  unfold notePeer
  rcases h.peerTable.index n with ⟨_ | r, table⟩ <;> rfl

theorem onNodeTableEvent_acceptLoop (n : NodeId) (e : NodeTableEventType) :
    (h.onNodeTableEvent n e).acceptLoop = h.acceptLoop := by
  cases e with
  | nodeEntryAdded =>
    rw [onNodeTableEvent_added]
    split_ifs
    · rfl
    · rw [connect_acceptLoop, notePeer_acceptLoop]
    · exact notePeer_acceptLoop h n _
  | nodeEntryRemoved => rfl

theorem connectHandler_acceptLoop {h' : Host CapDesc} {p : Ref} {refused raises : Bool}
    {now : TimePoint} (hs : h.connectHandler p refused raises now = .ok h') :
    h'.acceptLoop = h.acceptLoop := by
  unfold connectHandler at hs
  split_ifs at hs <;> cases hs <;> rfl

theorem registerPeer_acceptLoop (userPacket : Nat) (s : Ref) (caps : List CapDesc) :
    (h.registerPeer userPacket s caps).acceptLoop = h.acceptLoop := by
  unfold registerPeer
  dsimp only
  split_ifs <;> rfl

theorem hello_acceptLoop (userPacket : Nat) (s : Ref) (id : NodeId) (caps : List CapDesc) :
    (h.hello userPacket s id caps).acceptLoop = h.acceptLoop := by
  unfold hello
  dsimp only
  split_ifs <;> simp only [registerPeer_acceptLoop, modifyPeer_acceptLoop]

theorem restoreNodes_acceptLoop (toPublic : Secret → NodeId) (r : RLP) :
    (h.restoreNodes toPublic r).state.acceptLoop = h.acceptLoop := by
  rw [restoreNodes_state]
  rfl

theorem runAcceptor_acceptLoop : h.runAcceptor.acceptLoop = h.acceptLoop.runAcceptor := by
  simp only [runAcceptor, AcceptLoop.runAcceptor, acceptLoop]
  split_ifs <;> rfl

theorem acceptHandler_acceptLoop (ec : Int) (socketOpen : Bool) (remote : Option Address)
    (sessionRaises : Bool) (outstanding : 0 < h.acceptsOutstanding) :
    (h.acceptHandler ec socketOpen remote sessionRaises).1.acceptLoop =
      h.acceptLoop.step (.complete ec) := by
  have handshake : (if ec = 0 then (h.doHandshake 0 remote sessionRaises).state.1 else h).acceptLoop =
      h.acceptLoop := by
    rw [doHandshake_inbound]
    cases remote <;> cases sessionRaises <;> split_ifs <;> rfl
  rw [acceptHandler_fst]
  generalize (if ec = 0 then (h.doHandshake 0 remote sessionRaises).state.1 else h) = h₁ at handshake ⊢
  have done : ({ h₁ with accepting := false, acceptsOutstanding := h₁.acceptsOutstanding - 1 } :
      Host CapDesc).acceptLoop =
      { h.acceptLoop with accepting := false, outstanding := h.acceptLoop.outstanding - 1 } := by
    rw [← handshake]
    rfl
  simp only [AcceptLoop.step, show 0 < h.acceptLoop.outstanding from outstanding, if_true]
  split_ifs
  · rw [runAcceptor_acceptLoop, done]
  · exact done

end Frame

variable (userPacket : Nat) (toPublic : Secret → NodeId)

theorem step_acceptLoop {h h' : Host CapDesc} {e : Event CapDesc}
    (hs : h.step userPacket toPublic e = .ok h') :
    h'.acceptLoop = match e.acceptEvent with
      | some a => h.acceptLoop.step a
      | none => h.acceptLoop := by
  cases e with
  | connectDone p refused raises now =>
    simp only [Host.step] at hs
    split_ifs at hs
    · exact connectHandler_acceptLoop h hs
    · cases hs; rfl
  | acceptDone ec socketOpen remote sessionRaises =>
    simp only [Host.step] at hs
    split_ifs at hs with hpos <;> cases hs
    · exact acceptHandler_acceptLoop h ec socketOpen remote sessionRaises hpos
    · exact (if_neg hpos).symm
  | nodeTable n e => cases hs; exact onNodeTableEvent_acceptLoop h n e
  | hello s id caps => cases hs; exact hello_acceptLoop h userPacket s id caps
  | sessionEnds s => cases hs; rfl
  | restoreNodes r => cases hs; exact restoreNodes_acceptLoop h toPublic r
  | runAcceptor => cases hs; exact runAcceptor_acceptLoop h
  | setRun running | setIdealPeerCount n | registerCapability d c | discover n ep
  | clearSessions => cases hs; rfl

theorem Run.acceptLoop_wf {h h' : Host CapDesc} {evs : List (Event CapDesc)}
    (hr : Run userPacket toPublic h evs h') (wf : h.acceptLoop.Wf) : h'.acceptLoop.Wf := by
  induction hr with
  | nil => exact wf
  | @cons h h₁ h₂ e evs hs _ ih =>
    refine ih ?_
    rw [step_acceptLoop userPacket toPublic hs]
    split
    · exact wf.step _
    · exact wf

theorem Run.acceptLoop_drained {h h' : Host CapDesc} {evs : List (Event CapDesc)}
    (hr : Run userPacket toPublic h evs h') (hd : h.acceptLoop.Drained)
    (restart : ∀ e ∈ evs, e ≠ .setRun true) : h'.acceptLoop.Drained := by
  induction hr with
  | nil => exact hd
  | @cons h h₁ h₂ e evs hs _ ih =>
    refine ih ?_ fun e' he' => restart e' (List.mem_cons_of_mem e he')
    rw [step_acceptLoop userPacket toPublic hs]
    split
    · next a ha =>
      exact hd.step fun hs' => Event.acceptEvent_ne_setRun_true
        (restart e (List.mem_cons_self e evs)) (hs' ▸ ha)
    · exact hd

theorem reachable_acceptLoop_wf {h : Host CapDesc} (hr : Reachable userPacket toPublic h) :
    h.acceptLoop.Wf := by
  obtain ⟨keyAlias, evs, hr⟩ := hr
  exact hr.acceptLoop_wf userPacket toPublic rfl

/-- In every reachable state at most one accept is in flight and `m_accepting`
is set exactly when one is. Once `doneWorking`'s drain loop exits, with
`m_run` false and `m_accepting` clear, no accept is in flight, and none is
armed by any run that does not set `m_run` again. -/
theorem accept_flag_exact_and_drained {h : Host CapDesc} (hr : Reachable userPacket toPublic h) :
    h.acceptsOutstanding ≤ 1 ∧ (h.accepting = true ↔ h.acceptsOutstanding = 1) ∧
      (h.run = false → h.accepting = false → h.acceptsOutstanding = 0 ∧
        ∀ (evs : List (Event CapDesc)) (h' : Host CapDesc), Run userPacket toPublic h evs h' →
          (∀ e ∈ evs, e ≠ .setRun true) → h'.acceptsOutstanding = 0 ∧ h'.accepting = false) := by
  have wf := reachable_acceptLoop_wf userPacket toPublic hr
  refine ⟨wf.exact.1, wf.exact.2, fun stopped clear => ?_⟩
  have idle : h.acceptsOutstanding = 0 := wf.idle clear
  refine ⟨idle, fun evs h' run restart => ?_⟩
  obtain ⟨-, hacc, hout⟩ := run.acceptLoop_drained userPacket toPublic ⟨stopped, clear, idle⟩ restart
  exact ⟨hout, hacc⟩

/-- The host after an accept is armed, the host is stopped, and the cancelled
accept completes with `operation_aborted` (value `125`). -/
theorem accept_flag_exact_and_drained_after_stop :
    ∃ h : Host Nat, Reachable 16 (fun s => s + 2) h ∧ h.run = false ∧ h.accepting = false ∧
      (h.acceptsOutstanding ≤ 1 ∧ (h.accepting = true ↔ h.acceptsOutstanding = 1) ∧
        (h.run = false → h.accepting = false → h.acceptsOutstanding = 0 ∧
          ∀ (evs : List (Event Nat)) (h' : Host Nat), Run 16 (fun s => s + 2) h evs h' →
            (∀ e ∈ evs, e ≠ .setRun true) → h'.acceptsOutstanding = 0 ∧ h'.accepting = false)) :=
  let evs : List (Event Nat) := [.setRun true, .runAcceptor, .setRun false, .acceptDone 125 false none false]
  let hr : Reachable 16 (fun s => s + 2) (runEvents 16 (fun s => s + 2) (Host.init ⟨7, 9⟩) evs).state :=
    ⟨⟨7, 9⟩, evs, run_of_runEvents _ _ rfl⟩
  ⟨_, hr, rfl, rfl, accept_flag_exact_and_drained 16 _ hr⟩

end Host

end P2PHost
