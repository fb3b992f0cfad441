import P2PHost.Dialer

/-!
# Inbound connections

`runAcceptor` arms an `async_accept` unless one is outstanding
(`m_accepting`). The accept's handler hands an accepted socket to
`doHandshake` inside a `try`, closes a socket it did not hand over, clears
`m_accepting`, and calls `runAcceptor` again when `ec.value() < 1`.

The error code, whether asio left the socket open, the socket's remote
address (`none` when `remote_endpoint()` throws) and whether the `Session`
construction or `start()` throws are inputs of the handler.
-/

namespace P2PHost

/-- Where an accepted socket is once its handler is done. -/
inductive SocketFate where
  | closed
  | isOpen
  | handedOver
  deriving DecidableEq, Repr

variable {CapDesc : Type} [LinearOrder CapDesc]

namespace Host

def runAcceptor (h : Host CapDesc) : Host CapDesc :=
  if h.run && !h.accepting then
    { h with accepting := true, acceptsOutstanding := h.acceptsOutstanding + 1 }
  else h

/-- `doHandshake(socket, nodeId)`: for a non-null `nodeId` the Peer is
`m_peers[nodeId]`, read through `operator[]`; otherwise, or when that is null,
a new Peer at the socket's remote address. The `Session` built with it takes
the socket; if it throws, it is destroyed and closes the socket. -/
def doHandshake (h : Host CapDesc) (nodeId : NodeId) (remote : Option Address)
    (sessionRaises : Bool) : Outcome (Host CapDesc × SocketFate) :=
  let (p, h) : Option Ref × Host CapDesc :=
    if nodeId ≠ 0 then
      let (v, table) := h.peerTable.index nodeId
      (v, { h with peerTable := table })
    else (none, h)
  let made : Option (Ref × Host CapDesc) := match p with
    | some r => some (r, h)
    | none => remote.map fun a => h.newPeer { endpoint := { tcp := { address := a } } }
  match made with
  | none => .raised (h, .isOpen)
  | some (r, h) =>
    if sessionRaises then .raised (h, .closed)
    else .ok ((h.newSession { peer := r }).2, .handedOver)

/-- The handler of `runAcceptor`'s `async_accept`. -/
def acceptHandler (h : Host CapDesc) (ec : Int) (socketOpen : Bool) (remote : Option Address)
    (sessionRaises : Bool) : Host CapDesc × SocketFate :=
  let (h, success, fate) : Host CapDesc × Bool × SocketFate :=
    if ec = 0 then
      match h.doHandshake 0 remote sessionRaises with
      | .ok (h', fate) => (h', true, fate)
      | .raised (h', fate) => (h', false, fate)
    else (h, false, if socketOpen then .isOpen else .closed)
  let fate := if !success && fate = .isOpen then .closed else fate
  let h := { h with accepting := false, acceptsOutstanding := h.acceptsOutstanding - 1 }
  (if ec < 1 then h.runAcceptor else h, fate)

theorem doHandshake_inbound (h : Host CapDesc) (remote : Option Address) (sessionRaises : Bool) :
    h.doHandshake 0 remote sessionRaises =
      match remote with
      | none => .raised (h, .isOpen)
      | some a =>
        let (r, h) := h.newPeer { endpoint := { tcp := { address := a } } }
        if sessionRaises then .raised (h, .closed)
        else .ok ((h.newSession { peer := r }).2, .handedOver) := by
  cases remote <;> rfl

theorem acceptHandler_fst (h : Host CapDesc) (ec : Int) (socketOpen : Bool)
    (remote : Option Address) (sessionRaises : Bool) :
    (h.acceptHandler ec socketOpen remote sessionRaises).1 =
      let h₁ := if ec = 0 then (h.doHandshake 0 remote sessionRaises).state.1 else h
      let h₂ := { h₁ with accepting := false, acceptsOutstanding := h₁.acceptsOutstanding - 1 }
      if ec < 1 then h₂.runAcceptor else h₂ := by
  unfold acceptHandler
  split_ifs <;> (try rcases h.doHandshake 0 remote sessionRaises with ⟨h', f⟩ | ⟨h', f⟩) <;> rfl

theorem acceptHandler_frame {α : Type} (F : Host CapDesc → α)
    (hF : ∀ (h : Host CapDesc) (accepting : Bool) (n : Nat),
      F { h with accepting := accepting, acceptsOutstanding := n } = F h)
    (h : Host CapDesc) (ec : Int) (socketOpen : Bool) (remote : Option Address) (sessionRaises : Bool) :
    F (h.acceptHandler ec socketOpen remote sessionRaises).1 =
      F (if ec = 0 then (h.doHandshake 0 remote sessionRaises).state.1 else h) := by
  rw [acceptHandler_fst]
  generalize (if ec = 0 then (h.doHandshake 0 remote sessionRaises).state.1 else h) = h₁
  dsimp only
  unfold runAcceptor
  split_ifs <;> first | exact hF _ _ _ | exact (hF _ _ _).trans (hF _ _ _)

theorem acceptHandler_peerTable (h : Host CapDesc) (ec : Int) (socketOpen : Bool)
    (remote : Option Address) (sessionRaises : Bool) :
    (h.acceptHandler ec socketOpen remote sessionRaises).1.peerTable = h.peerTable := by
  have handshake : (if ec = 0 then (h.doHandshake 0 remote sessionRaises).state.1 else h).peerTable =
      h.peerTable := by
    rw [doHandshake_inbound]
    cases remote <;> cases sessionRaises <;> split_ifs <;> rfl
  rw [acceptHandler_fst]
  generalize (if ec = 0 then (h.doHandshake 0 remote sessionRaises).state.1 else h) = h₁ at handshake ⊢
  dsimp only
  unfold runAcceptor
  split_ifs <;> exact handshake

/-- An accept completion, while the host runs and an accept is outstanding,
leaves no socket open that it did not hand to a `Session`. A success or a
`doHandshake` that throws (`ec = 0`) arms the next accept; so does any
`ec.value() < 1`. A completion with a positive error value arms nothing, and
no accept is then outstanding on its account. -/
theorem acceptHandler_spec (h : Host CapDesc) (running : h.run = true)
    (outstanding : 0 < h.acceptsOutstanding) (ec : Int) (socketOpen : Bool)
    (remote : Option Address) (sessionRaises : Bool) :
    let (h', fate) := h.acceptHandler ec socketOpen remote sessionRaises
    fate ≠ .isOpen ∧
      (ec < 1 → h'.accepting = true ∧ h'.acceptsOutstanding = h.acceptsOutstanding) ∧
      (1 ≤ ec → h'.accepting = false ∧ h'.acceptsOutstanding = h.acceptsOutstanding - 1) := by
  by_cases hec : ec = 0
  · subst hec
    have : h.acceptsOutstanding - 1 + 1 = h.acceptsOutstanding := by omega
    cases remote <;> cases sessionRaises <;>
      simp [acceptHandler, doHandshake_inbound, runAcceptor, running, newPeer, newSession, this]
  · by_cases hlt : ec < 1
    · have : h.acceptsOutstanding - 1 + 1 = h.acceptsOutstanding := by omega
      cases socketOpen <;> simp [acceptHandler, hec, hlt, runAcceptor, running, this]
    · cases socketOpen <;> simp [acceptHandler, hec, hlt]

theorem acceptHandler_spec_first_accept :
    let h : Host Nat := ({ Host.init ⟨7, 9⟩ with run := true } : Host Nat).runAcceptor
    h.run = true ∧ 0 < h.acceptsOutstanding ∧
      let (h', fate) := h.acceptHandler 0 true (some (.v4 0x01020304)) false
      fate ≠ .isOpen ∧
        ((0 : Int) < 1 → h'.accepting = true ∧ h'.acceptsOutstanding = h.acceptsOutstanding) ∧
        (1 ≤ (0 : Int) → h'.accepting = false ∧ h'.acceptsOutstanding = h.acceptsOutstanding - 1) := by
  intro h
  have running : h.run = true := rfl
  have outstanding : 0 < h.acceptsOutstanding := by decide
  exact ⟨running, outstanding, acceptHandler_spec h running outstanding 0 true _ false⟩

/-- An accept that fails with `EMFILE` (value `24`), the process being out of
file descriptors for a moment, while the host runs ends inbound acceptance: no
accept is outstanding afterwards. -/
theorem acceptHandler_error_stops_accepting :
    let h : Host Nat := ({ Host.init ⟨7, 9⟩ with run := true } : Host Nat).runAcceptor
    h.acceptsOutstanding = 1 ∧ (h.acceptHandler 24 true none false).1.acceptsOutstanding = 0 ∧
      (h.acceptHandler 24 true none false).1.accepting = false := by
  decide

end Host

end P2PHost
