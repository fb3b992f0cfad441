import P2PHost.Sessions
import P2PHost.KeepAlive
import P2PHost.Shutdown
import P2PHost.AcceptLoop

/-!
# `doneWorking`

The worker thread runs `doneWorking` once `m_run` is clear. It cancels and closes
the acceptor and polls until `m_accepting` clears; it walks `m_sessions`, telling
each open session `ClientQuit` and polling, until a walk tells none (`Shutdown`);
last it clears `m_sessions`. The cancel makes the accept in flight complete, with
`operation_aborted`, in the first poll. The resets and stops of `m_ioService` and
the `onStopping` calls touch nothing the model holds.

Whenever it returns from a stopped host whose polls do not restart it,
`m_sessions` is empty and the accept loop drained (`doneWorking_drained`); from
every reachable stopped state it does return, and keeps the invariant
(`doneWorking_ends`). Its walks reach only the sessions `m_sessions` holds, and
a Session joins it at its hello: one that the acceptor or a dial has built and
whose hello has not come is not told `ClientQuit`, and `doneWorking` returns
with it as it was, open (`doneWorking_keeps_unregistered`).
-/

namespace P2PHost

namespace AcceptLoop

theorem step_run_of_stopped {a : AcceptLoop} (hrun : a.run = false) {e : AcceptEvent}
    (he : e ≠ .setRun true) : (a.step e).run = false := by
  obtain ⟨run, accepting, outstanding⟩ := a
  dsimp only at hrun
  subst hrun
  cases e with
  | setRun running =>
    cases running
    · rfl
    · exact absurd rfl he
  | runAcceptor => rfl
  | complete ec =>
    dsimp only [AcceptLoop.step]
    split_ifs <;> rfl

theorem Wf.complete_drained {a : AcceptLoop} (wf : a.Wf) (hrun : a.run = false) (ec : Int) :
    (a.step (.complete ec)).Drained := by
  obtain ⟨run, _ | _, outstanding⟩ := a <;> simp only [Wf, Bool.toNat_false, Bool.toNat_true] at wf <;>
    subst hrun wf <;> by_cases hec : ec < 1 <;>
    simp [AcceptLoop.step, AcceptLoop.runAcceptor, Drained, hec]

end AcceptLoop

variable {CapDesc : Type} [LinearOrder CapDesc]

namespace Host

section Loop

variable (userPacket : Nat) (toPublic : Secret → NodeId)

/-- `doneWorking`'s first loop, `while (m_accepting) m_ioService.poll();`: a
poll running the events `polls` gives for it (none once the list is used up)
while `m_accepting` is set; `none` when `fuel` tests of the flag do not see it
clear, or when a poll throws. -/
def acceptDrain : Nat → List (List (Event CapDesc)) → Host CapDesc → Option (Host CapDesc)
  | 0, _, _ => none
  | fuel + 1, polls, h =>
    if h.accepting then
      match h.runEvents userPacket toPublic (polls.headD []) with
      | .ok h => acceptDrain fuel polls.tail h
      | .raised _ => none
    else some h

/-- `doneWorking`: the accept drain, with the polls `acceptPolls`; the
disconnect loop, with the polls `polls`; then `m_sessions.clear()`. -/
def doneWorking (fuel : Nat) (acceptPolls polls : List (List (Event CapDesc))) (h : Host CapDesc) :
    Option (Host CapDesc) :=
  (acceptDrain userPacket toPublic fuel acceptPolls h).bind fun h =>
    (disconnectLoop userPacket toPublic fuel polls h).map fun r => { r.1 with sessions := .empty }

end Loop

section Invariants

variable (userPacket : Nat) (toPublic : Secret → NodeId)

theorem disconnectPass_acceptLoop (h : Host CapDesc) : h.disconnectPass.2.acceptLoop = h.acceptLoop := by
  rw [disconnectPass_frame]
  rfl

theorem acceptDrain_invariant {P : Host CapDesc → Prop} {Q : Event CapDesc → Prop}
    (hpoll : ∀ h evs h', P h → (∀ e ∈ evs, Q e) → Run userPacket toPublic h evs h' → P h') :
    ∀ {fuel : Nat} {polls : List (List (Event CapDesc))} {h h' : Host CapDesc},
      (∀ evs ∈ polls, ∀ e ∈ evs, Q e) → P h → acceptDrain userPacket toPublic fuel polls h = some h' → P h'
  | 0, _, _, _, _, _, hdrain => nomatch hdrain
  | fuel + 1, polls, h, h', hpolls, hP, hdrain => by
    simp only [acceptDrain] at hdrain
    split_ifs at hdrain
    · split at hdrain
      · next h₁ hr =>
        exact acceptDrain_invariant hpoll (fun evs hevs => hpolls evs (List.mem_of_mem_tail hevs))
          (hpoll h _ h₁ hP (forall_mem_headD hpolls) (run_of_runEvents userPacket toPublic hr)) hdrain
      · cases hdrain
    · cases hdrain
      exact hP

theorem disconnectLoop_invariant {P : Host CapDesc → Prop} {Q : Event CapDesc → Prop}
    (hpass : ∀ h, P h → P h.disconnectPass.2)
    (hpoll : ∀ h evs h', P h → (∀ e ∈ evs, Q e) → Run userPacket toPublic h evs h' → P h') :
    ∀ {fuel : Nat} {polls : List (List (Event CapDesc))} {h h' : Host CapDesc} {k : Nat},
      (∀ evs ∈ polls, ∀ e ∈ evs, Q e) → P h →
        disconnectLoop userPacket toPublic fuel polls h = some (h', k) → P h'
  | 0, _, _, _, _, _, _, hloop => nomatch hloop
  | fuel + 1, polls, h, h', k, hpolls, hP, hloop => by
    have hP₁ := hpass h hP
    simp only [disconnectLoop] at hloop
    rcases hwalk : h.disconnectPass with ⟨n, h₁⟩
    rw [hwalk] at hloop hP₁
    dsimp only at hloop
    split_ifs at hloop
    · cases hloop
      exact hP₁
    · split at hloop
      · next h₂ hr =>
        obtain ⟨⟨h'', k'⟩, hloop', heq⟩ := Option.map_eq_some'.1 hloop
        cases heq
        exact disconnectLoop_invariant hpass hpoll (fun evs hevs => hpolls evs (List.mem_of_mem_tail hevs))
          (hpoll h₁ _ h₂ hP₁ (forall_mem_headD hpolls) (run_of_runEvents userPacket toPublic hr)) hloop'
      · cases hloop

theorem doneWorking_invariant {P : Host CapDesc → Prop} {Q : Event CapDesc → Prop}
    (hpass : ∀ h, P h → P h.disconnectPass.2)
    (hpoll : ∀ h evs h', P h → (∀ e ∈ evs, Q e) → Run userPacket toPublic h evs h' → P h')
    (hclear : ∀ h, P h → P { h with sessions := .empty })
    {fuel : Nat} {acceptPolls polls : List (List (Event CapDesc))} {h h' : Host CapDesc}
    (hpolls : ∀ evs ∈ acceptPolls ++ polls, ∀ e ∈ evs, Q e) (hP : P h)
    (hdone : doneWorking userPacket toPublic fuel acceptPolls polls h = some h') : P h' := by
  obtain ⟨h₁, hdrain, hloop⟩ := Option.bind_eq_some.1 hdone
  obtain ⟨⟨h₂, k⟩, hloop₂, rfl⟩ := Option.map_eq_some'.1 hloop
  refine hclear h₂ (disconnectLoop_invariant userPacket toPublic hpass hpoll
    (fun evs hevs => hpolls evs (List.mem_append_right _ hevs)) ?_ hloop₂)
  exact acceptDrain_invariant userPacket toPublic hpoll
    (fun evs hevs => hpolls evs (List.mem_append_left _ hevs)) hP hdrain

end Invariants

section Drain

variable (userPacket : Nat) (toPublic : Secret → NodeId)

theorem step_stopped {h h' : Host CapDesc} {e : Event CapDesc} (hs : h.step userPacket toPublic e = .ok h')
    (wfa : h.acceptLoop.Wf) (hrun : h.run = false) (he : e ≠ .setRun true) :
    h'.acceptLoop.Wf ∧ h'.run = false := by
  have hne := Event.acceptEvent_ne_setRun_true he
  have hstep := step_acceptLoop userPacket toPublic hs
  constructor
  · rw [hstep]
    split
    · exact wfa.step _
    · exact wfa
  · show h'.acceptLoop.run = false
    rw [hstep]
    split
    · next a ha => exact AcceptLoop.step_run_of_stopped hrun fun hs' => hne (hs' ▸ ha)
    · exact hrun

theorem Run.stopped {h h' : Host CapDesc} {evs : List (Event CapDesc)}
    (hr : Run userPacket toPublic h evs h') (wfa : h.acceptLoop.Wf) (hrun : h.run = false)
    (restart : ∀ e ∈ evs, e ≠ .setRun true) : h'.acceptLoop.Wf ∧ h'.run = false := by
  induction hr with
  | nil => exact ⟨wfa, hrun⟩
  | cons hs _ ih =>
    obtain ⟨wfa₁, hrun₁⟩ := step_stopped userPacket toPublic hs wfa hrun (restart _ (List.mem_cons_self _ _))
    exact ih wfa₁ hrun₁ fun e' he' => restart e' (List.mem_cons_of_mem _ he')

theorem Wf.acceptDrain_ends {h : Host CapDesc} (wf : h.Wf) (wfa : h.acceptLoop.Wf) (hrun : h.run = false)
    {polls : List (List (Event CapDesc))}
    (hpolls : ∀ evs ∈ polls, ∀ e ∈ evs, e ≠ .setRun true ∧ ∀ p now, e ≠ .connectDone p false true now)
    (hcancel : h.accepting = true →
      ∃ ec socketOpen remote sessionRaises, .acceptDone ec socketOpen remote sessionRaises ∈ polls.headD [])
    {fuel : Nat} (hfuel : h.drainBound < fuel) :
    ∃ h', acceptDrain userPacket toPublic fuel polls h = some h' ∧ h'.Wf ∧ h'.acceptLoop.Drained ∧
      h'.drainBound ≤ h.drainBound := by
  obtain ⟨fuel, rfl⟩ : ∃ f, fuel = f + 1 := ⟨fuel - 1, by omega⟩
  cases hacc : h.accepting
  · exact ⟨h, by simp only [acceptDrain, hacc, Bool.false_eq_true, if_false], wf,
      ⟨hrun, hacc, wfa.idle hacc⟩, le_rfl⟩
  have hout : h.acceptsOutstanding = 1 := (wfa.exact.2).1 hacc
  obtain ⟨fuel, rfl⟩ : ∃ f, fuel = f + 1 := ⟨fuel - 1, by unfold drainBound at hfuel; omega⟩
  have hhead := forall_mem_headD hpolls
  obtain ⟨h₁, hr, wf₁, -, hle⟩ := wf.runEvents_drainBound userPacket toPublic hrun hhead
  obtain ⟨ec, socketOpen, remote, sessionRaises, hdone⟩ := hcancel hacc
  have drained : ∀ {h h' : Host CapDesc} {evs : List (Event CapDesc)}, Run userPacket toPublic h evs h' →
      h.acceptLoop.Wf → h.run = false → (∀ e ∈ evs, e ≠ .setRun true) →
      .acceptDone ec socketOpen remote sessionRaises ∈ evs → h'.acceptLoop.Drained := by
    intro h h' evs hr wfa hrun restart hdone
    induction hr with
    | nil => exact absurd hdone (List.not_mem_nil _)
    | @cons h h₁ h₂ e evs hs rest ih =>
      have restart' : ∀ e' ∈ evs, e' ≠ .setRun true :=
        fun e' he' => restart e' (List.mem_cons_of_mem _ he')
      rcases List.mem_cons.1 hdone with rfl | hdone
      · refine rest.acceptLoop_drained userPacket toPublic ?_ restart'
        rw [step_acceptLoop userPacket toPublic hs]
        exact wfa.complete_drained hrun ec
      · obtain ⟨wfa₁, hrun₁⟩ :=
          step_stopped userPacket toPublic hs wfa hrun (restart e (List.mem_cons_self _ _))
        exact ih wfa₁ hrun₁ restart' hdone
  have hd := drained (run_of_runEvents userPacket toPublic hr) wfa hrun (fun e he => (hhead e he).1) hdone
  refine ⟨h₁, ?_, wf₁, hd, hle⟩
  simp only [acceptDrain, hacc, if_true, hr]
  exact if_neg (by rw [show h₁.accepting = h₁.acceptLoop.accepting from rfl, hd.2.1]; decide)

end Drain

section Leaves

variable (userPacket : Nat) (toPublic : Secret → NodeId)

theorem acceptDrain_accepting {fuel : Nat} {polls : List (List (Event CapDesc))} {h h' : Host CapDesc}
    (hdrain : acceptDrain userPacket toPublic fuel polls h = some h') : h'.accepting = false := by
  induction fuel generalizing polls h with
  | zero => exact nomatch hdrain
  | succ fuel ih =>
    simp only [acceptDrain] at hdrain
    split_ifs at hdrain with hacc
    · split at hdrain
      · exact ih hdrain
      · cases hdrain
    · cases hdrain
      simpa using hacc

theorem doneWorking_sessions {fuel : Nat} {acceptPolls polls : List (List (Event CapDesc))}
    {h h' : Host CapDesc} (hdone : doneWorking userPacket toPublic fuel acceptPolls polls h = some h') :
    h'.sessions = .empty := by
  obtain ⟨h₁, -, hloop⟩ := Option.bind_eq_some.1 hdone
  obtain ⟨⟨h₂, k⟩, -, rfl⟩ := Option.map_eq_some'.1 hloop
  rfl

theorem doneWorking_wf {fuel : Nat} {acceptPolls polls : List (List (Event CapDesc))} {h h' : Host CapDesc}
    (hdone : doneWorking userPacket toPublic fuel acceptPolls polls h = some h') (wf : h.Wf) : h'.Wf :=
  doneWorking_invariant userPacket toPublic (P := Host.Wf) (Q := fun _ => True) (fun _ wf => wf.disconnectPass)
    (fun _ _ _ wf _ hr => hr.wf userPacket toPublic wf)
    (fun _ wf => wf.step userPacket toPublic (e := .clearSessions) rfl) (fun _ _ _ _ => trivial) wf hdone

theorem doneWorking_drained {fuel : Nat} {acceptPolls polls : List (List (Event CapDesc))}
    {h h' : Host CapDesc} (hdone : doneWorking userPacket toPublic fuel acceptPolls polls h = some h')
    (wfa : h.acceptLoop.Wf) (hrun : h.run = false)
    (hpolls : ∀ evs ∈ acceptPolls ++ polls, ∀ e ∈ evs, e ≠ .setRun true) : h'.acceptLoop.Drained := by
  obtain ⟨h₁, hdrain, hloop⟩ := Option.bind_eq_some.1 hdone
  obtain ⟨⟨h₂, k⟩, hloop₂, rfl⟩ := Option.map_eq_some'.1 hloop
  obtain ⟨wfa₁, hrun₁⟩ := acceptDrain_invariant userPacket toPublic
    (P := fun h => h.acceptLoop.Wf ∧ h.run = false)
    (fun _ _ _ ⟨wfa, hrun⟩ hevs hr => hr.stopped userPacket toPublic wfa hrun hevs)
    (fun evs hevs => hpolls evs (List.mem_append_left _ hevs)) ⟨wfa, hrun⟩ hdrain
  have hacc₁ := acceptDrain_accepting userPacket toPublic hdrain
  have hd₂ : h₂.acceptLoop.Drained := disconnectLoop_invariant userPacket toPublic
    (P := fun h => h.acceptLoop.Drained) (fun h hd => by simpa only [disconnectPass_acceptLoop] using hd)
    (fun _ _ _ hd hevs hr => hr.acceptLoop_drained userPacket toPublic hd hevs)
    (fun evs hevs => hpolls evs (List.mem_append_right _ hevs)) ⟨hrun₁, hacc₁, wfa₁.idle hacc₁⟩ hloop₂
  exact hd₂

end Leaves

section Ends

variable (userPacket : Nat) (toPublic : Secret → NodeId)

/-- From any reachable state with `m_run` clear, when the first poll of the
accept drain completes the accept in flight, if there is one, and no poll
restarts the host or runs a dial whose `Session` throws, `doneWorking` returns
within one walk more than the open sessions, dials in flight and accepts
outstanding it starts with: `m_sessions` empty, `m_accepting` clear, no accept
in flight, `m_run` still clear, and the invariant kept. -/
theorem doneWorking_ends {h : Host CapDesc} (hr : Reachable userPacket toPublic h) (hrun : h.run = false)
    {acceptPolls polls : List (List (Event CapDesc))}
    (hpolls : ∀ evs ∈ acceptPolls ++ polls, ∀ e ∈ evs,
      e ≠ .setRun true ∧ ∀ p now, e ≠ .connectDone p false true now)
    (hcancel : h.accepting = true →
      ∃ ec socketOpen remote sessionRaises, .acceptDone ec socketOpen remote sessionRaises ∈ acceptPolls.headD [])
    {fuel : Nat} (hfuel : h.drainBound < fuel) :
    ∃ h', doneWorking userPacket toPublic fuel acceptPolls polls h = some h' ∧
      h'.sessions = .empty ∧ h'.accepting = false ∧ h'.acceptsOutstanding = 0 ∧ h'.run = false ∧ h'.Wf := by
  have wf := reachable_wf userPacket toPublic hr
  obtain ⟨h₁, hdrain, wf₁, hd₁, hle₁⟩ := wf.acceptDrain_ends userPacket toPublic
    (reachable_acceptLoop_wf userPacket toPublic hr) hrun
    (fun evs hevs => hpolls evs (List.mem_append_left _ hevs)) hcancel hfuel
  obtain ⟨h₂, k, hloop, -, -⟩ := wf₁.disconnectLoop_bound userPacket toPublic hd₁.1
    (fun evs hevs => hpolls evs (List.mem_append_right _ hevs)) (lt_of_le_of_lt hle₁ hfuel)
  have hdone : doneWorking userPacket toPublic fuel acceptPolls polls h = some { h₂ with sessions := .empty } := by
    simp only [doneWorking, hdrain, hloop, Option.some_bind, Option.map_some']
  obtain ⟨hrun', hacc', hout'⟩ := doneWorking_drained userPacket toPublic hdone
    (reachable_acceptLoop_wf userPacket toPublic hr) hrun fun evs hevs e he => (hpolls evs hevs e he).1
  exact ⟨_, hdone, rfl, hacc', hout', hrun', doneWorking_wf userPacket toPublic hdone wf⟩

end Ends

/-- A stopped host whose acceptor took a connection and was armed again before
the stop: the cancelled accept completes in the first poll with
`operation_aborted` (value `125`). -/
theorem doneWorking_ends_with_accept_in_flight :
    ∃ h : Host Nat, Reachable 16 (fun s => s + 2) h ∧ h.run = false ∧ h.accepting = true ∧ h.drainBound = 2 ∧
      ∃ h', doneWorking 16 (fun s => s + 2) 3 [[.acceptDone 125 false none false]] [] h = some h' ∧
        h'.sessions = .empty ∧ h'.accepting = false ∧ h'.acceptsOutstanding = 0 ∧ h'.run = false ∧ h'.Wf :=
  let evs : List (Event Nat) :=
    [.setRun true, .runAcceptor, .acceptDone 0 true (some (.v4 0x01020304)) false, .setRun false]
  let hr : Reachable 16 (fun s => s + 2) (runEvents 16 (fun s => s + 2) (Host.init ⟨7, 9⟩) evs).state :=
    ⟨⟨7, 9⟩, evs, run_of_runEvents _ _ rfl⟩
  ⟨_, hr, by decide, by decide, by decide,
    doneWorking_ends 16 _ hr (by decide) (by simp) (fun _ => ⟨125, false, none, false, by simp⟩) (by decide)⟩

section Unregistered

variable (userPacket : Nat) (toPublic : Secret → NodeId)

theorem step_sessionObj {h h' : Host CapDesc} {e : Event CapDesc}
    (hs : h.step userPacket toPublic e = .ok h') {q : Ref} (hq : q < h.nextRef)
    (hhello : ∀ id caps, e ≠ .hello q id caps) (hend : e ≠ .sessionEnds q) :
    h'.sessionObj q = h.sessionObj q := by
  cases e with
  | nodeTable n e =>
    cases hs
    exact congrFun (onNodeTableEvent_sessions h n e).2 q
  | connectDone p refused raises now =>
    simp only [Host.step] at hs
    split_ifs at hs
    · cases refused <;> cases raises <;> cases hs
      · simp only [newSession_sessionObj, modifyPeer_sessionObj, modifyPeer_nextRef, if_neg hq.ne]
      · rfl
      · rfl
    · cases hs
      rfl
  | acceptDone ec socketOpen remote sessionRaises =>
    simp only [Host.step] at hs
    split_ifs at hs <;> cases hs
    · refine (acceptHandler_frame (fun h => h.sessionObj q) (fun _ _ _ => rfl) h ec socketOpen remote
        sessionRaises).trans ?_
      dsimp only
      split_ifs
      · rw [doHandshake_inbound]
        cases remote <;> cases sessionRaises <;> simp [Outcome.state, (Nat.lt_succ_of_lt hq).ne]
      · rfl
    · rfl
  | hello s id caps =>
    cases hs
    have hqs : q ≠ s := fun hqs => hhello id caps (hqs ▸ rfl)
    unfold hello
    dsimp only
    split_ifs <;> simp [registerPeer_eq, hqs]
  | sessionEnds s =>
    cases hs
    have hqs : q ≠ s := fun hqs => hend (hqs ▸ rfl)
    simp [Host.sessionEnds, hqs]
  | restoreNodes r =>
    cases hs
    rw [restoreNodes_state]
  | runAcceptor =>
    cases hs
    unfold Host.runAcceptor
    split_ifs <;> rfl
  | setRun | setIdealPeerCount | registerCapability | discover | clearSessions =>
    cases hs
    rfl

theorem Run.unregistered {h h' : Host CapDesc} {evs : List (Event CapDesc)}
    (hr : Run userPacket toPublic h evs h') {q : Ref} (hq : q < h.nextRef)
    (hunreg : ∀ k, h.sessions.find? k ≠ some q)
    (hquiet : ∀ e ∈ evs, (∀ id caps, e ≠ .hello q id caps) ∧ e ≠ .sessionEnds q) :
    h'.sessionObj q = h.sessionObj q ∧ q < h'.nextRef ∧ ∀ k, h'.sessions.find? k ≠ some q := by
  induction hr with
  | nil => exact ⟨rfl, hq, hunreg⟩
  | @cons h h₁ h₂ e evs hs _ ih =>
    obtain ⟨hhello, hend⟩ := hquiet e (List.mem_cons_self _ _)
    obtain ⟨hobj, hq', hunreg'⟩ := ih (lt_of_lt_of_le hq (step_nextRef_le userPacket toPublic hs))
      (step_keeps_unregistered userPacket toPublic hs hhello hunreg)
      fun e he => hquiet e (List.mem_cons_of_mem _ he)
    exact ⟨hobj.trans (step_sessionObj userPacket toPublic hs hq hhello hend), hq', hunreg'⟩

theorem disconnectPass_sessionObj (h : Host CapDesc) {q : Ref} (hunreg : ∀ k, h.sessions.find? k ≠ some q) :
    h.disconnectPass.2.sessionObj q = h.sessionObj q := by
  suffices ∀ (es : List (NodeId × Ref)) (acc : Nat × Host CapDesc), (∀ e ∈ es, e.2 ≠ q) →
      (es.foldl quitStep acc).2.sessionObj q = acc.2.sessionObj q from
    this _ _ fun e he hq => hunreg e.1 (hq ▸ h.sessions.find?_of_mem he)
  intro es
  induction es with
  | nil => exact fun _ _ => rfl
  | cons e es ih =>
    intro acc hes
    rw [List.foldl_cons, ih _ fun e' he' => hes e' (List.mem_cons_of_mem _ he')]
    unfold quitStep
    split_ifs
    · simp [disconnect, Ne.symm (hes e (List.mem_cons_self _ _))]
    · rfl

/-- `doneWorking` tells `ClientQuit` only to the sessions of `m_sessions`. A
Session the heap holds that no entry names, one whose hello has not come, and
that neither says hello nor ends in the polls, comes out of `doneWorking` as it
went in: an open one stays open, while `m_sessions` ends empty. -/
theorem doneWorking_keeps_unregistered {h h' : Host CapDesc} {fuel : Nat}
    {acceptPolls polls : List (List (Event CapDesc))}
    (hdone : doneWorking userPacket toPublic fuel acceptPolls polls h = some h') {q : Ref}
    (hq : q < h.nextRef) (hunreg : ∀ k, h.sessions.find? k ≠ some q)
    (hquiet : ∀ evs ∈ acceptPolls ++ polls, ∀ e ∈ evs,
      (∀ id caps, e ≠ .hello q id caps) ∧ e ≠ .sessionEnds q) :
    h'.sessionObj q = h.sessionObj q :=
  (doneWorking_invariant userPacket toPublic
    (P := fun h₁ => h₁.sessionObj q = h.sessionObj q ∧ q < h₁.nextRef ∧ ∀ k, h₁.sessions.find? k ≠ some q)
    (fun h₁ ⟨hobj, hq₁, hunreg₁⟩ => ⟨(disconnectPass_sessionObj h₁ hunreg₁).trans hobj,
      by rw [disconnectPass_frame]; exact hq₁, by rw [disconnectPass_frame]; exact hunreg₁⟩)
    (fun _ _ _ ⟨hobj, hq₁, hunreg₁⟩ hevs hr =>
      let ⟨hobj₂, hq₂, hunreg₂⟩ := hr.unregistered userPacket toPublic hq₁ hunreg₁ hevs
      ⟨hobj₂.trans hobj, hq₂, hunreg₂⟩)
    (fun _ ⟨hobj, hq₁, _⟩ => ⟨hobj, hq₁, fun k => by simp⟩) hquiet ⟨rfl, hq, hunreg⟩ hdone).1

end Unregistered

/-- The host of `doneWorking_ends_with_accept_in_flight`: the session of the
connection the acceptor took has not said hello, so no entry of `m_sessions`
names it, and `doneWorking` returns with it still open. -/
theorem doneWorking_keeps_unregistered_accepted :
    ∃ h h' : Host Nat, Reachable 16 (fun s => s + 2) h ∧ h.isOpenSession 1 = true ∧
      doneWorking 16 (fun s => s + 2) 3 [[.acceptDone 125 false none false]] [] h = some h' ∧
      h'.sessions = .empty ∧ h'.sessionObj 1 = h.sessionObj 1 := by
  let evs : List (Event Nat) :=
    [.setRun true, .runAcceptor, .acceptDone 0 true (some (.v4 0x01020304)) false, .setRun false]
  let h := (runEvents 16 (fun s => s + 2) (Host.init ⟨7, 9⟩) evs).state
  obtain ⟨h', hdone, hempty⟩ : ∃ h', doneWorking 16 (fun s => s + 2) 3 [[.acceptDone 125 false none false]] [] h =
      some h' ∧ h'.sessions = .empty := ⟨_, rfl, rfl⟩
  exact ⟨h, h', ⟨⟨7, 9⟩, evs, run_of_runEvents _ _ rfl⟩, by decide, hdone, hempty,
    doneWorking_keeps_unregistered 16 _ hdone (by decide)
      (fun k => by simp [show h.sessions = OrdMap.empty from rfl]) (by simp)⟩

end Host

end P2PHost
