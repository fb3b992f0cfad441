import P2PHost.DoneWorking
import P2PHost.Lifecycle

/-!
# The host and its threads

`Lifecycle` follows `start()`, `stop()` and the worker thread; the Host's steps
follow its tables and the network. The two share `m_run`, and the worker's exit
runs `doneWorking`. `System` runs them together. A step of the lifecycle sets
the Host's `m_run` to its own. A handler the io_service runs is a step of the
Host while a worker is started or in its loop; a call from another thread
(`setIdealPeerCount`, `registerCapability`, `restoreNodes`) is one at any time.
The worker's exit is `doneWorking`, whose polls run handlers only. Handlers run
only inside `doWork`: letting them run from the end of `startedWorking`'s locked
region on, where it calls `runAcceptor`, only allows more interleavings. A
handler that throws leaves the worker thread; the runs here are those in which
none does.

Over every interleaving of the threads, a `stop()` that found `m_run` set
returns, out of `stopWorking`, with `m_sessions` empty, `m_run` and
`m_accepting` clear, no accept in flight and `m_timer` released, and the host
stays so until the next `start()` (`stop_returns_drained`). A `stop()` that
found `m_run` clear returns at once, with nothing stopped. The lifecycle part
of a run is a run of `Lifecycle` (`reachable_life`).
-/

namespace P2PHost

variable {CapDesc : Type} [LinearOrder CapDesc]

/-- Whether a Host event is the work of a handler the io_service runs. -/
def Event.isHandler : Event CapDesc → Bool
  | .discover .. | .nodeTable .. | .connectDone .. | .runAcceptor | .acceptDone .. | .hello ..
  | .sessionEnds .. => true
  | .setRun .. | .setIdealPeerCount .. | .registerCapability .. | .restoreNodes .. | .clearSessions => false

/-- Whether a Host event is a call another thread may make at any time. -/
def Event.isCall : Event CapDesc → Bool
  | .setIdealPeerCount .. | .registerCapability .. | .restoreNodes .. => true
  | _ => false

/-- The lifecycle's members and the Host's; `m_run` is in both. -/
structure System (CapDesc : Type) [LinearOrder CapDesc] where
  life : Lifecycle
  host : Host CapDesc

/-- What can happen next. -/
inductive SystemEvent (CapDesc : Type) where
  /-- A step of the lifecycle other than the worker's exit. -/
  | life (e : LifecycleEvent)
  /-- A handler, or a call from another thread. -/
  | host (e : Event CapDesc)
  /-- The worker leaves its loop and runs `doneWorking`, with these polls. -/
  | exit (fuel : Nat) (acceptPolls polls : List (List (Event CapDesc)))

namespace System

/-- A constructed Host, with no worker thread. -/
def init (keyAlias : KeyPair) : System CapDesc := ⟨{}, Host.init keyAlias⟩

section Steps

variable (userPacket : Nat) (toPublic : Secret → NodeId)

/-- One step; `none` when the event cannot happen now, or when a handler
throws. -/
def step (S : System CapDesc) : SystemEvent CapDesc → Option (System CapDesc)
  | .life e =>
    if e = .workerExit then none
    else (S.life.step e).map fun l => ⟨l, { S.host with run := l.running }⟩
  | .host e =>
    if e.isCall || e.isHandler && decide (S.life.worker = .started ∨ S.life.worker = .working) then
      match S.host.step userPacket toPublic e with
      | .ok h => some ⟨S.life, h⟩
      | .raised _ => none
    else none
  | .exit fuel acceptPolls polls =>
    if (acceptPolls ++ polls).all fun evs => evs.all Event.isHandler then
      (S.life.step .workerExit).bind fun l =>
        (S.host.doneWorking userPacket toPublic fuel acceptPolls polls).map fun h => ⟨l, h⟩
    else none

/-- The steps of `evs`, as long as each can happen. -/
def runEvents : System CapDesc → List (SystemEvent CapDesc) → Option (System CapDesc)
  | S, [] => some S
  | S, e :: evs => (S.step userPacket toPublic e).bind fun S' => runEvents S' evs

/-- The states reached from a constructed Host, in any interleaving. -/
def Reachable (S : System CapDesc) : Prop :=
  ∃ keyAlias evs, runEvents userPacket toPublic (init keyAlias) evs = some S

end Steps

end System

theorem Lifecycle.worker_absent_of_step {l l' : Lifecycle} {e : LifecycleEvent} (hs : l.step e = some l')
    (he : e ≠ .workerExit) (hw : l'.worker = .absent) : l.worker = .absent := by
  cases e <;> simp only [Lifecycle.step, Lifecycle.startWorking, Lifecycle.run] at hs <;>
    split_ifs at hs <;> cases hs <;> first | exact absurd rfl he | exact hw | simp at hw

theorem Lifecycle.runEvents_snoc : ∀ {l l' l'' : Lifecycle} {evs : List LifecycleEvent} {e : LifecycleEvent},
    runEvents l evs = some l' → l'.step e = some l'' → runEvents l (evs ++ [e]) = some l''
  | _, _, _, [], _, h₁, h₂ => by
    cases h₁
    simp only [List.nil_append, runEvents, h₂, Option.some_bind]
  | _, _, _, _ :: _, _, h₁, h₂ => by
    obtain ⟨l₁, hx, hrest⟩ := Option.bind_eq_some.1 h₁
    simp only [List.cons_append, runEvents, hx, Option.some_bind]
    exact runEvents_snoc hrest h₂

theorem AcceptLoop.step_run (a : AcceptLoop) {e : AcceptEvent} (he : ∀ b, e ≠ .setRun b) :
    (a.step e).run = a.run := by
  cases e with
  | setRun b => exact absurd rfl (he b)
  | runAcceptor | complete _ =>
    simp only [AcceptLoop.step, AcceptLoop.runAcceptor]
    split_ifs <;> rfl

namespace Host

variable (userPacket : Nat) (toPublic : Secret → NodeId)

theorem step_run {h h' : Host CapDesc} {e : Event CapDesc} (hs : h.step userPacket toPublic e = .ok h')
    (he : ∀ b, e ≠ .setRun b) : h'.run = h.run := by
  show h'.acceptLoop.run = h.acceptLoop.run
  rw [step_acceptLoop userPacket toPublic hs]
  split
  · next a ha =>
    refine AcceptLoop.step_run _ fun b hb => he b ?_
    subst hb
    cases e <;> simp only [Event.acceptEvent, Option.some.injEq, reduceCtorEq] at ha
    cases ha
    rfl
  · rfl

theorem step_call {h h' : Host CapDesc} {e : Event CapDesc} (hc : e.isCall = true)
    (hs : h.step userPacket toPublic e = .ok h') : h'.sessions = h.sessions ∧ h'.acceptLoop = h.acceptLoop := by
  cases e <;> simp only [Event.isCall, Bool.false_eq_true] at hc <;> cases hs
  · exact ⟨rfl, rfl⟩
  · exact ⟨rfl, rfl⟩
  · rw [restoreNodes_state]
    exact ⟨rfl, rfl⟩

end Host

theorem AcceptLoop.Drained.wf {a : AcceptLoop} (hd : a.Drained) : a.Wf := by
  show a.outstanding = a.accepting.toNat
  rw [hd.2.1, hd.2.2]
  rfl

namespace System

/-- The invariant of reachable states: each part's own, `m_run` the same in
both, and with no worker thread the Host drained and its registry empty. -/
structure Wf (S : System CapDesc) : Prop where
  life : S.life.Wf
  host : S.host.Wf
  accept : S.host.acceptLoop.Wf
  run : S.host.run = S.life.running
  absent : S.life.worker = .absent → S.host.sessions = .empty ∧ S.host.acceptLoop.Drained

theorem Wf.init (keyAlias : KeyPair) : (init keyAlias : System CapDesc).Wf :=
  ⟨Lifecycle.Wf.init, Host.Wf.init keyAlias, rfl, rfl, fun _ => ⟨rfl, rfl, rfl, rfl⟩⟩

section Steps

variable (userPacket : Nat) (toPublic : Secret → NodeId)

theorem Wf.step {S S' : System CapDesc} (wf : S.Wf) {e : SystemEvent CapDesc}
    (hs : S.step userPacket toPublic e = some S') : S'.Wf := by
  cases e with
  | life e =>
    simp only [System.step] at hs
    split_ifs at hs with he
    obtain ⟨l, hl, rfl⟩ := Option.map_eq_some'.1 hs
    have wfl := wf.life.step hl
    refine ⟨wfl, wf.host.step userPacket toPublic (e := .setRun l.running) rfl, wf.accept, rfl, fun hw => ?_⟩
    obtain ⟨hempty, -, hacc, hout⟩ := wf.absent (Lifecycle.worker_absent_of_step hl he hw)
    have hworker := wfl.worker
    rw [hw] at hworker
    exact ⟨hempty, hworker.1, hacc, hout⟩
  | host e =>
    simp only [System.step] at hs
    split_ifs at hs with hallowed
    split at hs
    · next h hstep =>
      cases hs
      have hne : ∀ b, e ≠ .setRun b := fun b hb => by
        subst hb
        simp [Event.isCall, Event.isHandler] at hallowed
      refine ⟨wf.life, wf.host.step userPacket toPublic hstep, ?_,
        (Host.step_run userPacket toPublic hstep hne).trans wf.run, fun hw => ?_⟩
      · rw [Host.step_acceptLoop userPacket toPublic hstep]
        split
        · exact wf.accept.step _
        · exact wf.accept
      · have hw' : S.life.worker = .absent := hw
        have hc : e.isCall = true := by simpa [hw'] using hallowed
        obtain ⟨hsessions, hloop⟩ := Host.step_call userPacket toPublic hc hstep
        rw [hsessions, hloop]
        exact wf.absent hw
    · cases hs
  | exit fuel acceptPolls polls =>
    simp only [System.step] at hs
    split_ifs at hs with hpolls
    obtain ⟨l, hl, hdone⟩ := Option.bind_eq_some.1 hs
    obtain ⟨h', hdone₂, rfl⟩ := Option.map_eq_some'.1 hdone
    have wfl := wf.life.step hl
    have hworker := wf.life.worker
    simp only [Lifecycle.step] at hl
    split_ifs at hl with hexit
    cases hl
    rw [hexit.1] at hworker
    have hrunning := (hworker hexit.2).1
    have hsetRun : ∀ evs ∈ acceptPolls ++ polls, ∀ e ∈ evs, e ≠ .setRun true := fun evs hevs e he hset => by
      subst hset
      simp only [List.all_eq_true] at hpolls
      simpa [Event.isHandler] using hpolls evs hevs _ he
    have hd := Host.doneWorking_drained userPacket toPublic hdone₂ wf.accept (wf.run.trans hrunning) hsetRun
    exact ⟨wfl, Host.doneWorking_wf userPacket toPublic hdone₂ wf.host, hd.wf, hd.1.trans hrunning.symm,
      fun _ => ⟨Host.doneWorking_sessions userPacket toPublic hdone₂, hd⟩⟩

theorem runEvents_wf : ∀ {S S' : System CapDesc} {evs : List (SystemEvent CapDesc)},
    S.Wf → runEvents userPacket toPublic S evs = some S' → S'.Wf
  | _, _, [], wf, hr => by
    cases hr
    exact wf
  | _, _, _ :: _, wf, hr => by
    obtain ⟨S₁, h₁, h₂⟩ := Option.bind_eq_some.1 hr
    exact runEvents_wf (wf.step userPacket toPublic h₁) h₂

theorem reachable_wf {S : System CapDesc} (hr : S.Reachable userPacket toPublic) : S.Wf :=
  let ⟨keyAlias, _, h⟩ := hr
  runEvents_wf userPacket toPublic (Wf.init keyAlias) h

theorem step_life {S S' : System CapDesc} {e : SystemEvent CapDesc}
    (hs : S.step userPacket toPublic e = some S') :
    S'.life = S.life ∨ ∃ e', (e = .life e' ∨ e' = .workerExit) ∧ S.life.step e' = some S'.life := by
  cases e with
  | life e =>
    simp only [System.step] at hs
    split_ifs at hs
    obtain ⟨l, hl, rfl⟩ := Option.map_eq_some'.1 hs
    exact .inr ⟨e, .inl rfl, hl⟩
  | host e =>
    simp only [System.step] at hs
    split_ifs at hs
    split at hs
    · cases hs
      exact .inl rfl
    · cases hs
  | exit fuel acceptPolls polls =>
    simp only [System.step] at hs
    split_ifs at hs
    obtain ⟨l, hl, hdone⟩ := Option.bind_eq_some.1 hs
    obtain ⟨h', -, rfl⟩ := Option.map_eq_some'.1 hdone
    exact .inr ⟨.workerExit, .inr rfl, hl⟩

/-- The system refines its lifecycle: every state it reaches holds a state
`Lifecycle` reaches. -/
theorem reachable_life {S : System CapDesc} (hr : S.Reachable userPacket toPublic) : S.life.Reachable := by
  obtain ⟨keyAlias, evs, hrun⟩ := hr
  suffices ∀ {S₀ S₁ : System CapDesc} {evs}, runEvents userPacket toPublic S₀ evs = some S₁ →
      S₀.life.Reachable → S₁.life.Reachable from this hrun ⟨[], rfl⟩
  intro S₀ S₁ evs
  induction evs generalizing S₀ with
  | nil =>
    intro hrun hl
    cases hrun
    exact hl
  | cons e evs ih =>
    intro hrun ⟨levs, hl⟩
    obtain ⟨S₂, h₁, h₂⟩ := Option.bind_eq_some.1 hrun
    refine ih h₂ ?_
    rcases step_life userPacket toPublic h₁ with heq | ⟨e', -, he'⟩
    · exact ⟨levs, heq ▸ hl⟩
    · exact ⟨levs ++ [e'], Lifecycle.runEvents_snoc hl he'⟩

theorem step_absent {S S' : System CapDesc} {e : SystemEvent CapDesc} (hw : S.life.worker = .absent)
    (he : e ≠ .life .start) (hs : S.step userPacket toPublic e = some S') : S'.life.worker = .absent := by
  rcases step_life userPacket toPublic hs with heq | ⟨e', he', hs'⟩
  · rw [heq]
    exact hw
  · refine Lifecycle.step_absent hw ?_ hs'
    rintro rfl
    rcases he' with he' | he'
    · exact he he'
    · cases he'

theorem runEvents_absent : ∀ {S S' : System CapDesc} {evs : List (SystemEvent CapDesc)},
    S.life.worker = .absent → .life .start ∉ evs → runEvents userPacket toPublic S evs = some S' →
      S'.life.worker = .absent
  | _, _, [], hw, _, hr => by
    cases hr
    exact hw
  | _, _, _ :: _, hw, hstart, hr => by
    obtain ⟨S₁, h₁, h₂⟩ := Option.bind_eq_some.1 hr
    exact runEvents_absent (step_absent userPacket toPublic hw (fun he => hstart (he ▸ List.mem_cons_self _ _)) h₁)
      (fun h => hstart (List.mem_cons_of_mem _ h)) h₂

/-- Over every interleaving of `start()`, `stop()`, the worker thread, the
network's handlers and the other threads' calls: a `stop()` that found `m_run`
set returns, out of `stopWorking`, with `m_sessions` empty, `m_run` and
`m_accepting` clear, no accept in flight and `m_timer` released, and all of
this still holds after any later steps that do not call `start()`. -/
theorem stop_returns_drained {S S' S'' : System CapDesc} {evs : List (SystemEvent CapDesc)}
    (hr : S.Reachable userPacket toPublic) (hs : S.step userPacket toPublic (.life .stopJoin) = some S')
    (hrun : runEvents userPacket toPublic S' evs = some S'') (hstart : .life .start ∉ evs) :
    S''.host.sessions = .empty ∧ S''.host.run = false ∧ S''.host.accepting = false ∧
      S''.host.acceptsOutstanding = 0 ∧ S''.life.timer = false := by
  have wf'' :=
    runEvents_wf userPacket toPublic ((reachable_wf userPacket toPublic hr).step userPacket toPublic hs) hrun
  have hw : S'.life.worker = .absent := by
    simp only [System.step, reduceCtorEq, if_false] at hs
    obtain ⟨l, hl, rfl⟩ := Option.map_eq_some'.1 hs
    exact Lifecycle.stopJoin_absent hl
  have hw'' := runEvents_absent userPacket toPublic hw hstart hrun
  obtain ⟨hempty, hrun, hacc, hout⟩ := wf''.absent hw''
  exact ⟨hempty, hrun, hacc, hout, (wf''.life.stopped hw'').2.1⟩

end Steps

/-- A host started, with an accept armed, a session registered for node `5`
and the next accept armed, then stopped: the stopping tick releases the timer,
the worker exits through `doneWorking`, whose first poll completes the
cancelled accept, and `stopWorking` returns. A second `stop()` and a call of
`setIdealPeerCount` leave the host drained. -/
theorem stop_returns_drained_after_session :
    ∃ S S' S'' : System Nat, S.Reachable 16 (fun s => s + 2) ∧
      S.step 16 (fun s => s + 2) (.life .stopJoin) = some S' ∧
      runEvents 16 (fun s => s + 2) S' [.life .stop, .host (.setIdealPeerCount 3)] = some S'' ∧
      SystemEvent.life .start ∉ ([.life .stop, .host (.setIdealPeerCount 3)] : List (SystemEvent Nat)) ∧
      (S''.host.sessions = .empty ∧ S''.host.run = false ∧ S''.host.accepting = false ∧
        S''.host.acceptsOutstanding = 0 ∧ S''.life.timer = false) := by
  let evs : List (SystemEvent Nat) :=
    [.life .start, .life .startedWorking, .host .runAcceptor, .life .firstRun,
      .host (.acceptDone 0 true (some (.v4 0x01020304)) false), .host (.hello 1 5 []), .life .stop,
      .life .tick, .life .stopPoll, .exit 4 [[.acceptDone 125 false none false]] []]
  let later : List (SystemEvent Nat) := [.life .stop, .host (.setIdealPeerCount 3)]
  obtain ⟨S, hS, S', hS', S'', hS''⟩ : ∃ S, runEvents 16 (fun s => s + 2) (init ⟨7, 9⟩) evs = some S ∧
      ∃ S', S.step 16 (fun s => s + 2) (.life .stopJoin) = some S' ∧
        ∃ S'', runEvents 16 (fun s => s + 2) S' later = some S'' := ⟨_, rfl, _, rfl, _, rfl⟩
  have hr : S.Reachable 16 (fun s => s + 2) := ⟨⟨7, 9⟩, evs, hS⟩
  have hstart : SystemEvent.life .start ∉ later := by simp [later]
  exact ⟨S, S', S'', hr, hS', hS'', hstart, stop_returns_drained 16 _ hr hS' hS'' hstart⟩

end System

end P2PHost
