import Mathlib.Logic.Basic
import Mathlib.Tactic.SplitIfs

/-!
# Starting and stopping

`start()` only asks the worker to start; the worker thread then runs
`startedWorking`, which sets `m_timer` and `m_run` under `x_runTimer` and
enters the first scheduler tick, `run`. Each tick re-arms `m_timer` while
`m_run` holds; once it does not, the tick releases the timer and stops the
io_service. `stop()` clears `m_run` under the same lock, waits for the timer to
go, then stops the worker, whose exit runs `doneWorking`.

Each step below is atomic: the two locked regions exclude each other, and the
rest touches one thread's own state or is a read. Only the members these
functions share are modelled; `doneWorking`'s effect on the registries is the
Host's `clearSessions` step.

A `stop()` that finds `m_run` set returns with the host stopped, and from then
on only `start()` changes that. A `stop()` that comes between `start()` and the
worker's `startedWorking` finds `m_run` clear and returns at once; the worker
then starts the host.
-/

namespace P2PHost

/-- Where the worker thread is. -/
inductive WorkerPc where
  /-- No worker thread. -/
  | absent
  /-- Spawned, before `startedWorking` takes `x_runTimer`. -/
  | spawned
  /-- Past the locked region of `startedWorking`, before its call of `run`. -/
  | started
  /-- In the `doWork` loop: the io_service dispatches the scheduler ticks. -/
  | working
  deriving DecidableEq, Repr

/-- Where an external `stop()` call is. -/
inductive StopPc where
  | idle
  /-- `m_run` cleared; polling `m_timer` every 50 ms. -/
  | waiting
  /-- In `stopWorking`, waiting for the worker thread to exit. -/
  | joining
  deriving DecidableEq, Repr

/-- The members the lifecycle shares between the threads. -/
structure Lifecycle where
  /-- `m_run`. -/
  running : Bool := false
  /-- `m_timer` is set. -/
  timer : Bool := false
  /-- An `async_wait` of `m_timer` is outstanding. -/
  tickPending : Bool := false
  /-- `m_ioService` is stopped and not yet reset. -/
  ioStopped : Bool := false
  worker : WorkerPc := .absent
  /-- The worker has been asked to stop. -/
  stopRequested : Bool := false
  stopper : StopPc := .idle
  deriving DecidableEq, Repr

/-- What can happen next. -/
inductive LifecycleEvent where
  /-- An external `start()`. -/
  | start
  /-- An external `stop()` takes `x_runTimer`. -/
  | stop
  /-- `stop()` tests `m_timer`. -/
  | stopPoll
  /-- `stopWorking` returns: the worker thread has exited. -/
  | stopJoin
  /-- The locked region of `startedWorking`. -/
  | startedWorking
  /-- The end of `startedWorking`: `run(boost::system::error_code())`. -/
  | firstRun
  /-- `m_timer` expires and its handler calls `run`. -/
  | tick
  /-- The worker leaves its loop and runs `doneWorking`. -/
  | workerExit
  deriving DecidableEq, Repr

namespace Lifecycle

def isStarted (l : Lifecycle) : Bool := l.running

/-- `run`, the scheduler tick: while running it re-arms `m_timer`; otherwise it
stops the io_service and releases the timer. -/
def run (l : Lifecycle) : Lifecycle :=
  if !l.running then { l with ioStopped := true, timer := false }
  else { l with tickPending := true }

/-- Modelled from the spec: `startWorking`, whose class is not among these
sources, spawns the worker thread unless there is one. -/
def startWorking (l : Lifecycle) : Lifecycle :=
  if l.worker = .absent then { l with worker := .spawned, stopRequested := false } else l

/-- One step; `none` when the event cannot happen now. The worker's exit is
modelled from the spec: its loop ends once it is asked to stop. -/
def step (l : Lifecycle) : LifecycleEvent → Option Lifecycle
  | .start => some l.startWorking
  | .stop =>
    if l.stopper = .idle then
      some (if !l.running then l else { l with running := false, stopper := .waiting })
    else none
  | .stopPoll =>
    if l.stopper = .waiting then
      some (if l.timer then l else { l with stopper := .joining, stopRequested := true })
    else none
  | .stopJoin => if l.stopper = .joining ∧ l.worker = .absent then some { l with stopper := .idle } else none
  | .startedWorking =>
    if l.worker = .spawned then some { l with timer := true, running := true, worker := .started }
    else none
  | .firstRun => if l.worker = .started then some (run { l with worker := .working }) else none
  | .tick =>
    if l.worker = .working ∧ l.tickPending ∧ !l.ioStopped then some (run { l with tickPending := false })
    else none
  | .workerExit =>
    if l.worker = .working ∧ l.stopRequested then some { l with worker := .absent, ioStopped := false }
    else none

/-- The steps of `evs`, as long as each can happen. -/
def runEvents : Lifecycle → List LifecycleEvent → Option Lifecycle
  | l, [] => some l
  | l, e :: evs => (l.step e).bind fun l' => runEvents l' evs

/-- The states reached from a constructed Host, in any interleaving. -/
def Reachable (l : Lifecycle) : Prop := ∃ evs, runEvents {} evs = some l

/-- What holds at each place of the worker thread. -/
@[reducible] def WorkerWf (l : Lifecycle) : WorkerPc → Prop
  | .absent => l.running = false ∧ l.timer = false ∧ l.stopper ≠ .waiting
  | .spawned => l.running = false ∧ l.timer = false ∧ l.stopRequested = false ∧ l.stopper ≠ .waiting
  | .started => l.timer = true ∧ l.tickPending = false ∧ l.stopRequested = false
  | .working => l.stopRequested = true → l.running = false ∧ l.timer = false ∧ l.stopper = .joining

/-- The invariant of reachable states. -/
structure Wf (l : Lifecycle) : Prop where
  pending_timer : l.tickPending = true → l.timer = true
  waiting : l.stopper = .waiting → l.running = false ∧ l.stopRequested = false
  worker : l.WorkerWf l.worker

theorem Wf.init : Wf {} :=
  ⟨nofun, nofun, ⟨rfl, rfl, nofun⟩⟩

theorem Wf.tickPending_false {l : Lifecycle} (wf : l.Wf) (ht : l.timer = false) :
    l.tickPending = false := by
  cases hp : l.tickPending
  · rfl
  · simp [wf.pending_timer hp] at ht

theorem Wf.of_running {l : Lifecycle} (wf : l.Wf) (hr : l.running = true) :
    l.stopRequested = false ∧ (l.worker = .started ∨ l.worker = .working) := by
  have hw := wf.worker
  cases hwk : l.worker <;> rw [hwk] at hw
  · simp [hw.1] at hr
  · simp [hw.1] at hr
  · exact ⟨hw.2.2, .inl rfl⟩
  · refine ⟨?_, .inr rfl⟩
    cases hs : l.stopRequested
    · rfl
    · simp [(hw hs).1] at hr

theorem Wf.run {l : Lifecycle} (hw : l.worker = .working) (hp : l.tickPending = false)
    (timer : l.running = true → l.timer = true) (hreq : l.stopRequested = false)
    (hwait : l.stopper = .waiting → l.running = false) : l.run.Wf := by
  unfold Lifecycle.run
  cases hr : l.running
  · rw [if_pos (show (!false) = true from rfl)]
    exact ⟨by simp [hp], fun _ => ⟨rfl, hreq⟩, by simp [WorkerWf, hw, hreq]⟩
  · rw [if_neg (show ¬(!true) = true from nofun)]
    exact ⟨fun _ => timer hr, fun h => by simp [hwait h] at hr, by simp [WorkerWf, hw, hreq]⟩

theorem Wf.startWorking {l : Lifecycle} (wf : l.Wf) : l.startWorking.Wf := by
  have hw := wf.worker
  unfold Lifecycle.startWorking
  split_ifs with ha
  · rw [ha] at hw
    obtain ⟨hr, ht, hst⟩ := hw
    exact ⟨by simp [wf.tickPending_false ht], fun h => absurd h hst, ⟨hr, ht, rfl, hst⟩⟩
  · exact wf

theorem Wf.stop {l l' : Lifecycle} (wf : l.Wf) (hs : l.step .stop = some l') : l'.Wf := by
  have hw := wf.worker
  simp only [Lifecycle.step] at hs
  split_ifs at hs with hi hr <;> cases hs
  · exact wf
  · obtain ⟨hreq, hwk⟩ := wf.of_running (by simpa using hr)
    refine ⟨wf.pending_timer, fun _ => ⟨rfl, hreq⟩, ?_⟩
    rcases hwk with hwk | hwk <;> rw [hwk] at hw ⊢
    · exact hw
    · exact fun h => absurd h (by simp [hreq])

theorem Wf.stopPoll {l l' : Lifecycle} (wf : l.Wf) (hs : l.step .stopPoll = some l') : l'.Wf := by
  have hw := wf.worker
  simp only [Lifecycle.step] at hs
  split_ifs at hs with hst ht <;> cases hs
  · exact wf
  · obtain ⟨hr, -⟩ := wf.waiting hst
    refine ⟨wf.pending_timer, nofun, ?_⟩
    cases hwk : l.worker <;> rw [hwk] at hw
    · exact absurd hst hw.2.2
    · exact absurd hst hw.2.2.2
    · simp [hw.1] at ht
    · exact fun _ => ⟨hr, by simpa using ht, rfl⟩

theorem Wf.stopJoin {l l' : Lifecycle} (wf : l.Wf) (hs : l.step .stopJoin = some l') : l'.Wf := by
  have hw := wf.worker
  simp only [Lifecycle.step] at hs
  split_ifs at hs with h
  cases hs
  rw [h.2] at hw ⊢
  exact ⟨wf.pending_timer, nofun, ⟨hw.1, hw.2.1, nofun⟩⟩

theorem Wf.startedWorking {l l' : Lifecycle} (wf : l.Wf) (hs : l.step .startedWorking = some l') :
    l'.Wf := by
  have hw := wf.worker
  simp only [Lifecycle.step] at hs
  split_ifs at hs with h
  cases hs
  rw [h] at hw
  obtain ⟨-, ht, hreq, hst⟩ := hw
  exact ⟨fun _ => rfl, fun h => absurd h hst, ⟨rfl, wf.tickPending_false ht, hreq⟩⟩

theorem Wf.firstRun {l l' : Lifecycle} (wf : l.Wf) (hs : l.step .firstRun = some l') : l'.Wf := by
  have hw := wf.worker
  simp only [Lifecycle.step] at hs
  split_ifs at hs with h
  cases hs
  rw [h] at hw
  obtain ⟨ht, hp, hreq⟩ := hw
  exact Wf.run rfl hp (fun _ => ht) hreq fun h => (wf.waiting h).1

theorem Wf.tick {l l' : Lifecycle} (wf : l.Wf) (hs : l.step .tick = some l') : l'.Wf := by
  have hw := wf.worker
  simp only [Lifecycle.step] at hs
  split_ifs at hs with h
  cases hs
  obtain ⟨hwk, hp, -⟩ := h
  have ht := wf.pending_timer hp
  rw [hwk] at hw
  have hreq : l.stopRequested = false := by
    cases hs : l.stopRequested
    · rfl
    · simp [(hw hs).2.1] at ht
  exact Wf.run hwk rfl (fun _ => ht) hreq fun h => (wf.waiting h).1

theorem Wf.workerExit {l l' : Lifecycle} (wf : l.Wf) (hs : l.step .workerExit = some l') : l'.Wf := by
  have hw := wf.worker
  simp only [Lifecycle.step] at hs
  split_ifs at hs with h
  cases hs
  rw [h.1] at hw
  obtain ⟨hr, ht, hj⟩ := hw h.2
  exact ⟨wf.pending_timer, fun h => (by rw [hj] at h; cases h), ⟨hr, ht, by simp [hj]⟩⟩

theorem Wf.step {l l' : Lifecycle} (wf : l.Wf) {e : LifecycleEvent} (hs : l.step e = some l') :
    l'.Wf := by
  cases e with
  | start =>
    cases hs
    exact wf.startWorking
  | stop => exact wf.stop hs
  | stopPoll => exact wf.stopPoll hs
  | stopJoin => exact wf.stopJoin hs
  | startedWorking => exact wf.startedWorking hs
  | firstRun => exact wf.firstRun hs
  | tick => exact wf.tick hs
  | workerExit => exact wf.workerExit hs

theorem runEvents_wf : ∀ {l l' : Lifecycle} {evs : List LifecycleEvent},
    l.Wf → runEvents l evs = some l' → l'.Wf
  | _, _, [], wf, hr => by
    cases hr
    exact wf
  | l, _, e :: evs, wf, hr => by
    obtain ⟨l₁, h₁, h₂⟩ := Option.bind_eq_some.1 hr
    exact runEvents_wf (wf.step h₁) h₂

theorem reachable_wf {l : Lifecycle} (hr : l.Reachable) : l.Wf :=
  let ⟨_, h⟩ := hr
  runEvents_wf Wf.init h

theorem step_absent {l l' : Lifecycle} {e : LifecycleEvent} (hw : l.worker = .absent)
    (he : e ≠ .start) (hs : l.step e = some l') : l'.worker = .absent := by
  cases e with
  | start => exact absurd rfl he
  | stop =>
    simp only [Lifecycle.step] at hs
    split_ifs at hs <;> cases hs <;> exact hw
  | stopPoll =>
    simp only [Lifecycle.step] at hs
    split_ifs at hs <;> cases hs <;> exact hw
  | stopJoin =>
    simp only [Lifecycle.step] at hs
    split_ifs at hs
    cases hs
    exact hw
  | startedWorking => simp [Lifecycle.step, hw] at hs
  | firstRun => simp [Lifecycle.step, hw] at hs
  | tick => simp [Lifecycle.step, hw] at hs
  | workerExit => simp [Lifecycle.step, hw] at hs

theorem runEvents_absent : ∀ {l l' : Lifecycle} {evs : List LifecycleEvent},
    l.worker = .absent → .start ∉ evs → runEvents l evs = some l' → l'.worker = .absent
  | _, _, [], hw, _, hr => by
    cases hr
    exact hw
  | l, _, e :: evs, hw, hstart, hr => by
    obtain ⟨l₁, h₁, h₂⟩ := Option.bind_eq_some.1 hr
    have he : e ≠ .start := fun he => hstart (he ▸ List.mem_cons_self _ _)
    exact runEvents_absent (step_absent hw he h₁) (fun h => hstart (List.mem_cons_of_mem _ h)) h₂

theorem Wf.stopped {l : Lifecycle} (wf : l.Wf) (hw : l.worker = .absent) :
    l.isStarted = false ∧ l.timer = false ∧ l.tickPending = false := by
  have h := wf.worker
  rw [hw] at h
  exact ⟨h.1, h.2.1, wf.tickPending_false h.2.1⟩

/-- A `stop()` that found `m_run` set returns, out of `stopWorking`, with the
host stopped; and it stays stopped, whatever the threads do, until `start()`. -/
theorem stopJoin_absent {l l' : Lifecycle} (hs : l.step .stopJoin = some l') : l'.worker = .absent := by
  simp only [Lifecycle.step] at hs
  split_ifs at hs with h
  cases hs
  exact h.2

theorem stop_keeps_host_stopped {l l' l'' : Lifecycle} {evs : List LifecycleEvent}
    (hr : l.Reachable) (hs : l.step .stopJoin = some l') (hrun : runEvents l' evs = some l'')
    (hstart : .start ∉ evs) :
    l''.isStarted = false ∧ l''.timer = false ∧ l''.tickPending = false :=
  (runEvents_wf ((reachable_wf hr).step hs) hrun).stopped (runEvents_absent (stopJoin_absent hs) hstart hrun)

/-- A `stop()` made while the worker runs: its tick stops the io_service, the
worker exits, `stopWorking` returns, and a second `stop()` finds the host
stopped. -/
theorem stop_keeps_host_stopped_after_worker_exit :
    let l : Lifecycle := { worker := .absent, stopRequested := true, stopper := .joining }
    l.Reachable ∧ l.step .stopJoin = some { l with stopper := .idle } ∧
      runEvents { l with stopper := .idle } [.stop] = some { l with stopper := .idle } ∧
      LifecycleEvent.start ∉ [LifecycleEvent.stop] ∧
      ({ l with stopper := .idle }.isStarted = false ∧ { l with stopper := .idle }.timer = false ∧
        { l with stopper := .idle }.tickPending = false) := by
  intro l
  have hr : l.Reachable := ⟨[.start, .startedWorking, .firstRun, .stop, .tick, .stopPoll, .workerExit], rfl⟩
  have hs : l.step .stopJoin = some { l with stopper := .idle } := rfl
  have hrun : runEvents { l with stopper := .idle } [.stop] = some { l with stopper := .idle } := rfl
  have hstart : LifecycleEvent.start ∉ [LifecycleEvent.stop] := by decide
  exact ⟨hr, hs, hrun, hstart, stop_keeps_host_stopped hr hs hrun hstart⟩

/-- A `stop()` made after `start()` but before the worker's `startedWorking`
finds `m_run` clear and returns at once, with nothing stopped; the worker then
sets `m_run` and `m_timer`, and its scheduler tick keeps re-arming. -/
theorem stop_before_started_working :
    runEvents {} [.start, .stop] = some { worker := .spawned } ∧
      runEvents {} [.start, .stop, .startedWorking, .firstRun] =
        some { running := true, timer := true, tickPending := true, worker := .working } ∧
      runEvents {} [.start, .stop, .startedWorking, .firstRun, .tick] =
        some { running := true, timer := true, tickPending := true, worker := .working } := by
  decide

end Lifecycle

end P2PHost
