import P2PHost.Sessions

/-!
# The scheduler's keepalive

Each tick of `Host::run` ends with `keepAlivePeers` and `disconnectLatePeers`.
The first pings every session of `m_sessions` whose `weak_ptr` locks, once
`c_keepAliveInterval` (30 s) has passed since `m_lastPing`; it reads
`steady_clock` twice, for the check and for the new `m_lastPing`. The second
reads it a third time and, once `c_keepAliveTimeOut` (1 s) has passed since
`m_lastPing`, tells `PingTimeout` to each such session that has received
nothing since then.

`Scheduler` runs the Host's steps, the Sessions' reads and these ticks in any
order. `Session` is not among the sources: a Session records the clock when it
is constructed and each time it reads a packet, as its `m_lastReceived`; the
pings and disconnects themselves are its business, and the tick only reports
whom it asked. Every reading of the clock is no earlier than the one before.
Time points are unbounded: the source's signed 64-bit nanosecond counts do not
overflow for readings at least 30 s after `time_point::min()`.

A session is told `PingTimeout` only when nothing was heard from it since the
last ping, and that ping was stored more than 1 s before
(`evicted_not_heard`). After a ping, a live session silent through it is told
at the first tick more than 1 s later that does not ping again
(`silent_session_evicted`). But one tick can do both: when its second and third
readings are more than 1 s apart, it disconnects every session it has just
pinged (`stalled_tick_evicts_pinged`). Both walk `m_sessions` only: a Session
whose hello has not come is neither pinged nor told, however long it stays
silent (`tick_skips_unregistered`).
-/

namespace P2PHost

/-- `c_keepAliveInterval`: 30 s, in nanoseconds. -/
def keepAliveInterval : TimePoint := 30 * 10 ^ 9

/-- `c_keepAliveTimeOut`: 1000 ms, in nanoseconds. -/
def keepAliveTimeOut : TimePoint := 10 ^ 9

/-- `time_point<steady_clock>::min()`, the constructor's `m_lastPing`. -/
def steadyMin : TimePoint := -2 ^ 63

variable {CapDesc : Type} [LinearOrder CapDesc]

namespace Host

/-- The sessions a walk of `m_sessions` locks, in key order. -/
def liveSessions (h : Host CapDesc) : List Ref :=
  h.sessions.entries.filterMap fun e => if (h.sessionObj e.2).alive then some e.2 else none

/-- `keepAlivePeers()`: the new `m_lastPing` and the sessions pinged; `now₁` is
the reading of the check, `now₂` the one stored. -/
def keepAlivePeers (h : Host CapDesc) (lastPing now₁ now₂ : TimePoint) : TimePoint × List Ref :=
  if now₁ - keepAliveInterval < lastPing then (lastPing, [])
  else (now₂, h.liveSessions)

/-- `disconnectLatePeers()`: the sessions told `PingTimeout`, given each
Session's `m_lastReceived`. -/
def disconnectLatePeers (h : Host CapDesc) (lastPing : TimePoint)
    (lastReceived : Ref → TimePoint) (now : TimePoint) : List Ref :=
  if now - keepAliveTimeOut < lastPing then []
  else h.liveSessions.filter fun s =>
    decide (now - keepAliveTimeOut > lastPing) && decide (lastReceived s < lastPing)

theorem mem_liveSessions {h : Host CapDesc} {s : Ref} :
    s ∈ h.liveSessions ↔ (∃ k, (k, s) ∈ h.sessions.entries) ∧ (h.sessionObj s).alive = true := by
  simp only [liveSessions, List.mem_filterMap, Option.ite_none_right_eq_some, Option.some.injEq]
  constructor
  · rintro ⟨⟨k, r⟩, hkr, halive, rfl⟩
    exact ⟨⟨k, hkr⟩, halive⟩
  · rintro ⟨⟨k, hks⟩, halive⟩
    exact ⟨(k, s), hks, halive, rfl⟩

theorem mem_disconnectLatePeers {h : Host CapDesc} {lastPing now : TimePoint}
    {lastReceived : Ref → TimePoint} {s : Ref} :
    s ∈ h.disconnectLatePeers lastPing lastReceived now ↔
      s ∈ h.liveSessions ∧ lastPing + keepAliveTimeOut < now ∧ lastReceived s < lastPing := by
  unfold disconnectLatePeers
  split_ifs with hlate
  · simp only [List.not_mem_nil, false_iff, not_and]
    exact fun _ hlt _ => lt_asymm hlate (lt_sub_iff_add_lt.2 hlt)
  · simp only [List.mem_filter, Bool.and_eq_true, decide_eq_true_eq]
    constructor
    · rintro ⟨hs, hgt, hr⟩
      exact ⟨hs, lt_sub_iff_add_lt.1 hgt, hr⟩
    · rintro ⟨hs, hgt, hr⟩
      exact ⟨hs, lt_sub_iff_add_lt.2 hgt, hr⟩

end Host

/-- The Host with what its keepalive reads: `m_lastPing`, each Session's
`m_lastReceived` and the latest reading of `steady_clock`. `heard` is not in
the program: it records which sessions were constructed or read a packet
since `m_lastPing` took its value. -/
structure Scheduler (CapDesc : Type) [LinearOrder CapDesc] where
  host : Host CapDesc
  lastPing : TimePoint := steadyMin
  lastReceived : Ref → TimePoint := fun _ => steadyMin
  clock : TimePoint := steadyMin
  heard : Ref → Bool := fun _ => false

/-- What can happen next beside the keepalive. -/
inductive SchedulerEvent (CapDesc : Type) where
  /-- A step of the Host, at `now`. -/
  | host (e : Event CapDesc) (now : TimePoint)
  /-- The Session `s` reads a packet at `now`. -/
  | receive (s : Ref) (now : TimePoint)
  /-- The end of a tick of `Host::run`, with the three readings of the clock. -/
  | tick (now₁ now₂ now₃ : TimePoint)

namespace Host

variable (userPacket : Nat) (toPublic : Secret → NodeId)

theorem notePeer_nextRef_le (h : Host CapDesc) (n : NodeId) (tcp : Endpoint) :
    h.nextRef ≤ (h.notePeer n tcp).2.nextRef := by
  have spec := notePeer_spec h n tcp
  generalize h.notePeer n tcp = x at spec ⊢
  rcases spec.2.2.1 with ⟨-, hnext, -⟩ | ⟨-, hnext, -⟩ <;> rw [hnext]
  exact Nat.le_succ _

theorem connect_nextRef (h : Host CapDesc) (p : Ref) : (h.connect p).nextRef = h.nextRef := by
  rcases connect_cases h p with heq | ⟨-, heq⟩ <;> rw [heq]

theorem runAcceptor_nextRef (h : Host CapDesc) : h.runAcceptor.nextRef = h.nextRef := by
  unfold runAcceptor
  split_ifs <;> rfl

theorem step_nextRef_le {h h' : Host CapDesc} {e : Event CapDesc}
    (hs : h.step userPacket toPublic e = .ok h') : h.nextRef ≤ h'.nextRef := by
  cases e with
  | nodeTable n e =>
    cases hs
    cases e with
    | nodeEntryAdded =>
      rw [onNodeTableEvent_added]
      split_ifs
      · exact le_rfl
      · rw [connect_nextRef]
        exact notePeer_nextRef_le h n _
      · exact notePeer_nextRef_le h n _
    | nodeEntryRemoved => exact le_rfl
  | connectDone p refused raises now =>
    simp only [Host.step] at hs
    split_ifs at hs
    · cases refused <;> cases raises <;> cases hs
      · exact Nat.le_succ _
      · exact le_rfl
      · exact le_rfl
    · cases hs
      exact le_rfl
  | acceptDone ec socketOpen remote sessionRaises =>
    simp only [Host.step] at hs
    split_ifs at hs <;> cases hs
    · rw [acceptHandler_frame Host.nextRef (fun _ _ _ => rfl)]
      split_ifs
      · rw [doHandshake_inbound]
        cases remote <;> cases sessionRaises
        · exact le_rfl
        · exact le_rfl
        · exact Nat.le_succ_of_le (Nat.le_succ _)
        · exact Nat.le_succ _
      · exact le_rfl
    · exact le_rfl
  | hello s id caps =>
    cases hs
    unfold hello
    dsimp only
    split_ifs <;> simp only [registerPeer_eq, modifyPeer, le_refl]
  | restoreNodes r =>
    cases hs
    rw [restoreNodes_state]
  | runAcceptor =>
    cases hs
    exact (runAcceptor_nextRef h).ge
  | setRun | setIdealPeerCount | registerCapability | discover | sessionEnds | clearSessions =>
    cases hs
    exact le_rfl

theorem Run.snoc {h h' h'' : Host CapDesc} {evs : List (Event CapDesc)} {e : Event CapDesc}
    (hrun : Run userPacket toPublic h evs h') (hs : h'.step userPacket toPublic e = .ok h'') :
    Run userPacket toPublic h (evs ++ [e]) h'' := by
  induction hrun with
  | nil => exact .cons hs (.nil _)
  | cons hs' _ ih => exact .cons hs' (ih hs)

end Host

namespace Scheduler

/-- The scheduler as the Host's constructor leaves it. -/
def init (keyAlias : KeyPair) : Scheduler CapDesc := { host := Host.init keyAlias }

/-- A tick past the discovery pump: `keepAlivePeers` then
`disconnectLatePeers`, or nothing once `m_run` is clear; the state after, the
sessions pinged and the sessions told `PingTimeout`. -/
def tick (σ : Scheduler CapDesc) (now₁ now₂ now₃ : TimePoint) :
    Scheduler CapDesc × List Ref × List Ref :=
  if !σ.host.run then ({ σ with clock := now₃ }, [], [])
  else
    let (lastPing, pinged) := σ.host.keepAlivePeers σ.lastPing now₁ now₂
    ({ σ with
        lastPing, clock := now₃
        heard := if lastPing = σ.lastPing then σ.heard else fun _ => false },
      pinged, σ.host.disconnectLatePeers lastPing σ.lastReceived now₃)

variable (userPacket : Nat) (toPublic : Secret → NodeId)

/-- One step; `none` when it would read the clock backwards, or when the
Host's step throws. The Sessions a Host step constructs take its time as
their `m_lastReceived`. -/
def step (σ : Scheduler CapDesc) : SchedulerEvent CapDesc → Option (Scheduler CapDesc)
  | .host e now =>
    if now < σ.clock then none
    else match σ.host.step userPacket toPublic e with
      | .ok h =>
        let fresh r := decide (σ.host.nextRef ≤ r ∧ r < h.nextRef)
        some { σ with
          host := h, clock := now
          lastReceived := fun r => if fresh r then now else σ.lastReceived r
          heard := fun r => fresh r || σ.heard r }
      | .raised _ => none
  | .receive s now =>
    if now < σ.clock then none
    else some { σ with
      clock := now
      lastReceived := fun r => if r = s then now else σ.lastReceived r
      heard := fun r => r = s || σ.heard r }
  | .tick now₁ now₂ now₃ =>
    if σ.clock ≤ now₁ ∧ now₁ ≤ now₂ ∧ now₂ ≤ now₃ then some (σ.tick now₁ now₂ now₃).1 else none

/-- The steps of `evs` from `σ`, up to the first that cannot be taken. -/
def runEvents : Scheduler CapDesc → List (SchedulerEvent CapDesc) → Option (Scheduler CapDesc)
  | σ, [] => some σ
  | σ, e :: evs => (σ.step userPacket toPublic e).bind fun σ' => runEvents σ' evs

/-- Runs: sequences of steps that can be taken. -/
inductive Run : Scheduler CapDesc → List (SchedulerEvent CapDesc) → Scheduler CapDesc → Prop
  | nil (σ : Scheduler CapDesc) : Run σ [] σ
  | cons {σ σ' σ'' : Scheduler CapDesc} {e : SchedulerEvent CapDesc}
      {evs : List (SchedulerEvent CapDesc)} :
      σ.step userPacket toPublic e = some σ' → Run σ' evs σ'' → Run σ (e :: evs) σ''

/-- The states reached from the Host's construction. -/
def Reachable (σ : Scheduler CapDesc) : Prop :=
  ∃ keyAlias evs, Run userPacket toPublic (init keyAlias) evs σ

theorem run_of_runEvents :
    ∀ {σ σ' : Scheduler CapDesc} {evs : List (SchedulerEvent CapDesc)},
      runEvents userPacket toPublic σ evs = some σ' → Run userPacket toPublic σ evs σ'
  | σ, _, [], hr => by
    cases hr
    exact .nil σ
  | _, _, e :: evs, hr => by
    obtain ⟨σ₁, h₁, h₂⟩ := Option.bind_eq_some.1 hr
    exact .cons h₁ (run_of_runEvents h₂)

theorem step_host {σ σ' : Scheduler CapDesc} {e : SchedulerEvent CapDesc}
    (hs : σ.step userPacket toPublic e = some σ') :
    σ'.host = σ.host ∨ ∃ e' now, e = .host e' now ∧ σ.host.step userPacket toPublic e' = .ok σ'.host := by
  cases e with
  | host e now =>
    simp only [step] at hs
    split_ifs at hs
    split at hs
    · cases hs
      exact .inr ⟨e, now, rfl, ‹_›⟩
    · cases hs
  | receive s now =>
    simp only [step] at hs
    split_ifs at hs
    cases hs
    exact .inl rfl
  | tick now₁ now₂ now₃ =>
    simp only [step] at hs
    split_ifs at hs
    cases hs
    unfold tick
    split_ifs <;> exact .inl rfl

theorem reachable_host {σ : Scheduler CapDesc} (hr : σ.Reachable userPacket toPublic) :
    σ.host.Reachable userPacket toPublic := by
  obtain ⟨keyAlias, evs, hrun⟩ := hr
  suffices ∀ {σ₀ σ₁ : Scheduler CapDesc} {evs}, Run userPacket toPublic σ₀ evs σ₁ →
      σ₀.host.Reachable userPacket toPublic → σ₁.host.Reachable userPacket toPublic from
    this hrun ⟨keyAlias, [], .nil _⟩
  intro σ₀ σ₁ evs hrun
  induction hrun with
  | nil σ => exact id
  | cons hs _ ih =>
    rintro ⟨k, hevs, h⟩
    rcases step_host userPacket toPublic hs with heq | ⟨e', -, -, he'⟩
    · exact ih ⟨k, hevs, heq ▸ h⟩
    · exact ih ⟨k, hevs ++ [e'], h.snoc userPacket toPublic he'⟩

/-- What every reachable state satisfies: nothing stored is later than the
clock, and a session heard from since the last ping received at or after it. -/
structure Inv (σ : Scheduler CapDesc) : Prop where
  lastPing_le : σ.lastPing ≤ σ.clock
  lastReceived_le : ∀ r, σ.lastReceived r ≤ σ.clock
  heard_after : ∀ r, σ.heard r = true → σ.lastPing ≤ σ.lastReceived r

theorem Inv.init (keyAlias : KeyPair) : (init keyAlias : Scheduler CapDesc).Inv where
  lastPing_le := le_refl _
  lastReceived_le _ := le_refl _
  heard_after _ h := Bool.noConfusion h

theorem Inv.tick {σ : Scheduler CapDesc} (inv : σ.Inv) {now₁ now₂ now₃ : TimePoint}
    (h₁ : σ.clock ≤ now₁) (h₂ : now₁ ≤ now₂) (h₃ : now₂ ≤ now₃) :
    (σ.tick now₁ now₂ now₃).1.Inv := by
  have hle : σ.clock ≤ now₃ := h₁.trans (h₂.trans h₃)
  have hrecv : ∀ r, σ.lastReceived r ≤ now₃ := fun r => (inv.lastReceived_le r).trans hle
  unfold Scheduler.tick Host.keepAlivePeers
  split_ifs with hrun hcheck
  · exact ⟨inv.lastPing_le.trans hle, hrecv, inv.heard_after⟩
  · exact ⟨inv.lastPing_le.trans hle, hrecv, by simpa using inv.heard_after⟩
  · refine ⟨h₃, hrecv, fun r hr => ?_⟩
    dsimp only at hr ⊢
    split_ifs at hr with hsame
    exact hsame ▸ inv.heard_after r hr

theorem Inv.step {σ σ' : Scheduler CapDesc} (inv : σ.Inv) {e : SchedulerEvent CapDesc}
    (hs : σ.step userPacket toPublic e = some σ') : σ'.Inv := by
  cases e with
  | host e now =>
    simp only [Scheduler.step] at hs
    split_ifs at hs with hnow
    have hle := not_lt.1 hnow
    split at hs
    · cases hs
      refine ⟨inv.lastPing_le.trans hle, fun r => ?_, fun r hr => ?_⟩
      · dsimp only
        split_ifs
        · exact le_rfl
        · exact (inv.lastReceived_le r).trans hle
      · dsimp only at hr ⊢
        split_ifs with hfresh
        · exact inv.lastPing_le.trans hle
        · simp only [hfresh, Bool.false_or] at hr
          exact inv.heard_after r hr
    · cases hs
  | receive s now =>
    simp only [Scheduler.step] at hs
    split_ifs at hs with hnow
    have hle := not_lt.1 hnow
    cases hs
    refine ⟨inv.lastPing_le.trans hle, fun r => ?_, fun r hr => ?_⟩
    · dsimp only
      split_ifs
      · exact le_rfl
      · exact (inv.lastReceived_le r).trans hle
    · dsimp only at hr ⊢
      split_ifs with hrs
      · exact inv.lastPing_le.trans hle
      · simp only [hrs, decide_False, Bool.false_or] at hr
        exact inv.heard_after r hr
  | tick now₁ now₂ now₃ =>
    simp only [Scheduler.step] at hs
    split_ifs at hs with hclock
    cases hs
    exact inv.tick hclock.1 hclock.2.1 hclock.2.2

theorem Run.inv {σ σ' : Scheduler CapDesc} {evs : List (SchedulerEvent CapDesc)}
    (hrun : Run userPacket toPublic σ evs σ') (inv : σ.Inv) : σ'.Inv := by
  induction hrun with
  | nil => exact inv
  | cons hs _ ih => exact ih (inv.step userPacket toPublic hs)

theorem reachable_inv {σ : Scheduler CapDesc} (hr : σ.Reachable userPacket toPublic) : σ.Inv :=
  let ⟨keyAlias, _, hrun⟩ := hr
  hrun.inv userPacket toPublic (Inv.init keyAlias)

@[simp] theorem tick_host (σ : Scheduler CapDesc) (now₁ now₂ now₃ : TimePoint) :
    (σ.tick now₁ now₂ now₃).1.host = σ.host := by
  unfold tick
  split_ifs <;> rfl

@[simp] theorem tick_lastReceived (σ : Scheduler CapDesc) (now₁ now₂ now₃ : TimePoint) :
    (σ.tick now₁ now₂ now₃).1.lastReceived = σ.lastReceived := by
  unfold tick
  split_ifs <;> rfl

theorem tick_running {σ : Scheduler CapDesc} (hrun : σ.host.run = true) (now₁ now₂ now₃ : TimePoint) :
    (σ.tick now₁ now₂ now₃).1.lastPing = (σ.host.keepAlivePeers σ.lastPing now₁ now₂).1 ∧
      (σ.tick now₁ now₂ now₃).2.1 = (σ.host.keepAlivePeers σ.lastPing now₁ now₂).2 ∧
      (σ.tick now₁ now₂ now₃).2.2 = σ.host.disconnectLatePeers
        (σ.host.keepAlivePeers σ.lastPing now₁ now₂).1 σ.lastReceived now₃ := by
  unfold tick
  rw [if_neg (by simp [hrun])]
  exact ⟨rfl, rfl, rfl⟩

theorem mem_tick_evicted {σ : Scheduler CapDesc} {now₁ now₂ now₃ : TimePoint} {s : Ref} :
    s ∈ (σ.tick now₁ now₂ now₃).2.2 ↔ σ.host.run = true ∧ s ∈ σ.host.liveSessions ∧
      (σ.tick now₁ now₂ now₃).1.lastPing + keepAliveTimeOut < now₃ ∧
      σ.lastReceived s < (σ.tick now₁ now₂ now₃).1.lastPing := by
  cases hrun : σ.host.run
  · simp [tick, hrun]
  · obtain ⟨hping, -, hevicted⟩ := tick_running hrun now₁ now₂ now₃
    rw [hevicted, Host.mem_disconnectLatePeers, hping]
    exact ⟨fun h => ⟨rfl, h⟩, fun h => h.2⟩

theorem step_lastReceived {σ σ' : Scheduler CapDesc} {e : SchedulerEvent CapDesc}
    (hs : σ.step userPacket toPublic e = some σ') {s : Ref} (hlt : s < σ.host.nextRef)
    (he : ∀ t, e ≠ .receive s t) :
    σ'.lastReceived s = σ.lastReceived s ∧ σ.host.nextRef ≤ σ'.host.nextRef := by
  cases e with
  | host e now =>
    simp only [step] at hs
    split_ifs at hs
    split at hs
    · cases hs
      refine ⟨if_neg fun hfresh => ?_, Host.step_nextRef_le userPacket toPublic ‹_›⟩
      exact absurd (of_decide_eq_true hfresh).1 (not_le.2 hlt)
    · cases hs
  | receive r now =>
    simp only [step] at hs
    split_ifs at hs
    cases hs
    exact ⟨if_neg fun (hsr : s = r) => he now (by rw [hsr]), le_rfl⟩
  | tick now₁ now₂ now₃ =>
    simp only [step] at hs
    split_ifs at hs
    cases hs
    exact ⟨by rw [tick_lastReceived], by rw [tick_host]⟩

theorem Run.lastReceived_eq {σ σ' : Scheduler CapDesc} {evs : List (SchedulerEvent CapDesc)}
    (hrun : Run userPacket toPublic σ evs σ') {s : Ref} (hlt : s < σ.host.nextRef)
    (hsilent : ∀ t, .receive s t ∉ evs) : σ'.lastReceived s = σ.lastReceived s := by
  induction hrun with
  | nil => rfl
  | cons hs _ ih =>
    obtain ⟨heq, hnext⟩ := step_lastReceived userPacket toPublic hs hlt
      fun t he => hsilent t (he ▸ List.mem_cons_self _ _)
    rw [ih (lt_of_lt_of_le hlt hnext) fun t h => hsilent t (List.mem_cons_of_mem _ h), heq]

/-- The one inbound session the eviction witnesses run: accepted at time 0 from
`1.2.3.4`, with the Peer as object `0` and the Session as object `1`, and
registered for node `5` by its hello. -/
def oneSessionEvents : List (SchedulerEvent Nat) :=
  [.host (.setRun true) 0, .host .runAcceptor 0,
    .host (.acceptDone 0 true (some (.v4 0x01020304)) false) 0, .host (.hello 1 5 []) 0]

/-- The scheduler once the session is registered. -/
def oneSession : Scheduler Nat :=
  ((init ⟨7, 9⟩).runEvents 0 (fun s => s) oneSessionEvents).getD (init ⟨7, 9⟩)

/-- The scheduler once the tick at 10 s has pinged the session. -/
def pingedSession : Scheduler Nat :=
  ((init ⟨7, 9⟩).runEvents 0 (fun s => s)
    (oneSessionEvents ++ [.tick (10 ^ 10) (10 ^ 10) (10 ^ 10)])).getD (init ⟨7, 9⟩)

theorem oneSession_reachable : oneSession.Reachable 0 (fun s => s) :=
  ⟨⟨7, 9⟩, oneSessionEvents, run_of_runEvents 0 _ (by exact rfl)⟩

theorem pingedSession_reachable : pingedSession.Reachable 0 (fun s => s) :=
  ⟨⟨7, 9⟩, oneSessionEvents ++ [.tick (10 ^ 10) (10 ^ 10) (10 ^ 10)],
    run_of_runEvents 0 _ (by exact rfl)⟩

/-- A session is told `PingTimeout` only when it is live in `m_sessions`,
nothing was heard from it since `m_lastPing` took its value, and that was more
than 1 s before the tick's last reading. -/
theorem evicted_not_heard {σ σ' : Scheduler CapDesc} (hr : σ.Reachable userPacket toPublic)
    {now₁ now₂ now₃ : TimePoint} (hσ' : σ.step userPacket toPublic (.tick now₁ now₂ now₃) = some σ')
    {s : Ref} (hs : s ∈ (σ.tick now₁ now₂ now₃).2.2) :
    s ∈ σ.host.liveSessions ∧ σ'.heard s = false ∧ σ'.lastPing + keepAliveTimeOut < now₃ := by
  have inv' := (reachable_inv userPacket toPublic hr).step userPacket toPublic hσ'
  have htick : (σ.tick now₁ now₂ now₃).1 = σ' := by
    simp only [step] at hσ'
    split_ifs at hσ'
    exact Option.some.inj hσ'
  obtain ⟨-, hlive, hlate, hsilent⟩ := mem_tick_evicted.1 hs
  subst htick
  refine ⟨hlive, Bool.eq_false_iff.2 fun hheard => ?_, hlate⟩
  have := inv'.heard_after s hheard
  rw [tick_lastReceived] at this
  exact not_le.2 hsilent this

/-- Two seconds after the ping, the silent session is told `PingTimeout`:
unheard since the ping, which was stamped at 10 s. -/
theorem evicted_not_heard_after_ping :
    let t : TimePoint := 12 * 10 ^ 9
    pingedSession.Reachable 0 (fun s => s) ∧
      pingedSession.step 0 (fun s => s) (.tick t t t) = some (pingedSession.tick t t t).1 ∧
      1 ∈ (pingedSession.tick t t t).2.2 ∧
      (1 ∈ pingedSession.host.liveSessions ∧ (pingedSession.tick t t t).1.heard 1 = false ∧
        (pingedSession.tick t t t).1.lastPing + keepAliveTimeOut < t) := by
  intro t
  have hstep : pingedSession.step 0 (fun s => s) (.tick t t t) = some (pingedSession.tick t t t).1 :=
    rfl
  have hs : 1 ∈ (pingedSession.tick t t t).2.2 := by decide
  exact ⟨pingedSession_reachable, hstep, hs, evicted_not_heard 0 _ pingedSession_reachable hstep hs⟩

/-- A session live at some point that reads nothing afterwards, whatever the
Host, the other sessions and the scheduler do meanwhile, is told `PingTimeout`
by a tick of the running host that finds it still live, comes more than 1 s
after a ping stamped since that point, and does not ping again. -/
theorem silent_session_evicted {σ σ' : Scheduler CapDesc} {evs : List (SchedulerEvent CapDesc)}
    (hr : σ.Reachable userPacket toPublic) (hrun : Run userPacket toPublic σ evs σ')
    {s : Ref} (hlive : s ∈ σ.host.liveSessions) (hsilent : ∀ t, .receive s t ∉ evs)
    (hpinged : σ.clock < σ'.lastPing) (hlive' : s ∈ σ'.host.liveSessions)
    (hrunning : σ'.host.run = true) {now₁ now₂ now₃ : TimePoint}
    (hnoping : now₁ < σ'.lastPing + keepAliveInterval)
    (hlate : σ'.lastPing + keepAliveTimeOut < now₃) :
    s ∈ (σ'.tick now₁ now₂ now₃).2.2 := by
  have hlt : s < σ.host.nextRef :=
    ((Host.reachable_wf userPacket toPublic (reachable_host userPacket toPublic hr)).tables.alive_lt s
      (Host.mem_liveSessions.1 hlive).2).1
  have hquiet := hrun.lastReceived_eq userPacket toPublic hlt hsilent
  have hkeep : (σ'.host.keepAlivePeers σ'.lastPing now₁ now₂).1 = σ'.lastPing := by
    unfold Host.keepAlivePeers
    rw [if_pos (sub_lt_iff_lt_add.2 hnoping)]
  rw [(tick_running hrunning now₁ now₂ now₃).2.2, hkeep, Host.mem_disconnectLatePeers, hquiet]
  exact ⟨hlive', hlate, lt_of_le_of_lt ((reachable_inv userPacket toPublic hr).lastReceived_le s) hpinged⟩

/-- The session, silent through the ping at 10 s, is told `PingTimeout` by
the tick at 12 s. -/
theorem silent_session_evicted_at_twelve_seconds :
    let t : TimePoint := 12 * 10 ^ 9
    oneSession.Reachable 0 (fun s => s) ∧
      Run 0 (fun s => s) oneSession [.tick (10 ^ 10) (10 ^ 10) (10 ^ 10)] pingedSession ∧
      1 ∈ oneSession.host.liveSessions ∧
      (∀ u, (.receive 1 u : SchedulerEvent Nat) ∉ [.tick (10 ^ 10) (10 ^ 10) (10 ^ 10)]) ∧
      oneSession.clock < pingedSession.lastPing ∧ 1 ∈ pingedSession.host.liveSessions ∧
      pingedSession.host.run = true ∧ t < pingedSession.lastPing + keepAliveInterval ∧
      pingedSession.lastPing + keepAliveTimeOut < t ∧ 1 ∈ (pingedSession.tick t t t).2.2 :=
  have hrun : Run 0 (fun s => s) oneSession [.tick (10 ^ 10) (10 ^ 10) (10 ^ 10)] pingedSession :=
    run_of_runEvents 0 _ (by exact rfl)
  have hsilent : ∀ u, (.receive 1 u : SchedulerEvent Nat) ∉ [.tick (10 ^ 10) (10 ^ 10) (10 ^ 10)] :=
    fun u h => by simp at h
  ⟨oneSession_reachable, hrun, by decide, hsilent, by decide, by decide, by decide, by decide,
    by decide, silent_session_evicted 0 _ oneSession_reachable hrun (by decide) hsilent (by decide)
      (by decide) (by decide) (by decide) (by decide)⟩

/-- A tick whose stamp is read after the last event and whose third reading
comes more than 1 s after the stamp, as when the thread stalls between them,
disconnects every live session it has just pinged. -/
theorem stalled_tick_evicts_pinged {σ : Scheduler CapDesc} (hr : σ.Reachable userPacket toPublic)
    (hrun : σ.host.run = true) {now₁ now₂ now₃ : TimePoint}
    (hdue : σ.lastPing + keepAliveInterval ≤ now₁) (hwalk : σ.clock < now₂)
    (hstall : now₂ + keepAliveTimeOut < now₃) :
    (σ.tick now₁ now₂ now₃).2.1 = σ.host.liveSessions ∧
      (σ.tick now₁ now₂ now₃).2.2 = σ.host.liveSessions := by
  have inv := reachable_inv userPacket toPublic hr
  obtain ⟨-, hpinged, hevicted⟩ := tick_running hrun now₁ now₂ now₃
  have hkeep : σ.host.keepAlivePeers σ.lastPing now₁ now₂ = (now₂, σ.host.liveSessions) := by
    unfold Host.keepAlivePeers
    rw [if_neg (not_lt.2 (le_sub_iff_add_le.2 hdue))]
  rw [hkeep] at hpinged hevicted
  refine ⟨hpinged, hevicted.trans ?_⟩
  unfold Host.disconnectLatePeers
  rw [if_neg (not_lt.2 (le_sub_iff_add_le.2 hstall.le)), List.filter_eq_self]
  intro s _
  simp only [Bool.and_eq_true, decide_eq_true_eq]
  exact ⟨lt_sub_iff_add_lt.2 hstall, lt_of_le_of_lt (inv.lastReceived_le s) hwalk⟩

/-- A tick that stamps its ping at 10 s and reads the clock again at 15 s
pings the one session and disconnects it at once. -/
theorem stalled_tick_evicts_pinged_session :
    oneSession.Reachable 0 (fun s => s) ∧ oneSession.host.run = true ∧
      oneSession.lastPing + keepAliveInterval ≤ 10 ^ 10 ∧ oneSession.clock < 10 ^ 10 + 1 ∧
      (10 ^ 10 + 1 : TimePoint) + keepAliveTimeOut < 15 * 10 ^ 9 ∧
      oneSession.host.liveSessions = [1] ∧
      ((oneSession.tick (10 ^ 10) (10 ^ 10 + 1) (15 * 10 ^ 9)).2.1 = oneSession.host.liveSessions ∧
        (oneSession.tick (10 ^ 10) (10 ^ 10 + 1) (15 * 10 ^ 9)).2.2 = oneSession.host.liveSessions) :=
  ⟨oneSession_reachable, by decide, by decide, by decide, by decide, by decide,
    stalled_tick_evicts_pinged 0 _ oneSession_reachable (by decide) (by decide) (by decide) (by decide)⟩

theorem Run.keeps_unregistered {σ σ' : Scheduler CapDesc} {evs : List (SchedulerEvent CapDesc)}
    (hrun : Run userPacket toPublic σ evs σ') {q : Ref} (hunreg : ∀ k, σ.host.sessions.find? k ≠ some q)
    (hhello : ∀ id caps now, .host (.hello q id caps) now ∉ evs) : ∀ k, σ'.host.sessions.find? k ≠ some q := by
  induction hrun with
  | nil => exact hunreg
  | @cons σ σ₁ σ₂ e evs hs _ ih =>
    refine ih ?_ fun id caps now he => hhello id caps now (List.mem_cons_of_mem _ he)
    rcases step_host userPacket toPublic hs with heq | ⟨e', now, rfl, he'⟩
    · rwa [heq]
    · exact Host.step_keeps_unregistered userPacket toPublic he'
        (fun id caps he => hhello id caps now (he ▸ List.mem_cons_self _ _)) hunreg

/-- The keepalive reaches only the sessions of `m_sessions`. Along any run in
which a session no entry names does not say hello, whatever else happens and
however long the session stays silent, no tick pings it or tells it
`PingTimeout`. -/
theorem tick_skips_unregistered {σ σ' : Scheduler CapDesc} {evs : List (SchedulerEvent CapDesc)}
    (hrun : Run userPacket toPublic σ evs σ') {q : Ref} (hunreg : ∀ k, σ.host.sessions.find? k ≠ some q)
    (hhello : ∀ id caps now, .host (.hello q id caps) now ∉ evs) (now₁ now₂ now₃ : TimePoint) :
    q ∉ (σ'.tick now₁ now₂ now₃).2.1 ∧ q ∉ (σ'.tick now₁ now₂ now₃).2.2 := by
  have hlive : q ∉ σ'.host.liveSessions := fun hq =>
    let ⟨⟨k, hk⟩, _⟩ := Host.mem_liveSessions.1 hq
    hrun.keeps_unregistered userPacket toPublic hunreg hhello k (σ'.host.sessions.find?_of_mem hk)
  refine ⟨?_, fun hq => hlive (mem_tick_evicted.1 hq).2.1⟩
  simp only [tick, Host.keepAlivePeers]
  split_ifs <;> simp [hlive]

/-- The session of a connection accepted at time 0 whose hello never comes:
live, and silent through the tick at 10 s, it is neither pinged nor told
`PingTimeout` at 12 s. -/
theorem tick_skips_unregistered_before_hello :
    let σ : Scheduler Nat := ((init ⟨7, 9⟩).runEvents 0 (fun s => s)
      [.host (.setRun true) 0, .host .runAcceptor 0,
        .host (.acceptDone 0 true (some (.v4 0x01020304)) false) 0]).getD (init ⟨7, 9⟩)
    let ticks : List (SchedulerEvent Nat) := [.tick (10 ^ 10) (10 ^ 10) (10 ^ 10)]
    let σ' := (σ.runEvents 0 (fun s => s) ticks).getD σ
    let t : TimePoint := 12 * 10 ^ 9
    Run 0 (fun s => s) σ ticks σ' ∧ (σ'.host.sessionObj 1).alive = true ∧
      (∀ k, σ.host.sessions.find? k ≠ some 1) ∧ (∀ id caps now, .host (.hello 1 id caps) now ∉ ticks) ∧
      1 ∉ (σ'.tick t t t).2.1 ∧ 1 ∉ (σ'.tick t t t).2.2 := by
  intro σ ticks σ' t
  have hrun : Run 0 (fun s => s) σ ticks σ' := run_of_runEvents 0 _ (by exact rfl)
  have hunreg : ∀ k, σ.host.sessions.find? k ≠ some 1 := fun k => by
    simp [show σ.host.sessions = OrdMap.empty from rfl]
  have hhello : ∀ id caps now, (.host (.hello 1 id caps) now : SchedulerEvent Nat) ∉ ticks := by simp [ticks]
  exact ⟨hrun, by decide, hunreg, hhello, tick_skips_unregistered 0 _ hrun hunreg hhello t t t⟩

end Scheduler

end P2PHost
