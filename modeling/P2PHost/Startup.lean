import P2PHost.Public

/-!
# Starting the network

`startedWorking`, past its locked region (`Lifecycle` models that part), binds
the acceptor with `Network::tcp4Listen`, whose result is an input here: the
port, or -1 when binding failed. Unless the result is 0 it runs
`determinePublic`, arms the acceptor when the result is positive, and makes
the discovery table. The calls of `onStarting` and the log lines are left out.

`determinePublic` returns before its rule table when the host has no
interface address or no positive listen port, and then leaves `m_tcpPublic`
as it was. That member is what `listenPort()` and `listenAddress()` report, so
over a sequence of starts they report the endpoint of the last start that got
past that return (`tcpPublic_after_starts`): a restart whose bind fails
reports the port of an earlier start, while nothing listens.
-/

namespace P2PHost

/-- The members `startedWorking` sets for the network. -/
structure Listener where
  /-- `m_listenPort`. -/
  listenPort : Int := -1
  /-- `m_tcpPublic`. -/
  tcpPublic : Endpoint := {}
  /-- `m_peerAddresses`. -/
  peerAddresses : OrdMap Address Unit := .empty

namespace Listener

/-- `listenPort()`: the port of `m_tcpPublic`. -/
def publicPort (l : Listener) : Nat := l.tcpPublic.port

end Listener

/-- Whether `determinePublic` gets past its early return for the listen port
`bound`. -/
def determinesPublic (env : PublicEnv) (bound : Int) : Bool :=
  !env.ifAddresses.isEmpty && decide (1 ≤ bound)

/-- The network part of `startedWorking`, for the interfaces and preferences of
`env` and the result `bound` of `tcp4Listen`: the members after it, whether it
calls `runAcceptor`, and the port the discovery table is made with, if it is
made. -/
def startedWorking (env : PublicEnv) (publicAddress : Option Address) (upnp : Bool)
    (bound : Int) (l : Listener) : Listener × Bool × Option Int :=
  if bound = 0 then ({ l with listenPort := bound }, false, none)
  else
    let (tcpPublic, peerAddresses) :=
      determinePublic { env with listenPort := bound } publicAddress upnp l.tcpPublic
    ({ listenPort := bound, tcpPublic, peerAddresses }, decide (0 < bound),
      some (if !tcpPublic.address.isUnspecified then bound else if 0 < bound then bound else 30303))

/-- The members after a sequence of starts, one `tcp4Listen` result each. -/
def restarts (env : PublicEnv) (publicAddress : Option Address) (upnp : Bool) :
    List Int → Listener → Listener
  | [], l => l
  | bound :: binds, l => restarts env publicAddress upnp binds (startedWorking env publicAddress upnp bound l).1

theorem determinePublic_of_determines {env : PublicEnv} (h : determinesPublic env env.listenPort = true)
    (publicAddress : Option Address) (upnp : Bool) (tcpPublic : Endpoint) :
    determinePublic env publicAddress upnp tcpPublic = determinePublic env publicAddress upnp {} := by
  simp only [determinesPublic, Bool.and_eq_true, Bool.not_eq_true', decide_eq_true_eq] at h
  have early : (env.ifAddresses.isEmpty || decide (env.listenPort < 1)) = false := by
    simp only [h.1, Bool.false_or, decide_eq_false_iff_not, not_lt]
    exact h.2
  simp only [determinePublic, early, Bool.false_eq_true, if_false]

theorem startedWorking_tcpPublic (env : PublicEnv) (publicAddress : Option Address) (upnp : Bool)
    (bound : Int) (l : Listener) :
    (startedWorking env publicAddress upnp bound l).1.tcpPublic =
      if determinesPublic env bound then
        (determinePublic { env with listenPort := bound } publicAddress upnp {}).1
      else l.tcpPublic := by
  by_cases h0 : bound = 0
  · subst h0
    simp [startedWorking, determinesPublic]
  have hfst : (startedWorking env publicAddress upnp bound l).1.tcpPublic =
      (determinePublic { env with listenPort := bound } publicAddress upnp l.tcpPublic).1 := by
    unfold startedWorking
    rw [if_neg h0]
  rw [hfst]
  split_ifs with hd
  · exact congrArg Prod.fst
      (@determinePublic_of_determines { env with listenPort := bound } (by exact hd) _ _ _)
  · have early : (env.ifAddresses.isEmpty || decide (bound < 1)) = true := by
      simp only [determinesPublic, Bool.and_eq_true, Bool.not_eq_true', decide_eq_true_eq,
        not_and_or, not_le] at hd
      rcases hd with hd | hd <;> simp [hd]
    simp only [determinePublic, early, if_true]

/-- Over any sequence of starts, `m_tcpPublic`, which `listenPort()` and
`listenAddress()` report, is the endpoint that the last start getting past
`determinePublic`'s early return determined; starts whose bind failed, or
that found no interface address, leave it as it was. -/
theorem tcpPublic_after_starts (env : PublicEnv) (publicAddress : Option Address) (upnp : Bool)
    (binds : List Int) (l : Listener) :
    (restarts env publicAddress upnp binds l).tcpPublic =
      match (binds.filter (determinesPublic env)).getLast? with
      | none => l.tcpPublic
      | some bound => (determinePublic { env with listenPort := bound } publicAddress upnp {}).1 := by
  induction binds generalizing l with
  | nil => rfl
  | cons bound binds ih =>
    rw [restarts, ih]
    rcases hlast : (binds.filter (determinesPublic env)).getLast? with _ | last
    · have hnil : binds.filter (determinesPublic env) = [] := List.getLast?_eq_none_iff.1 hlast
      rw [startedWorking_tcpPublic, List.filter_cons, hnil]
      split_ifs <;> rfl
    · have hcons : ((bound :: binds).filter (determinesPublic env)).getLast? = some last := by
        rw [List.filter_cons]
        split_ifs
        · rw [List.getLast?_cons, hlast]
          rfl
        · exact hlast
      rw [hcons]

/-- A host with the interfaces `11.0.0.1` and `10.0.0.1` binds port 30303 and
advertises `11.0.0.1:30303`. Restarted, its bind fails: it arms no acceptor,
gives the discovery table the port -1, and `listenPort()` still reports 30303. -/
example :
    let env : PublicEnv :=
      { ifAddresses := [.v4 0x0B000001, .v4 0x0A000001], listenPort := -1,
        localNetworking := false, isPrivateAddress := fun a => a.key / 2 ^ 24 = 10,
        isLocalHostAddress := fun a => a.key / 2 ^ 24 = 127, traverseNAT := fun _ _ => ({}, default) }
    (startedWorking env none false (-1) (startedWorking env none false 30303 {}).1).2 = (false, some (-1)) ∧
      (restarts env none false [30303, -1] {}).listenPort = -1 ∧
      (restarts env none false [30303, -1] {}).publicPort = 30303 := by
  decide

end P2PHost
