import Leyu.Framework.Runs
import Leyu.Rndis.Control

/-!
# The link of an RNDIS device

The task of the driver waits for the events of the callbacks, takes all that are pending, and
handles them in one order whatever the order was in which they came. A wait that runs out counts;
now and then the device is asked for its status or told that the driver is alive. The callbacks run
in a task of their own and come between any two steps.
-/

namespace Leyu

open Framework

/-- The counters of `_usbh_rndis_task`, less the one that only spaces out its warnings. -/
structure RndisCounters where
  noEvent : Nat
  keepalive : Nat
  queryFail : Nat
  deriving DecidableEq, Repr

def RndisCounters.zero : RndisCounters := ⟨0, 0, 0⟩

namespace RndisRoutine

open Routine

/-- `on_stage_changed` with `IOT_ETH_STAGE_LINK` -/
def stageLink (link : Rndis → Bool) : RndisRoutine Unit :=
  modify fun rndis => { rndis with link := link rndis }

/-- The status of the device is asked for after twelve waits that ran out. -/
def checkStatus (counters : RndisCounters) : RndisRoutine RndisCounters := do
  if 12 ≤ counters.noEvent then
    if ← getConnectStatus then return { counters with noEvent := 0, queryFail := 0 }
    else
      return { counters with
        noEvent := if 10 ≤ counters.queryFail + 1 then 6 else counters.noEvent
        queryFail := counters.queryFail + 1 }
  else return counters

/-- What `_usbh_rndis_task` does when a wait has run out and the port is open. -/
def idle (counters : RndisCounters) : RndisRoutine RndisCounters := do
  let counters ← checkStatus { counters with
    noEvent := counters.noEvent + 1
    keepalive := counters.keepalive + 1 }
  let rndis ← current
  if 6 ≤ counters.keepalive ∧ rndis.connectStatus then
    let _ ← keepalive
    return { counters with keepalive := 0 }
  else return counters

def handleConnected (counters : RndisCounters) : RndisRoutine RndisCounters := do
  if ← connect then
    stageLink fun _ => true
    return .zero
  else return counters

def handleDisconnected : RndisRoutine RndisCounters := do
  modify fun rndis => { rndis with requestId := 0 }
  stageLink fun _ => false
  return .zero

def handleLineChange : RndisRoutine RndisCounters := do
  stageLink fun rndis => rndis.connectStatus
  return .zero

/-- A branch of `_usbh_rndis_task`, taken when its event is set. -/
def branch (taken : Bool) (routine : RndisRoutine RndisCounters) (counters : RndisCounters) :
    RndisRoutine RndisCounters :=
  if taken then routine else return counters

/-- What `_usbh_rndis_task` does with the events it has taken. There is no result when it exits. -/
def turn (counters : RndisCounters) (events : RndisEvents) :
    RndisRoutine (Option RndisCounters) := do
  let counters ← branch events.connected (handleConnected counters) counters
  let counters ← branch events.disconnected handleDisconnected counters
  let counters ← branch events.lineChange handleLineChange counters
  if events.stop then return none
  else
    let rndis ← current
    if events = .none ∧ rndis.cdcPort then
      let counters ← idle counters
      return some counters
    else return some counters

end RndisRoutine

namespace Rndis

def init (macAddr : Bytes) : Rndis :=
  ⟨.none, .absent, false, 0, 0, 0, [0, 0, 0, 0], false, macAddr, [0, 0, 0, 0, 0, 0], false⟩

/-- `_usbh_rndis_conn_cb` opens the port and sets its event, `_usbh_rndis_disconn_cb` takes the port
away and sets its event. -/
def callback (rndis : Rndis) : Rndis :=
  match rndis.cable with
  | .absent => { rndis with cable := .opening, cdcPort := true }
  | .opening =>
      { rndis with cable := .present, events := { rndis.events with connected := true } }
  | .present => { rndis with cable := .leaving, connectStatus := false, cdcPort := false }
  | .leaving =>
      { rndis with cable := .absent, events := { rndis.events with disconnected := true } }

/-- `usbh_rndis_deinit` -/
def requestStop (rndis : Rndis) : Rndis :=
  { rndis with events := { rndis.events with stop := true } }

/-- The device has been pulled out. -/
def Gone (rndis : Rndis) : Prop := rndis.cable = .absent ∨ rndis.cable = .leaving

instance (rndis : Rndis) : Decidable rndis.Gone := inferInstanceAs (Decidable (_ ∨ _))

/-- What a request comes back with. No transfer succeeds once the device is gone. -/
def answer (rndis : Rndis) (device : (r : RndisControl) → r.Answer) : (r : RndisControl) → r.Answer
  | .send message => if rndis.Gone then false else device (.send message)
  | .receive query => if rndis.Gone then none else device (.receive query)
  | .array size => device (.array size)

theorem answer_receive_gone {rndis : Rndis} (h : rndis.Gone)
    (device : (r : RndisControl) → r.Answer) (query : Option RndisQuery) :
    rndis.answer device (.receive query) = none := if_pos h

theorem answer_receive_here {rndis : Rndis} (h : ¬ rndis.Gone)
    (device : (r : RndisControl) → r.Answer) (query : Option RndisQuery) :
    rndis.answer device (.receive query) = device (.receive query) := if_neg h

end Rndis

/-- The task of the driver: waiting, in the middle of a turn, or gone. -/
inductive RndisTask
  | waiting (counters : RndisCounters)
  | running (routine : RndisRoutine (Option RndisCounters))
  | exited

def RndisTask.ofRoutine : RndisRoutine (Option RndisCounters) → RndisTask
  | .done (some counters) => .waiting counters
  | .done none => .exited
  | routine => .running routine

structure RndisLink where
  rndis : Rndis
  task : RndisTask

inductive RndisLinkOp
  /-- The callbacks go one step on. -/
  | callback
  | stop
  | task (device : (r : RndisControl) → r.Answer)

namespace RndisLink

def init (macAddr : Bytes) : RndisLink := ⟨.init macAddr, .waiting .zero⟩

def taskStep (s : RndisLink) (device : (r : RndisControl) → r.Answer) : RndisLink :=
  match s.task with
  | .waiting counters =>
      ⟨{ s.rndis with events := .none }, .ofRoutine (RndisRoutine.turn counters s.rndis.events)⟩
  | .running routine =>
      let next := routine.step (s.rndis.answer device) s.rndis
      ⟨next.2, .ofRoutine next.1⟩
  | .exited => s

def step (s : RndisLink) : RndisLinkOp → RndisLink
  | .callback => { s with rndis := s.rndis.callback }
  | .stop => { s with rndis := s.rndis.requestStop }
  | .task device => s.taskStep device

def wakesUp (s : RndisLink) : Prop := ∃ counters, s.task = .waiting counters

instance (s : RndisLink) : Decidable s.wakesUp :=
  match h : s.task with
  | .waiting counters => .isTrue ⟨counters, h⟩
  | .running routine => .isFalse fun ⟨_, hwaiting⟩ => by rw [h] at hwaiting; cases hwaiting
  | .exited => .isFalse fun ⟨_, hwaiting⟩ => by rw [h] at hwaiting; cases hwaiting

end RndisLink

end Leyu
