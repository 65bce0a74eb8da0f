import Leyu.Mqtt.Broker
import Leyu.Platform

/-!
# The state of the client

`mqtt5_client_start` and `mqtt5_client_stop`, called by any number of tasks, and the events that the
task of the esp-mqtt client handles in between. A call stands at one of the points where its task can
be interrupted, and a step takes it to the next one. The task of the esp-mqtt client lives from
`esp_mqtt_client_start` to `esp_mqtt_client_stop`, and only while it lives an event is handled.
-/

namespace Leyu

open Framework

inductive ClientPoint
  /-- Before `esp_mqtt_client_start`. -/
  | starting
  /-- The client is started, the state is not written yet. -/
  | started
  /-- The state is written, `running` is not. -/
  | connecting
  /-- Before `esp_mqtt_client_stop`. -/
  | stopping
  /-- The client is stopped, `running` is not written yet. -/
  | halted
  /-- `running` is written, the state is not. -/
  | cleared
  | returned (err : EspErr)
  deriving DecidableEq, Repr

def ClientPoint.InStart (point : ClientPoint) : Prop :=
  point = .starting ∨ point = .started ∨ point = .connecting

instance (point : ClientPoint) : Decidable point.InStart := by
  unfold ClientPoint.InStart; infer_instance

/-- The client is stopped, and the stop has yet to write the state. -/
def ClientPoint.InStop (point : ClientPoint) : Prop := point = .halted ∨ point = .cleared

instance (point : ClientPoint) : Decidable point.InStop := by
  unfold ClientPoint.InStop; infer_instance

/-- What has happened to the connection last; a stop happens when the esp-mqtt client stops. -/
inductive LastEvent
  | nothing
  | connected
  | disconnected
  | error
  | stopped
  deriving DecidableEq, Repr

def LastEvent.after (last : LastEvent) : EspMqttEvent → LastEvent
  | .connected => .connected
  | .disconnected => .disconnected
  | .error _ => .error
  | _ => last

structure ClientRun where
  initialized : Bool
  state : MqttState
  running : Bool
  espStarted : Bool
  calls : List ClientPoint
  last : LastEvent

inductive ClientOp
  | start
  | stop
  /-- Call `i` does its next step; `ok` is what the esp-mqtt client answers, if it can. -/
  | advance (i : Nat) (ok : Bool)
  | event (e : EspMqttEvent)

namespace ClientRun

/-- The client as `mqtt5_client_init` leaves it. -/
def init : ClientRun := ⟨true, .disconnected, false, false, [], .nothing⟩

def move (s : ClientRun) (i : Nat) (point : ClientPoint) : ClientRun :=
  { s with calls := s.calls.set i point }

/-- The checks of `mqtt5_client_start` and `mqtt5_client_stop`. -/
def begin (s : ClientRun) (allowed : Bool) (point : ClientPoint) : ClientRun :=
  { s with calls := s.calls ++
      [if s.initialized = false then .returned .invalidState
        else if allowed = false then .returned .invalidState
        else point] }

/-- The step from a point on. A client that is started cannot be started, and one that is not cannot
be stopped. -/
def advance (ok : Bool) (s : ClientRun) (i : Nat) : ClientPoint → ClientRun
  | .starting =>
      if ok && !s.espStarted then { s with espStarted := true }.move i .started
      else s.move i (.returned .fail)
  | .started => { s with state := .connecting }.move i .connecting
  | .connecting => { s with running := true }.move i (.returned .ok)
  | .stopping =>
      if ok && s.espStarted then { s with espStarted := false, last := .stopped }.move i .halted
      else s.move i (.returned .fail)
  | .halted => { s with running := false }.move i .cleared
  | .cleared => { s with state := .disconnected }.move i (.returned .ok)
  | .returned _ => s

def event (e : EspMqttEvent) (s : ClientRun) : ClientRun :=
  if s.espStarted then { s with state := clientStateAfter s.state e, last := s.last.after e } else s

def step (s : ClientRun) : ClientOp → ClientRun
  | .start => s.begin (!s.running) .starting
  | .stop => s.begin s.running .stopping
  | .advance i ok =>
      match s.calls[i]? with
      | some point => s.advance ok i point
      | none => s
  | .event e => s.event e

def getState (s : ClientRun) : MqttState := s.state

/-- With no start under way, a connection is reflected in the state; and so is its loss, and with no
stop under way a stop. -/
def Reflects (s : ClientRun) : Prop :=
  (s.last = .connected → (∀ point ∈ s.calls, ¬ point.InStart) → s.getState = .connected) ∧
    (s.last = .disconnected → s.getState ≠ .connected) ∧
      (s.last = .stopped → (∀ point ∈ s.calls, ¬ point.InStop) → s.getState ≠ .connected)

/-- No connection is reported while a start has yet to write the state, and no client is started
while a stop has. -/
def OnTime (s : ClientRun) : ClientOp → Prop
  | .event .connected => .started ∉ s.calls
  | .advance i true =>
      s.calls[i]? = some .starting → s.espStarted = false → ∀ point ∈ s.calls, ¬ point.InStop
  | _ => True

instance (s : ClientRun) (op : ClientOp) : Decidable (s.OnTime op) := by
  unfold OnTime
  split <;> infer_instance

/-- While a connection stands, the client is started and every start has written the state. A stop
that has yet to write the state has stopped the client, and it is not started again. -/
structure Inv (s : ClientRun) : Prop where
  connected : s.last = .connected →
    s.state = .connected ∧ s.espStarted = true ∧ .started ∉ s.calls
  disconnected : s.last = .disconnected → s.state ≠ .connected
  stopped : s.last = .stopped → s.state = .connected → ∃ point ∈ s.calls, point.InStop
  started : s.espStarted = true → ∀ point ∈ s.calls, ¬ point.InStop

variable {s : ClientRun}

private theorem Inv.reflects (h : s.Inv) : s.Reflects := by
  refine ⟨fun hlast _ => (h.connected hlast).1, h.disconnected, ?_⟩
  intro hlast hnone hstate
  obtain ⟨point, hmem, hstop⟩ := h.stopped hlast hstate
  exact hnone point hmem hstop

theorem inv_init : init.Inv := ⟨nofun, nofun, nofun, nofun⟩

/-- The stop that has yet to write the state is not the call that goes on. -/
theorem exists_inStop_set {calls : List ClientPoint} {i : Nat} {point next : ClientPoint}
    (hi : calls[i]? = some point) (hpoint : point.InStop → next.InStop)
    (h : ∃ point ∈ calls, point.InStop) : ∃ point ∈ calls.set i next, point.InStop := by
  obtain ⟨other, hmem, hstop⟩ := h
  obtain ⟨j, hj⟩ := List.mem_iff_getElem?.mp hmem
  rcases eq_or_ne i j with rfl | hne
  · obtain rfl : point = other := Option.some.inj (hi.symm.trans hj)
    have hlt : i < calls.length := (List.getElem?_eq_some_iff.mp hi).1
    exact ⟨next, List.mem_set hlt next, hpoint hstop⟩
  · refine ⟨other, List.mem_iff_getElem?.mpr ⟨j, ?_⟩, hstop⟩
    rw [List.getElem?_set_ne hne]
    exact hj

private theorem Inv.move (h : s.Inv) {i : Nat} {point n : ClientPoint}
    (hi : s.calls[i]? = some point) (hstart : n ≠ .started) (hstop : point.InStop ↔ n.InStop) :
    (s.move i n).Inv := by
  refine ⟨?_, h.disconnected, ?_, ?_⟩
  · intro hlast
    obtain ⟨hstate, hstarted, hnone⟩ := h.connected hlast
    refine ⟨hstate, hstarted, ?_⟩
    intro hmem
    rcases List.mem_or_eq_of_mem_set hmem with hmem | hnew
    · exact hnone hmem
    · exact hstart hnew.symm
  · intro hlast hstate
    exact exists_inStop_set hi hstop.mp (h.stopped hlast hstate)
  · intro hstarted other hmem
    rcases List.mem_or_eq_of_mem_set hmem with hmem | rfl
    · exact h.started hstarted other hmem
    · exact hstop.not.mp (h.started hstarted point (List.mem_of_getElem? hi))

private theorem Inv.begin (h : s.Inv) (allowed : Bool) {point : ClientPoint}
    (hstart : point ≠ .started) (hstop : ¬ point.InStop) : (s.begin allowed point).Inv := by
  have hnew {next : ClientPoint} (hnext : next ∈ (s.begin allowed point).calls) :
      next ∈ s.calls ∨ next ≠ .started ∧ ¬ next.InStop := by
    rcases List.mem_append.1 hnext with hmem | hnew
    · exact .inl hmem
    · obtain rfl := List.mem_singleton.1 hnew
      refine .inr ?_
      split
      · exact ⟨nofun, by decide⟩
      · split
        · exact ⟨nofun, by decide⟩
        · exact ⟨hstart, hstop⟩
  refine ⟨?_, h.disconnected, ?_, ?_⟩
  · intro hlast
    obtain ⟨hstate, hstarted, hnone⟩ := h.connected hlast
    refine ⟨hstate, hstarted, ?_⟩
    intro hmem
    rcases hnew hmem with hmem | ⟨hne, -⟩
    · exact hnone hmem
    · exact hne rfl
  · intro hlast hstate
    obtain ⟨other, hmem, hin⟩ := h.stopped hlast hstate
    exact ⟨other, List.mem_append_left _ hmem, hin⟩
  · intro hstarted other hmem
    rcases hnew hmem with hmem | ⟨-, hnot⟩
    · exact h.started hstarted other hmem
    · exact hnot

private theorem Inv.espStart (h : s.Inv) {i : Nat} (hi : s.calls[i]? = some .starting)
    (hesp : s.espStarted = false) (hnone : ∀ point ∈ s.calls, ¬ point.InStop) :
    (ClientRun.move { s with espStarted := true } i .started).Inv := by
  refine ⟨?_, h.disconnected, ?_, ?_⟩
  · intro hlast
    -- No connection stands while the client is not started.
    have hstarted := (h.connected hlast).2.1
    rw [hesp] at hstarted
    cases hstarted
  · intro hlast hstate
    exact exists_inStop_set hi (fun hin => absurd hin (by decide)) (h.stopped hlast hstate)
  · intro _ other hmem
    rcases List.mem_or_eq_of_mem_set hmem with hmem | rfl
    · exact hnone other hmem
    · decide

private theorem Inv.espStop {i : Nat} (hi : s.calls[i]? = some .stopping) :
    (ClientRun.move { s with espStarted := false, last := .stopped } i .halted).Inv := by
  have hlt : i < s.calls.length := (List.getElem?_eq_some_iff.mp hi).1
  exact ⟨nofun, nofun, fun _ _ => ⟨.halted, List.mem_set hlt _, .inl rfl⟩, nofun⟩

private theorem Inv.advance (h : s.Inv) {ok : Bool} {i : Nat} {point : ClientPoint}
    (hi : s.calls[i]? = some point) (hok : s.OnTime (.advance i ok)) :
    (s.advance ok i point).Inv := by
  cases point with
  | starting =>
    dsimp only [ClientRun.advance]
    split
    · next hstarts =>
      obtain ⟨rfl, hesp⟩ : ok = true ∧ s.espStarted = false := by simpa using hstarts
      exact h.espStart hi hesp (hok hi hesp)
    · exact h.move hi nofun (by decide)
  | started =>
    have hnot : s.last ≠ .connected := fun hlast =>
      (h.connected hlast).2.2 (List.mem_of_getElem? hi)
    have hmoved := h.move (n := .connecting) hi nofun (by decide)
    exact ⟨fun hlast => absurd hlast hnot, fun _ => nofun, fun _ => nofun, hmoved.started⟩
  | connecting =>
    have hmoved := h.move (n := .returned .ok) hi nofun (by decide)
    exact ⟨hmoved.connected, hmoved.disconnected, hmoved.stopped, hmoved.started⟩
  | stopping =>
    dsimp only [ClientRun.advance]
    split
    · exact Inv.espStop hi
    · exact h.move hi nofun (by decide)
  | halted =>
    have hmoved := h.move (n := .cleared) hi nofun (by decide)
    exact ⟨hmoved.connected, hmoved.disconnected, hmoved.stopped, hmoved.started⟩
  | cleared =>
    -- The client stands stopped, so no connection is overwritten.
    have hesp : s.espStarted ≠ true := fun hesp =>
      h.started hesp _ (List.mem_of_getElem? hi) (.inr rfl)
    exact ⟨fun hlast => absurd (h.connected hlast).2.1 hesp, fun _ => nofun, fun _ => nofun,
      fun hstarted => absurd hstarted hesp⟩
  | returned err => exact h

private theorem Inv.event (h : s.Inv) {e : EspMqttEvent} (hok : s.OnTime (.event e)) :
    (s.event e).Inv := by
  unfold ClientRun.event
  split
  · next hstarted =>
    have hnone := h.started hstarted
    cases e with
    | connected => exact ⟨fun _ => ⟨rfl, hstarted, hok⟩, nofun, nofun, fun _ => hnone⟩
    | disconnected => exact ⟨nofun, fun _ => nofun, nofun, fun _ => hnone⟩
    | error code => exact ⟨nofun, nofun, nofun, fun _ => hnone⟩
    | subscribed msgId => exact h
    | unsubscribed msgId => exact h
    | published msgId => exact h
    | data event => exact h
    | other eventId => exact h
  · exact h

private theorem Inv.step (h : s.Inv) {op : ClientOp} (hok : s.OnTime op) : (s.step op).Inv := by
  cases op with
  | start => exact h.begin _ nofun (by decide)
  | stop => exact h.begin _ nofun (by decide)
  | advance i ok =>
    simp only [ClientRun.step]
    split
    · next point hi => exact h.advance hi hok
    · exact h
  | event e => exact h.event hok

end ClientRun

/-- In a run in which no connection is reported ahead of the write of a start, and no client is
started ahead of the write of a stop, the state reflects the connection throughout. -/
theorem clientState_reflects (ops : List ClientOp)
    (h : AllSteps ClientRun.step ClientRun.OnTime .init ops) :
    AllStates ClientRun.step ClientRun.Reflects .init ops := by
  rw [allStates_iff]
  refine ⟨ClientRun.inv_init.reflects, h.strengthen (I := ClientRun.Inv) ?_ ClientRun.inv_init⟩
  intro s op hs hok
  have hnext := hs.step hok
  exact ⟨hnext.reflects, hnext⟩

/-- A start, the connection, its loss, a stop, and a start again. -/
def plainRun : List ClientOp :=
  [.start, .advance 0 true, .advance 0 true, .advance 0 true, .event .connected,
    .event .disconnected, .event .connected, .stop, .advance 1 true, .advance 1 true,
    .advance 1 true, .start, .advance 2 true, .advance 2 true, .advance 2 true, .event .connected]

theorem plainRun_reflects : AllStates ClientRun.step ClientRun.Reflects .init plainRun := by
  apply clientState_reflects
  decide

/-- The connection is reported before the start has written the state. -/
def earlyRun : List ClientOp :=
  [.start, .advance 0 true, .event .connected, .advance 0 true, .advance 0 true]

theorem earlyRun_connecting :
    (run ClientRun.step .init earlyRun).calls = [.returned .ok] ∧
      (run ClientRun.step .init earlyRun).last = .connected ∧
      (run ClientRun.step .init earlyRun).getState = .connecting ∧
      ¬ AllStates ClientRun.step ClientRun.Reflects .init earlyRun := by
  refine ⟨rfl, rfl, rfl, fun h => ?_⟩
  have hlast := h.last.1 rfl (by decide)
  cases hlast

end Leyu
