import Leyu.Mqtt.Dispatch
import Leyu.Mqtt.Listener

/-!
# The subscriptions of a session

The broker forgets a client's subscriptions at the end of its session. The event task subscribes
once and remembers that it has, until it hears of a lost connection, and what it hears comes
through a queue that may be full. Sessions come and go while the task is still busy with older
events.
-/

namespace Leyu

open Framework

/-- What the task has still to do for the event it has taken. -/
inductive TaskWork
  | subscribe (topic : Text)
  | action (a : TaskAction)

def TaskAction.work (imei : Text) : TaskAction → List TaskWork
  | .subscribeTopics => (subscribedTopics imei).map .subscribe
  | a => [.action a]

/-- The queue with its reader, and the topics of the session if the client is connected. -/
structure Subscriber where
  clientState : MqttState
  queue : List MqttEvent
  mqttSubscribed : Bool
  work : List TaskWork
  session : Option (List Text)

inductive SubscriberOp
  | broker (w : HandlerWorld) (event : EspMqttEvent)
  /-- One step of the task. `accepted` is what a session says to a subscription. -/
  | task (accepted : Bool)

def sessionAfter (session : Option (List Text)) : EspMqttEvent → Option (List Text)
  | .connected => some []
  | .disconnected => none
  | _ => session

def subscribedAfter (mqttSubscribed : Bool) (event : MqttEvent) : Bool :=
  (mqttEventTaskOn mqttSubscribed event).1

namespace Subscriber

def init : Subscriber := ⟨.disconnected, [], false, [], none⟩

/-- The queue has 30 places. -/
def HasRoom (s : Subscriber) (w : HandlerWorld) : Prop :=
  w.copyAllocated = true ∧ s.queue.length < 30

instance (s : Subscriber) (w : HandlerWorld) : Decidable (s.HasRoom w) :=
  inferInstanceAs (Decidable (_ ∧ _))

def broker (s : Subscriber) (w : HandlerWorld) (event : EspMqttEvent) : Subscriber :=
  let handled := mqtt5EventHandler { w with queueHasRoom := s.queue.length < 30 } event s.clientState
  { s with
    clientState := handled.clientState
    queue := s.queue ++ handled.queued.toList
    session := sessionAfter s.session event }

def task (imei : Text) (s : Subscriber) (accepted : Bool) : Subscriber :=
  match s.work with
  | .subscribe topic :: rest =>
      { s with
        work := rest
        session := if accepted then s.session.map fun topics => topics ++ [topic] else s.session }
  | .action _ :: rest => { s with work := rest }
  | [] =>
    match s.queue with
    | [] => s
    | e :: rest =>
      let taken := mqttEventTaskOn s.mqttSubscribed e
      { s with queue := rest, mqttSubscribed := taken.1, work := taken.2.flatMap (TaskAction.work imei) }

def step (imei : Text) (s : Subscriber) : SubscriberOp → Subscriber
  | .broker w event => s.broker w event
  | .task accepted => s.task imei accepted

/-- The task has dealt with all there was. -/
def AtRest (s : Subscriber) : Prop := s.work = [] ∧ s.queue = []

/-- Nothing in the queue will make the task subscribe. -/
def Passes (mqttSubscribed : Bool) (queue : List MqttEvent) : Prop :=
  AllSteps subscribedAfter (fun flag e => e.state = .connected → flag = true) mqttSubscribed queue

def Inv (imei : Text) (s : Subscriber) : Prop :=
  match s.session with
  | none => run subscribedAfter s.mqttSubscribed s.queue = false
  | some topics => ¬ Passes s.mqttSubscribed s.queue ∨
      ∀ topic ∈ subscribedTopics imei, topic ∈ topics ∨ .subscribe topic ∈ s.work

/-- When an event of the client can come: a connection is made where there is none, and
acknowledgements and messages belong to one. -/
def Comes (session : Option (List Text)) : EspMqttEvent → Prop
  | .connected => session = none
  | .subscribed _ | .unsubscribed _ | .published _ | .data _ => session ≠ none
  | .disconnected | .error _ | .other _ => True

/-- The begin and the end of a session get into the queue, and the session accepts what is
subscribed. -/
def Heard (s : Subscriber) : SubscriberOp → Prop
  | .broker w event =>
      Comes s.session event ∧ (event = .connected ∨ event = .disconnected → s.HasRoom w)
  | .task accepted => accepted = true

variable {imei : Text} {s : Subscriber}

private theorem broker_queue (s : Subscriber) (w : HandlerWorld) (event : EspMqttEvent) :
    (s.broker w event).queue = s.queue ++
      (if s.HasRoom w then
        [mqttEventOf { w with queueHasRoom := s.queue.length < 30 } event] else []) := by
  simp only [broker, mqtt5EventHandler, HasRoom]
  by_cases hcopy : w.copyAllocated = true <;> by_cases hroom : s.queue.length < 30 <;>
    simp [hcopy, hroom]

private theorem passes_of_append {flag : Bool} {queue rest : List MqttEvent}
    (h : Passes flag (queue ++ rest)) : Passes flag queue := ((allSteps_append _ _ _ _).mp h).1

private theorem passes_tail {flag : Bool} {e : MqttEvent} {rest : List MqttEvent}
    (h : Passes (subscribedAfter flag e) rest) (he : e.state = .connected → flag = true) :
    Passes flag (e :: rest) := ⟨he, h⟩

private theorem not_passes_connected {flag : Bool} {queue : List MqttEvent} {e : MqttEvent}
    (hflag : run subscribedAfter flag queue = false) (he : e.state = .connected) :
    ¬ Passes flag (queue ++ [e]) := by
  intro h
  have hlast := ((allSteps_append _ _ _ _).mp h).2.1 he
  rw [hflag] at hlast
  cases hlast

private theorem subscribedAfter_disconnected {e : MqttEvent} (h : e.state = .disconnected)
    (flag : Bool) :
    subscribedAfter flag e = false := by
  rw [subscribedAfter, mqttEventTaskOn, h]

private theorem subscribedAfter_outside {event : EspMqttEvent} (hcomes : Comes none event)
    (hne : event ≠ .connected) (w : HandlerWorld) :
    subscribedAfter false (mqttEventOf w event) = false := by
  cases event with
  | connected => exact absurd rfl hne
  | disconnected => rfl
  | error code => rfl
  | other eventId => rfl
  | subscribed msgId => exact absurd rfl hcomes
  | unsubscribed msgId => exact absurd rfl hcomes
  | published msgId => exact absurd rfl hcomes
  | data event => exact absurd rfl hcomes

private theorem Inv.broker (h : s.Inv imei) {w : HandlerWorld} {event : EspMqttEvent}
    (hop : s.Heard (.broker w event)) : (s.broker w event).Inv imei := by
  obtain ⟨hcomes, hroom⟩ := hop
  have hqueue := broker_queue s w event
  by_cases hbegin : event = .connected
  · subst hbegin
    have hnone : s.session = none := hcomes
    rw [Inv, hnone] at h
    rw [if_pos (hroom (.inl rfl))] at hqueue
    refine .inl ?_
    rw [hqueue]
    exact not_passes_connected h rfl
  · by_cases hend : event = .disconnected
    · subst hend
      rw [if_pos (hroom (.inr rfl))] at hqueue
      change run subscribedAfter s.mqttSubscribed (s.broker w .disconnected).queue = false
      rw [hqueue, run_append]
      exact subscribedAfter_disconnected rfl _
    · have hsession : (s.broker w event).session = s.session := by
        cases event with
        | connected => exact absurd rfl hbegin
        | disconnected => exact absurd rfl hend
        | _ => rfl
      rw [Inv, hsession, hqueue]
      cases htopics : s.session with
      | none =>
        rw [Inv, htopics] at h
        rw [htopics] at hcomes
        change run subscribedAfter s.mqttSubscribed (s.queue ++ _) = false
        rw [run_append, h]
        split
        · exact subscribedAfter_outside hcomes hbegin _
        · rfl
      | some topics =>
        rw [Inv, htopics] at h
        exact h.imp_left fun hpasses hlater => hpasses (passes_of_append hlater)

private theorem mem_work (imei topic : Text) (h : topic ∈ subscribedTopics imei) {e : MqttEvent}
    (he : e.state = .connected) :
    .subscribe topic ∈ (mqttEventTaskOn false e).2.flatMap (TaskAction.work imei) := by
  rw [mqttEventTaskOn, he]
  simpa [TaskAction.work] using h

private theorem Inv.subscribe (h : s.Inv imei) {topic : Text} {rest : List TaskWork}
    (hwork : s.work = .subscribe topic :: rest) :
    Inv imei { s with
      work := rest
      session := s.session.map fun topics => topics ++ [topic] } := by
  cases htopics : s.session with
  | none =>
    rw [Inv, htopics] at h
    exact h
  | some topics =>
    rw [Inv, htopics] at h
    refine h.imp_right ?_
    intro hall t ht
    have hmem := hall t ht
    rw [hwork] at hmem
    rcases hmem with hdone | hwaits
    · exact .inl (List.mem_append_left _ hdone)
    · rcases List.mem_cons.mp hwaits with hnow | hlater
      · cases hnow
        exact .inl (List.mem_append_right _ List.mem_cons_self)
      · exact .inr hlater

private theorem Inv.action (h : s.Inv imei) {a : TaskAction} {rest : List TaskWork}
    (hwork : s.work = .action a :: rest) : Inv imei { s with work := rest } := by
  cases htopics : s.session with
  | none =>
    rw [Inv, htopics] at h
    exact h
  | some topics =>
    rw [Inv, htopics] at h
    refine h.imp_right ?_
    intro hall t ht
    refine (hall t ht).imp_right ?_
    intro hmem
    rw [hwork] at hmem
    exact (List.mem_cons.mp hmem).resolve_left nofun

/-- The next event: if it is the connection that was waited for, all topics are on their way. -/
theorem Inv.take (h : s.Inv imei) (hwork : s.work = []) {e : MqttEvent} {rest : List MqttEvent}
    (hqueue : s.queue = e :: rest) :
    Inv imei { s with
      queue := rest
      mqttSubscribed := (mqttEventTaskOn s.mqttSubscribed e).1
      work := (mqttEventTaskOn s.mqttSubscribed e).2.flatMap (TaskAction.work imei) } := by
  cases htopics : s.session with
  | none =>
    rw [Inv, htopics, hqueue] at h
    exact h
  | some topics =>
    rw [Inv, htopics, hqueue, hwork] at h
    rcases h with hpasses | hall
    · by_cases hnew : e.state = .connected ∧ s.mqttSubscribed = false
      · refine .inr ?_
        intro t ht
        rw [hnew.2]
        exact .inr (mem_work imei t ht hnew.1)
      · refine .inl ?_
        intro hrest
        apply hpasses
        apply passes_tail hrest
        intro he
        by_contra hflag
        exact hnew ⟨he, by simpa using hflag⟩
    · refine .inr ?_
      intro t ht
      exact .inl ((hall t ht).resolve_right List.not_mem_nil)

private theorem Inv.task (h : s.Inv imei) : (s.task imei true).Inv imei := by
  rw [Subscriber.task]
  split
  · next topic rest hwork =>
    rw [if_pos rfl]
    exact h.subscribe hwork
  · next a rest hwork => exact h.action hwork
  · next hwork =>
    split
    · exact h
    · next e rest hqueue => exact h.take hwork hqueue

private theorem Inv.step (h : s.Inv imei) {op : SubscriberOp} (hop : s.Heard op) :
    (s.step imei op).Inv imei := by
  cases op with
  | broker w event => exact h.broker hop
  | task accepted =>
    obtain rfl : accepted = true := hop
    exact h.task

/-- As long as the begin and the end of every session get into the queue: whenever the task has dealt
with all there was and the client is connected, the session has all topics, however the sessions came
and went in between. -/
theorem subscribed_at_rest (imei : Text) (ops : List SubscriberOp)
    (hops : AllSteps (step imei) Heard init ops) (hrest : (run (step imei) init ops).AtRest)
    {topics : List Text} (hsession : (run (step imei) init ops).session = some topics) :
    ∀ topic ∈ subscribedTopics imei, topic ∈ topics := by
  have hinit : init.Inv imei := rfl
  have hinv := hops.keeps (fun s op (h : s.Inv imei) hop => h.step hop) hinit
  rw [Inv, hsession, hrest.1, hrest.2] at hinv
  intro topic htopic
  rcases hinv with hpasses | hall
  · exact absurd trivial hpasses
  · exact (hall topic htopic).resolve_right List.not_mem_nil

/-- The connection is lost while the task subscribes, and made again before it has heard of that. -/
theorem subscribed_at_rest_reconnected :
    let ops : List SubscriberOp := [.broker roomyWorld .connected, .task true, .task true,
      .broker roomyWorld .disconnected, .broker roomyWorld .connected] ++ List.replicate 22 (.task true)
    ∀ topic ∈ subscribedTopics "860000000000001".toList,
      topic ∈ ((run (step "860000000000001".toList) init ops).session.getD []) := by
  intro ops
  have htasks (n : Nat) (s : Subscriber) :
      AllSteps (step "860000000000001".toList) Heard s (List.replicate n (.task true)) := by
    induction n generalizing s with
    | zero => trivial
    | succ n ih => exact ⟨rfl, ih _⟩
  have hops : AllSteps (step "860000000000001".toList) Heard init ops :=
    ⟨⟨rfl, fun _ => ⟨rfl, by decide⟩⟩, rfl, rfl, ⟨trivial, fun _ => ⟨rfl, by decide⟩⟩,
      ⟨rfl, fun _ => ⟨rfl, by decide⟩⟩, htasks 22 _⟩
  exact subscribed_at_rest "860000000000001".toList ops hops ⟨rfl, rfl⟩ rfl

/-- The flag is up, and nothing on its way will take it down or subscribe. -/
structure Settled (s : Subscriber) : Prop where
  flag : s.mqttSubscribed = true
  queue : ∀ e ∈ s.queue, e.state ≠ .disconnected
  work : ∀ topic, .subscribe topic ∉ s.work

/-- The task will hear of the end of a session. -/
def HearsEnd (s : Subscriber) : SubscriberOp → Prop
  | .broker w event => s.HasRoom w ∧ (mqttEventOf w event).state = .disconnected
  | .task _ => False

def NoTopics (s : Subscriber) : Prop := s.session = none ∨ s.session = some []

private theorem taken_settled (imei : Text) {e : MqttEvent} (he : e.state ≠ .disconnected) :
    (mqttEventTaskOn true e).1 = true ∧
      ∀ topic, .subscribe topic ∉ (mqttEventTaskOn true e).2.flatMap (TaskAction.work imei) := by
  rw [mqttEventTaskOn]
  split
  · simp [TaskAction.work]
  · refine ⟨rfl, ?_⟩
    intro topic hmem
    obtain ⟨a, ha, hwork⟩ := List.mem_flatMap.mp hmem
    obtain ⟨message, -, rfl⟩ := List.mem_map.mp ha
    simp [TaskAction.work] at hwork
  · next hstate => exact absurd hstate he
  · simp

private theorem Settled.broker (h : s.Settled) {w : HandlerWorld} {event : EspMqttEvent}
    (hop : ¬ s.HearsEnd (.broker w event)) : (s.broker w event).Settled := by
  refine ⟨h.flag, ?_, h.work⟩
  intro e he
  rw [broker_queue] at he
  rcases List.mem_append.mp he with hold | hnew
  · exact h.queue e hold
  · split at hnew
    · next hroom =>
      obtain rfl := List.mem_singleton.mp hnew
      exact fun hstate => hop ⟨hroom, hstate⟩
    · exact absurd hnew List.not_mem_nil

private theorem Settled.task (h : s.Settled) (accepted : Bool) :
    (s.task imei accepted).Settled := by
  rw [Subscriber.task]
  split
  · next topic rest hwork => exact absurd (hwork ▸ List.mem_cons_self) (h.work topic)
  · next a rest hwork =>
    refine ⟨h.flag, h.queue, ?_⟩
    intro topic hmem
    apply h.work topic
    rw [hwork]
    exact List.mem_cons_of_mem _ hmem
  · split
    · exact h
    · next e rest hqueue =>
      have hqueue' : ∀ e' ∈ e :: rest, e'.state ≠ .disconnected := hqueue ▸ h.queue
      have htaken := taken_settled imei (hqueue' e List.mem_cons_self)
      rw [h.flag]
      exact ⟨htaken.1, fun e' he' => hqueue' e' (List.mem_cons_of_mem e he'), htaken.2⟩

private theorem NoTopics.step (h : s.NoTopics) (hsettled : s.Settled) (op : SubscriberOp) :
    (s.step imei op).NoTopics := by
  cases op with
  | broker w event =>
    cases event with
    | connected => exact .inr rfl
    | disconnected => exact .inl rfl
    | _ => exact h
  | task accepted =>
    rw [Subscriber.step, Subscriber.task]
    split
    · next topic rest hwork => exact absurd (hwork ▸ List.mem_cons_self) (hsettled.work topic)
    · exact h
    · split <;> exact h

/-- The end of a session that does not get into the queue costs the sessions after it: none of them
has a topic, however often the client is connected again and whatever the task hears, until it hears
of another end. -/
theorem deaf_after_lost_end (imei : Text) (hsettled : s.Settled) {w : HandlerWorld}
    (hlost : ¬ s.HasRoom w) (ops : List SubscriberOp)
    (hops : AllSteps (step imei) (fun s op => ¬ s.HearsEnd op)
      (s.step imei (.broker w .disconnected)) ops) :
    (run (step imei) (s.step imei (.broker w .disconnected)) ops).NoTopics := by
  have hstart : (s.broker w .disconnected).Settled ∧ (s.broker w .disconnected).NoTopics :=
    ⟨hsettled.broker fun hears => hlost hears.1, .inl rfl⟩
  have hstep (s : Subscriber) (op : SubscriberOp) (h : s.Settled ∧ s.NoTopics)
      (hop : ¬ s.HearsEnd op) : (s.step imei op).Settled ∧ (s.step imei op).NoTopics := by
    refine ⟨?_, h.2.step h.1 op⟩
    cases op with
    | broker w event => exact h.1.broker hop
    | task accepted => exact h.1.task accepted
  exact (hops.keeps hstep hstart).2

/-- There is no memory for the event. The next connection is made, heard of, and passed over. -/
theorem deaf_after_lost_end_once :
    let imei := "860000000000001".toList
    let s : Subscriber := ⟨.connected, [], true, [], some (subscribedTopics imei)⟩
    (run (step imei) (s.step imei (.broker ⟨true, true, false, true⟩ .disconnected))
      [.broker roomyWorld .connected, .task true, .task true]).NoTopics := by
  intro imei s
  have hsettled : s.Settled := ⟨rfl, nofun, fun _ => List.not_mem_nil⟩
  refine deaf_after_lost_end imei hsettled (by decide) _ ?_
  exact ⟨fun hears => MqttState.noConfusion hears.2, id, id, trivial⟩

end Subscriber

end Leyu
