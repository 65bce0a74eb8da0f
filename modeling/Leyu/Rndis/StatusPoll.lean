import Leyu.Rndis.Handshake

/-!
# What the link follows

The handshake brings the link up whatever the status of the device. From then on the device is asked
for its status now and then, and only an answer that differs from the one before moves the link.
-/

namespace Leyu

open Framework Routine

namespace Rndis

/-- Nothing has changed but the numbers that the control messages count and keep. -/
def Alike (s₀ s : Rndis) : Prop :=
  ∃ id pkts size,
    s = { s₀ with requestId := id, maxTransferPkts := pkts, maxTransferSize := size }

/-- What the answer to the poll changes. -/
def polled (connected : Bool) (s : Rndis) : Rndis :=
  if connected = s.connectStatus then s
  else { s with connectStatus := connected, events := { s.events with lineChange := true } }

private theorem Alike.refl (s : Rndis) : Alike s s := ⟨_, _, _, rfl⟩

private theorem Alike.here {s₀ s : Rndis} (h : Alike s₀ s) (hhere : ¬ s₀.Gone) : ¬ s.Gone := by
  obtain ⟨id, pkts, size, rfl⟩ := h
  exact hhere

private theorem framed_alike (s₀ : Rndis) : Framed (fun _ _ => False) (Alike s₀) := by
  refine ⟨fun _ _ h => h.elim, ?_, ?_⟩
  · rintro s id ⟨id', pkts, size, rfl⟩
    exact ⟨_, _, _, rfl⟩
  · rintro s pkts size ⟨id, pkts', size', rfl⟩
    exact ⟨_, _, _, rfl⟩

private theorem alike_polled {s₀ s : Rndis} (h : Alike s₀ s) (connected : Bool) :
    Alike (s₀.polled connected) (s.polled connected) := by
  obtain ⟨id, pkts, size, rfl⟩ := h
  by_cases hstatus : connected = s₀.connectStatus
  · simp only [polled, if_pos hstatus]
    exact ⟨_, _, _, rfl⟩
  · simp only [polled, if_neg hstatus]
    exact ⟨_, _, _, rfl⟩

end Rndis

namespace RndisRoutine

open Rndis RndisObjects

variable {objects : RndisObjects}

private theorem getConnectStatus_polls {s : Rndis} (hhere : ¬ s.Gone) :
    HonestSafe objects (fun asked s' => asked = true ∧ Alike (s.polled objects.connected) s')
      getConnectStatus s := by
  apply (safe_array (framed_alike s) 32 (.refl s)).seq
  intro data s' hs
  apply (query_answered (framed_alike s) (fun _ hs => hs.here hhere) _ _ data.val hs).seq
  rintro result s' ⟨hs, rest, rfl⟩
  have halike := alike_polled hs objects.connected
  dsimp only
  rw [mediaConnected_status]
  apply Safe.bind
  apply alone_current
  split
  · next hstatus =>
    have hsame : s'.polled objects.connected = s' := if_pos hstatus
    exact alone_pure ⟨rfl, hsame ▸ halike⟩
  · next hstatus =>
    have hnew : s'.polled objects.connected = { s' with
        connectStatus := objects.connected
        events := { s'.events with lineChange := true } } := if_neg hstatus
    apply Safe.bind
    apply alone_modify
    apply Safe.bind
    apply alone_modify
    exact alone_pure ⟨rfl, hnew ▸ halike⟩

private theorem idle_polls (counters : RndisCounters) {s : Rndis} (hhere : ¬ s.Gone) :
    HonestSafe objects (fun counters' s' =>
        counters'.noEvent = (if 12 ≤ counters.noEvent + 1 then 0 else counters.noEvent + 1) ∧
        Alike (if 12 ≤ counters.noEvent + 1 then s.polled objects.connected else s) s')
      (idle counters) s := by
  have hcheck : HonestSafe objects (fun counters' s' =>
        counters'.noEvent = (if 12 ≤ counters.noEvent + 1 then 0 else counters.noEvent + 1) ∧
        Alike (if 12 ≤ counters.noEvent + 1 then s.polled objects.connected else s) s')
      (checkStatus { counters with
        noEvent := counters.noEvent + 1
        keepalive := counters.keepalive + 1 }) s := by
    rw [checkStatus]
    by_cases hlong : 12 ≤ counters.noEvent + 1
    · simp only [if_pos hlong]
      apply (getConnectStatus_polls hhere).seq
      rintro asked s' ⟨rfl, hs⟩
      exact alone_pure ⟨rfl, hs⟩
    · simp only [if_neg hlong]
      exact alone_pure ⟨rfl, .refl s⟩
  apply hcheck.seq
  rintro counters' s' ⟨hcount, hs⟩
  apply Safe.bind
  apply alone_current
  by_cases hkeepalive : 6 ≤ counters'.keepalive ∧ s'.connectStatus
  · rw [if_pos hkeepalive]
    apply (safe_keepalive (framed_alike _) hears_honest hs).seq
    exact fun _ s hs => alone_pure ⟨hcount, hs⟩
  · rw [if_neg hkeepalive]
    exact alone_pure ⟨hcount, hs⟩

private theorem turn_idle (counters : RndisCounters) {s : Rndis} (hhere : ¬ s.Gone)
    (hport : s.cdcPort = true) :
    HonestSafe objects (EndsIn fun counters' s' =>
        counters'.noEvent = (if 12 ≤ counters.noEvent + 1 then 0 else counters.noEvent + 1) ∧
        Alike (if 12 ≤ counters.noEvent + 1 then s.polled objects.connected else s) s')
      (turn counters .none) s := by
  iterate 3
    apply Safe.bind
    apply alone_pure
  simp only [RndisEvents.none, Bool.false_eq_true, if_false, true_and]
  apply Safe.bind
  apply alone_current
  rw [if_pos hport]
  exact (idle_polls counters hhere).seq fun counters' s' hs => alone_pure hs

private theorem turn_lineChange (counters : RndisCounters) (s : Rndis) :
    HonestSafe objects (EndsIn fun _ s' => s' = { s with link := s.connectStatus })
      (turn counters ⟨false, false, true, false⟩) s := by
  iterate 2
    apply Safe.bind
    apply alone_pure
  apply Safe.bind
  apply Safe.bind
  apply alone_modify
  apply alone_pure
  simp only [Bool.false_eq_true, if_false]
  apply Safe.bind
  apply alone_current
  exact alone_pure rfl

/-- A turn with a device that has just been plugged in. What it has learned of the device does not
bear on the link. -/
theorem turn_connected (counters : RndisCounters) (replugged : Bool) {s : Rndis} (hhere : ¬ s.Gone) :
    HonestSafe objects (EndsIn fun _ s' => SameLink { s with link := !replugged } s' ∧
        objects.Learned (· ∈ objects.supported) s')
      (turn counters ⟨true, replugged, false, false⟩) s := by
  apply Safe.bind
  apply (connect_learns hhere).seq
  rintro connected s' ⟨rfl, hsame, hlearned⟩
  apply Safe.bind
  apply alone_modify
  apply alone_pure
  apply Safe.seq (M := fun _ s' => SameLink { s with link := !replugged } s' ∧
    objects.Learned (· ∈ objects.supported) s')
  · cases replugged with
    | false => exact alone_pure ⟨⟨hsame.events, hsame.cable, hsame.cdcPort, rfl⟩, hlearned⟩
    | true =>
      apply Safe.bind
      apply alone_modify
      apply Safe.bind
      apply alone_modify
      exact alone_pure ⟨⟨hsame.events, hsame.cable, hsame.cdcPort, rfl⟩, hlearned⟩
  · intro counters' s' hs
    apply Safe.bind
    apply alone_pure
    simp only [Bool.false_eq_true, if_false]
    apply Safe.bind
    apply alone_current
    exact alone_pure hs

end RndisRoutine

namespace RndisLinkOp

/-- A step of the task, whose requests are answered by the device. -/
def Honest (objects : RndisObjects) : RndisLinkOp → Prop
  | .task device => ∀ r, objects.Honest r (device r)
  | _ => False

end RndisLinkOp

namespace RndisLink

open Rndis RndisRoutine

variable {objects : RndisObjects}

abbrev HonestKeeps (objects : RndisObjects) (P : RndisCounters → Rndis → Prop) (s : RndisLink) :
    Prop :=
  s.Keeps (fun _ _ => False) (fun _ _ => True)
    (fun s r answer => ¬ s.Gone → objects.Honest r answer) P

private theorem honest_answer {device : (r : RndisControl) → r.Answer}
    (h : ∀ r, objects.Honest r (device r)) {s : Rndis} (r : RndisControl) (hhere : ¬ s.Gone) :
    objects.Honest r (s.answer device r) := by
  cases r with
  | send message =>
    have hanswer : s.answer device (.send message) = device (.send message) := if_neg hhere
    rw [hanswer]
    exact h (.send message)
  | receive query =>
    rw [answer_receive_here hhere]
    exact h (.receive query)
  | array size => trivial

def wakes : RndisLink → List RndisLinkOp → Nat
  | _, [] => 0
  | s, op :: ops => (if s.wakesUp then 1 else 0) + wakes (s.step op) ops

/-- What is so many waits after the first, from one wait to the next. -/
theorem keeps_wakes {P : Nat → RndisCounters → Rndis → Prop}
    (hwake : ∀ k counters s, P k counters s →
      HonestSafe objects (EndsIn (P (k + 1))) (turn counters s.events) { s with events := .none })
    {ops : List RndisLinkOp} (hops : ∀ op ∈ ops, op.Honest objects) {k : Nat} {s : RndisLink}
    (h : s.HonestKeeps objects (P k)) :
    (run step s ops).HonestKeeps objects (P (k + s.wakes ops)) := by
  induction ops generalizing k s with
  | nil => exact h
  | cons op ops ih =>
    have hrest (op' : RndisLinkOp) (hop' : op' ∈ ops) := hops op' (List.mem_cons_of_mem op hop')
    have hop := hops op List.mem_cons_self
    cases op with
    | callback => exact hop.elim
    | stop => exact hop.elim
    | task device =>
      have hstep : (s.taskStep device).HonestKeeps objects (P (k + if s.wakesUp then 1 else 0)) := by
        apply h.taskStep _ _ (honest_answer hop) trivial
        · intro counters hwaiting hP
          rw [if_pos ⟨counters, hwaiting⟩]
          exact hwake k counters s.rndis hP
        · intro hbusy
          have hsleeps : ¬ s.wakesUp := not_exists.mpr hbusy
          rw [if_neg hsleeps]
          rfl
      rw [wakes, ← Nat.add_assoc]
      exact ih hrest hstep

end RndisLink

namespace Rndis

/-- The port is open and the device is there. -/
structure Plugged (events : RndisEvents) (status link : Bool) (s : Rndis) : Prop where
  here : ¬ s.Gone
  port : s.cdcPort = true
  events : s.events = events
  status : s.connectStatus = status
  link : s.link = link

private theorem Plugged.alike {events : RndisEvents} {status link : Bool} {s s' : Rndis}
    (h : s.Plugged events status link) (hs : Alike s s') : s'.Plugged events status link := by
  obtain ⟨id, pkts, size, rfl⟩ := hs
  exact ⟨h.here, h.port, h.events, h.status, h.link⟩

private theorem Plugged.woken {status link : Bool} {s : Rndis} (h : s.Plugged .none status link) :
    { s with events := .none } = s := by
  rw [← h.events]

/-- The wake-up at which the device is asked for its status. -/
def pollAt (noEvent : Nat) : Nat := max 1 (12 - noEvent)

/-- The link so many waits after one at which nothing was pending. -/
def linkAfter (s₀ : Rndis) (connected : Bool) (noEvent k : Nat) : Bool :=
  if s₀.connectStatus = connected ∨ k ≤ pollAt noEvent then s₀.link else connected

inductive Following (connected : Bool) (s₀ : Rndis) (noEvent : Nat) :
    Nat → RndisCounters → Rndis → Prop
  | steady {k counters s} (hk : s₀.connectStatus = connected ∨ pollAt noEvent < k)
      (h : s.Plugged .none connected (linkAfter s₀ connected noEvent k)) :
      Following connected s₀ noEvent k counters s
  | unasked {k counters s} (hk : k < pollAt noEvent) (hnew : s₀.connectStatus ≠ connected)
      (hcount : counters.noEvent = noEvent + k)
      (h : s.Plugged .none s₀.connectStatus s₀.link) :
      Following connected s₀ noEvent k counters s
  | changed {counters s} (hnew : s₀.connectStatus ≠ connected)
      (h : s.Plugged ⟨false, false, true, false⟩ connected s₀.link) :
      Following connected s₀ noEvent (pollAt noEvent) counters s

private theorem Following.link {connected : Bool} {s₀ s : Rndis} {noEvent k : Nat}
    {counters : RndisCounters} (h : Following connected s₀ noEvent k counters s) :
    s.link = linkAfter s₀ connected noEvent k := by
  cases h with
  | steady hk h => exact h.link
  | unasked hk hnew hcount h => rw [h.link, linkAfter, if_pos (.inr hk.le)]
  | changed hnew h => rw [h.link, linkAfter, if_pos (.inr le_rfl)]

/-- What is so many waits after the one at which a new device is found. -/
def AfterHandshake (objects : RndisObjects) (s₀ : Rndis) (link : Bool) :
    Nat → RndisCounters → Rndis → Prop
  | 0, _, s => s = s₀
  | _ + 1, _, s => s.Plugged .none objects.connected link ∧
      objects.Learned (· ∈ objects.supported) s

end Rndis

namespace RndisRoutine

open Rndis

variable {objects : RndisObjects}

private theorem turn_steady (counters : RndisCounters) {link : Bool} {s : Rndis}
    (h : s.Plugged .none objects.connected link) :
    HonestSafe objects (EndsIn fun _ s' => Alike s s') (turn counters s.events)
      { s with events := .none } := by
  have hpolled : s.polled objects.connected = s := if_pos h.status.symm
  rw [h.woken, h.events]
  apply (turn_idle counters h.here h.port).mono
  intro result s' hs
  cases result with
  | none => trivial
  | some counters' =>
    have halike := hs.2
    rw [hpolled, ite_self] at halike
    exact halike

private theorem following_wake {s₀ : Rndis} {noEvent k : Nat} {counters : RndisCounters} {s : Rndis}
    (h : Following objects.connected s₀ noEvent k counters s) :
    HonestSafe objects (EndsIn (Following objects.connected s₀ noEvent (k + 1)))
      (turn counters s.events) { s with events := .none } := by
  cases h with
  | steady hk h =>
    have hlater : linkAfter s₀ objects.connected noEvent (k + 1) =
        linkAfter s₀ objects.connected noEvent k := by
      rcases hk with hk | hk
      · simp only [linkAfter, hk, true_or, if_true]
      · simp only [linkAfter, Nat.not_le.mpr hk, Nat.not_le.mpr (Nat.lt_succ_of_lt hk)]
    apply (turn_steady counters h).mono
    intro result s' hs
    cases result with
    | none => trivial
    | some counters' =>
      exact .steady (hk.imp_right Nat.lt_succ_of_lt) (hlater ▸ h.alike hs)
  | unasked hk hnew hcount h =>
    rw [h.woken, h.events]
    apply (turn_idle counters h.here h.port).mono
    rintro (_ | counters') s' hs
    · trivial
    · obtain ⟨hcount', halike⟩ := hs
      by_cases hlong : 12 ≤ counters.noEvent + 1
      · have hat : k + 1 = pollAt noEvent := by
          simp only [pollAt] at hk ⊢
          omega
        have hpolled : s.polled objects.connected = { s with
            connectStatus := objects.connected
            events := { s.events with lineChange := true } } :=
          if_neg fun hsame => hnew (h.status.symm.trans hsame.symm)
        rw [if_pos hlong, hpolled, h.events] at halike
        have hchanged : ({ s with
            connectStatus := objects.connected
            events := { RndisEvents.none with lineChange := true } } : Rndis).Plugged
            ⟨false, false, true, false⟩ objects.connected s₀.link :=
          ⟨h.here, h.port, rfl, rfl, h.link⟩
        rw [hat]
        exact .changed hnew (hchanged.alike halike)
      · rw [if_neg hlong] at hcount' halike
        apply Following.unasked _ hnew _ (h.alike halike)
        · simp only [pollAt] at hk ⊢
          omega
        · rw [hcount', hcount, Nat.add_assoc]
  | changed hnew h =>
    rw [h.events]
    apply (turn_lineChange counters { s with events := .none }).mono
    rintro (_ | counters') s' hs
    · trivial
    · obtain rfl : s' = { s with events := .none, link := s.connectStatus } := hs
      have hlink : linkAfter s₀ objects.connected noEvent (pollAt noEvent + 1) = objects.connected :=
        if_neg fun hold => hold.elim hnew (Nat.not_succ_le_self _)
      exact .steady (.inr (Nat.lt_succ_self _))
        ⟨h.here, h.port, rfl, h.status, h.status.trans hlink.symm⟩

end RndisRoutine

namespace RndisLink

open Rndis RndisRoutine

variable {objects : RndisObjects} {s : RndisLink} {ops : List RndisLinkOp}
  {counters counters' : RndisCounters}

/-- Once the handshake has been made with a device that has its status in its list, the link is up at
every wait if and only if the end of the last connection was not taken together with the new one,
whatever the status. -/
theorem link_after_handshake {replugged : Bool} (hstart : s.task = .waiting counters)
    (hevents : s.rndis.events = ⟨true, replugged, false, false⟩) (hhere : ¬ s.rndis.Gone)
    (hport : s.rndis.cdcPort = true) (hlist : oidMediaConnectStatus ∈ objects.supported)
    (hne : ops ≠ []) (hops : ∀ op ∈ ops, op.Honest objects)
    (hwait : (run step s ops).task = .waiting counters') :
    (run step s ops).rndis.link = (!replugged) ∧
      objects.Learned (· ∈ objects.supported) (run step s ops).rndis := by
  have hwake (k : Nat) (counters : RndisCounters) (rndis : Rndis)
      (h : AfterHandshake objects s.rndis (!replugged) k counters rndis) :
      HonestSafe objects (EndsIn (AfterHandshake objects s.rndis (!replugged) (k + 1)))
        (turn counters rndis.events) { rndis with events := .none } := by
    cases k with
    | zero =>
      obtain rfl : rndis = s.rndis := h
      rw [hevents]
      apply (turn_connected (s := { s.rndis with events := .none }) counters replugged hhere).mono
      rintro (_ | counters') s' hs
      · trivial
      · obtain ⟨hsame, hlearned⟩ := hs
        refine ⟨⟨hsame.here hhere, hsame.cdcPort.trans hport, hsame.events, ?_, hsame.link⟩, hlearned⟩
        exact hlearned.2.1 hlist
    | succ k =>
      apply (turn_steady counters h.1).mono
      rintro (_ | counters') s' hs
      · trivial
      · refine ⟨h.1.alike hs, ?_⟩
        obtain ⟨id, pkts, size, rfl⟩ := hs
        exact h.2
  have hkeeps : s.HonestKeeps objects (AfterHandshake objects s.rndis (!replugged) 0) := by
    rw [HonestKeeps, Keeps, hstart]
    rfl
  have hlast := keeps_wakes hwake hops hkeeps
  cases ops with
  | nil => exact absurd rfl hne
  | cons op ops =>
    have hwakes : 0 + s.wakes (op :: ops) = wakes (s.step op) ops + 1 := by
      rw [wakes, if_pos ⟨counters, hstart⟩, Nat.zero_add, Nat.add_comm]
    rw [HonestKeeps, Keeps, hwait, hwakes] at hlast
    exact ⟨hlast.1.link, hlast.2⟩

/-- Pulled out and plugged in again before the task has looked. -/
theorem link_after_handshake_replugged :
    let objects : RndisObjects := ⟨[oidMediaConnectStatus], ⟨[0, 0, 1, 0], rfl⟩,
      ⟨[2, 0, 0, 0, 0, 9], rfl⟩, true, fun _ => ⟨[0], by decide⟩, by decide⟩
    let s : RndisLink := ⟨{ Rndis.init [2, 0, 0, 0, 0, 1] with
      events := ⟨true, true, false, false⟩, cable := .present, cdcPort := true }, .waiting .zero⟩
    (run step s (List.replicate 32 (.task objects.device))).rndis.link = false ∧
      objects.Learned (· ∈ objects.supported)
        (run step s (List.replicate 32 (.task objects.device))).rndis := by
  intro objects s
  have hops : ∀ op ∈ List.replicate 32 (RndisLinkOp.task objects.device), op.Honest objects := by
    intro op hop
    rw [List.eq_of_mem_replicate hop]
    exact objects.honest_device
  have hwaits : (run step s (List.replicate 32 (.task objects.device))).wakesUp := by decide +kernel
  obtain ⟨counters, hwait⟩ := hwaits
  exact link_after_handshake (s := s) rfl rfl (by decide) rfl (by decide) (by decide) hops hwait

end RndisLink

end Leyu
