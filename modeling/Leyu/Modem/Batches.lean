import Leyu.Modem.Lines
import Leyu.Modem.Parser

/-!
# Notifications and chunk boundaries

With no command in progress the parser collects chunks until the buffer ends with a line end and
hands everything but the first line to the unsolicited handler, which finds at most one
notification in it. The chunks therefore split the stream into batches, and the notifications
are those of the lines handled one at a time exactly when every batch is faithful to its lines.
-/

namespace Leyu

open Framework
open scoped List

/-- The texts the parser handles as one, and what is left in the buffer. -/
def batches : Text → List Text → List Text × Text
  | received, [] => ([], received)
  | received, c :: cs =>
      if EndsLine (received ++ c) then
        let r := batches [] cs
        ((received ++ c) :: r.1, r.2)
      else batches (received ++ c) cs

/-- The lines of a batch have no notification; or one, of a NO CARRIER line that is not the
skipped first one; or one, of the entry right behind the skipped line, and no RING occurs from
there on. -/
def Faithful (batch : List Text) : Prop :=
  batch.filterMap lineNotification = [] ∨
  (batch.filterMap lineNotification = [.callEnded] ∧
    ∀ l ∈ batch.head?, lineNotification l = none) ∨
  (∃ l ∈ batch[1]?, batch.filterMap lineNotification = (lineNotification l).toList ∧
    ∀ m ∈ batch.tail, ¬ Occurs ring m)

instance (batch : List Text) : Decidable (Faithful batch) := by
  unfold Faithful; infer_instance

def ModemLine.empty : ModemLine where
  text := []
  plain := by decide
  entry := fun h => absurd h (by decide)

/-- What the modem writes for the lines: each as CR LF line CR LF. -/
def wire (lines : List ModemLine) : Text := lines.flatMap fun l => crlf ++ l.text ++ crlf

def wireLines (lines : List ModemLine) : List ModemLine :=
  lines.flatMap fun l => [ModemLine.empty, l]

/-- The port after its start, before anything is received. -/
def idlePort {κ : Type} (config : AtConfig) (ctx : κ) (w : World) (p : Phone) : Port κ Board where
  ring := []
  parser := modemAtRegisterUnsolicitedHandler boardHandler
    (modemAtStart (modemAtParserCreate config ctx))
  user := ⟨w, p, []⟩

private theorem wire_eq (lines : List ModemLine) :
    wire lines = joinLines ((wireLines lines).map (·.text)) := by
  induction lines with
  | nil => rfl
  | cons l lines ih =>
    unfold wire wireLines at ih ⊢
    rw [List.flatMap_cons, List.flatMap_cons, List.map_append, joinLines_append, ← ih]
    simp [joinLines_cons, ModemLine.empty]

private theorem lineNotification_empty : lineNotification [] = none := by decide

private theorem wireLines_notifications (lines : List ModemLine) :
    (wireLines lines).filterMap ModemLine.notification =
      lines.filterMap ModemLine.notification := by
  induction lines with
  | nil => rfl
  | cons l lines ih =>
    unfold wireLines at ih ⊢
    rw [List.flatMap_cons, List.filterMap_append, ih]
    have hempty : ModemLine.empty.notification = none := lineNotification_empty
    cases hl : l.notification <;> simp [hempty, hl]

section

variable {κ σ : Type}

private theorem Port.receive_idle {x : Port κ σ} {handler : Text → σ → Bool × σ}
    (hring : x.ring = []) (hrun : x.parser.stoppedBit = false)
    (hidle : x.parser.handleLine = none) (hhandler : x.parser.unsolicitedHandler = some handler)
    (hopen : ¬ EndsLine x.parser.received) {c : Text}
    (hfit : (x.parser.received ++ c).length < x.parser.config.recvBufferLength) :
    x.receive c =
      if EndsLine (x.parser.received ++ c) then
        ⟨[], { x.parser with received := [] },
          (handler (skipFirstLine (x.parser.received ++ c)) x.user).2⟩
      else ⟨[], { x.parser with received := x.parser.received ++ c }, x.user⟩ := by
  have hfit' : (x.parser.received ++ (x.ring ++ c)).length < x.parser.config.recvBufferLength := by
    rwa [hring, List.nil_append]
  by_cases hc : c = []
  · obtain ⟨ring, parser, user⟩ := x
    simp only at hring hopen
    subst hring hc
    simp [Port.receive, atRecvDataCb, hopen]
  · have hroom : ¬ x.parser.config.recvBufferLength ≤ c.length + x.parser.received.length := by
      rw [List.length_append] at hfit
      omega
    rw [Port.receive_fits (by simpa [hring] using hc) hfit', hring, List.nil_append,
      modemAtWriteResponseDone_unsolicited hrun hidle hhandler, if_neg hroom]
    split <;> rfl

private theorem Port.receive_chunks {handler : Text → σ → Bool × σ} (chunks : List Text)
    {x : Port κ σ} (hring : x.ring = []) (hrun : x.parser.stoppedBit = false)
    (hidle : x.parser.handleLine = none)
    (hhandler : x.parser.unsolicitedHandler = some handler)
    (hopen : ¬ EndsLine x.parser.received)
    (hfit : (x.parser.received ++ chunks.flatten).length < x.parser.config.recvBufferLength) :
    (chunks.foldl Port.receive x).user =
      (batches x.parser.received chunks).1.foldl
        (fun s b => (handler (skipFirstLine b) s).2) x.user := by
  induction chunks generalizing x with
  | nil => rfl
  | cons c cs ih =>
    simp only [List.flatten_cons, List.length_append] at hfit
    have hfront : (x.parser.received ++ c).length < x.parser.config.recvBufferLength := by
      rw [List.length_append]
      omega
    rw [List.foldl_cons, x.receive_idle hring hrun hidle hhandler hopen hfront, batches]
    by_cases hend : EndsLine (x.parser.received ++ c)
    · rw [if_pos hend, if_pos hend]
      refine ih rfl hrun hidle hhandler (fun h => absurd h.1 (by simp)) ?_
      simp only [List.nil_append]
      omega
    · rw [if_neg hend, if_neg hend]
      refine ih rfl hrun hidle hhandler hend ?_
      simp only [List.length_append]
      omega

end

private theorem idlePort_received {κ : Type} {config : AtConfig} (ctx : κ) (w : World) (p : Phone)
    {chunks : List Text} (hfit : chunks.flatten.length < config.recvBufferLength) :
    (chunks.foldl Port.receive (idlePort config ctx w p)).user =
      ((batches [] chunks).1.map skipFirstLine).foldl (fun b t => (boardHandler t b).2)
        ⟨w, p, []⟩ := by
  have hopen : ¬ EndsLine (idlePort config ctx w p).parser.received := fun h =>
    Nat.not_lt_zero 4 h.1
  rw [Port.receive_chunks chunks (x := idlePort config ctx w p) rfl rfl rfl rfl hopen hfit,
    List.foldl_map]
  rfl

private theorem batches_lines (chunks : List Text) {received : Text} {ls : List ModemLine}
    (h : received ++ chunks.flatten = joinLines (ls.map (·.text))) :
    ∃ (gs : List (List ModemLine)) (back : List ModemLine), ls = gs.flatten ++ back ∧
      (batches received chunks).1 = gs.map (fun g => joinLines (g.map (·.text))) ∧
      (batches received chunks).2 = joinLines (back.map (·.text)) ∧ ∀ g ∈ gs, g ≠ [] := by
  induction chunks generalizing received ls with
  | nil => exact ⟨[], ls, rfl, rfl, by simpa [batches] using h, by simp⟩
  | cons c cs ih =>
    rw [List.flatten_cons, ← List.append_assoc] at h
    rw [batches]
    by_cases hend : EndsLine (received ++ c)
    · have hplain : ∀ l ∈ ls.map (·.text), Plain l := by
        intro l hl
        obtain ⟨m, -, rfl⟩ := List.mem_map.mp hl
        exact m.plain
      obtain ⟨front, back, hsplit, hfront, hback⟩ := joinLines_split hplain h hend.2
      obtain ⟨lfront, lback, rfl, rfl, rfl⟩ := List.map_eq_append_iff.mp hsplit
      obtain ⟨gs, rest, rfl, hgs, hrest, hne⟩ := ih (by rwa [List.nil_append])
      refine ⟨lfront :: gs, rest, by simp, ?_, ?_, ?_⟩
      · rw [if_pos hend, List.map_cons, ← hgs, ← hfront]
      · rw [if_pos hend, ← hrest]
      · intro g hg
        rcases List.mem_cons.mp hg with rfl | hg
        · rintro rfl
          rw [List.map_nil, joinLines_nil] at hfront
          rw [hfront] at hend
          exact absurd hend.1 (by simp)
        · exact hne g hg
    · rw [if_neg hend]
      exact ih h

private theorem batches_open (chunks : List Text) {received : Text} (h : ¬ EndsLine received) :
    ¬ EndsLine (batches received chunks).2 := by
  induction chunks generalizing received with
  | nil => exact h
  | cons c cs ih =>
    rw [batches]
    split
    · exact ih fun h => absurd h.1 (by simp)
    · rename_i hopen
      exact ih hopen

private theorem leftover_notifications {back : List ModemLine}
    (h : ¬ EndsLine (joinLines (back.map (·.text)))) :
    back.filterMap ModemLine.notification = [] := by
  rw [List.filterMap_eq_nil_iff]
  intro l hl
  cases hn : l.notification with
  | none => rfl
  | some n =>
    obtain ⟨front, rest, rfl⟩ := List.append_of_mem hl
    have hlen := length_of_lineNotification hn
    have hend : crlf <:+ joinLines ((front ++ l :: rest).map (·.text)) := by
      have hne : (front ++ l :: rest).map (·.text) ≠ [] := by simp
      rw [← List.dropLast_append_getLast hne, joinLines_append, joinLines_cons, joinLines_nil,
        List.append_nil, ← List.append_assoc]
      exact List.suffix_append _ _
    refine absurd ⟨?_, hend⟩ h
    simp only [List.map_append, List.map_cons, joinLines_append, joinLines_cons,
      List.length_append]
    omega

private theorem notification_sublist (ls : List ModemLine) :
    (notification (joinLines (ls.map (·.text)))).toList <+
      ls.filterMap ModemLine.notification := by
  cases hn : notification (joinLines (ls.map (·.text))) with
  | none => exact List.nil_sublist _
  | some n =>
    rw [Option.toList_some, List.singleton_sublist, List.mem_filterMap]
    rcases (notification_joinLines_iff ls n).mp hn with ⟨⟨l, hl, hnc⟩, rfl⟩ | ⟨-, -, l, hl, hln⟩
    · exact ⟨l, hl, (lineNotification_callEnded_iff l.text).mpr hnc⟩
    · exact ⟨l, List.mem_of_mem_head? hl, hln⟩

section

variable {first : ModemLine} {ls : List ModemLine}

private theorem callEnded_mem {l : ModemLine} (hl : l ∈ ls) (hnc : Occurs noCarrier l.text) :
    Notification.callEnded ∈ ls.filterMap ModemLine.notification :=
  List.mem_filterMap.mpr ⟨l, hl, (lineNotification_callEnded_iff l.text).mpr hnc⟩

private theorem texts_notifications (ls : List ModemLine) :
    (ls.map (·.text)).filterMap lineNotification = ls.filterMap ModemLine.notification := by
  rw [List.filterMap_map]
  rfl

private theorem first_none {n : Notification}
    (h : (first :: ls).filterMap ModemLine.notification = [n])
    (hmem : n ∈ ls.filterMap ModemLine.notification) : first.notification = none := by
  cases hfirst : first.notification with
  | none => rfl
  | some m =>
    rw [List.filterMap_cons_some hfirst] at h
    rw [(List.cons.inj h).2] at hmem
    exact absurd hmem (by simp)

private theorem faithful_of_yields
    (h : (notification (joinLines (ls.map (·.text)))).toList =
      (first :: ls).filterMap ModemLine.notification) :
    Faithful ((first :: ls).map (·.text)) := by
  rw [Faithful, texts_notifications]
  cases hn : notification (joinLines (ls.map (·.text))) with
  | none =>
    rw [hn] at h
    exact .inl h.symm
  | some n =>
    rw [hn, Option.toList_some] at h
    rcases (notification_joinLines_iff ls n).mp hn with ⟨⟨l, hl, hnc⟩, rfl⟩ | ⟨-, hring, l, hl, hln⟩
    · refine .inr (.inl ⟨h.symm, ?_⟩)
      intro t ht
      obtain rfl : first.text = t := by simpa using ht
      exact first_none h.symm (callEnded_mem hl hnc)
    · refine .inr (.inr ⟨l.text, ?_, by rw [← h, hln]; rfl, ?_⟩)
      · cases ls with
        | nil => simp at hl
        | cons m ls =>
          obtain rfl : m = l := by simpa using hl
          rfl
      · intro m hm
        obtain ⟨k, hk, rfl⟩ := List.mem_map.mp (show m ∈ ls.map (·.text) by simpa using hm)
        exact hring k hk

private theorem yields_of_nil (h : (first :: ls).filterMap ModemLine.notification = []) :
    (notification (joinLines (ls.map (·.text)))).toList = [] := by
  have hsub : ls.filterMap ModemLine.notification <+
      (first :: ls).filterMap ModemLine.notification :=
    (List.sublist_cons_self first ls).filterMap _
  rw [h] at hsub
  exact List.sublist_nil.mp ((notification_sublist ls).trans hsub)

private theorem yields_of_carrier
    (h : (first :: ls).filterMap ModemLine.notification = [.callEnded])
    (hfirst : first.notification = none) :
    notification (joinLines (ls.map (·.text))) = some .callEnded := by
  rw [List.filterMap_cons_none hfirst] at h
  have hmem : Notification.callEnded ∈ ls.filterMap ModemLine.notification := by
    rw [h]
    simp
  obtain ⟨l, hl, hln⟩ := List.mem_filterMap.mp hmem
  exact (notification_joinLines_iff ls .callEnded).mpr
    (.inl ⟨⟨l, hl, (lineNotification_callEnded_iff l.text).mp hln⟩, rfl⟩)

private theorem yields_of_second {second : ModemLine} {n : Notification}
    (h : (first :: second :: ls).filterMap ModemLine.notification = [n])
    (hsecond : lineNotification second.text = some n)
    (hring : ∀ l ∈ second :: ls, ¬ Occurs ring l.text) :
    notification (joinLines ((second :: ls).map (·.text))) = some n := by
  rw [notification_joinLines_iff]
  -- A NO CARRIER anywhere in the batch comes first for the handler, but then it is the only one.
  by_cases hnc : ∃ l ∈ second :: ls, Occurs noCarrier l.text
  · obtain ⟨l, hl, hln⟩ := hnc
    refine .inl ⟨⟨l, hl, hln⟩, ?_⟩
    have hmem := callEnded_mem (List.mem_cons_of_mem first hl) hln
    rw [h] at hmem
    exact (List.mem_singleton.mp hmem).symm
  · exact .inr ⟨fun l hl hln => hnc ⟨l, hl, hln⟩, hring, second, rfl, hsecond⟩

private theorem yields_of_faithful (h : Faithful ((first :: ls).map (·.text))) :
    (notification (joinLines (ls.map (·.text)))).toList =
      (first :: ls).filterMap ModemLine.notification := by
  rw [Faithful, texts_notifications] at h
  obtain h | ⟨h, hfirst⟩ | ⟨t, ht, h, hring⟩ := h
  · rw [h, yields_of_nil h]
  · rw [h, yields_of_carrier h (hfirst first.text (by simp)), Option.toList_some]
  · cases ls with
    | nil => simp at ht
    | cons second ls =>
      obtain rfl : second.text = t := by simpa using ht
      cases hsecond : lineNotification second.text with
      | none =>
        rw [hsecond, Option.toList_none] at h
        rw [h, yields_of_nil h]
      | some n =>
        rw [hsecond, Option.toList_some] at h
        have hrings : ∀ l ∈ second :: ls, ¬ Occurs ring l.text := by
          intro l hl
          exact hring l.text (List.mem_map.mpr ⟨l, hl, rfl⟩)
        rw [h, yields_of_second h hsecond hrings, Option.toList_some]

end

private theorem batch_faithful_iff (first : ModemLine) (ls : List ModemLine) :
    (notification (joinLines (ls.map (·.text)))).toList =
        (first :: ls).filterMap ModemLine.notification ↔
      Faithful ((first :: ls).map (·.text)) :=
  ⟨faithful_of_yields, yields_of_faithful⟩

private theorem flatMap_eq_iff_of_sublist {α β : Type} {f g : α → List β}
    (hsub : ∀ a, f a <+ g a) (as : List α) :
    as.flatMap f = as.flatMap g ↔ ∀ a ∈ as, f a = g a := by
  have hflat : ∀ as : List α, as.flatMap f <+ as.flatMap g := by
    intro as
    induction as with
    | nil => exact List.Sublist.refl _
    | cons a as ih => exact (hsub a).append ih
  induction as with
  | nil => simp
  | cons a as ih =>
    rw [List.flatMap_cons, List.flatMap_cons, List.forall_mem_cons]
    constructor
    · intro h
      have hlen := congrArg List.length h
      rw [List.length_append, List.length_append] at hlen
      have h₁ := (hsub a).length_le
      have h₂ := (hflat as).length_le
      have hhead : f a = g a := (hsub a).eq_of_length (by omega)
      rw [hhead] at h
      exact ⟨hhead, ih.mp (List.append_cancel_left h)⟩
    · rintro ⟨h₁, h₂⟩
      rw [h₁, ih.mpr h₂]

/-- What the handler makes of a batch of lines. -/
def groupNotification (g : List ModemLine) : List Notification :=
  (notification (skipFirstLine (joinLines (g.map (·.text))))).toList

private theorem groupNotification_cons (first : ModemLine) (ls : List ModemLine) :
    groupNotification (first :: ls) = (notification (joinLines (ls.map (·.text)))).toList := by
  rw [groupNotification, List.map_cons, joinLines_cons, skipFirstLine_plain first.plain]

private theorem groupNotification_sublist (g : List ModemLine) :
    groupNotification g <+ g.filterMap ModemLine.notification := by
  cases g with
  | nil => exact List.Sublist.refl _
  | cons first ls =>
    rw [groupNotification_cons]
    exact (notification_sublist ls).trans ((List.sublist_cons_self first ls).filterMap _)

private theorem batches_notifications_iff {lines : List ModemLine} {chunks : List Text}
    (hcut : chunks.flatten = wire lines) :
    ((batches [] chunks).1.map skipFirstLine).filterMap notification =
        lines.filterMap ModemLine.notification ↔
      ∀ b ∈ (batches [] chunks).1, Faithful (splitLines b) := by
  rw [← wireLines_notifications]
  have hstream : [] ++ chunks.flatten = joinLines ((wireLines lines).map (·.text)) := by
    rw [List.nil_append, hcut, wire_eq]
  obtain ⟨gs, back, hlines, hbatches, hleft, hne⟩ := batches_lines chunks hstream
  have hopen : ¬ EndsLine (joinLines (back.map (·.text))) := by
    rw [← hleft]
    exact batches_open chunks fun h => absurd h.1 (by simp)
  have hlog : ((batches [] chunks).1.map skipFirstLine).filterMap notification =
      gs.flatMap groupNotification := by
    rw [hbatches, List.filterMap_map, List.filterMap_map, List.filterMap_eq_flatMap_toList]
    rfl
  have hexpected : (wireLines lines).filterMap ModemLine.notification =
      gs.flatMap fun g => g.filterMap ModemLine.notification := by
    rw [hlines, List.filterMap_append, leftover_notifications hopen, List.append_nil,
      List.filterMap_flatten, List.flatMap_def]
  rw [hexpected, hlog, flatMap_eq_iff_of_sublist groupNotification_sublist, hbatches,
    List.forall_mem_map]
  refine forall₂_congr fun g hg => ?_
  have hsplit : splitLines (joinLines (g.map (·.text))) = g.map (·.text) := by
    refine splitLines_joinLines fun l hl => ?_
    obtain ⟨m, -, rfl⟩ := List.mem_map.mp hl
    exact m.plain
  obtain ⟨first, ls, rfl⟩ := List.exists_cons_of_ne_nil (hne g hg)
  rw [hsplit, groupNotification_cons]
  exact batch_faithful_iff first ls

def handleLines (lines : List ModemLine) (b : Board) : Board :=
  (lines.map fun l => l.text ++ crlf).foldl (fun b t => (boardHandler t b).2) b

/-- A stream of lines, cut into chunks that fit the receive buffer, does to every phone what its
lines do one at a time, exactly when every batch is faithful. -/
theorem notifications_iff (config : AtConfig) (lines : List ModemLine) (chunks : List Text)
    (hcut : chunks.flatten = wire lines) (hfit : (wire lines).length < config.recvBufferLength) :
    (∀ w p, (chunks.foldl Port.receive (idlePort config () w p)).user =
        handleLines lines ⟨w, p, []⟩) ↔
      ∀ b ∈ (batches [] chunks).1, Faithful (splitLines b) := by
  have hlines : (lines.map fun l => l.text ++ crlf).filterMap notification =
      lines.filterMap ModemLine.notification := by
    rw [List.filterMap_map]
    rfl
  have hwhole : chunks.flatten.length < config.recvBufferLength := by rwa [hcut]
  rw [← batches_notifications_iff hcut, ← hlines, ← boardHandler_foldl_eq_iff]
  refine forall₂_congr fun w p => ?_
  rw [idlePort_received () w p hwhole, handleLines]

def carrierLine : ModemLine := ⟨noCarrier, by decide, fun h => absurd h (by decide)⟩

def incomingEntry : ClccEntry where
  id := ⟨['1'], by decide, List.all_eq_true.mp rfl⟩
  dir := ⟨['1'], by decide, List.all_eq_true.mp rfl⟩
  stat := ⟨['4'], by decide, List.all_eq_true.mp rfl⟩
  mode := ⟨['0'], by decide, List.all_eq_true.mp rfl⟩
  mpty := ⟨['0'], by decide, List.all_eq_true.mp rfl⟩
  number := some ⟨"10086".toList, ",129".toList, by decide⟩

def incomingLine : ModemLine := ⟨incomingEntry.text, by decide, fun _ => ⟨incomingEntry, rfl⟩⟩

/-- The end of a call, in two chunks. -/
theorem notifications_iff_oneLine :
    let p := { Phone.init with state := .inCall }
    let received := (["\r\nNO CARRI".toList, "ER\r\n".toList].foldl Port.receive
      (idlePort atConfig () World.allOk p)).user
    received = handleLines [carrierLine] ⟨World.allOk, p, []⟩ ∧ received.phone.state = .idle :=
  ⟨(notifications_iff atConfig [carrierLine] _ (by decide) (by decide)).mpr (by decide) _ _,
    by decide⟩

/-- The end of a call and the next call in one chunk: the second does not ring. -/
theorem carrierThenIncoming_lost :
    let w := World.allOk
    let rules := (callManagerAddInterceptRule (.ofText ['*']) false .empty).2
    let p := { Phone.init with rules := rules, state := .inCall }
    let lines := [carrierLine, incomingLine]
    let received := ([wire lines].foldl Port.receive (idlePort atConfig () w p)).user
    let expected := handleLines lines ⟨w, p, []⟩
    [wire lines].flatten = wire lines ∧ (wire lines).length < atConfig.recvBufferLength ∧
      received.takenUp = [.callEnded] ∧ received.phone.state = .idle ∧
      expected.takenUp = [.callEnded, .incoming "10086".toList] ∧
      expected.phone.state = .ringing ∧ received ≠ expected := by
  refine ⟨by decide, by decide, by decide, by decide, by decide, by decide, fun h => ?_⟩
  exact absurd (congrArg (·.phone.state) h) (by decide)

end Leyu
