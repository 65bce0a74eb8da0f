import Leyu.Rndis.TaskRules

/-!
# Plugging in a device that answers

A device that answers every query with what it has to say of the object. The handshake ends with
the driver knowing it, and what becomes of the link depends on nothing but whether the end of the
last connection was taken together with the new one.
-/

namespace Leyu

open Framework Routine

private theorem length_flatMap_le32 (words : List UInt32) :
    (words.flatMap le32).length = 4 * words.length := by
  induction words with
  | nil => rfl
  | cons word words ih => simp [ih, Nat.mul_add, Nat.add_comm]

/-- What a device has to say of its objects. -/
structure RndisObjects where
  supported : List UInt32
  linkSpeed : { speed : Bytes // speed.length = 4 }
  address : { address : Bytes // address.length = 6 }
  connected : Bool
  other : UInt32 → { value : Bytes // value.length ≤ 32 }
  supported_le : supported.length ≤ 58

namespace RndisObjects

def information (objects : RndisObjects) (oid : UInt32) : Bytes :=
  if oid = oidSupportedList then objects.supported.flatMap le32
  else if oid = oidLinkSpeed then objects.linkSpeed.val
  else if oid = oidMediaConnectStatus then le32 (if objects.connected then 0 else 1)
  else if oid = oidCurrentAddress then objects.address.val
  else (objects.other oid).val

private theorem length_information_le (objects : RndisObjects) (oid : UInt32) :
    (objects.information oid).length ≤ 232 := by
  rw [information]
  split
  · rw [length_flatMap_le32]
    exact Nat.mul_le_mul_left 4 objects.supported_le
  · split
    · exact objects.linkSpeed.property.trans_le (by decide)
    · split
      · exact (length_le32 _).trans_le (by decide)
      · split
        · exact objects.address.property.trans_le (by decide)
        · exact (objects.other oid).property.trans (by decide)

/-- The response carries what there is to say. -/
def Tells (objects : RndisObjects) (oid : UInt32) (resp : RndisBuffer) : Prop :=
  Leyu.information resp = objects.information oid ∧
    informationLength resp = (objects.information oid).length

/-- What the device answers. -/
def Honest (objects : RndisObjects) : (r : RndisControl) → r.Answer → Prop
  | .send _ => fun sent => sent = true
  | .receive none => fun resp => resp ≠ none
  | .receive (some query) => fun answer => ∃ resp, answer = some resp ∧ objects.Tells query.oid resp
  | .array _ => fun _ => True

/-- A device that answers every command. -/
def respond (objects : RndisObjects) (oid : UInt32) : RndisBuffer :=
  ⟨List.replicate 16 0 ++ le32 (UInt32.ofNat (objects.information oid).length) ++
      List.replicate 4 0 ++ objects.information oid ++
      List.replicate (232 - (objects.information oid).length) 0, by
    have hle := objects.length_information_le oid
    simp only [List.length_append, List.length_replicate, length_le32]
    omega⟩

def device (objects : RndisObjects) : (r : RndisControl) → r.Answer
  | .send _ => true
  | .receive none => some ⟨List.replicate 256 0, List.length_replicate⟩
  | .receive (some query) => some (objects.respond query.oid)
  | .array size => ⟨List.replicate size 0, List.length_replicate⟩

private theorem tells_respond (objects : RndisObjects) (oid : UInt32) :
    objects.Tells oid (objects.respond oid) := by
  have hle := objects.length_information_le oid
  have hlen : informationLength (objects.respond oid) = (objects.information oid).length := by
    have hfront : (List.replicate 16 0 : Bytes).length = 16 := List.length_replicate
    have hword : le32At (objects.respond oid).val 16 =
        UInt32.ofNat (objects.information oid).length := by
      simp only [respond, List.append_assoc]
      rw [← List.append_assoc]
      exact le32At_append hfront _ _
    rw [informationLength, hword, UInt32.toNat_ofNat_of_lt']
    exact Nat.lt_of_le_of_lt hle (by decide)
  refine ⟨?_, hlen⟩
  have hdrop : (objects.respond oid).val.drop 24 = objects.information oid ++
      List.replicate (232 - (objects.information oid).length) 0 := by
    simp only [respond, List.append_assoc]
    rw [← List.append_assoc, ← List.append_assoc, List.drop_left']
    simp
  rw [Leyu.information, hdrop, hlen, List.take_left' rfl]

theorem honest_device (objects : RndisObjects) (r : RndisControl) :
    objects.Honest r (objects.device r) := by
  cases r with
  | send message => rfl
  | array size => trivial
  | receive query =>
    cases query with
    | none => exact Option.some_ne_none _
    | some query => exact ⟨_, rfl, objects.tells_respond query.oid⟩

/-- The driver knows what the device says of these objects. -/
def Learned (objects : RndisObjects) (known : UInt32 → Prop) (s : Rndis) : Prop :=
  (known oidLinkSpeed → s.linkSpeed = objects.linkSpeed.val) ∧
    (known oidMediaConnectStatus → s.connectStatus = objects.connected) ∧
    (known oidCurrentAddress → s.ethMacAddr = objects.address.val)

variable {objects : RndisObjects} {known : UInt32 → Prop} {s : Rndis}

theorem mediaConnected_status (rest : Bytes) :
    mediaConnected (objects.information oidMediaConnectStatus ++ rest) = objects.connected := by
  have hstatus : objects.information oidMediaConnectStatus =
      le32 (if objects.connected then 0 else 1) := by
    simp [information, oidMediaConnectStatus, oidSupportedList, oidLinkSpeed]
  rw [hstatus]
  cases objects.connected <;> rfl

private theorem learned_keepObject (h : objects.Learned known s) (oid : UInt32) (rest : Bytes) :
    objects.Learned (fun o => known o ∨ o = oid)
      (s.keepObject oid (objects.information oid ++ rest)) := by
  obtain ⟨hspeed, hstatus, haddress⟩ := h
  by_cases hoid : oid = oidLinkSpeed
  · subst hoid
    have htake : (objects.information oidLinkSpeed ++ rest).take 4 = objects.linkSpeed.val := by
      have hinfo : objects.information oidLinkSpeed = objects.linkSpeed.val := by
        simp [information, oidSupportedList, oidLinkSpeed]
      rw [hinfo, List.take_left' objects.linkSpeed.property]
    simpa [Learned, Rndis.keepObject, oidLinkSpeed, oidMediaConnectStatus, oidCurrentAddress]
      using ⟨htake, hstatus, haddress⟩
  · by_cases hoid' : oid = oidMediaConnectStatus
    · subst hoid'
      have hmedia : mediaConnected (objects.information oidMediaConnectStatus ++ rest) =
          objects.connected := mediaConnected_status rest
      simpa [Learned, Rndis.keepObject, oidLinkSpeed, oidMediaConnectStatus, oidCurrentAddress]
        using ⟨hspeed, hmedia, haddress⟩
    · by_cases hoid'' : oid = oidCurrentAddress
      · subst hoid''
        have htake : (objects.information oidCurrentAddress ++ rest).take 6 =
            objects.address.val := by
          have hinfo : objects.information oidCurrentAddress = objects.address.val := by
            simp [information, oidSupportedList, oidLinkSpeed, oidMediaConnectStatus,
              oidCurrentAddress]
          rw [hinfo, List.take_left' objects.address.property]
        simpa [Learned, Rndis.keepObject, oidLinkSpeed, oidMediaConnectStatus, oidCurrentAddress]
          using ⟨hspeed, hstatus, htake⟩
      · rw [Rndis.keepObject, if_neg hoid, if_neg hoid', if_neg hoid'']
        exact ⟨fun h => hspeed (h.resolve_right (Ne.symm hoid)),
          fun h => hstatus (h.resolve_right (Ne.symm hoid')),
          fun h => haddress (h.resolve_right (Ne.symm hoid''))⟩

private theorem learned_skip (h : objects.Learned known s) {oid : UInt32}
    (hoid : oidQueryLen oid = none) :
    objects.Learned (fun o => known o ∨ o = oid) s := by
  have hne {o : UInt32} (ho : (oidQueryLen o).isSome) : o ≠ oid := by
    rintro rfl
    rw [hoid] at ho
    cases ho
  obtain ⟨hspeed, hstatus, haddress⟩ := h
  exact ⟨fun h => hspeed (h.resolve_right (hne rfl)), fun h => hstatus (h.resolve_right (hne rfl)),
    fun h => haddress (h.resolve_right (hne rfl))⟩

end RndisObjects

private theorem oidsOf_flatMap (words : List UInt32) (rest : Bytes) :
    oidsOf (words.flatMap le32 ++ rest) (4 * words.length) = words := by
  have hcount : 4 * words.length / 4 = words.length := Nat.mul_div_cancel_left _ (by decide)
  rw [oidsOf, hcount]
  apply List.ext_getElem
  · simp
  · intro i hi hi'
    have hwords : words = words.take i ++ words[i] :: words.drop (i + 1) := by
      rw [← List.drop_eq_getElem_cons hi', List.take_append_drop]
    have hsplit : words.flatMap le32 ++ rest =
        (words.take i).flatMap le32 ++ le32 words[i] ++ ((words.drop (i + 1)).flatMap le32 ++ rest) := by
      conv_lhs => rw [hwords, List.flatMap_append, List.flatMap_cons]
      simp only [List.append_assoc]
    have hfront : ((words.take i).flatMap le32).length = 4 * i := by
      rw [length_flatMap_le32, List.length_take, Nat.min_eq_left (Nat.le_of_lt hi')]
    rw [List.getElem_map, List.getElem_range, hsplit]
    exact le32At_append hfront words[i] _

/-- What the handshake leaves alone. -/
structure SameLink (s₀ s : Rndis) : Prop where
  events : s.events = s₀.events
  cable : s.cable = s₀.cable
  cdcPort : s.cdcPort = s₀.cdcPort
  link : s.link = s₀.link

private theorem SameLink.refl (s : Rndis) : SameLink s s := ⟨rfl, rfl, rfl, rfl⟩

theorem SameLink.here {s₀ s : Rndis} (h : SameLink s₀ s) (hhere : ¬ s₀.Gone) : ¬ s.Gone := by
  rw [Rndis.Gone, h.cable]
  exact hhere

private theorem SameLink.keepObject {s₀ s : Rndis} (h : SameLink s₀ s) (oid : UInt32)
    (data : Bytes) :
    SameLink s₀ (s.keepObject oid data) := by
  rw [Rndis.keepObject]
  split
  · exact ⟨h.events, h.cable, h.cdcPort, h.link⟩
  · split
    · exact ⟨h.events, h.cable, h.cdcPort, h.link⟩
    · split
      · exact ⟨h.events, h.cable, h.cdcPort, h.link⟩
      · exact h

namespace RndisRoutine

open RndisObjects

variable {objects : RndisObjects}

/-- A device that is there answers so. -/
abbrev HonestSafe {ε : Type} (objects : RndisObjects) (post : ε → Rndis → Prop)
    (p : RndisRoutine ε) (s : Rndis) : Prop :=
  Alone (fun s r answer => ¬ s.Gone → objects.Honest r answer) post p s

theorem hears_honest : Hears (fun _ _ => False)
    (fun s r answer => ¬ s.Gone → objects.Honest r answer) fun _ => True :=
  ⟨fun _ _ _ h => h, fun _ _ _ _ => trivial⟩

private theorem framed_sameLink (objects : RndisObjects) (known : UInt32 → Prop) (s₀ : Rndis) :
    Framed (fun _ _ => False) fun s => SameLink s₀ s ∧ objects.Learned known s :=
  ⟨fun _ _ h => h.elim, fun _ _ h => ⟨⟨h.1.events, h.1.cable, h.1.cdcPort, h.1.link⟩, h.2⟩,
    fun _ _ _ h => ⟨⟨h.1.events, h.1.cable, h.1.cdcPort, h.1.link⟩, h.2⟩⟩

section Answered

variable {I : Rndis → Prop} (hI : Framed (fun _ _ => False) I) (hhere : ∀ s, I s → ¬ s.Gone)
include hI hhere

theorem query_answered (oid queryLen : UInt32) (info : Bytes) {s : Rndis} (h : I s) :
    HonestSafe objects (fun result s => I s ∧ ∃ rest,
      result = some (objects.information oid ++ rest, (objects.information oid).length))
      (queryMsgRequest oid queryLen info) s := by
  apply (safe_queryMsgRequest hI hears_honest oid queryLen info h).mono
  rintro result s ⟨hs, hqueried, -⟩
  refine ⟨hs, ?_⟩
  cases result with
  | none =>
    rcases hqueried with ⟨data, id, s₀, hs₀, hsent⟩ | ⟨s₀, hs₀, hanswer⟩
    · cases hsent (hhere s₀ hs₀)
    · obtain ⟨resp, hnone, -⟩ := hanswer (hhere s₀ hs₀)
      cases hnone
  | some result =>
    obtain ⟨-, resp, ⟨s₀, hs₀, hanswer⟩, rfl⟩ := hqueried
    obtain ⟨resp', hresp, htells⟩ := hanswer (hhere s₀ hs₀)
    obtain rfl := Option.some.inj hresp
    exact ⟨_, by rw [copyInformation, htells.1, htells.2]⟩

private theorem initMsg_answered {s : Rndis} (h : I s) :
    HonestSafe objects (fun done s => done = true ∧ I s) initMsgRequest s := by
  apply (safe_initMsgRequest hI hears_honest h).mono
  rintro done s ⟨hs, hfailed⟩
  cases done with
  | true => exact ⟨rfl, hs⟩
  | false =>
    obtain ⟨s₀, hs₀, hanswer⟩ := hfailed rfl
    exact absurd rfl (hanswer (hhere s₀ hs₀))

private theorem setMsg_answered (oid : UInt32) (info : Bytes) {s : Rndis} (h : I s) :
    HonestSafe objects (fun done s => done = true ∧ I s) (setMsgRequest oid info) s := by
  apply (safe_setMsgRequest hI hears_honest oid info h).mono
  rintro done s ⟨hs, hfailed, -⟩
  cases done with
  | true => exact ⟨rfl, hs⟩
  | false =>
    obtain ⟨s₀, hs₀, hanswer⟩ := hfailed rfl
    exact absurd rfl (hanswer (hhere s₀ hs₀))

end Answered

private theorem queryObjects_learns {s₀ : Rndis} (hhere : ¬ s₀.Gone) (oids : List UInt32)
    (data : Bytes) {known : UInt32 → Prop} {s : Rndis}
    (h : SameLink s₀ s ∧ objects.Learned known s) :
    HonestSafe objects (fun done s => done = true ∧ SameLink s₀ s ∧
      objects.Learned (fun oid => known oid ∨ oid ∈ oids) s) (queryObjects oids data) s := by
  induction oids generalizing data known s with
  | nil =>
    apply alone_pure
    simpa using h
  | cons oid oids ih =>
    have hlater {s : Rndis}
        (h : SameLink s₀ s ∧ objects.Learned (fun o => known o ∨ o = oid) s) (data : Bytes) :
        HonestSafe objects (fun done s => done = true ∧ SameLink s₀ s ∧
          objects.Learned (fun o => known o ∨ o ∈ oid :: oids) s) (queryObjects oids data) s := by
      simpa only [List.mem_cons, or_assoc] using ih data h
    rw [queryObjects]
    split
    · next hskip => exact hlater ⟨h.1, learned_skip h.2 hskip⟩ data
    · apply (query_answered (framed_sameLink objects known s₀) (fun s hs => hs.1.here hhere) _ _ data
        h).seq
      rintro result s ⟨hs, rest, rfl⟩
      dsimp only
      apply Safe.bind
      apply alone_modify
      exact hlater ⟨hs.1.keepObject oid _, learned_keepObject hs.2 oid rest⟩ _

theorem connect_learns {s : Rndis} (hhere : ¬ s.Gone) :
    HonestSafe objects (fun done s' => done = true ∧ SameLink s s' ∧
      objects.Learned (· ∈ objects.supported) s') connect s := by
  have hstart : SameLink s s ∧ objects.Learned (fun _ => False) s :=
    ⟨.refl s, fun h => h.elim, fun h => h.elim, fun h => h.elim⟩
  have hI := framed_sameLink objects (fun _ => False) s
  have hI' := framed_sameLink objects (· ∈ objects.supported) s
  have hstill (known : UInt32 → Prop) (s' : Rndis) (h : SameLink s s' ∧ objects.Learned known s') :
      ¬ s'.Gone := h.1.here hhere
  apply (initMsg_answered hI (hstill _) hstart).seq
  rintro ready s' ⟨rfl, hs⟩
  apply (safe_array hI 256 hs).seq
  intro tmpBuffer s' hs
  apply (query_answered hI (hstill _) _ _ tmpBuffer.val hs).seq
  rintro list s' ⟨hs, rest, rfl⟩
  have hoids : oidsOf (objects.information oidSupportedList ++ rest)
      (objects.information oidSupportedList).length = objects.supported := by
    have hlist : objects.information oidSupportedList = objects.supported.flatMap le32 := if_pos rfl
    rw [hlist, length_flatMap_le32, oidsOf_flatMap]
  dsimp only
  rw [hoids]
  apply (safe_array hI 32 hs).seq
  intro data s' hs
  apply (queryObjects_learns hhere objects.supported data.val hs).seq
  rintro asked s' ⟨rfl, hsame, hlearned⟩
  have hknown : SameLink s s' ∧ objects.Learned (· ∈ objects.supported) s' :=
    ⟨hsame, by simpa using hlearned⟩
  apply (setMsg_answered hI' (hstill _) _ _ hknown).seq
  rintro filter s' ⟨rfl, hs⟩
  apply Safe.bind
  apply alone_current
  exact setMsg_answered hI' (hstill _) _ _ hs

end RndisRoutine

end Leyu
