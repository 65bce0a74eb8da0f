import Leyu.Blufi.Provisioning
import Leyu.Blufi.Security

/-!
# An encrypted session

The receiver with its key. Every frame is opened under the key of the moment, and a message that it
completes may be part of a negotiation that changes the key. A phone that negotiates and then
encrypts under what was agreed is understood, and stays so while further negotiations fail.
-/

namespace Leyu

open Framework

variable {δ κ : Type}

private theorem carries_single (conn : Nat) {f : BlufiFrame} (hlast : f.hdr.isFrag = false) :
    Carries [(conn, f)] (f.hdr.type, f.payload) := by
  refine ⟨[], (conn, f), rfl, by simp, hlast, ?_, by simp⟩
  rw [texts_singleton]

def negotiations (message : UInt8 × Bytes) : List Bytes :=
  ((protocolHandler message.1 message.2).getD []).filterMap fun
    | .negotiate data => some data
    | _ => none

/-- The receiver with the key, the errors the negotiation has reported and the public keys it has
given out to be sent. -/
structure SecureLink (δ κ : Type) where
  link : BlufiLink
  security : Option (BlufiSecurity δ κ)
  reported : List BlufiError
  answers : List Bytes

/-- A packet, and what the receiver finds when it comes. -/
structure SecurePacket where
  world : NegotiateWorld
  heap : BlufiHeap
  packet : Bytes

/-- The application handles the begin and the end of a connection in a task of its own. -/
inductive SecureOp
  | receive (p : SecurePacket)
  | connect
  | disconnect
  | securityInit (memory : Bool)
  | securityDeinit

def SecurePacket.under (cbs : BlufiCallbacks) (p : SecurePacket) : BlufiOp :=
  .receive cbs p.heap p.packet

namespace SecureLink

variable (cJSONParse : Bytes → Option StringItems) (m : BlufiCrypto δ κ)

def init : SecureLink δ κ := ⟨.init, none, [], []⟩

def key (s : SecureLink δ κ) : Option κ := s.security.map BlufiSecurity.aes

def negotiate (w : NegotiateWorld) (s : SecureLink δ κ) (data : Bytes) : SecureLink δ κ :=
  let out := blufiDhNegotiateDataHandler m w s.security data
  { s with
    security := out.security
    reported := s.reported ++ out.error.toList
    answers := s.answers ++ out.output.toList }

def receive (s : SecureLink δ κ) (p : SecurePacket) : SecureLink δ κ :=
  let op := p.under (blufiCallbacks m s.key)
  let handed := messages (s.link.emitted cJSONParse op)
  (handed.flatMap negotiations).foldl (negotiate m p.world)
    { s with link := s.link.step cJSONParse op }

def step (s : SecureLink δ κ) : SecureOp → SecureLink δ κ
  | .receive p => s.receive cJSONParse m p
  | .connect => { s with link := s.link.step cJSONParse .connect }
  | .disconnect => { s with link := s.link.step cJSONParse .disconnect }
  | .securityInit memory => { s with security := if memory then some (.init m) else none }
  | .securityDeinit => { s with security := none }

end SecureLink

namespace BlufiLink

variable {cJSONParse : Bytes → Option StringItems}

private theorem effects_step (link : BlufiLink) (op : BlufiOp) :
    (link.step cJSONParse op).effects = link.effects ++ link.emitted cJSONParse op := by
  have hstep := BlufiLink.run_effects cJSONParse link [op]
  rwa [run_cons, run_nil, outputs, outputs, List.append_nil] at hstep

private theorem messages_prefix (cJSONParse : Bytes → Option StringItems) (link : BlufiLink)
    (op : BlufiOp) (ops : List BlufiOp) :
    messages link.effects ++ messages (link.emitted cJSONParse op) <+:
      messages (run (BlufiLink.step cJSONParse) link (op :: ops)).effects := by
  rw [run_cons, BlufiLink.run_effects, effects_step, messages_append, messages_append]
  exact List.prefix_append _ _

end BlufiLink

namespace SecureLink

variable {cJSONParse : Bytes → Option StringItems} {m : BlufiCrypto δ κ}

private theorem answers_negotiate (w : NegotiateWorld) (s : SecureLink δ κ) (datas : List Bytes) :
    s.answers <+: (datas.foldl (negotiate m w) s).answers := by
  induction datas generalizing s with
  | nil => exact List.prefix_rfl
  | cons data datas ih => exact (List.prefix_append _ _).trans (ih (negotiate m w s data))

@[simp] theorem link_negotiate (w : NegotiateWorld) (s : SecureLink δ κ) (datas : List Bytes) :
    (datas.foldl (negotiate m w) s).link = s.link := by
  induction datas generalizing s with
  | nil => rfl
  | cons data datas ih => exact ih _

private theorem key_negotiate {w : NegotiateWorld} {s : SecureLink δ κ} {datas : List Bytes}
    (h : (datas.foldl (negotiate m w) s).answers = s.answers) :
    (datas.foldl (negotiate m w) s).key = s.key := by
  induction datas generalizing s with
  | nil => rfl
  | cons data datas ih =>
    have hlater := answers_negotiate (m := m) w (negotiate m w s data) datas
    rw [List.foldl_cons] at h ⊢
    rw [h] at hlater
    have hnone : (blufiDhNegotiateDataHandler m w s.security data).output = none := by
      have hlen := hlater.length_le
      rw [negotiate, List.length_append] at hlen
      cases houtput : (blufiDhNegotiateDataHandler m w s.security data).output with
      | none => rfl
      | some publicKey =>
        rw [houtput, Option.toList_some, List.length_singleton] at hlen
        omega
    have hsame : (negotiate m w s data).answers = s.answers := by simp [negotiate, hnone]
    exact (ih (h.trans hsame.symm)).trans (key_of_unanswered hnone)

@[simp] theorem link_receive (s : SecureLink δ κ) (p : SecurePacket) :
    (s.receive cJSONParse m p).link =
      s.link.step cJSONParse (p.under (blufiCallbacks m s.key)) := by
  simp [receive]

private theorem answers_receive (s : SecureLink δ κ) (p : SecurePacket) :
    s.answers <+: (s.receive cJSONParse m p).answers :=
  answers_negotiate p.world
    { s with link := s.link.step cJSONParse (p.under (blufiCallbacks m s.key)) } _

theorem key_receive {s : SecureLink δ κ} {p : SecurePacket}
    (h : (s.receive cJSONParse m p).answers = s.answers) : (s.receive cJSONParse m p).key = s.key :=
  key_negotiate h

theorem answers_run (cJSONParse : Bytes → Option StringItems) (m : BlufiCrypto δ κ)
    (s : SecureLink δ κ) (packets : List SecurePacket) :
    s.answers <+: (run (step cJSONParse m) s (packets.map .receive)).answers := by
  induction packets generalizing s with
  | nil => exact List.prefix_rfl
  | cons p packets ih => exact (answers_receive s p).trans (ih _)

/-- While no public key is given out the receiver works under one key. -/
theorem run_unanswered {s : SecureLink δ κ} {packets : List SecurePacket}
    (h : (run (step cJSONParse m) s (packets.map .receive)).answers = s.answers) :
    let s' := run (step cJSONParse m) s (packets.map .receive)
    s'.link = run (BlufiLink.step cJSONParse) s.link
        (packets.map (SecurePacket.under (blufiCallbacks m s.key))) ∧ s'.key = s.key := by
  induction packets generalizing s with
  | nil => exact ⟨rfl, rfl⟩
  | cons p packets ih =>
    have hlater := answers_run cJSONParse m (s.receive cJSONParse m p) packets
    have hsame : (s.receive cJSONParse m p).answers = s.answers := by
      rw [List.map_cons, run_cons] at h
      exact (List.IsPrefix.eq_of_length_le (answers_receive s p) (h ▸ hlater.length_le)).symm
    obtain ⟨hlink, hkey⟩ := ih (s := s.receive cJSONParse m p) (h.trans hsame.symm)
    rw [key_receive hsame] at hlink hkey
    refine ⟨?_, hkey⟩
    rw [List.map_cons, List.map_cons, run_cons, run_cons, ← link_receive s p]
    exact hlink

private theorem withLink_negotiate (w : NegotiateWorld) (s : SecureLink δ κ) (datas : List Bytes)
    (link : BlufiLink) :
    { datas.foldl (negotiate m w) s with link := link } =
      datas.foldl (negotiate m w) { s with link := link } := by
  induction datas generalizing s with
  | nil => rfl
  | cons data datas ih => exact ih (negotiate m w s data)

/-- A message no answer is given to, whatever is found. -/
def Silent (m : BlufiCrypto δ κ) (message : UInt8 × Bytes) : Prop :=
  ∀ data ∈ negotiations message, ∀ w security,
    (blufiDhNegotiateDataHandler m w security data).output = none

private theorem key_silent {w : NegotiateWorld} {s : SecureLink δ κ} {datas : List Bytes}
    (h : ∀ data ∈ datas, ∀ w security,
      (blufiDhNegotiateDataHandler m w security data).output = none) :
    (datas.foldl (negotiate m w) s).key = s.key := by
  induction datas generalizing s with
  | nil => rfl
  | cons data datas ih =>
    rw [List.foldl_cons, ih fun d hd => h d (List.mem_cons_of_mem data hd)]
    exact key_of_unanswered (h data List.mem_cons_self w s.security)

/-- Where no message is answered, the calls of the negotiation are those that the messages come to,
and the receiver works under one key. -/
theorem run_silent {s : SecureLink δ κ} {packets : List SecurePacket}
    {handed : List (UInt8 × Bytes)} {link : BlufiLink}
    (hlink : link = run (BlufiLink.step cJSONParse) s.link
      (packets.map (SecurePacket.under (blufiCallbacks m s.key))))
    (hhanded : messages link.effects = messages s.link.effects ++ handed)
    (hsilent : ∀ message ∈ handed, Silent m message) :
    ∃ calls : List (NegotiateWorld × Bytes), (∀ call ∈ calls, ∃ p ∈ packets, p.world = call.1) ∧
      calls.map Prod.snd = handed.flatMap negotiations ∧
      run (step cJSONParse m) s (packets.map .receive) =
        calls.foldl (fun s call => negotiate m call.1 s call.2) { s with link := link } := by
  induction packets generalizing s handed with
  | nil =>
    obtain rfl : link = s.link := hlink
    obtain rfl : handed = [] := by simpa using hhanded
    exact ⟨[], by simp, rfl, rfl⟩
  | cons p packets ih =>
    rw [List.map_cons] at hlink
    have hfront := BlufiLink.messages_prefix cJSONParse s.link
      (p.under (blufiCallbacks m s.key)) (packets.map (SecurePacket.under (blufiCallbacks m s.key)))
    rw [← hlink, hhanded, List.prefix_append_right_inj] at hfront
    obtain ⟨later, rfl⟩ := hfront
    have hkey : (s.receive cJSONParse m p).key = s.key := by
      apply key_silent
      intro data hdata
      obtain ⟨message, hmem, hneg⟩ := List.mem_flatMap.mp hdata
      exact hsilent message (List.mem_append_left _ hmem) data hneg
    have hlater : messages link.effects =
        messages (s.receive cJSONParse m p).link.effects ++ later := by
      rw [hhanded, link_receive, ← List.append_assoc, BlufiLink.effects_step, messages_append]
    obtain ⟨calls, hworlds, hdatas, hrun⟩ := ih (s := s.receive cJSONParse m p)
      (by rw [hkey, link_receive]; exact hlink) hlater
      fun message hmem => hsilent message (List.mem_append_right _ hmem)
    refine ⟨((messages (s.link.emitted cJSONParse
      (p.under (blufiCallbacks m s.key)))).flatMap negotiations).map (Prod.mk p.world) ++ calls,
      ?_, ?_, ?_⟩
    · intro call hcall
      rcases List.mem_append.mp hcall with hnow | hlater
      · obtain ⟨data, -, rfl⟩ := List.mem_map.mp hnow
        exact ⟨p, List.mem_cons_self, rfl⟩
      · obtain ⟨q, hq, hworld⟩ := hworlds call hlater
        exact ⟨q, List.mem_cons_of_mem p hq, hworld⟩
    · simp [hdatas, Function.comp_def]
    · rw [List.map_cons, run_cons, List.foldl_append, List.foldl_map]
      change run (step cJSONParse m) (s.receive cJSONParse m p) _ = _
      rw [hrun, receive, withLink_negotiate]

private theorem negotiations_neg (data : Bytes) : negotiations (0x01, data) = [data] := by
  have hneg : protocolHandler 0x01 data = some [.negotiate data] := rfl
  rw [negotiations, hneg]
  rfl

private theorem negotiate_paramLen {w : NegotiateWorld} (hmemory : w.memory = true)
    {s : SecureLink δ κ} {sec : BlufiSecurity δ κ} (hsec : s.security = some sec) (hi lo : UInt8)
    (rest : Bytes) :
    ∃ sec', (negotiate m w s (0x00 :: hi :: lo :: rest)).security = some sec' ∧
      sec'.dhParam = some (hi.toNat * 256 + lo.toNat) ∧ sec'.dhm = sec.dhm ∧ sec'.aes = sec.aes ∧
      (negotiate m w s (0x00 :: hi :: lo :: rest)).answers = s.answers := by
  simp [negotiate, blufiDhNegotiateDataHandler, hsec, BlufiSecurity.paramLen, hmemory]

private theorem silent_paramLen (hi lo : UInt8) (rest : Bytes) :
    Silent m (0x01, 0x00 :: hi :: lo :: rest) := by
  intro data hdata w security
  rw [negotiations_neg] at hdata
  obtain rfl := List.mem_singleton.mp hdata
  cases security with
  | none => rfl
  | some sec =>
    simp only [blufiDhNegotiateDataHandler, BlufiSecurity.paramLen]
    split <;> rfl

private theorem negotiate_paramData {w : NegotiateWorld} {s : SecureLink δ κ}
    {sec : BlufiSecurity δ κ} (hsec : s.security = some sec) {size : Nat}
    (hparam : sec.dhParam = some size) {param : Bytes} (htwo : 2 ≤ param.length)
    (hsize : size ≤ param.length) {psk publicKey : Bytes}
    (hmade : m.exchange w sec.dhm (param.take size) = some (psk, publicKey)) :
    (negotiate m w s (0x01 :: param)).answers = s.answers ++ [publicKey] ∧
      (negotiate m w s (0x01 :: param)).key = some (m.aesSetkeyEnc psk) := by
  obtain ⟨b1, b2, rest, rfl⟩ : ∃ b1 b2 rest, param = b1 :: b2 :: rest := by
    match param, htwo with
    | b1 :: b2 :: rest, _ => exact ⟨b1, b2, rest, rfl⟩
  obtain ⟨houtput, hkey⟩ := BlufiSecurity.paramData_made hparam hsize hmade
  simp only [negotiate, key, blufiDhNegotiateDataHandler, hsec, houtput]
  exact ⟨rfl, hkey⟩

private theorem receive_neg {s : SecureLink δ κ} {p : SecurePacket} {data : Bytes}
    (h : messages (s.link.step cJSONParse (p.under (blufiCallbacks m s.key))).effects =
      messages s.link.effects ++ [(0x01, data)]) :
    s.receive cJSONParse m p = negotiate m p.world
      { s with link := s.link.step cJSONParse (p.under (blufiCallbacks m s.key)) } data := by
  rw [BlufiLink.effects_step, messages_append, List.append_right_inj] at h
  rw [receive, h, List.flatMap_singleton, negotiations_neg]
  rfl

theorem run_paramLen {s : SecureLink δ κ} {sec : BlufiSecurity δ κ} (hsec : s.security = some sec)
    {hi lo : UInt8} {rest : Bytes} {packets : List SecurePacket}
    (hmemory : ∀ p ∈ packets, p.world.memory = true) {link : BlufiLink}
    (hlink : link = run (BlufiLink.step cJSONParse) s.link
      (packets.map (SecurePacket.under (blufiCallbacks m s.key))))
    (hhanded : messages link.effects =
      messages s.link.effects ++ [(0x01, 0x00 :: hi :: lo :: rest)]) :
    let s' := run (step cJSONParse m) s (packets.map .receive)
    s'.link = link ∧ s'.answers = s.answers ∧ s'.key = s.key ∧
      ∃ sec', s'.security = some sec' ∧ sec'.dhParam = some (hi.toNat * 256 + lo.toNat) ∧
        sec'.dhm = sec.dhm := by
  obtain ⟨calls, hworlds, hdatas, hrun⟩ := run_silent hlink hhanded
    fun message hmem => List.mem_singleton.mp hmem ▸ silent_paramLen hi lo rest
  rw [List.flatMap_singleton, negotiations_neg] at hdatas
  obtain ⟨⟨w, data⟩, rfl, hdata⟩ := List.map_eq_singleton_iff.mp hdatas
  obtain rfl : data = 0x00 :: hi :: lo :: rest := hdata
  obtain ⟨p, hp, rfl⟩ := hworlds (w, _) List.mem_cons_self
  obtain ⟨sec', hsec', hparam, hdhm, haes, hanswers⟩ := negotiate_paramLen (m := m) (hmemory p hp)
    (s := { s with link := link }) hsec hi lo rest
  intro s'
  have hs' : s' = negotiate m p.world { s with link := link } (0x00 :: hi :: lo :: rest) := hrun
  rw [hs']
  refine ⟨rfl, hanswers, ?_, sec', hsec', hparam, hdhm⟩
  rw [key, key, hsec', hsec, Option.map_some, Option.map_some, haes]

end SecureLink

/-- The prime `2 ^ 1024 - 105`, the generator 2 and the public key 2 of the phone. -/
def exchangeParam : Bytes :=
  [0, 128] ++ List.replicate 127 0xFF ++ [0x97] ++ [0, 1, 2] ++ [0, 1, 2]

/-- The private key of the device, when the random bytes make it. -/
def deviceSecret : Bytes := List.replicate 127 0 ++ [3]

/-- The public key of the device, and the secret that both come to. -/
def deviceCube : Bytes := List.replicate 127 0 ++ [8]

def agreedKey : Bytes :=
  [0x05, 0x3B, 0x11, 0x29, 0x65, 0xE7, 0x75, 0xCB, 0x2E, 0x9E, 0x21, 0xB7, 0x41, 0xC1, 0x40, 0x8F]

/-- The cryptography at these values: the two texts are "abc" under the key with the numbers 2
and 0. -/
def tableCrypto : BlufiCrypto Bytes Bytes where
  dhmInit := []
  dhmReadParams _ param := (param == exchangeParam, param)
  dhmGetLen dhm := if dhm = exchangeParam then 128 else 0
  dhmMakePublic dhm _ _ random := (dhm == exchangeParam && random == deviceSecret, dhm, deviceCube)
  dhmCalcSecret dhm _ _ := (dhm == exchangeParam, dhm, deviceCube)
  md5 text := if text = deviceCube then some agreedKey else none
  aesInit := []
  aesSetkeyEnc psk := psk
  aesDecryptCfb128 key iv text :=
    if key = agreedKey ∧ (iv, text) ∈ [(2 :: List.replicate 15 0, [0xE0, 0x38, 0x73]),
        (0 :: List.replicate 15 0, [0x02, 0x49, 0x49])] then some [0x61, 0x62, 0x63]
    else none
  length_decrypt := by
    intro key iv xs ys h
    split at h
    · next hall =>
      obtain ⟨-, hmem⟩ := hall
      obtain rfl := Option.some.inj h
      simp only [List.mem_cons, Prod.mk.injEq, List.not_mem_nil, or_false] at hmem
      rcases hmem with ⟨-, rfl⟩ | ⟨-, rfl⟩ <;> rfl
    · cases h
  espCrc16Be _ _ := 0

def SecurePacket.of (packet : Bytes) : SecurePacket :=
  ⟨⟨true, deviceSecret, deviceSecret ++ deviceSecret⟩, ⟨true, true, true, true⟩, packet⟩

def lenPacket : SecurePacket := .of [0x01, 0x00, 0, 3, 0, 0, 136]

def paramPacket : SecurePacket := .of ([0x01, 0x00, 1, 137, 1] ++ exchangeParam)

def namePacket : SecurePacket := .of [0x09, 0x01, 2, 3, 0xE0, 0x38, 0x73]

/-- The name in the first frame of a connection. -/
def firstName : SecurePacket := .of [0x09, 0x01, 0, 3, 0x02, 0x49, 0x49]

/-- Parameters whose length has not been announced. -/
def unannounced : SecurePacket := .of [0x01, 0x00, 1, 3, 1, 0, 0]

/-- The connection has been made, and the application has heard of it. -/
def secureStart : SecureLink Bytes Bytes :=
  run (SecureLink.step (fun _ => none) tableCrypto) .init [.connect, .securityInit true]

/-- A session whose key has been agreed on before. -/
def secureSession : SecureLink Bytes Bytes :=
  { secureStart with
    security := some { BlufiSecurity.init tableCrypto with aes := agreedKey }
    answers := [deviceCube] }

namespace SecureLink

variable (cJSONParse : Bytes → Option StringItems) (m : BlufiCrypto δ κ)

/-- While no public key is given out, however many negotiations fail and wherever they do, an idle
receiver hands over exactly the messages that the phone sends under the key there is, and the key
stays. -/
theorem session_delivered (s : SecureLink δ κ) (hwork : s.link.faulted = false)
    (hoffset : s.link.env.offset = 0) (hclosed : s.link.env.aggrBuf = none)
    (groups : List (List Received)) (sent : List (UInt8 × Bytes))
    (hcarries : List.Forall₂ Carries groups sent) (hfilled : ∀ group ∈ groups, Filled group)
    (packets : List SecurePacket)
    (hops : Transmits s.link.env.recvSeq groups.flatten
      (packets.map (SecurePacket.under (blufiCallbacks m s.key))))
    (hanswers : (run (step cJSONParse m) s (packets.map .receive)).answers = s.answers) :
    let s' := run (step cJSONParse m) s (packets.map .receive)
    messages s'.link.effects = messages s.link.effects ++ sent ∧ s'.key = s.key ∧
      s'.link.faulted = false ∧ s'.link.env.offset = 0 ∧ s'.link.env.aggrBuf = none := by
  intro s'
  obtain ⟨hlink, hkey⟩ := run_unanswered hanswers
  have hidle := BlufiLink.Collecting.of_idle hwork hoffset hclosed
  obtain ⟨-, hdone⟩ := hidle.groups cJSONParse hcarries hfilled hops rfl
  rw [← hlink] at hdone
  exact ⟨hdone.delivered, hkey, hdone.working, hdone.pending.holding.offset_eq_zero.mpr rfl,
    hdone.closed rfl⟩

/-- The phone encrypts, sends parameters whose length it has not announced, and encrypts again. -/
theorem session_delivered_refused :
    let s' := run (step (fun _ => none) tableCrypto) secureSession
      ([firstName, unannounced, namePacket].map .receive)
    messages s'.link.effects =
        [(0x09, [0x61, 0x62, 0x63]), (0x01, [1, 0, 0]), (0x09, [0x61, 0x62, 0x63])] ∧
      s'.key = some agreedKey ∧ s'.link.faulted = false ∧ s'.link.env.offset = 0 ∧
      s'.link.env.aggrBuf = none := by
  have hfirst : BlufiFrame.of? (blufiCallbacks tableCrypto (some agreedKey)) firstName.packet =
      some ⟨⟨0x09, 0x01, 0, 3, [0x02, 0x49, 0x49]⟩, [0x61, 0x62, 0x63]⟩ := rfl
  have hrefused : BlufiFrame.of? (blufiCallbacks tableCrypto (some agreedKey)) unannounced.packet =
      some ⟨⟨0x01, 0x00, 1, 3, [1, 0, 0]⟩, [1, 0, 0]⟩ := rfl
  have hname : BlufiFrame.of? (blufiCallbacks tableCrypto (some agreedKey)) namePacket.packet =
      some ⟨⟨0x09, 0x01, 2, 3, [0xE0, 0x38, 0x73]⟩, [0x61, 0x62, 0x63]⟩ := rfl
  exact session_delivered (fun _ => none) tableCrypto secureSession rfl rfl rfl [[_], [_], [_]] _
    (.cons (carries_single 0 rfl) (.cons (carries_single 0 rfl) (.cons (carries_single 0 rfl) .nil)))
    (by decide)
    [firstName, unannounced, namePacket]
    (.frame hfirst rfl rfl (.frame hrefused rfl rfl (.frame hname rfl rfl (.nil _))))
    (by decide +kernel)

/-- The phone sends the length of its parameters and the parameters, each in any number of frames,
and the exchange succeeds: the device gives its public key out, once, and from the frame behind the
parameters on it hands over exactly what the phone sends under the key made of them. -/
theorem session_negotiated (s : SecureLink δ κ) {sec : BlufiSecurity δ κ}
    (hsec : s.security = some sec) (hwork : s.link.faulted = false)
    (hoffset : s.link.env.offset = 0) (hclosed : s.link.env.aggrBuf = none)
    {hi lo : UInt8} {rest param : Bytes} (htwo : 2 ≤ param.length)
    (hsize : hi.toNat * 256 + lo.toNat ≤ param.length)
    (lenGroup dataFront : List Received) (last : Received)
    (hlen : Carries lenGroup (0x01, 0x00 :: hi :: lo :: rest))
    (hdata : Carries (dataFront ++ [last]) (0x01, 0x01 :: param))
    (hlenFilled : Filled lenGroup) (hdataFilled : Filled dataFront)
    (front : List SecurePacket) (hmemory : ∀ p ∈ front, p.world.memory = true)
    (hfront : Transmits s.link.env.recvSeq (lenGroup ++ dataFront)
      (front.map (SecurePacket.under (blufiCallbacks m s.key))))
    (p : SecurePacket) (hlast : BlufiFrame.of? (blufiCallbacks m s.key) p.packet = some last.2)
    (hseq : last.2.hdr.seq = s.link.env.recvSeq + UInt8.ofNat (lenGroup ++ dataFront).length)
    {psk publicKey : Bytes} (hmade : m.exchange p.world sec.dhm
      (param.take (hi.toNat * 256 + lo.toNat)) = some (psk, publicKey))
    (groups : List (List Received)) (sent : List (UInt8 × Bytes))
    (hcarries : List.Forall₂ Carries groups sent) (hfilled : ∀ group ∈ groups, Filled group)
    (packets : List SecurePacket)
    (hops : Transmits (last.2.hdr.seq + 1) groups.flatten
      (packets.map (SecurePacket.under (blufiCallbacks m (some (m.aesSetkeyEnc psk))))))
    (hanswers : (run (step cJSONParse m) s ((front ++ p :: packets).map .receive)).answers.length ≤
      s.answers.length + 1) :
    let s' := run (step cJSONParse m) s ((front ++ p :: packets).map .receive)
    messages s'.link.effects = messages s.link.effects ++
        [(0x01, 0x00 :: hi :: lo :: rest), (0x01, 0x01 :: param)] ++ sent ∧
      s'.answers = s.answers ++ [publicKey] ∧ s'.key = some (m.aesSetkeyEnc psk) ∧
      s'.link.faulted = false := by
  -- the receiver up to the last frame of the parameters
  obtain ⟨lenOps, dataOps, seq', hsplit, hlenOps, hdataOps, rfl⟩ := hfront.split
  have hidle := BlufiLink.Collecting.of_idle hwork hoffset hclosed
  have hlenGroups : List.Forall₂ Carries [lenGroup] [(0x01, 0x00 :: hi :: lo :: rest)] :=
    .cons hlen .nil
  obtain ⟨hlenSeq, hlenDone⟩ := hidle.groups cJSONParse hlenGroups
    (by simpa using hlenFilled) (by simpa using hlenOps) rfl
  rw [List.flatten_singleton] at hlenSeq
  obtain ⟨hdataSeq, hcollect⟩ := BlufiLink.Collecting.front cJSONParse hdataOps hlenSeq
    (hlenDone.retag last.1) rfl hdataFilled hdata
  rw [List.nil_append, ← run_append, ← hsplit] at hcollect
  rw [← run_append, ← hsplit, UInt8.add_assoc, ← UInt8.ofNat_add, ← List.length_append, ← hseq]
    at hdataSeq
  -- what the negotiation has made of it
  obtain ⟨hlink, hsame, hkey, sec', hsec', hparam, hdhm⟩ := run_paramLen hsec hmemory rfl
    hcollect.delivered
  generalize hs₁ : run (step cJSONParse m) s (front.map .receive) = s₁ at hlink hsame hkey hsec'
  rw [← hlink] at hcollect hdataSeq
  rw [← hkey] at hlast
  -- the last frame of the parameters
  obtain ⟨hnext, hready⟩ := hcollect.last p.heap hlast hdataSeq.symm hdata 0
  have hhanded : messages (s₁.link.step cJSONParse (p.under (blufiCallbacks m s₁.key))).effects =
      messages s₁.link.effects ++ [(0x01, 0x01 :: param)] := by
    rw [hcollect.delivered]
    exact hready.delivered
  have hreceive := receive_neg hhanded
  obtain ⟨hanswer, hnew⟩ := negotiate_paramData (m := m) (w := p.world)
    (s := { s₁ with link := s₁.link.step cJSONParse (p.under (blufiCallbacks m s₁.key)) }) hsec'
    hparam htwo hsize (hdhm ▸ hmade)
  have hlink₂ : (s₁.receive cJSONParse m p).link =
      s₁.link.step cJSONParse (p.under (blufiCallbacks m s₁.key)) := link_receive s₁ p
  have hrun : run (step cJSONParse m) s ((front ++ p :: packets).map .receive) =
      run (step cJSONParse m) (s₁.receive cJSONParse m p) (packets.map .receive) := by
    rw [List.map_append, run_append, hs₁]
    rfl
  rw [← hreceive] at hanswer hnew
  generalize s₁.receive cJSONParse m p = s₂ at hanswer hnew hlink₂ hrun
  -- the session
  rw [hrun] at hanswers ⊢
  have hanswer₂ : s₂.answers = s.answers ++ [publicKey] := by rw [hanswer, hsame]
  have hunanswered : (run (step cJSONParse m) s₂ (packets.map .receive)).answers = s₂.answers := by
    apply ((answers_run cJSONParse m s₂ packets).eq_of_length_le _).symm
    rw [hanswer₂, List.length_append]
    exact hanswers
  obtain ⟨hlater, hstays⟩ := run_unanswered hunanswered
  rw [hnew] at hlater hstays
  have hready₂ : BlufiLink.Collecting 0 (messages s.link.effects ++
      [(0x01, 0x00 :: hi :: lo :: rest)] ++ [(0x01, 0x01 :: param)]) [] s₂.link := by
    rw [hlink₂]
    exact hready
  have hnext₂ : s₂.link.env.recvSeq = last.2.hdr.seq + 1 := by
    rw [hlink₂, ← hdataSeq]
    exact hnext
  obtain ⟨-, hdone⟩ := hready₂.groups cJSONParse hcarries hfilled hops hnext₂
  rw [← hlater] at hdone
  refine ⟨?_, hunanswered.trans hanswer₂, hstays, hdone.working⟩
  rw [hdone.delivered]
  simp

/-- The parameters in a frame each, and the name of a network under the key. -/
theorem session_negotiated_ssid :
    let s' := run (step (fun _ => none) tableCrypto) secureStart
      (([lenPacket] ++ paramPacket :: [namePacket]).map .receive)
    messages s'.link.effects =
        [(0x01, [0, 0, 136]), (0x01, 0x01 :: exchangeParam), (0x09, [0x61, 0x62, 0x63])] ∧
      s'.answers = [deviceCube] ∧ s'.key = some agreedKey ∧ s'.link.faulted = false := by
  have hlen : Carries [(0, ⟨⟨0x01, 0x00, 0, 3, [0, 0, 136]⟩, [0, 0, 136]⟩)]
      (0x01, 0x00 :: 0 :: 136 :: []) := carries_single 0 rfl
  have hdata : Carries ([] ++ [(0, ⟨⟨0x01, 0x00, 1, 137, 1 :: exchangeParam⟩, 1 :: exchangeParam⟩)])
      (0x01, 0x01 :: exchangeParam) := by
    refine ⟨[], _, rfl, by simp, rfl, by decide +kernel, by simp⟩
  have hname : Carries [(0, ⟨⟨0x09, 0x01, 2, 3, [0xE0, 0x38, 0x73]⟩, [0x61, 0x62, 0x63]⟩)]
      (0x09, [0x61, 0x62, 0x63]) := carries_single 0 rfl
  have hlenFrame : BlufiFrame.of? (blufiCallbacks tableCrypto secureStart.key) lenPacket.packet =
      some ⟨⟨0x01, 0x00, 0, 3, [0, 0, 136]⟩, [0, 0, 136]⟩ := rfl
  have hparamFrame : BlufiFrame.of? (blufiCallbacks tableCrypto secureStart.key) paramPacket.packet =
      some ⟨⟨0x01, 0x00, 1, 137, 1 :: exchangeParam⟩, 1 :: exchangeParam⟩ := by
    have hjson : isJsonData paramPacket.packet = false := by decide +kernel
    have hlength : (1 :: exchangeParam).length = 137 := by decide +kernel
    have hpacket : BlufiPacket.ofBytes paramPacket.packet =
        if isJsonData paramPacket.packet then .json
        else if (1 :: exchangeParam).length ≠ 137 then .badLength
        else .framed ⟨0x01, 0x00, 1, 137, 1 :: exchangeParam⟩ := rfl
    rw [hjson, hlength] at hpacket
    rw [BlufiFrame.of?, hpacket]
    rfl
  have hnameFrame : BlufiFrame.of? (blufiCallbacks tableCrypto (some agreedKey)) namePacket.packet =
      some ⟨⟨0x09, 0x01, 2, 3, [0xE0, 0x38, 0x73]⟩, [0x61, 0x62, 0x63]⟩ := rfl
  have hmade : tableCrypto.exchange paramPacket.world tableCrypto.dhmInit (exchangeParam.take 136) =
      some (agreedKey, deviceCube) := by decide +kernel
  have hanswers : (run (step (fun _ => none) tableCrypto) secureStart
      (([lenPacket] ++ paramPacket :: [namePacket]).map .receive)).answers.length ≤ 1 := by
    decide +kernel
  exact session_negotiated (fun _ => none) tableCrypto secureStart rfl rfl rfl rfl
    (by decide +kernel) (by decide +kernel) _ [] _ hlen hdata (by decide) (by decide) [lenPacket]
    (by simp [lenPacket, SecurePacket.of]) (.frame hlenFrame rfl rfl (.nil _)) paramPacket
    hparamFrame rfl hmade [_] _ (.cons hname .nil) (by decide) [namePacket]
    (.frame hnameFrame rfl rfl (.nil _)) hanswers

end SecureLink

end Leyu
