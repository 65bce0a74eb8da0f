import Leyu.Blufi.Delivery
import Leyu.Blufi.Protocol
import Leyu.Framework.Outputs

/-!
# From the phone to the station

`example_event_callback`, which fills the configuration of the station and of the access point and
has the device connect. The credentials reach it in three messages of any number of frames, or in
one packet of JSON; both ways have the device connect with the same configuration.
-/

namespace Leyu

open Framework

/-- What `example_event_callback` sets of `sta_config.sta`. -/
structure StaConfig where
  ssid : Bytes
  password : Bytes
  bssid : Bytes
  bssidSet : Bool
  /-- `threshold.authmode` has been set to the one of the build. -/
  thresholdSet : Bool
  deriving DecidableEq, Repr

/-- What `example_event_callback` sets of `ap_config.ap`. -/
structure ApConfig where
  ssid : Bytes
  ssidLen : Nat
  password : Bytes
  maxConnection : UInt8
  authmode : UInt8
  channel : UInt8
  deriving DecidableEq, Repr

inductive AppCall
  | advStart
  | advStop
  | securityInit
  | securityDeinit
  | setMode (opMode : UInt8)
  | setStaConfig (config : StaConfig)
  | setApConfig (config : ApConfig)
  | wifiDisconnect
  /-- `example_wifi_connect`, with the configuration as it is then. -/
  | wifiConnect (config : StaConfig)
  | scanStart
  | sendErrorInfo (state : BlufiError)
  deriving DecidableEq, Repr

structure BlufiApp where
  staConfig : StaConfig
  apConfig : ApConfig
  bleIsConnected : Bool
  calls : List AppCall

/-- `strncpy(dst, src, n); dst[n] = 0` with all of the source, for a destination that has room. -/
def strncpyTerminated (dst src : Bytes) : Bytes :=
  let text := src.takeWhile (· ≠ 0)
  text ++ List.replicate (src.length - text.length) 0 ++ 0 :: dst.drop (src.length + 1)

/-- A field read as a C string. -/
def cText (field : Bytes) : Bytes := field.takeWhile (· ≠ 0)

namespace BlufiApp

def call (app : BlufiApp) (calls : List AppCall) : BlufiApp :=
  { app with calls := app.calls ++ calls }

def setSta (app : BlufiApp) (config : StaConfig) : BlufiApp :=
  { app with staConfig := config }.call [.setStaConfig config]

def setAp (app : BlufiApp) (config : ApConfig) : BlufiApp :=
  { app with apConfig := config }.call [.setApConfig config]

/-- `example_event_callback`; `authMax` is `WIFI_AUTH_MAX`. Reporting the state of the connection
and showing the data of the application are left out. -/
def exampleEventCallback (authMax : UInt8) (app : BlufiApp) : BlufiEvent → BlufiApp
  | .bleConnect => { app with bleIsConnected := true }.call [.advStop, .securityInit]
  | .bleDisconnect => { app with bleIsConnected := false }.call [.securityDeinit, .advStart]
  | .setWifiOpmode opMode => app.call [.setMode opMode]
  | .reqConnectToAp => app.call [.wifiDisconnect, .wifiConnect app.staConfig]
  | .reqDisconnectFromAp => app.call [.wifiDisconnect]
  | .reportError state => app.call [.sendErrorInfo state]
  | .recvStaBssid bssid => app.setSta { app.staConfig with bssid := bssid, bssidSet := true }
  | .recvStaSsid ssid =>
      if app.staConfig.ssid.length ≤ ssid.length then app.call [.sendErrorInfo .dataFormat]
      else app.setSta { app.staConfig with ssid := strncpyTerminated app.staConfig.ssid ssid }
  | .recvStaPasswd passwd =>
      if app.staConfig.password.length ≤ passwd.length then app.call [.sendErrorInfo .dataFormat]
      else
        app.setSta { app.staConfig with
          password := strncpyTerminated app.staConfig.password passwd
          thresholdSet := true }
  | .recvSoftapSsid ssid =>
      if app.apConfig.ssid.length ≤ ssid.length then app.call [.sendErrorInfo .dataFormat]
      else
        app.setAp { app.apConfig with
          ssid := strncpyTerminated app.apConfig.ssid ssid
          ssidLen := ssid.length }
  | .recvSoftapPasswd passwd =>
      if app.apConfig.password.length ≤ passwd.length then app.call [.sendErrorInfo .dataFormat]
      else app.setAp { app.apConfig with password := strncpyTerminated app.apConfig.password passwd }
  | .recvSoftapMaxConnNum n =>
      if 4 < n then app else app.setAp { app.apConfig with maxConnection := n }
  | .recvSoftapAuthMode authmode =>
      if authMax ≤ authmode then app else app.setAp { app.apConfig with authmode := authmode }
  | .recvSoftapChannel channel =>
      if 13 < channel then app else app.setAp { app.apConfig with channel := channel }
  | .getWifiList => app.call [.scanStart]
  | _ => app

def handleAll (authMax : UInt8) (app : BlufiApp) (events : List BlufiEvent) : BlufiApp :=
  events.foldl (exampleEventCallback authMax) app

def attempts (app : BlufiApp) : List StaConfig :=
  app.calls.filterMap fun
    | .wifiConnect config => some config
    | _ => none

/-- The arrays have the lengths of the structures they stand in. -/
structure WellSized (app : BlufiApp) : Prop where
  staSsid : app.staConfig.ssid.length = 32
  staPassword : app.staConfig.password.length = 64
  apSsid : app.apConfig.ssid.length = 32
  apPassword : app.apConfig.password.length = 64

/-- What of an event matters for the configuration and for connecting. -/
def stationStep (s : StaConfig × List StaConfig) : BlufiEvent → StaConfig × List StaConfig
  | .reqConnectToAp => (s.1, s.2 ++ [s.1])
  | .recvStaBssid bssid => ({ s.1 with bssid := bssid, bssidSet := true }, s.2)
  | .recvStaSsid ssid =>
      if s.1.ssid.length ≤ ssid.length then s
      else ({ s.1 with ssid := strncpyTerminated s.1.ssid ssid }, s.2)
  | .recvStaPasswd passwd =>
      if s.1.password.length ≤ passwd.length then s
      else
        ({ s.1 with password := strncpyTerminated s.1.password passwd, thresholdSet := true }, s.2)
  | _ => s

def station (app : BlufiApp) : StaConfig × List StaConfig := (app.staConfig, attempts app)

private theorem station_callback (authMax : UInt8) (app : BlufiApp) (event : BlufiEvent) :
    station (exampleEventCallback authMax app event) = stationStep (station app) event := by
  -- unfolded whole: one equation for each event is more than simp can make
  unfold exampleEventCallback stationStep
  cases event with
  | reqConnectToAp => simp [station, attempts, call]
  | recvStaBssid bssid => simp [station, attempts, call, setSta]
  | recvStaSsid ssid | recvStaPasswd passwd =>
    dsimp only [station]
    split
    · next hlong => simp [attempts, call, hlong]
    · next hlong => simp [attempts, call, setSta, hlong]
  | recvSoftapSsid ssid | recvSoftapPasswd passwd | recvSoftapMaxConnNum n
  | recvSoftapAuthMode n | recvSoftapChannel n =>
    dsimp only
    split <;> simp [station, attempts, call, setAp]
  | _ => simp [station, attempts, call]

private theorem station_handleAll (authMax : UInt8) (app : BlufiApp) (events : List BlufiEvent) :
    station (handleAll authMax app events) = events.foldl stationStep (station app) := by
  induction events generalizing app with
  | nil => rfl
  | cons event events ih => rw [handleAll, List.foldl_cons, List.foldl_cons,
      ← station_callback authMax app event, ← ih]; rfl

private theorem cText_strncpyTerminated (dst : Bytes) {src : Bytes} (h : 0 ∉ src) :
    cText (strncpyTerminated dst src) = src := by
  have hne (x : UInt8) (hx : x ∈ src) : decide (x ≠ 0) = true :=
    decide_eq_true fun hzero => h (hzero ▸ hx)
  have hall : src.takeWhile (· ≠ 0) = src := List.takeWhile_eq_self_iff.mpr hne
  rw [strncpyTerminated, hall, cText, Nat.sub_self, List.replicate_zero, List.append_nil,
    List.takeWhile_append_of_pos hne]
  simp

def isRequest : BlufiEvent → Bool
  | .reportError _ => false
  | _ => true

private theorem foldl_requests (s : StaConfig × List StaConfig) (events : List BlufiEvent) :
    (events.filter isRequest).foldl stationStep s = events.foldl stationStep s := by
  induction events generalizing s with
  | nil => rfl
  | cons event events ih =>
    cases event with
    | reportError state => exact ih s
    | _ => exact ih _

end BlufiApp

namespace BlufiLink

open BlufiApp BlufiEnv

def emitted (cJSONParse : Bytes → Option StringItems) (s : BlufiLink) (op : BlufiOp) :
    List BlufiEffect :=
  if s.faulted then [] else (outcome cJSONParse s.env op).effects

theorem run_effects (cJSONParse : Bytes → Option StringItems) (s : BlufiLink) (ops : List BlufiOp) :
    (run (step cJSONParse) s ops).effects =
      s.effects ++ outputs (step cJSONParse) (emitted cJSONParse) s ops := by
  have hstep (s : BlufiLink) (op : BlufiOp) (_ : True) (_ : True) :
      (step cJSONParse s op).effects = s.effects ++ emitted cJSONParse s op ∧ True := by
    simp only [BlufiLink.step, emitted]
    split <;> simp
  exact (log_eq_outputs BlufiLink.effects hstep trivial fun _ _ => trivial).1

def OnlyErrors (effects : List BlufiEffect) : Prop :=
  ∀ event, .post event ∈ effects → isRequest event = false

private theorem OnlyErrors.append {effects effects' : List BlufiEffect} (h : OnlyErrors effects)
    (h' : OnlyErrors effects') : OnlyErrors (effects ++ effects') := fun event hevent =>
  (List.mem_append.mp hevent).elim (h event) (h' event)

private theorem OnlyErrors.requests {effects : List BlufiEffect} (h : OnlyErrors effects) :
    (appEvents effects).filter isRequest =
      ((messages effects).flatMap protocolEvents).filter isRequest := by
  induction effects with
  | nil => rfl
  | cons effect effects ih =>
    have hrest := ih fun event hevent => h event (List.mem_cons_of_mem effect hevent)
    cases effect with
    | post event =>
      have herror := h event List.mem_cons_self
      rw [messages_post, ← hrest]
      simp [appEvents, herror]
    | handle type data =>
      rw [messages_handle, List.flatMap_cons, List.filter_append, ← hrest, ← List.filter_append]
      rfl
    | _ => exact hrest

private theorem onlyErrors_reportError (env : BlufiEnv) (state : BlufiError) :
    OnlyErrors (env.reportError state).effects := by
  intro event hevent
  obtain rfl : event = .reportError state := by simpa [reportError] using hevent
  rfl

private theorem onlyErrors_of_silent {effects : List BlufiEffect}
    (h : ∀ event, .post event ∉ effects) : OnlyErrors effects := fun event hevent =>
  absurd hevent (h event)

private theorem onlyErrors_copyFragment (env : BlufiEnv) (dataLen : UInt8) (data : Bytes) :
    OnlyErrors (env.copyFragment dataLen data).effects := by
  simp only [copyFragment]
  split
  · split
    · split <;> exact onlyErrors_of_silent (by simp [violation])
    · exact onlyErrors_of_silent (by simp [violation])
  · exact onlyErrors_reportError env .dataFormat

private theorem onlyErrors_fragment (heap : BlufiHeap) (env : BlufiEnv) (dataLen : UInt8)
    (data : Bytes) :
    OnlyErrors (env.fragment heap dataLen data).effects := by
  simp only [BlufiEnv.fragment]
  split
  · split
    · exact onlyErrors_reportError env .msgState
    · split
      · exact onlyErrors_of_silent (by simp [violation])
      · split
        · have hmalloc : OnlyErrors [.malloc .aggrBuf] := onlyErrors_of_silent (by simp)
          exact hmalloc.append (onlyErrors_copyFragment _ dataLen data)
        · exact onlyErrors_reportError _ .dhMalloc
  · exact onlyErrors_copyFragment env dataLen data

private theorem onlyErrors_complete (env : BlufiEnv) (type dataLen : UInt8) (data : Bytes) :
    OnlyErrors (env.complete type dataLen data).effects := by
  simp only [BlufiEnv.complete]
  split
  · exact onlyErrors_of_silent (by simp)
  · split
    · exact onlyErrors_reportError env .dhMalloc
    · split
      · exact onlyErrors_reportError env .dataFormat
      · split
        · exact onlyErrors_of_silent (by simp [violation])
        · split <;> exact onlyErrors_of_silent (by simp [violation])

private theorem onlyErrors_recvHandler (cJSONParse : Bytes → Option StringItems)
    (cbs : BlufiCallbacks) (heap : BlufiHeap) (env : BlufiEnv) {packet : Bytes}
    (hpacket : BlufiPacket.ofBytes packet ≠ .json) :
    OnlyErrors (env.recvHandler cJSONParse cbs heap packet).effects := by
  simp only [recvHandler]
  split
  · exact onlyErrors_reportError env .dataFormat
  · next hjson => exact absurd hjson hpacket
  · exact onlyErrors_reportError env .dataFormat
  · next hdr _ =>
    split
    · exact onlyErrors_reportError env .sequence
    · simp only [acceptFrame]
      split
      · exact onlyErrors_reportError _ _
      · refine OnlyErrors.append ?_ ?_
        · split <;> exact onlyErrors_of_silent (by simp)
        · split
          · exact onlyErrors_fragment heap _ _ _
          · exact onlyErrors_complete _ _ _ _

/-- A packet that is not taken for JSON. -/
def Plain : BlufiOp → Prop
  | .receive _ _ packet => BlufiPacket.ofBytes packet ≠ .json
  | _ => False

private theorem onlyErrors_outputs (cJSONParse : Bytes → Option StringItems) (s : BlufiLink)
    {ops : List BlufiOp} (hops : ∀ op ∈ ops, Plain op) :
    OnlyErrors (outputs (step cJSONParse) (emitted cJSONParse) s ops) := by
  induction ops generalizing s with
  | nil => exact onlyErrors_of_silent (by simp)
  | cons op ops ih =>
    refine OnlyErrors.append ?_ (ih _ fun op' hop' => hops op' (List.mem_cons_of_mem op hop'))
    have hplain := hops op List.mem_cons_self
    simp only [emitted]
    split
    · exact onlyErrors_of_silent (by simp)
    · cases op with
      | receive cbs heap packet => exact onlyErrors_recvHandler cJSONParse cbs heap s.env hplain
      | _ => exact absurd hplain id

/-- The configuration the two messages leave behind. -/
def configured (config : StaConfig) (ssid passwd : Bytes) : StaConfig :=
  { config with
    ssid := strncpyTerminated config.ssid ssid
    password := strncpyTerminated config.password passwd
    thresholdSet := true }

private theorem station_credentials {s : StaConfig × List StaConfig} {ssid passwd : Bytes}
    (hssid : ssid.length < s.1.ssid.length) (hpasswd : passwd.length < s.1.password.length) :
    [BlufiEvent.recvStaSsid ssid, .recvStaPasswd passwd, .reqConnectToAp].foldl stationStep s =
      (configured s.1 ssid passwd, s.2 ++ [configured s.1 ssid passwd]) := by
  simp [stationStep, configured, Nat.not_le.mpr hssid, Nat.not_le.mpr hpasswd]

/-- The three messages that name a network, give its password and have the device connect. -/
def credentialMessages (ssid passwd data : Bytes) : List (UInt8 × Bytes) :=
  [(buildType 0x1 0x02, ssid), (buildType 0x1 0x03, passwd), (buildType 0x0 0x03, data)]

private theorem requests_credentialMessages (ssid passwd data : Bytes) :
    ((credentialMessages ssid passwd data).flatMap protocolEvents).filter isRequest =
      [.recvStaSsid ssid, .recvStaPasswd passwd, .reqConnectToAp] := by
  have hssid : getType (buildType 0x1 0x02) = 0x1 ∧ getSubtype (buildType 0x1 0x02) = 0x02 := by
    decide
  have hpasswd : getType (buildType 0x1 0x03) = 0x1 ∧ getSubtype (buildType 0x1 0x03) = 0x03 := by
    decide
  have hconnect : getType (buildType 0x0 0x03) = 0x0 ∧ getSubtype (buildType 0x0 0x03) = 0x03 := by
    decide
  simp [credentialMessages, protocolEvents, protocolHandler, Protocol.ctrl, Protocol.data,
    Protocol.posts, hssid, hpasswd, hconnect, isRequest]

/-- Credentials in any number of frames and the same credentials in one packet of JSON: each way
the device is told once to connect, with the same configuration, and its name and password read
as C strings are the ones that were sent. -/
theorem provisioning_paths_agree (cJSONParse : Bytes → Option StringItems) (authMax : UInt8)
    (app : BlufiApp) (hsized : WellSized app) (s : BlufiLink) (hwork : s.faulted = false)
    (hoffset : s.env.offset = 0) (hclosed : s.env.aggrBuf = none) (ssid passwd data : Bytes)
    (hssid : ssid.length < 32 ∧ 0 ∉ ssid) (hpasswd : passwd.length < 64 ∧ 0 ∉ passwd)
    (groups : List (List Received))
    (hcarries : List.Forall₂ Carries groups (credentialMessages ssid passwd data))
    (hfilled : ∀ group ∈ groups, Filled group) (ops : List BlufiOp)
    (hops : Transmits s.env.recvSeq groups.flatten ops) (hplain : ∀ op ∈ ops, Plain op)
    (cbs : BlufiCallbacks) (packet : Bytes) (hpacket : BlufiPacket.ofBytes packet = .json)
    (item : StringItems) (hparse : cJSONParse (packet.takeWhile (· ≠ 0)) = some item)
    (hlist : item "getwifilist".toList ≠ some [0x31]) (hitem : item "ssid".toList = some ssid)
    (hitem' : item "password".toList = some passwd) :
    let viaFrames := outputs (step cJSONParse) (emitted cJSONParse) s ops
    let viaJson := emitted cJSONParse s (.receive cbs ⟨true, true, true, true⟩ packet)
    ∃ config, cText config.ssid = ssid ∧ cText config.password = passwd ∧
      station (handleAll authMax app (appEvents viaFrames)) = (config, attempts app ++ [config]) ∧
      station (handleAll authMax app (appEvents viaJson)) = (config, attempts app ++ [config]) := by
  have hcredentials := station_credentials (s := station app)
    (hssid.1.trans_eq hsized.staSsid.symm) (hpasswd.1.trans_eq hsized.staPassword.symm)
  refine ⟨configured app.staConfig ssid passwd, cText_strncpyTerminated _ hssid.2,
    cText_strncpyTerminated _ hpasswd.2, ?_, ?_⟩
  · have hidle := Collecting.of_idle hwork hoffset hclosed
    obtain ⟨-, hdone⟩ := hidle.groups cJSONParse hcarries hfilled hops rfl
    have hdelivered := hdone.delivered
    rw [run_effects, messages_append, List.append_cancel_left_eq] at hdelivered
    have hrequests := (onlyErrors_outputs cJSONParse s hplain).requests
    rw [hdelivered] at hrequests
    rw [station_handleAll, ← foldl_requests, hrequests, requests_credentialMessages]
    exact hcredentials
  · rw [station_handleAll]
    simp only [emitted, hwork, outcome, recvHandler, hpacket, jsonEffects, hparse, jsonRequest,
      hlist, hitem, hitem']
    exact hcredentials

theorem provisioning_paths_agree_home :
    let app : BlufiApp :=
      ⟨⟨List.replicate 32 0, List.replicate 64 0, [], false, false⟩,
        ⟨List.replicate 32 0, 0, List.replicate 64 0, 0, 0, 0⟩, false, []⟩
    let item : StringItems := fun name =>
      if name = "ssid".toList then some [0x61, 0x62, 0x63]
      else if name = "password".toList then some [0x70] else none
    let heap : BlufiHeap := ⟨true, true, true, true⟩
    let s' := outputs (step fun _ => some item) (emitted fun _ => some item) init
      [.receive .none heap [0x09, 0x10, 0, 4, 3, 0, 0x61, 0x62],
        .receive .none heap [0x09, 0x00, 1, 1, 0x63], .receive .none heap [0x0D, 0x00, 2, 1, 0x70],
        .receive .none heap [0x0C, 0x00, 3, 0]]
    ∃ config, cText config.ssid = [0x61, 0x62, 0x63] ∧ cText config.password = [0x70] ∧
      station (handleAll 9 app (appEvents s')) = (config, [config]) := by
  intro app item heap s'
  have hsized : WellSized app := ⟨rfl, rfl, rfl, rfl⟩
  let f₀ : BlufiFrame := ⟨⟨0x09, 0x10, 0, 4, [3, 0, 0x61, 0x62]⟩, [3, 0, 0x61, 0x62]⟩
  let f₁ : BlufiFrame := ⟨⟨0x09, 0x00, 1, 1, [0x63]⟩, [0x63]⟩
  let f₂ : BlufiFrame := ⟨⟨0x0D, 0x00, 2, 1, [0x70]⟩, [0x70]⟩
  let f₃ : BlufiFrame := ⟨⟨0x0C, 0x00, 3, 0, []⟩, []⟩
  have hops : Transmits init.env.recvSeq [[(0, f₀), (0, f₁)], [(0, f₂)], [(0, f₃)]].flatten
      [.receive .none heap [0x09, 0x10, 0, 4, 3, 0, 0x61, 0x62],
        .receive .none heap [0x09, 0x00, 1, 1, 0x63], .receive .none heap [0x0D, 0x00, 2, 1, 0x70],
        .receive .none heap [0x0C, 0x00, 3, 0]] :=
    .frame (r := (0, f₀)) rfl rfl rfl (.frame (r := (0, f₁)) rfl rfl rfl
      (.frame (r := (0, f₂)) rfl rfl rfl (.frame (r := (0, f₃)) rfl rfl rfl (.nil _))))
  have htypes : credentialMessages [0x61, 0x62, 0x63] [0x70] [] =
      [(0x09, [0x61, 0x62, 0x63]), (0x0D, [0x70]), (0x0C, [])] := by decide
  have hgroups : List.Forall₂ Carries [[(0, f₀), (0, f₁)], [(0, f₂)], [(0, f₃)]]
      (credentialMessages [0x61, 0x62, 0x63] [0x70] []) := by
    rw [htypes]
    refine .cons ⟨[(0, f₀)], (0, f₁), rfl, ?_, by decide, by decide, ?_⟩
      (.cons ⟨[], (0, f₂), rfl, ?_, by decide, by decide, ?_⟩
        (.cons ⟨[], (0, f₃), rfl, ?_, by decide, by decide, ?_⟩ .nil))
    · intro r hr
      obtain rfl := List.mem_singleton.mp hr
      decide
    · rintro first ⟨rfl⟩
      decide
    all_goals simp
  have hfilled : ∀ group ∈ [[(0, f₀), (0, f₁)], [(0, f₂)], [(0, f₃)]], Filled group := by
    decide
  have hplain : ∀ op ∈ [BlufiOp.receive .none heap [0x09, 0x10, 0, 4, 3, 0, 0x61, 0x62],
      .receive .none heap [0x09, 0x00, 1, 1, 0x63], .receive .none heap [0x0D, 0x00, 2, 1, 0x70],
      .receive .none heap [0x0C, 0x00, 3, 0]], Plain op := by
    intro op hop
    simp only [List.mem_cons, List.not_mem_nil, or_false] at hop
    rcases hop with rfl | rfl | rfl | rfl <;> exact BlufiPacket.noConfusion
  have hjson : BlufiPacket.ofBytes [0x7B, 0x22, 0x61, 0x22, 0x7D, 0x0A] = .json := rfl
  obtain ⟨config, hssid, hpasswd, hframes, -⟩ :=
    provisioning_paths_agree (fun _ => some item) 9 app hsized init rfl rfl rfl
      [0x61, 0x62, 0x63] [0x70] [] (by decide) (by decide) _ hgroups hfilled _ hops hplain
      .none _ hjson item rfl (by decide) (by decide) (by decide)
  exact ⟨config, hssid, hpasswd, hframes⟩

end BlufiLink

end Leyu
