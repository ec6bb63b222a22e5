import PiAudioNode.Nmos.Untouched
import PiAudioNode.Nmos.ReceiverActive

/-! Whether a PATCH that is answered with an error leaves everything as it was. -/
namespace PiAudioNode.Nmos
open Lib Lib.Json Lib.Act Rtp

/-- Everything a PATCH can change but the version of the resources. -/
structure Unchanged (s s' : Node) : Prop where
  config : s'.config = s.config
  sender : s'.sender = s.sender
  receiver : s'.receiver = s.receiver
  api : s'.api = s.api

/-- A PATCH that is answered with 400 has changed nothing. -/
def AtomicAt (s : Node) (e : Served) : Prop :=
  ∀ endpoint body, e.request = .patch endpoint body → status ((serve e).exec s).1 = 400 → Unchanged s (step s e)

/-- What a 32-bit integer is read from. -/
def isInt (js : Json) : Bool := js.isNumber || js.isBoolean

namespace SenderParam

/-- The values an activation takes over into the configuration. -/
def takes : SenderParam → Json → Bool
  | .primary => isString
  | .secondary => isString
  | .port => isNumber
  | .leg1 => isBoolean
  | .leg2 => isBoolean

/-- The values the sender can be set up with. -/
def reads : SenderParam → Json → Bool
  | .port => isInt
  | p => p.takes

/-- The second leg is read only where there is an interface for it. -/
def UsedIn (c : Config) : SenderParam → Prop
  | .secondary => 1 < (interfaces c).length
  | .leg2 => 1 < (interfaces c).length
  | _ => True

/-- The part of an activation that is about one parameter. -/
def apply (params : List Members) : SenderParam → NodeAct Unit
  | .primary => applyDestination params 0
  | .secondary => applyDestination params 1
  | .port => applyPort params
  | .leg1 => applyLeg params 0
  | .leg2 => applyLeg params 1

/-- All parameters, in the order an activation goes through them. -/
def order : List SenderParam := [.primary, .secondary, .port, .leg1, .leg2]

theorem mem_order (p : SenderParam) : p ∈ order := by
  cases p <;> decide

end SenderParam

def Overrides (params : List Members) (p : SenderParam) : Prop :=
  ∃ js, param params p.index p.key = some js ∧ p.takes js

/-- The sender part of the configuration, if it is an object or missing. -/
def senderMembers (c : Config) : Option Members :=
  match c.json.at? "sender" with
  | .ok .null => some []
  | .ok (.obj fields) => some fields
  | _ => none

/-- What the sender reads from the configuration has the types it is read as, where
it is not about to be overwritten. -/
structure Readable (sys : System) (c : Config) (members : Members) (pending : SenderParam → Prop) : Prop where
  settings : ∀ p : SenderParam, p.UsedIn c → pending p ∨ ∀ js, findKey p.setting members = some js → p.reads js
  payloadType : ∀ js, findKey "payload_type" members = some js → isInt js
  packetTime : ∀ js, findKey "packet_time_us" members = some js → isInt js
  source : ∃ pSource, Audio.createFromConfig sys.bReadable (.obj members) sys.sFilesDir = .ok pSource

/-- The configuration can be written, and read back if the sender is to run. -/
def Accepts (sys : System) (c : Config) (bEnable : Bool) (pending : SenderParam → Prop) : Prop :=
  ∃ members, senderMembers c = some members ∧ (bEnable → Readable sys c members pending)

/-- The configuration has its members in order, and a sender part no setting can be written to. -/
def Blocked (c : Config) : Prop :=
  ∃ fields js, c.json = .obj fields ∧ fields.Pairwise (·.1 < ·.1) ∧ findKey "sender" fields = some js ∧
    js ≠ .null ∧ ∀ members, js ≠ .obj members

/-- What stops an activation of the sender before anything is written. -/
def Refuses (c : Config) (staged : SenderDoc) : Prop :=
  ¬ staged.masterEnable.isBoolean ∨ Blocked c ∧ ∃ p, Overrides staged.transportParams p

/-- The activation of the sender is refused at once, with nothing staged anew, or it succeeds. -/
def ToleratesSender (sys : System) (s : Node) (jsPatch : Json) : Prop :=
  match activates jsPatch with
  | .error _ => stageSender jsPatch s = s
  | .ok false => True
  | .ok true =>
    let staged := s.api.senderStaged.stage jsPatch
    Refuses s.config staged ∧ stageSender jsPatch s = s ∨
      ∃ bEnable, staged.masterEnable = .bool bEnable ∧ Accepts sys s.config bEnable (Overrides staged.transportParams)

/-- A parameter set that a session can be built from. -/
structure ManualReadable (members : Members) : Prop where
  switch : ∀ js, findKey "rtp_enabled" members = some js → js.isBoolean
  port : findKey "rtp_enabled" members ≠ some (.bool false) →
    ∀ sMulticast, findKey "multicast_ip" members = some (.str sMulticast) →
      ∀ js, findKey "destination_port" members = some js → isInt js

/-- The activation of the receiver is refused at once, with nothing staged anew, or it succeeds. -/
def ToleratesReceiver (s : Node) (jsPatch : Json) : Prop :=
  match activates jsPatch with
  | .error _ => stageReceiver jsPatch s = s
  | .ok false => True
  | .ok true =>
    let staged := s.api.receiverStaged.stage jsPatch
    ¬ staged.masterEnable.isBoolean ∧ stageReceiver jsPatch s = s ∨
      ∃ bEnable, staged.masterEnable = .bool bEnable ∧
        (∀ members ∈ staged.transportParams, ∀ js, findKey "interface_ip" members = some js → js.isString) ∧
        (bEnable → (∀ sSdp, findKey "data" staged.transportFile ≠ some (.str sSdp)) →
          ∀ members ∈ staged.transportParams, ManualReadable members)

def Served.Tolerated (e : Served) (s : Node) : Prop :=
  match e.request with
  | .patch .sender (.ok jsPatch) => ToleratesSender e.sys s jsPatch
  | .patch .receiver (.ok jsPatch) => ToleratesReceiver s jsPatch
  | _ => True

section Reads
variable {α : Type} {js : Json} {members : Members} {sKey : String}

theorem getString_ok (h : js.isString) : ∃ s, js.getString = .ok s := by
  cases js <;> first | exact ⟨_, rfl⟩ | cases h

theorem getBool_ok (h : js.isBoolean) : ∃ b, js.getBool = .ok b := by
  cases js <;> first | exact ⟨_, rfl⟩ | cases h

theorem getInt_ok (h : isInt js) : ∃ n, js.getInt = .ok n := by
  cases js <;> first | exact ⟨_, rfl⟩ | cases h

theorem value_ok {get : Json → Except JsonError α} (h : ∀ js, findKey sKey members = some js → ∃ a, get js = .ok a)
    (default : α) : ∃ a, (Json.obj members).value get sKey default = .ok a := by
  rw [value]
  cases hfind : findKey sKey members with
  | none => exact ⟨default, rfl⟩
  | some js => exact h js hfind

end Reads

section Writes
variable {c : Config} {members : Members} {sPath sName : String}

/-- A write below a sender part that is an object or missing succeeds. -/
theorem setValue_members (h : senderMembers c = some members) (hpath : Config.pointer sPath = .ok ["sender", sName])
    (hname : IsName sName) (v : Json) : (c.setValue sPath v).1 = .ok () ∧
      (c.setValue sPath v).2.json.at? "sender" = .ok (.obj (setKey sName v members)) := by
  obtain ⟨fields, hroot, hchild⟩ : ∃ fields, (c.json = .obj fields ∨ c.json = .null ∧ fields = []) ∧
      (findKey "sender" fields = some (.obj members) ∨
        members = [] ∧ (findKey "sender" fields).getD .null = .null) := by
    rw [senderMembers] at h
    cases hjson : c.json with
    | null =>
      rw [hjson] at h
      exact ⟨[], Or.inr ⟨rfl, rfl⟩, Or.inr ⟨(Option.some.inj h).symm, rfl⟩⟩
    | obj fields =>
      rw [hjson] at h
      refine ⟨fields, Or.inl rfl, ?_⟩
      cases hfind : findKey "sender" fields with
      | none => simp_all [at?]
      | some child => cases child <;> simp_all [at?]
    | _ => simp [hjson, at?] at h
  have hbelow : assign v [sName] ((findKey "sender" fields).getD .null) = (.ok (), .obj (setKey sName v members)) := by
    rcases hchild with hfind | ⟨rfl, hnull⟩
    · rw [hfind, Option.getD_some, assign]
      rfl
    · rw [hnull, assign, hname.container_null]
      rfl
  have hassign : assign v ["sender", sName] c.json =
      (.ok (), .obj (setKey "sender" (.obj (setKey sName v members)) fields)) := by
    rcases hroot with hroot | ⟨hroot, rfl⟩
    · rw [hroot, assign_obj, hbelow]
    · rw [hroot, isName_sender.assign_null, assign_obj, hbelow]
  have hwrite : c.write sPath v =
      (.ok (), { c with json := .obj (setKey "sender" (.obj (setKey sName v members)) fields) }) := by
    simp only [Config.write, hpath, hassign]
  rw [Config.setValue, hwrite]
  exact ⟨rfl, by simp only [Config.save, at?, findKey_setKey_self, Option.getD_some]⟩

theorem interfaces_setValue (hpath : Config.pointer sPath = .ok ["sender", sName]) (v : Json) (c : Config) :
    interfaces (c.setValue sPath v).2 = interfaces c := by
  have hvalue (sOther : String) {sKey : String} (hother : Config.pointer sOther = .ok ["network", sKey])
      (sDefault : String) :
      (c.setValue sPath v).2.getValue getString sOther sDefault = c.getValue getString sOther sDefault := by
    rw [Config.getValue, Config.getValue, Config.lookup_setValue_group hpath hother isName_sender (by decide) v c]
  have hprimary : Config.pointer "network.interface_primary" = .ok ["network", "interface_primary"] := rfl
  have hsecondary : Config.pointer "network.interface_secondary" = .ok ["network", "interface_secondary"] := rfl
  rw [interfaces, interfaces, hvalue _ hprimary, hvalue _ hsecondary]

theorem setValue_blocked (h : Blocked c) (hpath : Config.pointer sPath = .ok ["sender", sName]) (hname : IsName sName)
    (v : Json) : ∃ e, c.setValue sPath v = (.error e, c) := by
  obtain ⟨fields, js, hjson, hsorted, hfind, hnull, hobj⟩ := h
  obtain ⟨e, hbelow⟩ : ∃ e, assign v [sName] js = (.error e, js) := by
    obtain ⟨e, he⟩ := hname.arrayIndex
    cases js with
    | null => exact absurd rfl hnull
    | obj members => exact absurd rfl (hobj members)
    | arr elems => exact ⟨e, by simp only [assign, container, if_neg hname.ne_dash, he]⟩
    | _ => exact ⟨_, rfl⟩
  have hassign : assign v ["sender", sName] c.json = (.error e, c.json) := by
    rw [hjson, assign_obj, hfind, Option.getD_some, hbelow, setKey_present hsorted hfind]
  refine ⟨e, ?_⟩
  simp only [Config.setValue, Config.write, hpath, hassign]

end Writes

section Settings
variable {sys : System} {c : Config} {members : Members} {pending : SenderParam → Prop} {sName : String} {v : Json}

/-- The audio source does not depend on the settings a PATCH can write. -/
theorem createFromConfig_setKey (hname : sName ∉ ["source", "tone_level_db", "file", "loop", "tone_hz"])
    (bReadable : String → Bool) (sFilesDir : String) :
    Audio.createFromConfig bReadable (.obj (setKey sName v members)) sFilesDir =
      Audio.createFromConfig bReadable (.obj members) sFilesDir := by
  have hne (sKey : String) (hkey : sKey ∈ ["source", "tone_level_db", "file", "loop", "tone_hz"]) : sKey ≠ sName := by
    rintro rfl
    exact hname hkey
  simp only [Audio.createFromConfig, value, findKey_setKey_ne (hne "source" (by simp)),
    findKey_setKey_ne (hne "tone_level_db" (by simp)), findKey_setKey_ne (hne "file" (by simp)),
    findKey_setKey_ne (hne "loop" (by simp)), findKey_setKey_ne (hne "tone_hz" (by simp))]

theorem setting_injective {p q : SenderParam} (hne : q ≠ p) : q.setting ≠ p.setting := by
  cases p <;> cases q <;> first | exact absurd rfl hne | decide

theorem usedIn_congr {c' : Config} (h : interfaces c' = interfaces c) (p : SenderParam) : p.UsedIn c' ↔ p.UsedIn c := by
  cases p <;> simp only [SenderParam.UsedIn, h]

/-- Other settings than those a PATCH can write stay as they are. -/
theorem Readable.setKey_other {c' : Config} (h : Readable sys c members pending) (hc : interfaces c' = interfaces c)
    (hsetting : ∀ p : SenderParam, p.setting = sName → p.reads v) (hother : sName ∉ ["payload_type", "packet_time_us",
      "source", "tone_level_db", "file", "loop", "tone_hz"]) :
    Readable sys c' (setKey sName v members) fun p => pending p ∧ p.setting ≠ sName := by
  simp only [List.mem_cons, List.not_mem_nil, or_false, not_or] at hother
  obtain ⟨hpayload, hpacket, hsource⟩ := hother
  refine ⟨fun p hp => ?_, ?_, ?_, ?_⟩
  · by_cases hname : p.setting = sName
    · refine Or.inr fun js hjs => ?_
      rw [hname, findKey_setKey_self] at hjs
      obtain rfl := Option.some.inj hjs
      exact hsetting p hname
    · rw [findKey_setKey_ne hname]
      exact (h.settings p ((usedIn_congr hc p).mp hp)).imp_left fun hpending => ⟨hpending, hname⟩
  · rw [findKey_setKey_ne (Ne.symm hpayload)]
    exact h.payloadType
  · rw [findKey_setKey_ne (Ne.symm hpacket)]
    exact h.packetTime
  · rw [createFromConfig_setKey (by simpa using hsource)]
    exact h.source

theorem setting_other (p : SenderParam) : p.setting ∉ ["payload_type", "packet_time_us",
    "source", "tone_level_db", "file", "loop", "tone_hz"] := by
  cases p <;> decide

theorem Readable.imp {pending' : SenderParam → Prop} (h : Readable sys c members pending)
    (himp : ∀ p, pending p → pending' p) : Readable sys c members pending' :=
  ⟨fun p hp => (h.settings p hp).imp_left (himp p), h.payloadType, h.packetTime, h.source⟩

/-- After a setting is written one parameter fewer is pending. -/
theorem Accepts.setValue {bEnable : Bool} {p : SenderParam} (h : Accepts sys c bEnable pending) (hv : p.reads v) :
    (c.setValue p.configKey v).1 = .ok () ∧
      Accepts sys (c.setValue p.configKey v).2 bEnable fun q => pending q ∧ q ≠ p := by
  obtain ⟨members, hmembers, hreadable⟩ := h
  obtain ⟨hok, hread⟩ := setValue_members hmembers (pointer_configKey p) (isName_setting p) v
  refine ⟨hok, setKey p.setting v members, by rw [senderMembers, hread], fun hb => ?_⟩
  have hsetting (q : SenderParam) (hq : q.setting = p.setting) : q.reads v := by
    by_cases hqp : q = p
    · rw [hqp]
      exact hv
    · exact absurd hq (setting_injective hqp)
  have hset := (hreadable hb).setKey_other (interfaces_setValue (pointer_configKey p) v c) hsetting (setting_other p)
  exact hset.imp fun q ⟨hpending, hne⟩ => ⟨hpending, fun hqp => hne (by rw [hqp])⟩

/-- A leg whose settings have their types can be built. -/
theorem configuredLeg_ok {sMulticastKey sEnabledKey : String} (sInterface sDefault : String)
    (haddress : ∀ js, findKey sMulticastKey members = some js → js.isString)
    (hswitch : ∀ js, findKey sEnabledKey members = some js → js.isBoolean) :
    ∃ leg, configuredLeg (.obj members) sInterface sMulticastKey sDefault sEnabledKey = .ok leg := by
  obtain ⟨sMulticast, haddress⟩ := value_ok (fun js hjs => getString_ok (haddress js hjs)) sDefault
  obtain ⟨bEnabled, hswitch⟩ := value_ok (fun js hjs => getBool_ok (hswitch js hjs)) true
  exact ⟨_, bind_eq_ok.mpr ⟨_, haddress, bind_eq_ok.mpr ⟨_, hswitch, rfl⟩⟩⟩

theorem configuredLegs_ok (h : Readable sys c members fun _ => False) :
    ∃ vLegs, configuredLegs (.obj members) (interfaces c) = .ok vLegs := by
  have hread (p : SenderParam) (hp : p.UsedIn c) := (h.settings p hp).resolve_left id
  obtain ⟨leg1, h1⟩ := configuredLeg_ok ((interfaces c).headD "") "239.69.145.10"
    (hread .primary trivial) (hread .leg1 trivial)
  rw [configuredLegs]
  cases hsecond : (interfaces c)[1]? with
  | none => exact ⟨_, bind_eq_ok.mpr ⟨_, h1, rfl⟩⟩
  | some sInterface =>
    have hlength : 1 < (interfaces c).length := (List.getElem?_eq_some_iff.mp hsecond).1
    obtain ⟨leg2, h2⟩ := configuredLeg_ok sInterface "239.69.146.10"
      (hread .secondary hlength) (hread .leg2 hlength)
    exact ⟨_, bind_eq_ok.mpr ⟨_, h1, bind_eq_ok.mpr ⟨_, h2, rfl⟩⟩⟩

theorem senderSettings_ok {bEnable : Bool} (hjs : c.json.at? "sender" = .ok (.obj members))
    (henabled : findKey "enabled" members = some (.bool bEnable))
    (h : bEnable → Readable sys c members fun _ => False) : ∃ x, senderSettings sys c = .ok x := by
  have hswitch : (Json.obj members).value getBool "enabled" false = .ok bEnable := by
    rw [value, henabled]
    rfl
  cases bEnable with
  | false => exact ⟨none, bind_eq_ok.mpr ⟨_, hjs, bind_eq_ok.mpr ⟨_, hswitch, rfl⟩⟩⟩
  | true =>
    have hread := h rfl
    obtain ⟨vLegs, hlegs⟩ := configuredLegs_ok hread
    obtain ⟨nPort, hport⟩ :=
      value_ok (fun js hjs => getInt_ok ((hread.settings .port trivial).resolve_left id js hjs)) 5004
    obtain ⟨nPayloadType, hpayload⟩ := value_ok (fun js hjs => getInt_ok (hread.payloadType js hjs)) 96
    obtain ⟨nPacketTimeUs, hpacket⟩ := value_ok (fun js hjs => getInt_ok (hread.packetTime js hjs)) 1000
    obtain ⟨pSource, hsource⟩ := hread.source
    refine ⟨some { vLegs, nPort := BitVec.ofInt 16 nPort, nPayloadType, nPacketTimeUs, pSource },
      bind_eq_ok.mpr ⟨_, hjs, bind_eq_ok.mpr ⟨_, hswitch, ?_⟩⟩⟩
    exact bind_eq_ok.mpr ⟨_, hlegs, bind_eq_ok.mpr ⟨_, hport, bind_eq_ok.mpr ⟨_, hpayload,
      bind_eq_ok.mpr ⟨_, hpacket, bind_eq_ok.mpr ⟨_, hsource, rfl⟩⟩⟩⟩⟩

end Settings

section Sender
variable {sys : System} {params : List Members} {pending : SenderParam → Prop} {bEnable : Bool}

/-- A parameter that overrides nothing is passed over; another one writes a setting,
and after that touches at most the live switch of its leg. -/
structure Writes (params : List Members) (p : SenderParam) (v : Json) (f : Node → Node) : Prop where
  reads : p.reads v
  config : ∀ s, (f s).config = s.config
  ok : ∀ {s s'}, s.setConfig p.configKey v = (.ok (), s') → (p.apply params).exec s = (.ok (), f s')
  error : ∀ {s s' e}, s.setConfig p.configKey v = (.error e, s') → (p.apply params).exec s = (.error e, s')

theorem writes_destination {p : SenderParam} {i : Nat} (happly : p.apply params = applyDestination params i)
    (hkey : destinationKey i = p.configKey) (hreads : p.reads = isString) {sText : String}
    (hparam : param params i "destination_ip" = some (.str sText)) : Writes params p (.str sText) id := by
  have hwrite : p.apply params = ofUpdate (Node.setConfig p.configKey (.str sText)) := by
    rw [happly, applyDestination, hparam, ← hkey]
  refine ⟨by rw [hreads]; rfl, fun _ => rfl, fun h => ?_, fun h => ?_⟩
  · rw [hwrite, exec_ofUpdate, h, id]
  · rw [hwrite, exec_ofUpdate, h]

theorem writes_leg {p : SenderParam} {i : Nat} (happly : p.apply params = applyLeg params i)
    (hkey : legKey i = p.configKey) (hreads : p.reads = isBoolean) {b : Bool}
    (hparam : param params i "rtp_enabled" = some (.bool b)) :
    Writes params p (.bool b) (Node.setLegEnabled i b) := by
  have hwrite : p.apply params = ofUpdate (Node.setConfig p.configKey (.bool b)) >>= fun _ =>
      modify (Node.setLegEnabled i b) := by
    rw [happly, applyLeg, hparam, ← hkey]
  refine ⟨by rw [hreads]; rfl, fun _ => rfl, fun h => ?_, fun h => ?_⟩
  · rw [hwrite, exec_bind_ok (by rw [exec_ofUpdate, h]), exec_modify]
  · rw [hwrite, exec_bind_error (by rw [exec_ofUpdate, h])]

theorem writes_port {js : Json} (hnumber : js.isNumber) (hparam : param params 0 "destination_port" = some js) :
    ∃ v, Writes params .port v id := by
  have hint : isInt js := by rw [isInt, hnumber, Bool.true_or]
  obtain ⟨nPort, hport⟩ := getInt_ok hint
  have hwrite : SenderParam.port.apply params = attempt js.getInt >>= fun nPort =>
      ofUpdate (Node.setConfig "sender.port" (.int nPort)) := by
    rw [SenderParam.apply, applyPort, hparam]
    simp only [hnumber, if_true]
  refine ⟨.int nPort, rfl, fun _ => rfl, fun h => ?_, fun h => ?_⟩
  · rw [hwrite, exec_bind_ok (by rw [exec_attempt, hport]), exec_ofUpdate]
    exact h
  · rw [hwrite, exec_bind_ok (by rw [exec_attempt, hport]), exec_ofUpdate]
    exact h

/-- A parameter that overrides a setting writes it. -/
theorem writes_of_overrides {p : SenderParam} (h : Overrides params p) : ∃ v f, Writes params p v f := by
  obtain ⟨js, hparam, htakes⟩ := h
  cases p with
  | primary =>
    cases js <;> first | exact ⟨_, _, writes_destination rfl rfl rfl hparam⟩ | cases htakes
  | secondary =>
    cases js <;> first | exact ⟨_, _, writes_destination rfl rfl rfl hparam⟩ | cases htakes
  | port =>
    obtain ⟨v, hv⟩ := writes_port htakes hparam
    exact ⟨v, id, hv⟩
  | leg1 =>
    cases js <;> first | exact ⟨_, _, writes_leg rfl rfl rfl hparam⟩ | cases htakes
  | leg2 =>
    cases js <;> first | exact ⟨_, _, writes_leg rfl rfl rfl hparam⟩ | cases htakes

theorem apply_of_not_overrides {p : SenderParam} (h : ¬ Overrides params p) : p.apply params = pure () := by
  have hparam (js : Json) (hjs : param params p.index p.key = some js) : ¬ p.takes js :=
    fun htakes => h ⟨js, hjs, htakes⟩
  cases p with
  | primary =>
    rw [SenderParam.apply, applyDestination]
    split
    · next hjs => exact absurd rfl (hparam _ hjs)
    · rfl
  | secondary =>
    rw [SenderParam.apply, applyDestination]
    split
    · next hjs => exact absurd rfl (hparam _ hjs)
    · rfl
  | port =>
    rw [SenderParam.apply, applyPort]
    split
    · next js hjs => exact if_neg (hparam js hjs)
    · rfl
  | leg1 =>
    rw [SenderParam.apply, applyLeg]
    split
    · next hjs => exact absurd rfl (hparam _ hjs)
    · rfl
  | leg2 =>
    rw [SenderParam.apply, applyLeg]
    split
    · next hjs => exact absurd rfl (hparam _ hjs)
    · rfl

theorem setConfig_ok {s : Node} {sPath : String} {v : Json} (h : (s.config.setValue sPath v).1 = .ok ()) :
    s.setConfig sPath v = (.ok (), (s.setConfig sPath v).2) := by
  have hresult : (s.setConfig sPath v).1 = .ok () := by
    rw [Node.setConfig, h]
  rw [← hresult]

/-- One parameter of an activation the configuration accepts. -/
theorem apply_accepted (p : SenderParam) {s : Node} (h : Accepts sys s.config bEnable pending)
    (hpending : pending p → Overrides params p) : ∃ s', (p.apply params).exec s = (.ok (), s') ∧
      Accepts sys s'.config bEnable fun q => pending q ∧ q ≠ p := by
  by_cases hover : Overrides params p
  · obtain ⟨v, f, hwrites⟩ := writes_of_overrides hover
    obtain ⟨hok, haccepts⟩ := h.setValue hwrites.reads
    refine ⟨_, hwrites.ok (setConfig_ok hok), ?_⟩
    rw [hwrites.config, Node.setConfig_config]
    exact haccepts
  · refine ⟨s, by rw [apply_of_not_overrides hover, exec_pure], ?_⟩
    obtain ⟨members, hmembers, hread⟩ := h
    refine ⟨members, hmembers, fun hb => (hread hb).imp fun q hq => ⟨hq, ?_⟩⟩
    rintro rfl
    exact hover (hpending hq)

theorem forM_accepted : ∀ (ps : List SenderParam) {pending : SenderParam → Prop} {s : Node},
    Accepts sys s.config bEnable pending → (∀ p, pending p → Overrides params p) →
      ∃ s', (ps.forM (SenderParam.apply params)).exec s = (.ok (), s') ∧
        Accepts sys s'.config bEnable fun q => pending q ∧ q ∉ ps
  | [], pending, s, h, _ => by
    obtain ⟨members, hmembers, hread⟩ := h
    exact ⟨s, rfl, members, hmembers, fun hb => (hread hb).imp fun p hp => ⟨hp, List.not_mem_nil⟩⟩
  | p :: ps, pending, s, h, hpending => by
    obtain ⟨s1, h1, haccepts⟩ := apply_accepted p h (hpending p)
    obtain ⟨s2, h2, members, hmembers, hread⟩ := forM_accepted ps haccepts fun q hq => hpending q hq.1
    refine ⟨s2, by rw [List.forM, exec_bind_ok h1, h2], members, hmembers, fun hb => (hread hb).imp fun q hq => ?_⟩
    exact ⟨hq.1.1, List.not_mem_cons_of_ne_of_not_mem hq.1.2 hq.2⟩

/-- Where nothing can be written, the first parameter that overrides a setting ends the activation. -/
theorem forM_blocked (params : List Members) {s : Node} (h : Blocked s.config) : ∀ ps : List SenderParam,
    (ps.forM (SenderParam.apply params)).exec s = (.ok (), s) ∧ (∀ p ∈ ps, ¬ Overrides params p) ∨
      ∃ e, (ps.forM (SenderParam.apply params)).exec s = (.error e, s)
  | [] => Or.inl ⟨rfl, by simp⟩
  | p :: ps => by
    rw [List.forM]
    by_cases hover : Overrides params p
    · obtain ⟨v, f, hwrites⟩ := writes_of_overrides hover
      obtain ⟨e, he⟩ := setValue_blocked h (pointer_configKey p) (isName_setting p) v
      have hset : s.setConfig p.configKey v = (.error e, s) := by
        rw [Node.setConfig, he]
      exact Or.inr ⟨e, by rw [exec_bind_error (hwrites.error hset)]⟩
    · rw [exec_bind_ok (by rw [apply_of_not_overrides hover, exec_pure])]
      exact (forM_blocked params h ps).imp_left fun hrest => ⟨hrest.1, List.forall_mem_cons.mpr ⟨hover, hrest.2⟩⟩

theorem activateFrom_eq (sys : System) (staged : SenderDoc) : activateFrom sys staged =
    attempt staged.masterEnable.getBool >>= fun bEnable =>
      SenderParam.order.forM (SenderParam.apply staged.transportParams) >>= fun _ =>
        modify (commitSender sys) >>= fun _ => onSender sys bEnable >>= fun _ => modify Node.bumpVersion := by
  simp only [activateFrom, SenderParam.order, List.forM, SenderParam.apply, bind_assoc, pure_bind]

theorem applySender_ok {s : Node} (h : ∃ x, senderSettings sys s.config = .ok x) :
    ∃ s', s.applySender sys = (.ok (), s') := by
  obtain ⟨x, hx⟩ := h
  rw [Node.applySender, hx]
  cases x with
  | none => exact ⟨_, rfl⟩
  | some x => exact ⟨_, rfl⟩

/-- The callback of a configuration that is accepted with nothing pending. -/
theorem onSender_ok {s : Node} (h : Accepts sys s.config bEnable fun _ => False) :
    ∃ s', (onSender sys bEnable).exec s = (.ok (), s') := by
  obtain ⟨members, hmembers, hread⟩ := h
  have hpath : Config.pointer "sender.enabled" = .ok ["sender", "enabled"] := rfl
  have hname : IsName "enabled" := ⟨'e', _, rfl, by decide, by decide⟩
  obtain ⟨hok, hjs⟩ := setValue_members hmembers hpath hname (.bool bEnable)
  have hset := setConfig_ok hok
  have hsettings : ∃ x, senderSettings sys (s.setConfig "sender.enabled" (.bool bEnable)).2.config = .ok x := by
    refine senderSettings_ok hjs (findKey_setKey_self ..) fun hb => ?_
    refine ((hread hb).setKey_other (interfaces_setValue hpath _ s.config) (fun p hp => ?_) (by decide)).imp
      fun p hp => hp.1
    cases p <;> exact absurd hp (by decide)
  obtain ⟨s', hs'⟩ := applySender_ok hsettings
  exact ⟨s'.bumpVersion, by
    rw [onSender, exec_bind_ok (by rw [exec_ofUpdate, hset]), exec_bind_ok (by rw [exec_ofUpdate, hs']), exec_modify]⟩

theorem activateFrom_ok {s : Node} {staged : SenderDoc} (henable : staged.masterEnable = .bool bEnable)
    (h : Accepts sys s.config bEnable (Overrides staged.transportParams)) :
    ∃ s', (activateFrom sys staged).exec s = (.ok (), s') := by
  obtain ⟨s1, h1, members, hmembers, hread⟩ := forM_accepted SenderParam.order h fun _ hp => hp
  have hdone : Accepts sys (commitSender sys s1).config bEnable fun _ => False :=
    ⟨members, hmembers, fun hb => (hread hb).imp fun p hp => hp.2 (SenderParam.mem_order p)⟩
  obtain ⟨s2, h2⟩ := onSender_ok hdone
  exact ⟨s2.bumpVersion, by
    rw [activateFrom_eq, exec_bind_ok (by rw [exec_attempt, henable, getBool]), exec_bind_ok h1,
      exec_bind_ok (exec_modify _ _), exec_bind_ok h2, exec_modify]⟩

/-- An activation that is refused at once leaves the node as it is. -/
theorem activateFrom_refused {s : Node} {staged : SenderDoc} (h : Refuses s.config staged) :
    ((activateFrom sys staged).exec s).2 = s := by
  by_cases hbool : staged.masterEnable.isBoolean
  · obtain ⟨hblocked, p, hp⟩ := h.resolve_left (not_not_intro hbool)
    obtain ⟨bEnable, henable⟩ := getBool_ok hbool
    rw [activateFrom_eq, exec_bind_ok (by rw [exec_attempt, henable])]
    rcases forM_blocked staged.transportParams hblocked SenderParam.order with ⟨-, hnone⟩ | ⟨e, he⟩
    · exact absurd hp (hnone p (SenderParam.mem_order p))
    · rw [exec_bind_error he]
  · exact exec_activateFrom_refused hbool

end Sender

section Receiver
variable {sys : System} {members : Members} {params : List Members} {staged : ReceiverDoc} {bEnable : Bool} {s : Node}

theorem resolveInterfaces_ok : ∀ (vIps : List String) {params : List Members},
    (∀ members ∈ params, ∀ js, findKey "interface_ip" members = some js → js.isString) →
      (resolveInterfaces vIps params).1 = .ok ()
  | _, [], _ => rfl
  | vIps, members :: rest, h => by
    obtain ⟨hfirst, hrest⟩ := List.forall_mem_cons.mp h
    obtain ⟨sIp, hip⟩ := value_ok (fun js hjs => getString_ok (hfirst js hjs)) "auto"
    have hvalue : (Json.obj members).value getString "interface_ip" "auto" = .ok sIp := hip
    rw [resolveInterfaces, hvalue]
    exact resolveInterfaces_ok vIps.tail hrest

theorem manualLeg_ok (h : ManualReadable members) : ∃ leg, manualLeg members = .ok leg := by
  obtain ⟨bOn, hon⟩ := value_ok (fun js hjs => getBool_ok (h.switch js hjs)) true
  have hvalue : (Json.obj members).value getBool "rtp_enabled" true = .ok bOn := hon
  cases bOn with
  | false => exact ⟨none, bind_eq_ok.mpr ⟨false, hvalue, rfl⟩⟩
  | true =>
    have hswitch : findKey "rtp_enabled" members ≠ some (.bool false) := by
      intro hoff
      rw [value, hoff] at hvalue
      cases hvalue
    cases hip : findKey "multicast_ip" members with
    | none => exact ⟨none, bind_eq_ok.mpr ⟨true, hvalue, by simp only [hip, if_true]; rfl⟩⟩
    | some js =>
      cases js with
      | str sMulticast =>
        obtain ⟨nPort, hport⟩ := value_ok (fun js hjs => getInt_ok (h.port hswitch sMulticast hip js hjs)) 5004
        refine ⟨some { sMulticast, nPort := BitVec.ofInt 16 nPort }, bind_eq_ok.mpr ⟨true, hvalue, ?_⟩⟩
        simp only [hip, if_true]
        exact bind_eq_ok.mpr ⟨nPort, hport, rfl⟩
      | _ => exact ⟨none, bind_eq_ok.mpr ⟨true, hvalue, by simp only [hip, if_true]; rfl⟩⟩

theorem manualSession_ok (h : ∀ members ∈ params, ManualReadable members) :
    ∃ session, manualSession params = .ok session := by
  have hlegs : ∃ legs, params.mapM manualLeg = .ok legs := by
    induction params with
    | nil => exact ⟨[], rfl⟩
    | cons members params ih =>
      obtain ⟨hfirst, hrest⟩ := List.forall_mem_cons.mp h
      obtain ⟨leg, hleg⟩ := manualLeg_ok hfirst
      obtain ⟨legs, hlegs⟩ := ih hrest
      refine ⟨leg :: legs, ?_⟩
      rw [List.mapM_cons]
      exact bind_eq_ok.mpr ⟨leg, hleg, bind_eq_ok.mpr ⟨legs, hlegs, rfl⟩⟩
  obtain ⟨legs, hlegs⟩ := hlegs
  by_cases hnone : legs.reduceOption = []
  · exact ⟨none, bind_eq_ok.mpr ⟨legs, hlegs, by rw [if_pos hnone]; rfl⟩⟩
  · exact ⟨some { sName := "is-05 parameters", vLegs := legs.reduceOption },
      bind_eq_ok.mpr ⟨legs, hlegs, by rw [if_neg hnone]; rfl⟩⟩

theorem activateReceiver_ok (henable : s.api.receiverStaged.masterEnable = .bool bEnable)
    (hinterfaces : ∀ members ∈ s.api.receiverStaged.transportParams, ∀ js,
      findKey "interface_ip" members = some js → js.isString)
    (hmanual : bEnable → (∀ sSdp, findKey "data" s.api.receiverStaged.transportFile ≠ some (.str sSdp)) →
      ∀ members ∈ s.api.receiverStaged.transportParams, ManualReadable members) :
    ((activateReceiver sys).exec s).1 = .ok () := by
  have hsession : ∃ session, receiverSession bEnable (commitReceiver sys s).2.api.receiverActive = .ok session := by
    cases bEnable with
    | false => exact ⟨none, rfl⟩
    | true =>
      have hdata : (commitReceiver sys s).2.api.receiverActive.transportFile = s.api.receiverStaged.transportFile := rfl
      simp only [receiverSession, hdata, if_true]
      split
      · exact ⟨_, rfl⟩
      · next hno =>
        have hparams : (commitReceiver sys s).2.api.receiverActive.transportParams =
            (resolveInterfaces sys.hostIps s.api.receiverStaged.transportParams).2 := rfl
        rw [hparams, manualSession_congr (resolveInterfaces_same sys.hostIps s.api.receiverStaged.transportParams)]
        exact manualSession_ok (hmanual rfl hno)
  obtain ⟨session, hsession⟩ := hsession
  rw [exec_activateReceiver henable (resolveInterfaces_ok sys.hostIps hinterfaces) hsession]

end Receiver

section Run
variable {sys : System} {s : Node} {jsPatch : Json}

theorem Unchanged.refl (s : Node) : Unchanged s s := ⟨rfl, rfl, rfl, rfl⟩

/-- A computation that succeeds, or ends where it began, is atomic. -/
theorem unchanged_of_settled {x : NodeAct Unit} (h : (x.exec s).1 = .ok () ∨ (x.exec s).2 = s)
    (herror : status (x.exec s).1 = 400) : Unchanged s (x.exec s).2 := by
  rcases h with hok | hsame
  · rw [hok] at herror
    cases herror
  · rw [hsame]
    exact Unchanged.refl s

theorem patchSender_settled (h : ToleratesSender sys s jsPatch) :
    ((patchSender sys jsPatch).exec s).1 = .ok () ∨ ((patchSender sys jsPatch).exec s).2 = s := by
  rw [ToleratesSender] at h
  rw [exec_patchSender]
  cases hact : activates jsPatch with
  | error e =>
    rw [hact] at h
    exact Or.inr h
  | ok b =>
    cases b with
    | false => exact Or.inl rfl
    | true =>
      rw [hact] at h
      rcases h with ⟨hrefuses, hsame⟩ | ⟨bEnable, henable, haccepts⟩
      · refine Or.inr ?_
        rw [hsame]
        exact activateFrom_refused hrefuses
      · obtain ⟨s', hs'⟩ := activateFrom_ok (s := stageSender jsPatch s) henable haccepts
        exact Or.inl (congrArg Prod.fst hs')

theorem patchReceiver_settled (h : ToleratesReceiver s jsPatch) :
    ((patchReceiver sys jsPatch).exec s).1 = .ok () ∨ ((patchReceiver sys jsPatch).exec s).2 = s := by
  rw [ToleratesReceiver] at h
  rw [exec_patchReceiver]
  cases hact : activates jsPatch with
  | error e =>
    rw [hact] at h
    exact Or.inr h
  | ok b =>
    cases b with
    | false => exact Or.inl rfl
    | true =>
      rw [hact] at h
      rcases h with ⟨hbool, hsame⟩ | ⟨bEnable, henable, hinterfaces, hmanual⟩
      · refine Or.inr (Eq.trans (exec_activateReceiver_refused ?_) hsame)
        exact hbool
      · exact Or.inl (activateReceiver_ok (s := stageReceiver jsPatch s) henable hinterfaces hmanual)

theorem atomicAt_of_tolerated {e : Served} (h : e.Tolerated s) : AtomicAt s e := by
  intro endpoint body hrequest herror
  obtain ⟨sys, request⟩ := e
  subst hrequest
  cases body with
  | error err => exact Unchanged.refl s
  | ok jsPatch =>
    cases endpoint with
    | sender => exact unchanged_of_settled (patchSender_settled h) herror
    | receiver => exact unchanged_of_settled (patchReceiver_settled h) herror

/-- In every run of the node, a PATCH that is answered with 400 has changed nothing
as long as no request stages something and is refused afterwards. -/
theorem atomic_of_tolerated (sys : System) (config : Config) (es : List Served)
    (h : Admits (fun pre e => e.Tolerated (run step (boot sys config) pre)) es) :
    Admits (fun pre e => AtomicAt (run step (boot sys config) pre) e) es :=
  fun pre e post hsplit => atomicAt_of_tolerated (h pre e post hsplit)

end Run

section Site

/-- A controller switches the sender on and leaves the mode of the activation open. -/
def armSender : Served :=
  ⟨{}, .patch .sender (.ok (.obj [("activation", .obj [("mode", .null)]), ("master_enable", .bool true)]))⟩

theorem armSender_not_atomic : ¬ AtomicAt (boot {} siteNode.config) armSender := by
  intro h
  have hsame := congrArg (fun api : ConnectionApi => api.senderStaged.masterEnable) (h .sender _ rfl rfl).api
  cases hsame

/-- A request that is refused in the same way, but has nothing to stage. -/
def disarm : Served := ⟨{}, .patch .sender (.ok (.obj [("activation", .obj [("mode", .null)])]))⟩

theorem disarm_tolerated (s : Node) : disarm.Tolerated s := by
  have hparams : mergeParams s.api.senderStaged.transportParams [] = s.api.senderStaged.transportParams := by
    cases s.api.senderStaged.transportParams <;> rfl
  have hstage : s.api.senderStaged.stage (.obj [("activation", .obj [("mode", .null)])]) = s.api.senderStaged :=
    congrArg (fun params => { s.api.senderStaged with transportParams := params }) hparams
  exact congrArg (fun staged => { s with api.senderStaged := staged }) hstage

theorem disarm_atomic :
    Admits (fun pre e => AtomicAt (run step (boot {} siteNode.config) pre) e)
      [⟨{}, .patch .sender switchOnHere.body⟩, disarm] := by
  refine atomic_of_tolerated {} siteNode.config _ ?_
  refine admits_cons.mpr ⟨?_, admits_cons.mpr ⟨disarm_tolerated _, admits_nil⟩⟩
  refine Or.inr ⟨true, rfl, _, rfl, fun _ => ⟨fun p _ => Or.inr ?_, ?_, ?_, _, rfl⟩⟩
  · cases p <;> rintro js ⟨⟩ <;> rfl
  · rintro js ⟨⟩
    rfl
  · rintro js ⟨⟩
    rfl

end Site

end PiAudioNode.Nmos
