import PiAudioNode.Config
import PiAudioNode.Lib.Throwing
import PiAudioNode.Ptp.Servo
import PiAudioNode.Rtp.Sender
import PiAudioNode.Rtp.Control
import PiAudioNode.Nmos.Staged

/-! The node as the main program wires it: the configuration, the engines and the
connection documents, and what a configuration change or an activation does to them. -/
namespace PiAudioNode
open Lib Lib.Json Lib.Act Rtp Nmos

structure Node where
  config : Config := {}
  clock : Ptp.PtpClock := {}
  sender : RtpSender := {}
  receiver : RxEngine := {}
  api : ConnectionApi := {}
  nVersion : Nat := 0

/-- The node with everything else as it is constructed. -/
def Node.fresh (config : Config) : Node := { config }

/-- What the system answers while one request is served. -/
structure System extends SenderSystem where
  rxOpens : Nat → Bool := fun _ => true
  hostAddresses : List (BitVec 32) := []
  bReadable : String → Bool := fun _ => true
  sFilesDir : String := ""
  sNow : String := ""

def System.hostIps (sys : System) : List String := sys.hostAddresses.map inetNtop

abbrev NodeAct := Act JsonError Node

/-- The primary interface, and the secondary one unless it is empty or the same. -/
def interfaces (c : Config) : List String :=
  let sPrimary := c.getValue getString "network.interface_primary" "eth0"
  let sSecondary := c.getValue getString "network.interface_secondary" ""
  if sSecondary ≠ "" ∧ sSecondary ≠ sPrimary then [sPrimary, sSecondary] else [sPrimary]

structure SenderSettings where
  vLegs : List SenderLeg
  nPort : BitVec 16
  nPayloadType : Int
  nPacketTimeUs : Int
  pSource : Audio.Source

/-- A leg of the sender as its part of the configuration has it. -/
def configuredLeg (js : Json) (sInterface sMulticastKey sMulticast sEnabledKey : String) :
    Except JsonError SenderLeg := do
  return ⟨sInterface, ← js.value getString sMulticastKey sMulticast, ← js.value getBool sEnabledKey true⟩

def configuredLegs (js : Json) (vInterfaces : List String) : Except JsonError (List SenderLeg) := do
  let leg1 ← configuredLeg js (vInterfaces.headD "") "multicast_primary" "239.69.145.10" "leg1_enabled"
  match vInterfaces[1]? with
  | some sInterface =>
    let leg2 ← configuredLeg js sInterface "multicast_secondary" "239.69.146.10" "leg2_enabled"
    return [leg1, leg2]
  | none => return [leg1]

/-- What the configuration has for the sender, nothing if it is not enabled. -/
def senderSettings (sys : System) (c : Config) : Except JsonError (Option SenderSettings) := do
  let js ← c.json.at? "sender"
  if ← js.value getBool "enabled" false then
    let vLegs ← configuredLegs js (interfaces c)
    let nPort ← js.value getInt "port" 5004
    let nPayloadType ← js.value getInt "payload_type" 96
    let nPacketTimeUs ← js.value getInt "packet_time_us" 1000
    let pSource ← Audio.createFromConfig sys.bReadable js sys.sFilesDir
    return some { vLegs, nPort := BitVec.ofInt 16 nPort, nPayloadType, nPacketTimeUs, pSource }
  else return none

namespace Node

/-- `ApplySender`: a configuration of the wrong types leaves the sender alone. -/
def applySender (sys : System) (node : Node) : Except JsonError Unit × Node :=
  match senderSettings sys node.config with
  | .error e => (.error e, node)
  | .ok none => (.ok (), { node with sender := node.sender.stop })
  | .ok (some x) =>
    (.ok (), { node with
      sender := (node.sender.configure sys.toSenderSystem x.vLegs x.nPort x.nPayloadType x.nPacketTimeUs x.pSource).2 })

def setConfig (sPath : String) (value : Json) (node : Node) : Except JsonError Unit × Node :=
  let x := node.config.setValue sPath value
  (x.1, { node with config := x.2 })

@[simp] theorem setConfig_config (sPath : String) (value : Json) (node : Node) :
    (node.setConfig sPath value).2.config = (node.config.setValue sPath value).2 := rfl

@[simp] theorem setConfig_sender (sPath : String) (value : Json) (node : Node) :
    (node.setConfig sPath value).2.sender = node.sender := by
  rw [setConfig]

@[simp] theorem setConfig_api (sPath : String) (value : Json) (node : Node) :
    (node.setConfig sPath value).2.api = node.api := by
  rw [setConfig]

def updateConfig (jsUpdates : Json) (node : Node) : Except JsonError Unit × Node :=
  let x := node.config.update jsUpdates
  (x.1, { node with config := x.2 })

def setLegEnabled (nLeg : Nat) (bEnabled : Bool) (node : Node) : Node :=
  { node with sender := node.sender.setLegEnabled nLeg bEnabled }

def setDomain (nDomain : Int) (node : Node) : Node := { node with clock := Ptp.setDomain node.clock nDomain }

def bumpVersion (node : Node) : Node := { node with nVersion := node.nVersion + 1 }

end Node

/-- The callback of a sender activation. -/
def onSender (sys : System) (bEnable : Bool) : NodeAct Unit := do
  ofUpdate (Node.setConfig "sender.enabled" (.bool bEnable))
  ofUpdate (Node.applySender sys)
  modify Node.bumpVersion

/-- The callback of a receiver activation. -/
def onReceiver (sys : System) (bEnable : Bool) (session : Option SdpSession) (node : Node) : Node :=
  match bEnable, session with
  | true, some session =>
    { node with
      receiver := (node.receiver.configure sys.rxOpens session (interfaces node.config)
        (node.config.getValue getInt "receiver.playout_delay_ms" 20)).2 }
  | _, _ => { node with receiver := node.receiver.stop }

def legKeys : List String := ["sender.leg1_enabled", "sender.leg2_enabled"]

def applyLegSwitches (node : Node) : Node :=
  (node.setLegEnabled 0 (node.config.getValue getBool "sender.leg1_enabled" true)).setLegEnabled 1
    (node.config.getValue getBool "sender.leg2_enabled" true)

def restartSender (sys : System) (vKeys : List String) : NodeAct Unit :=
  if vKeys.any ("sender.".toList.isPrefixOf ·.toList) then do
    ofUpdate (Node.applySender sys)
    modify Node.bumpVersion
  else pure ()

/-- What other changed settings reach: the PTP client, or a device opened by its name. -/
def applyItem (item : String × Json) : NodeAct Unit :=
  if item.1 = "ptp.domain" then do
    let nDomain ← attempt item.2.getInt
    modify (Node.setDomain nDomain)
  else if item.1 = "receiver.alsa_device" then do
    let _ ← attempt item.2.getString
    pure ()
  else pure ()

/-- Leg toggles apply live, every other sender setting restarts the sender. -/
def applied (sys : System) (jsChanged : Json) : NodeAct Unit :=
  let vKeys := jsChanged.items.map Prod.fst
  if ¬ jsChanged.isEmpty ∧ vKeys.all (· ∈ legKeys) then do
    modify applyLegSwitches
    modify Node.bumpVersion
  else do
    restartSender sys vKeys
    jsChanged.items.forM applyItem

/-- `POST /api/config` with the body as the JSON parser leaves it. -/
def postConfig (sys : System) (body : Except JsonError Json) : NodeAct Unit := do
  let jsUpdates ← attempt body
  ofUpdate (Node.updateConfig jsUpdates)
  applied sys jsUpdates

end PiAudioNode
