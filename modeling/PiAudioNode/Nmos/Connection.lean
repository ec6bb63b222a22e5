import PiAudioNode.Node
import PiAudioNode.Rtp.SdpText

/-! The connection API: PATCH requests to the staged endpoints, immediate
activation, and what the active endpoints answer. -/
namespace PiAudioNode.Nmos
open Lib Lib.Json Lib.Act Rtp

/-- A read of the staged document that an activation acts on. -/
def param (params : List Members) (i : Nat) (sKey : String) : Option Json := params[i]?.bind (findKey sKey)

def destinationKey (i : Nat) : String := if i = 0 then "sender.multicast_primary" else "sender.multicast_secondary"

def legKey (i : Nat) : String := if i = 0 then "sender.leg1_enabled" else "sender.leg2_enabled"

def applyDestination (params : List Members) (i : Nat) : NodeAct Unit :=
  match param params i "destination_ip" with
  | some (.str s) => ofUpdate (Node.setConfig (destinationKey i) (.str s))
  | _ => pure ()

def applyPort (params : List Members) : NodeAct Unit :=
  match param params 0 "destination_port" with
  | some js =>
    if js.isNumber then do
      let nPort ← attempt js.getInt
      ofUpdate (Node.setConfig "sender.port" (.int nPort))
    else pure ()
  | none => pure ()

def applyLeg (params : List Members) (i : Nat) : NodeAct Unit :=
  match param params i "rtp_enabled" with
  | some (.bool b) => do
    ofUpdate (Node.setConfig (legKey i) (.bool b))
    modify (Node.setLegEnabled i b)
  | _ => pure ()

/-- One parameter set of the active document, with what is left to the device filled in. -/
def actualizeSender (sys : System) (c : Config) (i : Nat) (members : Members) : Members :=
  let members := match sys.hostIps[i]? with
    | some sIp => setKey "source_ip" (.str sIp) members
    | none => members
  if ((findKey "destination_ip" members).map isString).getD false then members
  else setKey "destination_ip" (.str (c.getValue getString (destinationKey i) "")) members

/-- The staged document becomes the active one. -/
def commitSender (sys : System) (node : Node) : Node :=
  let staged := node.api.senderStaged
  { node with
    api.senderActive := { staged with
      activation := activationDone sys.sNow
      transportParams := staged.transportParams.mapIdx (actualizeSender sys node.config) }
    api.senderStaged := { staged with activation := activationIdle } }

/-- The destination, the port and the switches of the legs go into the configuration,
then the sender is applied. -/
def activateFrom (sys : System) (staged : SenderDoc) : NodeAct Unit := do
  let bEnable ← attempt staged.masterEnable.getBool
  applyDestination staged.transportParams 0
  applyDestination staged.transportParams 1
  applyPort staged.transportParams
  applyLeg staged.transportParams 0
  applyLeg staged.transportParams 1
  modify (commitSender sys)
  onSender sys bEnable
  modify Node.bumpVersion

def activateSender (sys : System) : NodeAct Unit := do
  activateFrom sys (← get).api.senderStaged

/-- Whether a patch asks for an immediate activation. -/
def activates (jsPatch : Json) : Except JsonError Bool :=
  match jsPatch.member "activation" with
  | some js => (js.value getString "mode" "").map (· = "activate_immediate")
  | none => .ok false

def stageSender (jsPatch : Json) (node : Node) : Node :=
  { node with api.senderStaged := node.api.senderStaged.stage jsPatch }

def patchSender (sys : System) (jsPatch : Json) : NodeAct Unit := do
  modify (stageSender jsPatch)
  if ← attempt (activates jsPatch) then activateSender sys

/-- The parameter sets shown for the active sender: those of the engine's legs while
it runs, otherwise the configured destinations. -/
def showParams (node : Node) (i : Nat) (members : Members) : Members :=
  let s := node.sender
  match if s.bRun then s.vLegs[i]? else none with
  | some leg =>
    setKey "rtp_enabled" (.bool (s.legEnabled i)) <|
      setKey "destination_port" (.int s.nPort.toNat) <|
      setKey "destination_ip" (.str leg.sMulticast) <|
      setKey "source_ip" ((s.vSourceIps[i]?.map Json.str).getD .null) members
  | none =>
    setKey "rtp_enabled" (.bool s.bRun) <|
      setKey "destination_port" (.int (node.config.getValue getInt "sender.port" 5004)) <|
      setKey "destination_ip" (.str (node.config.getValue getString (destinationKey i) "")) members

def senderActiveNow (node : Node) : SenderDoc :=
  { node.api.senderActive with
    masterEnable := .bool node.sender.bRun
    transportParams := node.api.senderActive.transportParams.mapIdx (showParams node) }

/-- The loop that replaces `auto`, up to the first value that is no text. -/
def resolveInterfaces : List String → List Members → Except JsonError Unit × List Members
  | _, [] => (.ok (), [])
  | vIps, members :: rest =>
    match (Json.obj members).value getString "interface_ip" "auto" with
    | .error e => (.error e, members :: rest)
    | .ok sIp =>
      let shown := match vIps with
        | sHost :: _ => if sIp = "auto" then setKey "interface_ip" (.str sHost) members else members
        | [] => members
      let x := resolveInterfaces vIps.tail rest
      (x.1, shown :: x.2)

/-- The staged document becomes the active one. -/
def commitReceiver (sys : System) (node : Node) : Except JsonError Unit × Node :=
  let staged := node.api.receiverStaged
  let x := resolveInterfaces sys.hostIps staged.transportParams
  (x.1, { node with
    api.receiverActive := { staged with activation := activationDone sys.sNow, transportParams := x.2 }
    api.receiverStaged := { staged with activation := activationIdle } })

/-- The leg a parameter set stands for, none if it is off or has no address. -/
def manualLeg (members : Members) : Except JsonError (Option SdpLeg) := do
  if ← (Json.obj members).value getBool "rtp_enabled" true then
    match findKey "multicast_ip" members with
    | some (.str sMulticast) =>
      let nPort ← (Json.obj members).value getInt "destination_port" 5004
      return some { sMulticast, nPort := BitVec.ofInt 16 nPort }
    | _ => return none
  else return none

/-- The session built without a transport file. -/
def manualSession (params : List Members) : Except JsonError (Option SdpSession) := do
  let vLegs := (← params.mapM manualLeg).reduceOption
  if vLegs = [] then return none else return some { sName := "is-05 parameters", vLegs }

/-- What an activation hands on: the transport file wins while it holds text. -/
def receiverSession (bEnable : Bool) (active : ReceiverDoc) : Except JsonError (Option SdpSession) :=
  if bEnable then
    match findKey "data" active.transportFile with
    | some (.str sSdp) => .ok (parseSdp sSdp)
    | _ => manualSession active.transportParams
  else .ok none

def activateReceiver (sys : System) : NodeAct Unit := do
  let bEnable ← attempt (← get).api.receiverStaged.masterEnable.getBool
  ofUpdate (commitReceiver sys)
  let session ← attempt (receiverSession bEnable (← get).api.receiverActive)
  modify (onReceiver sys bEnable session)
  modify Node.bumpVersion

def stageReceiver (jsPatch : Json) (node : Node) : Node :=
  { node with api.receiverStaged := node.api.receiverStaged.stage jsPatch }

def patchReceiver (sys : System) (jsPatch : Json) : NodeAct Unit := do
  modify (stageReceiver jsPatch)
  if ← attempt (activates jsPatch) then activateReceiver sys

/-- The active subscription. -/
def receiverSenderId (node : Node) : Except JsonError Json :=
  node.api.receiverActive.masterEnable.getBool.map fun bEnable =>
    if bEnable then node.api.receiverActive.senderId else .null

/-- The two staged endpoints. -/
inductive Endpoint where
  | sender
  | receiver
  deriving DecidableEq

/-- A PATCH request with the body as the JSON parser leaves it. -/
def handlePatch (sys : System) (endpoint : Endpoint) (body : Except JsonError Json) : NodeAct Unit := do
  let jsPatch ← attempt body
  match endpoint with
  | .sender => patchSender sys jsPatch
  | .receiver => patchReceiver sys jsPatch

theorem exec_patchSender (sys : System) (jsPatch : Json) (s : Node) :
    (patchSender sys jsPatch).exec s = match activates jsPatch with
      | .ok true => (activateFrom sys (s.api.senderStaged.stage jsPatch)).exec (stageSender jsPatch s)
      | .ok false => (.ok (), stageSender jsPatch s)
      | .error e => (.error e, stageSender jsPatch s) := by
  rw [patchSender, exec_bind_ok (exec_modify ..)]
  cases hact : activates jsPatch with
  | error e => rfl
  | ok b => cases b <;> rfl

theorem getBool_error {js : Json} (h : ¬ js.isBoolean) : js.getBool = .error (mustBe "boolean" js) := by
  cases js <;> first | rfl | exact absurd rfl h

/-- What is not a truth value stops the activation before its first write. -/
theorem exec_activateFrom_refused {sys : System} {staged : SenderDoc} {s : Node}
    (h : ¬ staged.masterEnable.isBoolean) : ((activateFrom sys staged).exec s).2 = s := by
  rw [activateFrom, exec_bind_error (by rw [exec_attempt, getBool_error h])]

theorem exec_activateReceiver_refused {sys : System} {s : Node} (h : ¬ s.api.receiverStaged.masterEnable.isBoolean) :
    ((activateReceiver sys).exec s).2 = s := by
  rw [activateReceiver, exec_bind_ok (exec_get s), exec_bind_error (by rw [exec_attempt, getBool_error h])]

/-- An activation that reaches its callback. -/
theorem exec_activateReceiver {sys : System} {s : Node} {bEnable : Bool} {session : Option SdpSession}
    (henable : s.api.receiverStaged.masterEnable = .bool bEnable)
    (hinterfaces : (resolveInterfaces sys.hostIps s.api.receiverStaged.transportParams).1 = .ok ())
    (hsession : receiverSession bEnable (commitReceiver sys s).2.api.receiverActive = .ok session) :
    (activateReceiver sys).exec s = (.ok (), (onReceiver sys bEnable session (commitReceiver sys s).2).bumpVersion) := by
  have hcommit : commitReceiver sys s = (.ok (), (commitReceiver sys s).2) := Prod.ext hinterfaces rfl
  have henabled : s.api.receiverStaged.masterEnable.getBool = .ok bEnable := by rw [henable, getBool]
  rw [activateReceiver, exec_bind_ok (exec_get s), exec_bind_ok (by rw [exec_attempt, henabled]),
    exec_bind_ok (by rw [exec_ofUpdate, hcommit]), exec_bind_ok (exec_get _),
    exec_bind_ok (by rw [exec_attempt, hsession]), exec_bind_ok (exec_modify _ _), exec_modify]

theorem exec_patchReceiver (sys : System) (jsPatch : Json) (s : Node) :
    (patchReceiver sys jsPatch).exec s = match activates jsPatch with
      | .ok true => (activateReceiver sys).exec (stageReceiver jsPatch s)
      | .ok false => (.ok (), stageReceiver jsPatch s)
      | .error e => (.error e, stageReceiver jsPatch s) := by
  rw [patchReceiver, exec_bind_ok (exec_modify ..)]
  cases hact : activates jsPatch with
  | error e => rfl
  | ok b => cases b <;> rfl

theorem api_onReceiver (sys : System) (bEnable : Bool) (session : Option SdpSession) (node : Node) :
    (onReceiver sys bEnable session node).api = node.api := by
  unfold onReceiver
  split <;> rfl

/-- The status a request is answered with. -/
def status (result : Except JsonError Unit) : Nat :=
  match result with
  | .ok _ => 200
  | .error _ => 400

/-- A PATCH request, and what the system answers while it is served. -/
structure Patch where
  sys : System
  body : Except JsonError Json

def Patch.step (endpoint : Endpoint) (node : Node) (e : Patch) : Node :=
  ((handlePatch e.sys endpoint e.body).exec node).2

/-- The requests that change the node: from the web interface or from a controller. -/
inductive Request where
  | config (body : Except JsonError Json)
  | patch (endpoint : Endpoint) (body : Except JsonError Json)

/-- A request, and what the system answers while it is served. -/
structure Served where
  sys : System
  request : Request

def serve (e : Served) : NodeAct Unit :=
  match e.request with
  | .config body => postConfig e.sys body
  | .patch endpoint body => handlePatch e.sys endpoint body

def step (node : Node) (e : Served) : Node := ((serve e).exec node).2

/-- The node once it is up: the sender is applied from the configuration. -/
def boot (sys : System) (config : Config) : Node := (Node.applySender sys (.fresh config)).2

end PiAudioNode.Nmos
