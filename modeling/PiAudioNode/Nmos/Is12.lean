import PiAudioNode.Lib.Json
import PiAudioNode.Lib.Output

/-! The control protocol server: two monitors, their properties, the commands on
them and the notifications to subscribed controllers. Every operation runs under
one lock. -/
namespace PiAudioNode.Nmos
open Lib

inductive Domain where
  | link
  | path
  | sync
  | stream
  deriving DecidableEq

/-- The property index of a domain's status; message and transitions follow. -/
def Domain.base : Domain → Int
  | .link => 1
  | .path => 4
  | .sync => 7
  | .stream => 11

/-- Nanoseconds of the steady clock. -/
abbrev Instant := Int

structure McDomain where
  nStatus : Int := 0
  sMessage : String := ""
  nTransitions : BitVec 32 := 0
  nPendingStatus : Int := -1
  pendingSince : Instant := 0

structure McMonitor where
  nOid : Int
  sRole : String
  sLabel : String
  sTouchpointType : String
  sTouchpointId : String
  aDomains : Domain → McDomain := fun _ => {}
  nOverall : Int := 0
  sOverallMessage : String := ""
  sSyncSource : Option String := none
  mCounters1 : List (String × BitVec 64) := []
  mCounters2 : List (String × BitVec 64) := []
  bIsReceiver : Bool

inductive McResult where
  | ok (jsValue : Json)
  | okVoid
  | error (nStatus : Int) (sMessage : String)

structure Notification where
  nOid : Int
  nLevel : Int
  nIndex : Int
  jsValue : Json

abbrev Connection := Nat

structure Is12Server where
  sNodeId : String
  sVersion : String
  rxMonitor : McMonitor
  txMonitor : McMonitor
  mSubscriptions : List (Connection × List Int) := []

def counters (mCounters : List (String × BitVec 64)) : Json :=
  .arr (mCounters.map fun (sName, nValue) =>
    .obj [("description", .null), ("name", .str sName), ("value", .int nValue.toNat)])

def classId (vClassId : List Int) : Json := .arr (vClassId.map .int)

def memberDescriptor (nOid : Int) (sRole sLabel : String) (vClassId : List Int) : Json :=
  .obj [("classId", classId vClassId), ("constantOid", .bool true), ("description", .null), ("oid", .int nOid),
    ("owner", if nOid = 1 then .null else .int 1), ("role", .str sRole), ("userLabel", .str sLabel)]

/-- A server as the node constructs it. -/
def Is12Server.init (sNodeId sVersion sReceiverId sSenderId : String) : Is12Server where
  sNodeId := sNodeId
  sVersion := sVersion
  rxMonitor :=
    { nOid := 10, sRole := "ReceiverMonitor", sLabel := "receiver monitor", sTouchpointType := "receiver",
      sTouchpointId := sReceiverId, bIsReceiver := true,
      aDomains := fun nDomain => { nStatus := if nDomain = .link then 1 else 0 } }
  txMonitor :=
    { nOid := 11, sRole := "SenderMonitor", sLabel := "sender monitor", sTouchpointType := "sender",
      sTouchpointId := sSenderId, bIsReceiver := false,
      aDomains := fun nDomain => { nStatus := if nDomain = .link then 1 else 0 } }

def Is12Server.findMonitor (s : Is12Server) (nOid : Int) : Option McMonitor :=
  if nOid = s.rxMonitor.nOid then some s.rxMonitor
  else if nOid = s.txMonitor.nOid then some s.txMonitor
  else none

def Is12Server.members (s : Is12Server) : Json :=
  .arr [memberDescriptor 2 "DeviceManager" "device manager" [1, 3, 1],
    memberDescriptor 3 "ClassManager" "class manager" [1, 3, 2],
    memberDescriptor s.rxMonitor.nOid s.rxMonitor.sRole s.rxMonitor.sLabel [1, 2, 2, 1],
    memberDescriptor s.txMonitor.nOid s.txMonitor.sRole s.txMonitor.sLabel [1, 2, 2, 2]]

def notImplemented : McResult := .error 502 "property not implemented"

/-- One domain's three properties. -/
def domainProperty (m : McMonitor) (nIndex : Int) (nDomain : Domain) : Option McResult :=
  if nIndex = nDomain.base then some (.ok (.int (m.aDomains nDomain).nStatus))
  else if nIndex = nDomain.base + 1 then some (.ok (.str (m.aDomains nDomain).sMessage))
  else if nIndex = nDomain.base + 2 then some (.ok (.int (m.aDomains nDomain).nTransitions.toNat))
  else none

def monitorProperty (m : McMonitor) (nLevel nIndex : Int) : McResult :=
  if nLevel = 1 then
    if nIndex = 1 then .ok (classId (if m.bIsReceiver then [1, 2, 2, 1] else [1, 2, 2, 2]))
    else if nIndex = 2 then .ok (.int m.nOid)
    else if nIndex = 3 then .ok (.bool true)
    else if nIndex = 4 then .ok (.int 1)
    else if nIndex = 5 then .ok (.str m.sRole)
    else if nIndex = 6 then .ok (.str m.sLabel)
    else if nIndex = 7 then
      .ok (.arr [.obj [("contextNamespace", .str "x-nmos"),
        ("resource", .obj [("id", .str m.sTouchpointId), ("resourceType", .str m.sTouchpointType)])]])
    else notImplemented
  else if nLevel = 2 ∧ nIndex = 1 then .ok (.bool true)
  else if nLevel = 3 then
    if nIndex = 1 then .ok (.int m.nOverall)
    else if nIndex = 2 then .ok (.str m.sOverallMessage)
    else if nIndex = 3 then .ok (.int 3)
    else notImplemented
  else if nLevel = 4 then
    match [Domain.link, .path, .sync, .stream].findSome? (domainProperty m nIndex) with
    | some result => result
    | none =>
      if nIndex = 10 then .ok (m.sSyncSource.elim .null .str)
      else if nIndex = 14 then .ok (.bool true)
      else notImplemented
  else notImplemented

def rootProperty (s : Is12Server) (nLevel nIndex : Int) : McResult :=
  if nLevel = 1 ∧ nIndex = 1 then .ok (classId [1, 1])
  else if nLevel = 1 ∧ nIndex = 2 then .ok (.int 1)
  else if nLevel = 1 ∧ nIndex = 3 then .ok (.bool true)
  else if nLevel = 1 ∧ nIndex = 4 then .ok .null
  else if nLevel = 1 ∧ (nIndex = 5 ∨ nIndex = 6) then .ok (.str "root")
  else if nLevel = 1 ∧ nIndex = 7 then .ok (.arr [])
  else if nLevel = 2 ∧ nIndex = 1 then .ok s.members
  else notImplemented

/-- Class id, oid, role, label and touchpoints of a manager. -/
def managerProperty (nOid : Int) (sRole sLabel : String) (vClassId : List Int) (nIndex : Int) : McResult :=
  if nIndex = 1 then .ok (classId vClassId)
  else if nIndex = 2 then .ok (.int nOid)
  else if nIndex = 5 then .ok (.str sRole)
  else if nIndex = 6 then .ok (.str sLabel)
  else if nIndex = 7 then .ok (.arr [])
  else notImplemented

def deviceManagerProperty (s : Is12Server) (nLevel nIndex : Int) : McResult :=
  if nLevel = 1 then managerProperty 2 "DeviceManager" "device manager" [1, 3, 1] nIndex
  else if nLevel = 3 then
    if nIndex = 1 then .ok (.str "v1.0.0")
    else if nIndex = 2 then
      .ok (.obj [("name", .str "pi-audio-node"), ("organizationId", .null), ("website", .null)])
    else if nIndex = 3 then
      .ok (.obj [("brandName", .null), ("description", .null), ("key", .str "pi-audio-node"),
        ("name", .str "pi-audio-node"), ("revisionLevel", .str s.sVersion), ("uuid", .null)])
    else if nIndex = 4 then .ok (.str s.sNodeId)
    else if nIndex = 8 then .ok (.obj [("deviceSpecificDetails", .null), ("generic", .int 1)])
    else if nIndex = 9 then .ok (.int 0)
    else .ok .null
  else notImplemented

def classManagerProperty (nLevel nIndex : Int) : McResult :=
  if nLevel = 1 then managerProperty 3 "ClassManager" "class manager" [1, 3, 2] nIndex
  else if nLevel = 3 ∧ (nIndex = 1 ∨ nIndex = 2) then .ok (.arr [])
  else notImplemented

def Is12Server.getProperty (s : Is12Server) (nOid nLevel nIndex : Int) : McResult :=
  if nOid = 1 then rootProperty s nLevel nIndex
  else if nOid = 2 then deviceManagerProperty s nLevel nIndex
  else if nOid = 3 then classManagerProperty nLevel nIndex
  else
    match s.findMonitor nOid with
    | some m => monitorProperty m nLevel nIndex
    | none => .error 404 "unknown oid"

def McMonitor.setDomain (m : McMonitor) (nDomain : Domain) (domain : McDomain) : McMonitor :=
  { m with aDomains := Function.update m.aDomains nDomain domain }

@[simp] theorem McMonitor.setDomain_self (m : McMonitor) (nDomain : Domain) (domain : McDomain) :
    (m.setDomain nDomain domain).aDomains nDomain = domain := Function.update_self ..

theorem McMonitor.setDomain_ne (m : McMonitor) {nDomain d : Domain} (domain : McDomain) (h : d ≠ nDomain) :
    (m.setDomain nDomain domain).aDomains d = m.aDomains d := Function.update_of_ne h ..

@[simp] theorem McMonitor.setDomain_nOid (m : McMonitor) (nDomain : Domain) (domain : McDomain) :
    (m.setDomain nDomain domain).nOid = m.nOid := rfl

def notify (m : McMonitor) (nLevel nIndex : Int) (jsValue : Json) : List Notification :=
  [⟨m.nOid, nLevel, nIndex, jsValue⟩]

/-- The worst of all active domains while the path domain is active. -/
def overall (m : McMonitor) : Int × String :=
  if (m.aDomains .path).nStatus = 0 then (0, "")
  else
    [Domain.link, .sync, .stream].foldl (fun worst nDomain =>
      let domain := m.aDomains nDomain
      if (nDomain = .sync ∨ nDomain = .stream) ∧ domain.nStatus = 0 then worst
      else if worst.1 < domain.nStatus then (domain.nStatus, domain.sMessage)
      else worst) ((m.aDomains .path).nStatus, (m.aDomains .path).sMessage)

def setOverall (nOverall : Int) (m : McMonitor) : McMonitor × List Notification :=
  if nOverall ≠ m.nOverall then ({ m with nOverall := nOverall }, notify m 3 1 (.int nOverall)) else (m, [])

def setOverallMessage (sMessage : String) (m : McMonitor) : McMonitor × List Notification :=
  if sMessage ≠ m.sOverallMessage then ({ m with sOverallMessage := sMessage }, notify m 3 2 (.str sMessage))
  else (m, [])

def recomputeOverall (m : McMonitor) : McMonitor × List Notification :=
  andThen (setOverall (overall m).1 m) (setOverallMessage (overall m).2)

/-- A less healthy status counts as a transition, unless the domain was inactive. -/
def countTransition (nDomain : Domain) (nStatus : Int) (m : McMonitor) : McMonitor × List Notification :=
  let domain := m.aDomains nDomain
  if domain.nStatus < nStatus ∧ domain.nStatus ≠ 0 then
    (m.setDomain nDomain { domain with nTransitions := domain.nTransitions + 1 },
      notify m 4 (nDomain.base + 2) (.int (domain.nTransitions + 1).toNat))
  else (m, [])

def setStatus (nDomain : Domain) (nStatus : Int) (m : McMonitor) : McMonitor × List Notification :=
  (m.setDomain nDomain { m.aDomains nDomain with nStatus := nStatus }, notify m 4 nDomain.base (.int nStatus))

def enterStatus (nDomain : Domain) (nStatus : Int) (m : McMonitor) : McMonitor × List Notification :=
  if (m.aDomains nDomain).nStatus ≠ nStatus then
    andThen (countTransition nDomain nStatus m) (setStatus nDomain nStatus)
  else (m, [])

def enterMessage (nDomain : Domain) (sMessage : String) (m : McMonitor) : McMonitor × List Notification :=
  if (m.aDomains nDomain).sMessage ≠ sMessage then
    (m.setDomain nDomain { m.aDomains nDomain with sMessage := sMessage },
      notify m 4 (nDomain.base + 1) (.str sMessage))
  else (m, [])

/-- The delay a less healthy status has to persist. -/
def statusReportingDelay : Instant := 3000000000

/-- A less healthy status is pending from the first time it is seen. -/
def markPending (nDomain : Domain) (nStatus : Int) (now : Instant) (m : McMonitor) : McMonitor :=
  let domain := m.aDomains nDomain
  if domain.nPendingStatus ≠ nStatus then
    m.setDomain nDomain { domain with nPendingStatus := nStatus, pendingSince := now }
  else m

def clearPending (nDomain : Domain) (m : McMonitor) : McMonitor :=
  m.setDomain nDomain { m.aDomains nDomain with nPendingStatus := -1 }

def enterDomain (nDomain : Domain) (nStatus : Int) (sMessage : String) (m : McMonitor) :
    McMonitor × List Notification :=
  andThen (enterStatus nDomain nStatus (clearPending nDomain m)) fun m =>
    andThen (enterMessage nDomain sMessage m) recomputeOverall

def updateDomain (nDomain : Domain) (nStatus : Int) (sMessage : String) (now : Instant) (m : McMonitor) :
    McMonitor × List Notification :=
  if 1 < nStatus ∧ (m.aDomains nDomain).nStatus < nStatus then
    let m := markPending nDomain nStatus now m
    if now - (m.aDomains nDomain).pendingSince < statusReportingDelay then (m, [])
    else enterDomain nDomain nStatus sMessage m
  else enterDomain nDomain nStatus sMessage m

def setSyncSource (sSourceId : Option String) (m : McMonitor) : McMonitor × List Notification :=
  if m.sSyncSource ≠ sSourceId then
    ({ m with sSyncSource := sSourceId }, notify m 4 10 (sSourceId.elim .null .str))
  else (m, [])

/-- Counters and messages of every domain reset by command. -/
def resetMonitor (m : McMonitor) : McMonitor :=
  { m with
    mCounters1 := []
    mCounters2 := if m.bIsReceiver then [] else m.mCounters2
    aDomains := fun nDomain => { m.aDomains nDomain with nTransitions := 0, sMessage := "" } }

/-- Receiver: 1 lost, 2 late, 3 reset. Sender: 1 errors, 2 reset. -/
def invokeMethod (m : McMonitor) (nIndex : Int) : McMonitor × McResult :=
  if nIndex = 1 then (m, .ok (counters m.mCounters1))
  else if m.bIsReceiver ∧ nIndex = 2 then (m, .ok (counters m.mCounters2))
  else if nIndex = if m.bIsReceiver then 3 else 2 then (resetMonitor m, .okVoid)
  else (m, .error 501 "method not implemented")

structure Command where
  nHandle : Int
  nOid : Int
  nLevel : Int
  nIndex : Int
  nArgLevel : Int := -1
  nArgIndex : Int := -1

inductive Message where
  | notification (n : Notification)
  | response (nHandle : Int) (result : McResult)

/-- What the server writes to a connection. -/
structure Sent where
  pConn : Connection
  message : Message

def Is12Server.setMonitor (s : Is12Server) (m : McMonitor) : Is12Server :=
  if m.nOid = s.rxMonitor.nOid then { s with rxMonitor := m } else { s with txMonitor := m }

def Is12Server.invoke (s : Is12Server) (cmd : Command) : Is12Server × McResult :=
  if cmd.nLevel = 1 ∧ cmd.nIndex = 1 then (s, s.getProperty cmd.nOid cmd.nArgLevel cmd.nArgIndex)
  else if cmd.nLevel = 1 ∧ cmd.nIndex = 2 then (s, .error 405 "property is read only")
  else if cmd.nLevel = 2 ∧ cmd.nIndex = 1 ∧ cmd.nOid = 1 then (s, .ok s.members)
  else
    match s.findMonitor cmd.nOid with
    | some m =>
      if cmd.nLevel = 4 then (s.setMonitor (invokeMethod m cmd.nIndex).1, (invokeMethod m cmd.nIndex).2)
      else (s, .error 501 "method not implemented")
    | none => (s, .error 501 "method not implemented")

/-- Each notification goes to every connection subscribed to its object. -/
def broadcast (mSubscriptions : List (Connection × List Int)) (ns : List Notification) : List Sent :=
  ns.flatMap fun n =>
    (mSubscriptions.filter fun (_, setOids) => n.nOid ∈ setOids).map fun (pConn, _) => ⟨pConn, .notification n⟩

def Is12Server.withRx (s : Is12Server) (x : McMonitor × List Notification) : Is12Server × List Sent :=
  ({ s with rxMonitor := x.1 }, broadcast s.mSubscriptions x.2)

def Is12Server.withTx (s : Is12Server) (x : McMonitor × List Notification) : Is12Server × List Sent :=
  ({ s with txMonitor := x.1 }, broadcast s.mSubscriptions x.2)

def addTo (sName : String) (n : BitVec 64) (mCounters : List (String × BitVec 64)) : List (String × BitVec 64) :=
  setKey sName ((findKey sName mCounters).getD 0 + n) mCounters

inductive Is12Operation where
  | connect (pConn : Connection)
  | subscribe (pConn : Connection) (vOids : List Int)
  | close (pConn : Connection)
  | command (pConn : Connection) (cmd : Command)
  | updateReceiverDomain (nDomain : Domain) (nStatus : Int) (sMessage : String) (now : Instant)
  | updateSenderDomain (nDomain : Domain) (nStatus : Int) (sMessage : String) (now : Instant)
  | setSyncSource (sSourceId : Option String)
  | addReceiverLost (sLeg : String) (nPackets : BitVec 64)
  | addReceiverLate (nPackets : BitVec 64)
  | addSenderErrors (sCounter : String) (nErrors : BitVec 64)

def Is12Server.subscribe (s : Is12Server) (pConn : Connection) (vOids : List Int) : Is12Server :=
  { s with mSubscriptions := (pConn, vOids) :: s.mSubscriptions.filter fun (p, _) => p ≠ pConn }

/-- One operation and what it sends. -/
def Is12Server.step (s : Is12Server) : Is12Operation → Is12Server × List Sent
  | .connect pConn => (s.subscribe pConn [], [])
  | .subscribe pConn vOids => (s.subscribe pConn (vOids.filter fun nOid => nOid = 1 ∨ (s.findMonitor nOid).isSome), [])
  | .close pConn => ({ s with mSubscriptions := s.mSubscriptions.filter fun (p, _) => p ≠ pConn }, [])
  | .command pConn cmd => ((s.invoke cmd).1, [⟨pConn, .response cmd.nHandle (s.invoke cmd).2⟩])
  | .updateReceiverDomain nDomain nStatus sMessage now =>
    s.withRx (updateDomain nDomain nStatus sMessage now s.rxMonitor)
  | .updateSenderDomain nDomain nStatus sMessage now =>
    s.withTx (updateDomain nDomain nStatus sMessage now s.txMonitor)
  | .setSyncSource sSourceId =>
    andThen (s.withRx (Nmos.setSyncSource sSourceId s.rxMonitor)) fun s =>
      s.withTx (Nmos.setSyncSource sSourceId s.txMonitor)
  | .addReceiverLost sLeg nPackets =>
    ({ s with rxMonitor.mCounters1 := addTo sLeg nPackets s.rxMonitor.mCounters1 }, [])
  | .addReceiverLate nPackets =>
    ({ s with rxMonitor.mCounters2 := addTo "late" nPackets s.rxMonitor.mCounters2 }, [])
  | .addSenderErrors sCounter nErrors =>
    ({ s with txMonitor.mCounters1 := addTo sCounter nErrors s.txMonitor.mCounters1 }, [])

def Is12Server.runOperations (s : Is12Server) (ops : List Is12Operation) : Is12Server × List Sent :=
  runReport Is12Server.step s ops

end PiAudioNode.Nmos
