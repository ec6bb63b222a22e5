import PiAudioNode.Lib.Access

/-! The staged and active documents of the connection API. A document is an object
whose members are known and whose parameter sets are objects, so what a PATCH can
put into it is what the structures leave open. -/
namespace PiAudioNode.Nmos
open Lib Lib.Json

abbrev Members := List (String × Json)

/-- An activation that is not under way. -/
def activationIdle : Json := .obj [("activation_time", .null), ("mode", .null), ("requested_time", .null)]

def activationDone (sNow : String) : Json :=
  .obj [("activation_time", .str sNow), ("mode", .null), ("requested_time", .null)]

def senderLeg : Members :=
  [("destination_ip", .null), ("destination_port", .int 5004), ("rtp_enabled", .bool true), ("source_ip", .null)]

def receiverLeg : Members :=
  [("destination_port", .int 5004), ("interface_ip", .str "auto"), ("multicast_ip", .null),
   ("rtp_enabled", .bool true), ("source_ip", .null)]

structure SenderDoc where
  masterEnable : Json := .bool false
  receiverId : Json := .null
  activation : Json := activationIdle
  transportParams : List Members := [senderLeg, senderLeg]

structure ReceiverDoc where
  masterEnable : Json := .bool false
  senderId : Json := .null
  transportFile : Members := [("data", .null), ("type", .null)]
  activation : Json := activationIdle
  transportParams : List Members := [receiverLeg, receiverLeg]

structure ConnectionApi where
  senderStaged : SenderDoc := {}
  senderActive : SenderDoc := {}
  receiverStaged : ReceiverDoc := {}
  receiverActive : ReceiverDoc := {}

/-- Every item of a value overwrites or adds a member. -/
def mergeItems (staged : Members) (js : Json) : Members :=
  js.items.foldl (fun members (sKey, jsValue) => setKey sKey jsValue members) staged

/-- Parameter sets are merged by position; a patch cannot add one. -/
def mergeParams : List Members → List Json → List Members
  | staged :: rest, js :: jss => mergeItems staged js :: mergeParams rest jss
  | staged, _ => staged

theorem findKey_mergeItems {sKey : String} {js : Json} (h : sKey ∉ js.items.map Prod.fst) (staged : Members) :
    findKey sKey (mergeItems staged js) = findKey sKey staged := by
  rw [mergeItems]
  generalize js.items = items at h
  induction items generalizing staged with
  | nil => rfl
  | cons item items ih =>
    rw [List.map_cons, List.mem_cons, not_or] at h
    rw [List.foldl_cons, ih _ h.2, findKey_setKey_ne h.1]

/-- A merge has what it was given, and under the other keys what was there. -/
theorem findKey_mergeItems_or (sKey : String) (js : Json) (staged : Members) :
    findKey sKey (mergeItems staged js) = (findKey sKey (mergeItems [] js)).or (findKey sKey staged) := by
  rw [mergeItems, mergeItems]
  induction js.items using List.reverseRecOn with
  | nil => rfl
  | append_singleton items item ih =>
    rw [List.foldl_concat, List.foldl_concat]
    by_cases hkey : sKey = item.1
    · rw [hkey, findKey_setKey_self, findKey_setKey_self, Option.some_or]
    · rw [findKey_setKey_ne hkey, findKey_setKey_ne hkey, ih]

theorem length_mergeParams : ∀ (params : List Members) (jss : List Json),
    (mergeParams params jss).length = params.length
  | [], jss => by cases jss <;> rfl
  | _ :: _, [] => rfl
  | _ :: rest, _ :: jss => congrArg (· + 1) (length_mergeParams rest jss)

/-- The parameter sets of a patch, if it has an array of them. -/
def patchedParams (jsPatch : Json) : List Json := ((jsPatch.member "transport_params").bind elements).getD []

def patchedFile (jsPatch : Json) : List (String × Json) := ((jsPatch.member "transport_file").bind fields).getD []

def SenderDoc.stage (staged : SenderDoc) (jsPatch : Json) : SenderDoc :=
  { staged with
    masterEnable := (jsPatch.member "master_enable").getD staged.masterEnable
    receiverId := (jsPatch.member "receiver_id").getD staged.receiverId
    transportParams := mergeParams staged.transportParams (patchedParams jsPatch) }

def ReceiverDoc.stage (staged : ReceiverDoc) (jsPatch : Json) : ReceiverDoc :=
  { staged with
    masterEnable := (jsPatch.member "master_enable").getD staged.masterEnable
    senderId := (jsPatch.member "sender_id").getD staged.senderId
    transportFile := mergeItems staged.transportFile (.obj (patchedFile jsPatch))
    transportParams := mergeParams staged.transportParams (patchedParams jsPatch) }

end PiAudioNode.Nmos
