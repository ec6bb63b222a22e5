import PiAudioNode.Nmos.Connection

/-! The six resources as the node builds them from the configuration, the PTP client,
the two engines and the connection documents. -/
namespace PiAudioNode.Nmos
open Lib Lib.Json Rtp

/-- What is fixed while the node runs: its names, its port and its network. -/
structure Site where
  sHostname : String := ""
  sNodeId : String := ""
  sDeviceId : String := ""
  sSourceId : String := ""
  sFlowId : String := ""
  sSenderId : String := ""
  sReceiverId : String := ""
  nPort : Nat := 8080
  vInterfaces : List String := []
  interfaceMac : String → String := fun _ => "00-00-00-00-00-00"
  vHostIps : List String := []

section Builders
variable (site : Site) (sVersion : String) (node : Node)

def deviceLabel (c : Config) : String := c.getValue getString "device.label" "pi-audio-node"

def deviceDescription (c : Config) : String := c.getValue getString "device.description" ""

/-- An empty label of the sender falls back to the device's. -/
def senderLabel (c : Config) : String :=
  let sLabel := c.getValue getString "sender.label" ""
  if sLabel = "" then deviceLabel c ++ " sender" else sLabel

def clock (c : Ptp.PtpClock) : Json :=
  let sGm := Ptp.grandmasterId c.toPtpClient
  if sGm ≠ "" then
    .obj [("gmid", .str (String.ofList (sGm.toList.map fun c => if c = ':' then '-' else c))),
      ("locked", .bool c.bSynced), ("name", .str "clk0"), ("ref_type", .str "ptp"), ("traceable", .bool false),
      ("version", .str "IEEE1588-2008")]
  else .obj [("name", .str "clk0"), ("ref_type", .str "internal")]

def Site.url (sIp : String) : String := "http://" ++ sIp ++ ":" ++ toString site.nPort

def buildSelf : Json :=
  .obj [
    ("api", .obj [
      ("endpoints", .arr (site.vHostIps.map fun sIp =>
        .obj [("host", .str sIp), ("port", .int site.nPort), ("protocol", .str "http")])),
      ("versions", .arr [.str "v1.3"])]),
    ("caps", .obj []),
    ("clocks", .arr [clock node.clock]),
    ("description", .str (deviceDescription node.config)),
    ("hostname", .str site.sHostname),
    ("href", .str ((site.vHostIps.head?.map site.url).getD "")),
    ("id", .str site.sNodeId),
    ("interfaces", .arr (site.vInterfaces.map fun sInterface =>
      .obj [("chassis_id", .null), ("name", .str sInterface), ("port_id", .str (site.interfaceMac sInterface))])),
    ("label", .str (deviceLabel node.config)),
    ("services", .arr []),
    ("tags", .obj []),
    ("version", .str sVersion)]

def buildDevice : Json :=
  .obj [
    ("controls", .arr (site.vHostIps.flatMap fun sIp =>
      [.obj [("href", .str (site.url sIp ++ "/x-nmos/connection/v1.1")),
        ("type", .str "urn:x-nmos:control:sr-ctrl/v1.1")],
       .obj [("href", .str ("ws://" ++ sIp ++ ":" ++ toString site.nPort ++ "/x-nmos/ncp/v1.0")),
        ("type", .str "urn:x-nmos:control:ncp/v1.0")]])),
    ("description", .str "AES67 sender/receiver"),
    ("id", .str site.sDeviceId),
    ("label", .str (deviceLabel node.config)),
    ("node_id", .str site.sNodeId),
    ("receivers", .arr [.str site.sReceiverId]),
    ("senders", .arr [.str site.sSenderId]),
    ("tags", .obj []),
    ("type", .str "urn:x-nmos:device:generic"),
    ("version", .str sVersion)]

def buildSource : Json :=
  .obj [
    ("caps", .obj []),
    ("channels", .arr [.obj [("label", .str "Left"), ("symbol", .str "L")],
      .obj [("label", .str "Right"), ("symbol", .str "R")]]),
    ("clock_name", .str "clk0"),
    ("description", .str ""),
    ("device_id", .str site.sDeviceId),
    ("format", .str "urn:x-nmos:format:audio"),
    ("id", .str site.sSourceId),
    ("label", .str (deviceLabel node.config ++ " source")),
    ("parents", .arr []),
    ("tags", .obj []),
    ("version", .str sVersion)]

def buildFlow : Json :=
  .obj [
    ("bit_depth", .int 24),
    ("description", .str ""),
    ("device_id", .str site.sDeviceId),
    ("format", .str "urn:x-nmos:format:audio"),
    ("id", .str site.sFlowId),
    ("label", .str (deviceLabel node.config ++ " flow")),
    ("media_type", .str "audio/L24"),
    ("parents", .arr []),
    ("sample_rate", .obj [("numerator", .int 48000)]),
    ("source_id", .str site.sSourceId),
    ("tags", .obj []),
    ("version", .str sVersion)]

def buildSender : Json :=
  .obj [
    ("description", .str ""),
    ("device_id", .str site.sDeviceId),
    ("flow_id", .str site.sFlowId),
    ("id", .str site.sSenderId),
    ("interface_bindings", .arr (site.vInterfaces.map .str)),
    ("label", .str (senderLabel node.config)),
    ("manifest_href", .str ((site.vHostIps.head?.map fun sIp =>
      site.url sIp ++ "/x-nmos/connection/v1.1/single/senders/" ++ site.sSenderId ++ "/transportfile").getD "")),
    ("subscription", .obj [("active", .bool node.sender.bRun), ("receiver_id", .null)]),
    ("tags", .obj []),
    ("transport", .str "urn:x-nmos:transport:rtp.mcast"),
    ("version", .str sVersion)]

/-- What strict controllers are told of the formats the receiver accepts. -/
def receiverConstraints : Json :=
  .obj [
    ("urn:x-nmos:cap:format:channel_count", .obj [("maximum", .int 8), ("minimum", .int 1)]),
    ("urn:x-nmos:cap:format:media_type", .obj [("enum", .arr [.str "audio/L24", .str "audio/L16"])]),
    ("urn:x-nmos:cap:format:sample_rate", .obj [("enum", .arr [.obj [("numerator", .int 48000)]])]),
    ("urn:x-nmos:cap:transport:packet_time", .obj [("maximum", .real 4), ("minimum", .real (1 / 8))])]

def buildReceiver : Except JsonError Json := do
  let jsSenderId ← receiverSenderId node
  return .obj [
    ("caps", .obj [
      ("constraint_sets", .arr [receiverConstraints]),
      ("media_types", .arr [.str "audio/L24", .str "audio/L16"]),
      ("version", .str sVersion)]),
    ("description", .str ""),
    ("device_id", .str site.sDeviceId),
    ("format", .str "urn:x-nmos:format:audio"),
    ("id", .str site.sReceiverId),
    ("interface_bindings", .arr (site.vInterfaces.map .str)),
    ("label", .str (deviceLabel node.config ++ " receiver")),
    ("subscription", .obj [("active", .bool node.receiver.bRun), ("sender_id", jsSenderId)]),
    ("tags", .obj []),
    ("transport", .str "urn:x-nmos:transport:rtp.mcast"),
    ("version", .str sVersion)]

end Builders

end PiAudioNode.Nmos
