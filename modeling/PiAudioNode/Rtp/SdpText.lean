import PiAudioNode.Lib.Scan
import PiAudioNode.Rtp.Sdp

/-! Session descriptions as text: what is read from a description, line by line,
and what is written for a session. -/
namespace PiAudioNode.Rtp
open Lib

def isTrimmed (c : Char) : Bool := c = '\r' || c = '\n' || c = ' '

def trim (cs : List Char) : List Char := (cs.reverse.dropWhile isTrimmed).reverse

/-- The texts before and after the last occurrence. -/
def splitLast (c : Char) (cs : List Char) : Option (List Char × List Char) :=
  if c ∈ cs then
    some ((cs.reverse.dropWhile (· ≠ c)).tail.reverse, (cs.reverse.takeWhile (· ≠ c)).reverse)
  else none

/-- What a C function sees of a text. -/
def cString (cs : List Char) : List Char := cs.takeWhile (· ≠ '\x00')

theorem cString_append {cs : List Char} (h : '\x00' ∉ cs) (ds : List Char) : cString (cs ++ ds) = cs ++ cString ds := by
  have hkept : ∀ c ∈ cs, decide (c ≠ '\x00') = true := by
    intro c hc
    exact decide_eq_true fun heq => h (heq ▸ hc)
  rw [cString, List.takeWhile_append_of_pos hkept, cString]

theorem cString_of_not_mem {cs : List Char} (h : '\x00' ∉ cs) : cString cs = cs := by
  simpa [cString] using cString_append h []

theorem not_mem_cString (cs : List Char) : '\x00' ∉ cString cs := by
  intro h
  simpa using List.mem_takeWhile_imp h

/-- Nothing is seen beyond the first terminator. -/
theorem cString_append_of_mem {cs : List Char} (h : '\x00' ∈ cs) (ds : List Char) : cString (cs ++ ds) = cString cs := by
  obtain ⟨front, rest, rfl, hfront⟩ := List.eq_append_cons_of_mem h
  rw [List.append_assoc, cString_append hfront, cString_append hfront, List.cons_append]
  rfl

/-- What the reader knows after some lines. The current leg is the last one. -/
structure SdpReader where
  session : SdpSession := {}
  sSessionConnection : String := ""
  vDupMids : List (List Char) := []
  deriving DecidableEq

def updateLast {α : Type} (f : α → α) : List α → List α
  | [] => []
  | [x] => [f x]
  | x :: xs => x :: updateLast f xs

def SdpReader.updateLeg (r : SdpReader) (f : SdpLeg → SdpLeg) : SdpReader :=
  { r with session.vLegs := updateLast f r.session.vLegs }

/-- `c=IN IP4 239.x.x.x/32` -/
def readConnection (sValue : List Char) (r : SdpReader) : SdpReader :=
  match splitLast ' ' sValue with
  | none => r
  | some (_, sAddr) =>
    let sAddr := String.ofList (sAddr.takeWhile (· ≠ '/'))
    if r.session.vLegs = [] then { r with sSessionConnection := sAddr }
    else r.updateLeg ({ · with sMulticast := sAddr })

/-- `m=audio 5004 RTP/AVP 96` -/
def readMedia (sValue : List Char) (r : SdpReader) : SdpReader :=
  match scanf [.text "audio".toList, .blank, .decimal, .blank, .text "RTP/AVP".toList, .blank, .decimal]
      (cString sValue) with
  | [] => r
  | nPort :: rest =>
    { r with
      session.vLegs := r.session.vLegs ++ [{ nPort := BitVec.ofInt 16 nPort, sMulticast := r.sSessionConnection }]
      session.nPayloadType := rest.headD 96 }

/-- `rtpmap:96 L24/48000/2` -/
def readRtpmap (sValue : List Char) (r : SdpReader) : SdpReader :=
  match scanf [.text "rtpmap:".toList, .decimal, .blank, .text ['L'], .decimal, .text ['/'], .decimal, .text ['/'],
      .decimal] (cString sValue) with
  | nPt :: nBits :: nRate :: rest =>
    if nPt = r.session.nPayloadType then
      -- an omitted channel count means mono
      { r with
        session.nBitsPerSample := nBits
        session.nSampleRate := nRate
        session.nChannels := if 0 < rest.headD 0 then rest.headD 0 else 1 }
    else r
  | _ => r

/-- `ts-refclk:ptp=IEEE1588-2008:xx-xx-..:domain`, from the profile on. -/
def readRefclk (sClock : List Char) (r : SdpReader) : SdpReader :=
  if ':' ∈ sClock then
    let sRest := (sClock.dropWhile (· ≠ ':')).tail
    match splitLast ':' sRest with
    | some (sGrandmaster, sDomain) =>
      { r with
        session.sPtpGrandmaster := String.ofList sGrandmaster
        session.nPtpDomain := atoi (cString sDomain) }
    | none => { r with session.sPtpGrandmaster := String.ofList sRest }
  else r

def readAttribute (sValue : List Char) (r : SdpReader) : SdpReader :=
  if let some sMids := stripPrefix "group:DUP ".toList sValue then { r with vDupMids := r.vDupMids ++ words sMids }
  else if (stripPrefix "mid:".toList sValue).isSome ∧ r.session.vLegs ≠ [] then
    r.updateLeg ({ · with sMid := String.ofList (sValue.drop 4) })
  else if (stripPrefix "rtpmap:".toList sValue).isSome then readRtpmap sValue r
  else if let some sTime := stripPrefix "ptime:".toList sValue then
    { r with session.dPacketTimeMs := atof (cString sTime) }
  else if (stripPrefix "source-filter:".toList sValue).isSome ∧ r.session.vLegs ≠ [] then
    match splitLast ' ' sValue with
    | some (_, sSource) => r.updateLeg ({ · with sSourceFilter := String.ofList sSource })
    | none => r
  else if let some sClock := stripPrefix "ts-refclk:ptp=".toList sValue then readRefclk sClock r
  else r

def readLine (r : SdpReader) (sLine : List Char) : SdpReader :=
  match trim sLine with
  | cType :: '=' :: sValue =>
    if cType = 's' then { r with session.sName := String.ofList sValue }
    else if cType = 'c' then readConnection sValue r
    else if cType = 'm' then readMedia sValue r
    else if cType = 'a' then readAttribute sValue r
    else r
  | _ => r

/-- The legs of the duplication group in its order, where it names any. -/
def groupLegs (vDupMids : List (List Char)) (vLegs : List SdpLeg) : List SdpLeg :=
  if 1 < vDupMids.length then
    let vOrdered := vDupMids.flatMap fun sMid => vLegs.filter fun leg => leg.sMid.toList = sMid
    if vOrdered = [] then vLegs else vOrdered
  else vLegs

def SdpReader.finish (r : SdpReader) : Option SdpSession :=
  if r.session.vLegs = [] then none
  else some { r.session with vLegs := (groupLegs r.vDupMids r.session.vLegs).take 2 }

def readText (r : SdpReader) (sText : List Char) : SdpReader := (sText.splitOn '\n').foldl readLine r

def parseSdp (sSdp : String) : Option SdpSession := (readText {} sSdp.toList).finish

def quote (sText : String) : List Char := sText.toList

/-- The lines of one media section. -/
def mediaLines (session : SdpSession) (leg : SdpLeg) (sSourceIp : String) : List (List Char) :=
  let nPt := decimal session.nPayloadType
  [quote "m=audio " ++ decimal leg.nPort.toNat ++ quote " RTP/AVP " ++ nPt,
   quote "c=IN IP4 " ++ quote leg.sMulticast ++ quote "/32",
   quote "a=source-filter: incl IN IP4 " ++ quote leg.sMulticast ++ quote " " ++ quote sSourceIp,
   quote "a=rtpmap:" ++ nPt ++ quote " L" ++ decimal session.nBitsPerSample ++ quote "/" ++
     decimal session.nSampleRate ++ quote "/" ++ decimal session.nChannels,
   quote "a=ptime:" ++ formatDouble session.dPacketTimeMs,
   quote "a=recvonly"] ++
  (if session.sPtpGrandmaster = "" then []
   else [quote "a=ts-refclk:ptp=IEEE1588-2008:" ++ quote session.sPtpGrandmaster ++ quote ":" ++
     decimal session.nPtpDomain]) ++
  [quote "a=mediaclk:direct=0"] ++
  (if 1 < session.vLegs.length then [quote "a=mid:" ++ quote leg.sMid] else [])

/-- The source of a leg wins over the list by position, the list over the origin. -/
def sourceIp (leg : SdpLeg) (nLeg : Nat) (sOriginIp : String) (vSourceIps : List String) : String :=
  if leg.sSourceFilter ≠ "" then leg.sSourceFilter else vSourceIps[nLeg]?.getD sOriginIp

def headerLines (nSessId : Nat) (session : SdpSession) (sOriginIp : String) : List (List Char) :=
  [quote "v=0",
   quote "o=- " ++ Nat.toDigits 10 nSessId ++ quote " " ++ Nat.toDigits 10 nSessId ++ quote " IN IP4 " ++
     quote sOriginIp,
   quote "s=" ++ quote session.sName,
   quote "t=0 0"] ++
  (if 1 < session.vLegs.length then [quote "a=group:DUP" ++ session.vLegs.flatMap fun leg => ' ' :: quote leg.sMid]
   else [])

def sdpLines (nSessId : Nat) (session : SdpSession) (sOriginIp : String) (vSourceIps : List String) :
    List (List Char) :=
  headerLines nSessId session sOriginIp ++ session.vLegs.zipIdx.flatMap fun (leg, nLeg) =>
    mediaLines session leg (sourceIp leg nLeg sOriginIp vSourceIps)

def generateSdp (nSessId : Nat) (session : SdpSession) (sOriginIp : String) (vSourceIps : List String) : String :=
  String.ofList ((sdpLines nSessId session sOriginIp vSourceIps).flatMap (· ++ ['\r', '\n']))

end PiAudioNode.Rtp
