import PiAudioNode.Rtp.Advertised
import PiAudioNode.Rtp.SdpForeign

/-! The label of the sender in its description. It is written as the name of the session,
and with the line ends that are in it. -/
namespace PiAudioNode.Rtp
open Lib Lib.Json

section Definitions

/-- The name that the description gets. -/
def sessionName (config : Config) (sSourceName : String) : String :=
  let sLabel := config.getValue getString "sender.label" ""
  if sLabel = "" then "pi-audio-node " ++ sSourceName else sLabel

/-- All of a session but its name. -/
def SdpSession.transport (session : SdpSession) : SdpSession := { session with sName := "" }

/-- What a receiver reads of the description. -/
def transportOf (nSessId : Nat) (config : Config) (c : Ptp.PtpClock) (s : RtpSender) : Option SdpSession :=
  (parseSdp (s.transportFile nSessId config c)).map SdpSession.transport

/-- A written line as the reader gets it: as several, if there are line ends in it. -/
def brokenLine (l : List Char) : List (List Char) := (l ++ ['\r']).splitOn '\n'

/-- The lines that a name makes. -/
def nameLines (sName : String) : List (List Char) := brokenLine (quote "s=" ++ quote sName)

def grandmasters (ls : List (List Char)) : List String := ls.filterMap fun l => (SdpLine.ofText l).grandmaster?

def domains (ls : List (List Char)) : List Int := ls.filterMap fun l => (SdpLine.ofText l).domain?

/-- The lines of a name start no section and name no mids, and what they say last of the
address, the format and the clock is what holds anyway. -/
structure Inert (sName : String) : Prop where
  media : sections (nameLines sName) = []
  mids : groupMids (nameLines sName) = []
  connection : sessionConnection (nameLines sName) = ""
  format : ∀ x ∈ (heededFormats 96 (nameLines sName)).getLast?, x = (24, 48000, 2)
  grandmaster : ∀ sGrandmaster ∈ (grandmasters (nameLines sName)).getLast?, sGrandmaster = ""
  domain : ∀ nDomain ∈ (domains (nameLines sName)).getLast?, nDomain = 0

/-- The sources are addresses of interfaces. -/
def InlineSources (s : RtpSender) : Prop := ∀ sIp ∈ s.vSourceIps, '\n' ∉ quote sIp

/-- With this label any sender of this source has the transport that it has with one
that is inert. -/
def LeavesTransport (config : Config) (sSourceName : String) : Prop :=
  ∀ nSessId config' c s, s.sSourceName = sSourceName → InlineSources s → Inert (sessionName config' sSourceName) →
    transportOf nSessId config c s = transportOf nSessId config' c s

/-- The lines after the name. -/
def restLines (session : SdpSession) (sOriginIp : String) (vSourceIps : List String) : List (List Char) :=
  [quote "t=0 0"] ++
  (if 1 < session.vLegs.length then [quote "a=group:DUP" ++ session.vLegs.flatMap fun leg => ' ' :: quote leg.sMid]
   else []) ++
  session.vLegs.zipIdx.flatMap fun (leg, nLeg) => mediaLines session leg (sourceIp leg nLeg sOriginIp vSourceIps)

def SdpReader.unnamed (r : SdpReader) : SdpReader := { r with session.sName := "" }

def SdpReader.untimed (r : SdpReader) : SdpReader := { r with session.sName := "", session.dPacketTimeMs := 0 }

end Definitions

section Text
variable {session : SdpSession} {sOriginIp : String} {vSourceIps : List String}

/-- What is written is read as the parts of its lines. -/
theorem splitOn_lines (ls : List (List Char)) :
    (ls.flatMap (· ++ ['\r', '\n'])).splitOn '\n' = ls.flatMap brokenLine ++ [[]] := by
  induction ls with
  | nil => rfl
  | cons l ls ih =>
    have hparts : (l ++ ['\r', '\n']) ++ ls.flatMap (· ++ ['\r', '\n']) =
        (l ++ ['\r']) ++ '\n' :: ls.flatMap (· ++ ['\r', '\n']) := by simp
    rw [List.flatMap_cons, List.flatMap_cons, hparts, List.splitOn_append_cons_self, ih, List.append_assoc]
    rfl

/-- A line of another type than the four tells nothing. -/
theorem ofText_other {cType : Char} (h : cType ∉ ['s', 'c', 'm', 'a']) (cs : List Char) :
    SdpLine.ofText (cType :: '=' :: cs) = .other := by
  have hends : Ends [cType, '='] := by simp [Ends, isTrimmed]
  have htrim : trim (cType :: '=' :: cs) = cType :: '=' :: trim cs := trim_append hends cs
  simp only [List.mem_cons, List.not_mem_nil, or_false, not_or] at h
  rw [ofText_typed htrim, if_neg h.1, if_neg h.2.1, if_neg h.2.2.1, if_neg h.2.2.2]

theorem applyAll_inline (r : SdpReader) {l : List Char} (hinline : '\n' ∉ l)
    (hother : SdpLine.ofText (l ++ ['\r']) = .other) : r.applyAll (brokenLine l) = r := by
  have hline : brokenLine l = [l ++ ['\r']] := by
    rw [brokenLine, List.splitOn_eq_singleton]
    simpa using hinline
  rw [hline]
  refine applyAll_of_other (fun l' hl' => ?_) r
  rw [List.mem_singleton.mp hl', hother]

/-- The reader comes to the name as it starts. -/
theorem parseSdp_generateSdp_rest (nSessId : Nat) (horigin : '\n' ∉ quote sOriginIp) :
    parseSdp (generateSdp nSessId session sOriginIp vSourceIps) =
      (((SdpReader.applyAll {} (nameLines session.sName)).applyAll
        ((restLines session sOriginIp vSourceIps).flatMap brokenLine)).applyAll [[]]).finish := by
  have hdigits : '\n' ∉ Nat.toDigits 10 nSessId := fun hc => absurd (isDigit_toDigits hc) (by decide)
  have hversion (r : SdpReader) : r.applyAll (brokenLine (quote "v=0")) = r :=
    applyAll_inline r (by simp [quote]) (by decide +kernel)
  have hown (r : SdpReader) : r.applyAll (brokenLine (quote "o=- " ++ Nat.toDigits 10 nSessId ++ quote " " ++
      Nat.toDigits 10 nSessId ++ quote " IN IP4 " ++ quote sOriginIp)) = r := by
    apply applyAll_inline
    · simp only [quote] at horigin
      simp [quote, hdigits, horigin]
    · have hkind : 'o' ∉ ['s', 'c', 'm', 'a'] := by decide
      exact ofText_other hkind _
  have hlines : sdpLines nSessId session sOriginIp vSourceIps = quote "v=0" ::
      (quote "o=- " ++ Nat.toDigits 10 nSessId ++ quote " " ++ Nat.toDigits 10 nSessId ++ quote " IN IP4 " ++
        quote sOriginIp) :: (quote "s=" ++ quote session.sName) :: restLines session sOriginIp vSourceIps := by
    simp only [sdpLines, headerLines, restLines, List.append_assoc, List.cons_append, List.nil_append]
  rw [parseSdp_eq, textLines, generateSdp, String.toList_ofList, splitOn_lines, hlines, List.flatMap_cons,
    List.flatMap_cons, List.flatMap_cons, applyAll_append, applyAll_append, hversion, applyAll_append, hown,
    applyAll_append]
  rfl

end Text

section Readers
variable {r r' : SdpReader}

/-- What a line adds does not depend on the name and the packet time. -/
theorem untimed_apply (r : SdpReader) (line : SdpLine) : (r.apply line).untimed = (r.untimed.apply line).untimed := by
  cases line <;> rfl

theorem untimed_applyAll (h : r.untimed = r'.untimed) (ls : List (List Char)) :
    (r.applyAll ls).untimed = (r'.applyAll ls).untimed := by
  induction ls generalizing r r' with
  | nil => exact h
  | cons l ls ih =>
    have hstep : (r.apply (.ofText l)).untimed = (r'.apply (.ofText l)).untimed := by
      rw [untimed_apply r, untimed_apply r', h]
    exact ih hstep

theorem finish_transport (r : SdpReader) : r.finish.map SdpSession.transport = r.unnamed.finish := by
  unfold SdpReader.finish SdpReader.unnamed
  split_ifs <;> rfl

theorem unnamed_eq (h : r.untimed = r'.untimed) (htime : r.session.dPacketTimeMs = r'.session.dPacketTimeMs) :
    r.unnamed = r'.unnamed := by
  have hboth := congrArg (fun x : SdpReader => { x with session.dPacketTimeMs := r.session.dPacketTimeMs }) h
  simp only [SdpReader.untimed, SdpReader.unnamed] at hboth ⊢
  rw [hboth, htime]

/-- The first part of a line keeps what the line starts with. -/
theorem splitOn_append_inline {cs : List Char} (hinline : '\n' ∉ cs) (ds : List Char) :
    ∃ first rest, (cs ++ ds).splitOn '\n' = (cs ++ first) :: rest := by
  induction cs with
  | nil =>
    obtain ⟨first, rest, hcons⟩ := List.exists_cons_of_ne_nil (List.splitOn_ne_nil '\n' ds)
    exact ⟨first, rest, hcons⟩
  | cons c cs ih =>
    rw [List.mem_cons, not_or] at hinline
    obtain ⟨first, rest, hcons⟩ := ih hinline.2
    refine ⟨first, rest, ?_⟩
    have hne : (c == '\n') = false := by simpa using Ne.symm hinline.1
    rw [List.cons_append, List.splitOn_cons_eq_if_modifyHead, hne, hcons]
    rfl

/-- Each section has a packet time. -/
theorem exists_packetTime (session : SdpSession) (leg : SdpLeg) (sIp : String) :
    ∃ l ∈ mediaLines session leg sIp, ∃ l' ∈ brokenLine l, ∃ dTimeMs, SdpLine.ofText l' = .ptime dTimeMs := by
  refine ⟨quote "a=ptime:" ++ formatDouble session.dPacketTimeMs, by simp [mediaLines], ?_⟩
  have hinline : '\n' ∉ quote "a=ptime:" := by simp [quote]
  obtain ⟨first, rest, hcons⟩ := splitOn_append_inline hinline (formatDouble session.dPacketTimeMs ++ ['\r'])
  have hends : Ends (quote "a=ptime:") := by simp [Ends, quote, isTrimmed]
  have hkind : SdpLine.ofText (quote "a=ptime:" ++ first) = .ptime (atof (cString (trim first))) :=
    ofText_attribute (trim_append hends first)
  refine ⟨quote "a=ptime:" ++ first, ?_, _, hkind⟩
  rw [brokenLine, List.append_assoc, hcons]
  exact List.mem_cons_self

theorem isMedia_of_sections {l : List Char} {ls : List (List Char)} (h : sections (l :: ls) = []) :
    ¬ isMedia l ∧ sections ls = [] := by
  have hother : ¬ isMedia l := by
    intro hmedia
    rw [(splitSections_media hmedia ls).2] at h
    cases h
  rw [(splitSections_other hother ls).2] at h
  exact ⟨hother, h⟩

/-- A text without an audio section leaves the payload type. -/
theorem payloadType_applyAll (r : SdpReader) {ls : List (List Char)} (h : sections ls = []) :
    (r.applyAll ls).session.nPayloadType = r.session.nPayloadType := by
  induction ls generalizing r with
  | nil => rfl
  | cons l ls ih =>
    obtain ⟨hother, hrest⟩ := isMedia_of_sections h
    have hstep : (r.apply (.ofText l)).session.nPayloadType = r.session.nPayloadType := by
      cases hkind : SdpLine.ofText l with
      | media nPort nPt => exact absurd hkind (ofText_ne_media hother nPort nPt)
      | _ => rfl
    exact (ih _ hrest).trans hstep

/-- All its addresses are for the session. -/
theorem sSessionConnection_applyAll {r : SdpReader} (hnone : r.session.vLegs = []) {ls : List (List Char)}
    (h : sections ls = []) :
    (r.applyAll ls).sSessionConnection = connectionAfter r.sSessionConnection (preamble ls) := by
  induction ls generalizing r with
  | nil => rfl
  | cons l ls ih =>
    obtain ⟨hother, hrest⟩ := isMedia_of_sections h
    obtain ⟨hstep, hconnection⟩ := vLegs_apply_of_nil hnone hother
    rw [applyAll_cons, ih hstep hrest, hconnection, (splitSections_other hother ls).1]
    rfl

theorem sets_grandmaster : Sets (fun (r : SdpReader) l => r.apply (.ofText l)) (fun r => r.session.sPtpGrandmaster)
    fun l => (SdpLine.ofText l).grandmaster? := by
  intro r l
  dsimp only
  cases SdpLine.ofText l <;> rfl

theorem sets_domain : Sets (fun (r : SdpReader) l => r.apply (.ofText l)) (fun r => r.session.nPtpDomain)
    fun l => (SdpLine.ofText l).domain? := by
  intro r l
  dsimp only
  cases SdpLine.ofText l <;> rfl

end Readers

section Inert
variable {sName : String} {config config' : Config} {sSourceName : String} {s : RtpSender}

theorem eq_of_unknown {r : SdpReader} (hlegs : r.session.vLegs = []) (hmids : r.vDupMids = [])
    (hconnection : r.sSessionConnection = "") (hpayload : r.session.nPayloadType = 96)
    (hformat : r.session.format = (24, 48000, 2)) (hgrandmaster : r.session.sPtpGrandmaster = "")
    (hdomain : r.session.nPtpDomain = 0) :
    r = { session := { sName := r.session.sName, dPacketTimeMs := r.session.dPacketTimeMs } } := by
  obtain ⟨session, sConnection, vMids⟩ := r
  cases session
  simp only [SdpSession.format, Prod.mk.injEq] at hlegs hmids hconnection hpayload hformat hgrandmaster hdomain ⊢
  obtain ⟨rfl, rfl, rfl⟩ := hformat
  subst hlegs hmids hconnection hpayload hgrandmaster hdomain
  rfl

/-- Of an inert name the reader knows nothing but a name and a packet time. -/
theorem inert_iff : Inert sName ↔ ∃ sRead dTimeMs,
    SdpReader.applyAll {} (nameLines sName) = { session := { sName := sRead, dPacketTimeMs := dTimeMs } } := by
  have hlegs := vLegs_applyAll (nameLines sName)
  have hmids := vDupMids_applyAll {} (nameLines sName)
  have hpayload (hnone : sections (nameLines sName) = []) := payloadType_applyAll {} hnone
  have hconnection (hnone : sections (nameLines sName) = []) := sSessionConnection_applyAll (r := {}) rfl hnone
  have hformat := format_applyAll {} (nameLines sName)
  have hgrandmaster := sets_grandmaster.foldl {} (nameLines sName)
  have hdomain := sets_domain.foldl {} (nameLines sName)
  change (SdpReader.applyAll {} (nameLines sName)).session.sPtpGrandmaster = _ at hgrandmaster
  change (SdpReader.applyAll {} (nameLines sName)).session.nPtpDomain = _ at hdomain
  generalize SdpReader.applyAll {} (nameLines sName) = r at *
  constructor
  · intro h
    refine ⟨_, _, eq_of_unknown ?_ (hmids.trans h.mids) ((hconnection h.media).trans h.connection) (hpayload h.media)
      (hformat.trans (getLast?_getD_eq_iff.mpr h.format))
      (hgrandmaster.trans (getLast?_getD_eq_iff.mpr h.grandmaster))
      (hdomain.trans (getLast?_getD_eq_iff.mpr h.domain))⟩
    rw [hlegs, h.media]
    rfl
  · rintro ⟨sRead, dTimeMs, rfl⟩
    have hnone := List.map_eq_nil_iff.mp hlegs.symm
    exact ⟨hnone, hmids.symm, (hconnection hnone).symm, getLast?_getD_eq_iff.mp hformat.symm,
      getLast?_getD_eq_iff.mp hgrandmaster.symm, getLast?_getD_eq_iff.mp hdomain.symm⟩

theorem sName_describeSession (config : Config) (c : Ptp.PtpClock) (s : RtpSender) :
    (s.describeSession config c).sName = sessionName config s.sSourceName := rfl

/-- The lines after the name, for a sender and a clock. -/
def senderLines (c : Ptp.PtpClock) (s : RtpSender) : List (List Char) :=
  (restLines (s.describeSession {} c) (s.vSourceIps.headD "0.0.0.0") s.vSourceIps).flatMap brokenLine

theorem inline_origin (h : InlineSources s) : '\n' ∉ quote (s.vSourceIps.headD "0.0.0.0") := by
  cases hips : s.vSourceIps with
  | nil => simp [quote]
  | cons sIp rest => exact h sIp (by simp [hips])

/-- The label stands in the lines of the name only. -/
theorem transportOf_eq (h : InlineSources s) (nSessId : Nat) (config : Config) (c : Ptp.PtpClock) :
    transportOf nSessId config c s =
      (((SdpReader.applyAll {} (nameLines (sessionName config s.sSourceName))).applyAll
        (senderLines c s)).applyAll [[]]).finish.map SdpSession.transport := by
  rw [transportOf, RtpSender.transportFile, parseSdp_generateSdp_rest nSessId (inline_origin h), sName_describeSession]
  rfl

/-- The rest of a description with a leg tells the packet time. -/
theorem packetTimes_senderLines (c : Ptp.PtpClock) (h : s.enabledLegs ≠ []) : packetTimes (senderLines c s) ≠ [] := by
  obtain ⟨nLeg, rest, hlegs⟩ := List.exists_cons_of_ne_nil h
  have hsession : (s.describeSession {} c).vLegs = s.describeLeg nLeg :: rest.map s.describeLeg := by
    rw [RtpSender.describeSession, hlegs]
    rfl
  obtain ⟨l, hl, l', hl', dTimeMs, hkind⟩ := exists_packetTime (s.describeSession {} c) (s.describeLeg nLeg)
    (sourceIp (s.describeLeg nLeg) 0 (s.vSourceIps.headD "0.0.0.0") s.vSourceIps)
  have hmem : l ∈ restLines (s.describeSession {} c) (s.vSourceIps.headD "0.0.0.0") s.vSourceIps := by
    refine List.mem_append_right _ (List.mem_flatMap.mpr ⟨(s.describeLeg nLeg, 0), ?_, hl⟩)
    rw [hsession, List.zipIdx_cons]
    exact List.mem_cons_self
  intro hnone
  have htold := List.filterMap_eq_nil_iff.mp hnone l' (List.mem_flatMap.mpr ⟨l, hmem, hl'⟩)
  rw [hkind] at htold
  cases htold

/-- Without a leg nothing is told. -/
theorem applyAll_senderLines_of_none (c : Ptp.PtpClock) (h : s.enabledLegs = []) (r : SdpReader) :
    r.applyAll (senderLines c s) = r := by
  have hsession : (s.describeSession {} c).vLegs = [] := by
    rw [RtpSender.describeSession, h]
    rfl
  have hlines : senderLines c s = brokenLine (quote "t=0 0") := by
    rw [senderLines, restLines, hsession]
    simp
  rw [hlines]
  exact applyAll_inline r (by simp [quote]) (by decide +kernel)

theorem applyAll_blank (r : SdpReader) : r.applyAll [[]] = r := rfl

/-- A name on one line is inert. -/
theorem inert_of_inline (h : '\n' ∉ quote sName) : Inert sName := by
  have hline : brokenLine (quote "s=" ++ quote sName) = [quote "s=" ++ quote sName ++ ['\r']] := by
    rw [brokenLine, List.splitOn_eq_singleton]
    simp only [quote] at h
    simp [quote, h]
  have hends : Ends ['s', '='] := by simp [Ends, isTrimmed]
  have htrim : trim (quote "s=" ++ quote sName ++ ['\r']) = ['s', '='] ++ trim (quote sName ++ ['\r']) :=
    trim_append hends (quote sName ++ ['\r'])
  have hkind : SdpLine.ofText (quote "s=" ++ quote sName ++ ['\r']) =
      .name (String.ofList (trim (quote sName ++ ['\r']))) := by
    rw [ofText_typed htrim]
    rfl
  have hread : SdpReader.applyAll {} [quote "s=" ++ quote sName ++ ['\r']] =
      SdpReader.apply {} (.ofText (quote "s=" ++ quote sName ++ ['\r'])) := rfl
  rw [inert_iff, nameLines, hline, hread, hkind]
  exact ⟨_, 1, rfl⟩

/-- Two inert names make no difference. -/
theorem transportOf_of_inert (h : InlineSources s) (nSessId : Nat) (c : Ptp.PtpClock)
    (hinert : Inert (sessionName config s.sSourceName)) (hinert' : Inert (sessionName config' s.sSourceName)) :
    transportOf nSessId config c s = transportOf nSessId config' c s := by
  rw [transportOf_eq h, transportOf_eq h, applyAll_blank, applyAll_blank]
  obtain ⟨sRead, dTimeMs, hread⟩ := inert_iff.mp hinert
  obtain ⟨sRead', dTimeMs', hread'⟩ := inert_iff.mp hinert'
  generalize SdpReader.applyAll {} (nameLines (sessionName config s.sSourceName)) = r at hread ⊢
  generalize SdpReader.applyAll {} (nameLines (sessionName config' s.sSourceName)) = r'
    at hread' ⊢
  have hstart : r.untimed = r'.untimed := by
    rw [hread, hread']
    rfl
  by_cases hlegs : s.enabledLegs = []
  · have hnone : r.session.vLegs = [] ∧ r'.session.vLegs = [] := by
      rw [hread, hread']
      exact ⟨rfl, rfl⟩
    rw [applyAll_senderLines_of_none c hlegs, applyAll_senderLines_of_none c hlegs, SdpReader.finish, SdpReader.finish,
      if_pos hnone.1, if_pos hnone.2]
  · -- the packet time of the name is overwritten
    have htime : (r.applyAll (senderLines c s)).session.dPacketTimeMs =
        (r'.applyAll (senderLines c s)).session.dPacketTimeMs := by
      rw [packetTime_applyAll, packetTime_applyAll]
      cases hlast : (packetTimes (senderLines c s)).getLast? with
      | none => exact absurd (List.getLast?_eq_none_iff.mp hlast) (packetTimes_senderLines c hlegs)
      | some dTimeMs => rfl
    rw [finish_transport, finish_transport, unnamed_eq (untimed_applyAll hstart _) htime]

/-- A group that matches some leg has legs with its mids only. -/
theorem sMid_of_mem_groupLegs {vMids : List (List Char)} {legs : List SdpLeg} (hgroup : 1 < vMids.length)
    {leg leg' : SdpLeg} (hleg' : leg' ∈ legs) (hmatch : leg'.sMid.toList ∈ vMids) (h : leg ∈ groupLegs vMids legs) :
    leg.sMid.toList ∈ vMids := by
  have hordered : (vMids.flatMap fun sMid => legs.filter fun leg => leg.sMid.toList = sMid) =
      select (fun leg : SdpLeg => leg.sMid.toList) vMids legs := rfl
  have hsome : select (fun leg : SdpLeg => leg.sMid.toList) vMids legs ≠ [] :=
    List.ne_nil_of_mem (mem_select.mpr ⟨hleg', hmatch⟩)
  simp only [groupLegs, if_pos hgroup, hordered, if_neg hsome] at h
  exact (mem_select.mp h).2

theorem ne_nil_of_mem_groupMids {ls : List (List Char)} {sMid : List Char} (h : sMid ∈ groupMids ls) : sMid ≠ [] := by
  obtain ⟨l, -, hmem⟩ := List.mem_flatMap.mp h
  have hsound := sound_ofText l
  revert hsound hmem
  cases SdpLine.ofText l with
  | group vMids => exact fun hmem hsound => hsound sMid hmem
  | _ => exact fun hmem => absurd hmem List.not_mem_nil

/-- A sender whose address has lines in it: another section, with the payload type of
no format, and a group of one mid. -/
def revealingSender (sSourceName : String) : RtpSender where
  vLegs := [⟨"eth0", "x\nm=audio 7 RTP/AVP 97\na=mid:0.0.0.0\na=group:DUP", true⟩]
  sSourceName := sSourceName

def revealingLegs (sConnection : String) : List SdpLeg :=
  [{ sMulticast := "x" }, { sMid := "0.0.0.0", sMulticast := sConnection, sSourceFilter := "x", nPort := 7 },
    { sMid := "0.0.0.0", sMulticast := sConnection, nPort := 7 }]

/-- What the reader knew before shows in what it knows then. -/
theorem applyAll_revealingSender {r : SdpReader} (h : r.session.vLegs = []) (sSourceName : String) :
    r.applyAll (senderLines {} (revealingSender sSourceName)) =
      { r with
        session.vLegs := revealingLegs r.sSessionConnection
        session.nPayloadType := 97
        session.dPacketTimeMs := 1
        vDupMids := r.vDupMids ++ [quote "0.0.0.0"] } := by
  have hsame : senderLines {} (revealingSender sSourceName) = senderLines {} (revealingSender "") := rfl
  have hkinds : (senderLines {} (revealingSender "")).map SdpLine.ofText =
      [.other, .media 5004 96, .connection "x", .media 7 97, .mid "0.0.0.0", .other, .source "x", .media 7 97,
        .mid "0.0.0.0", .group [quote "0.0.0.0"], .rtpmap 96 24 48000 2, .ptime 1, .other, .other] := by
    decide +kernel
  have hfold : r.applyAll (senderLines {} (revealingSender "")) =
      ((senderLines {} (revealingSender "")).map SdpLine.ofText).foldl SdpReader.apply r := by
    rw [List.foldl_map]
    rfl
  have hformat : ¬ (96 : Int) = 97 := by decide
  rw [hsame, hfold, hkinds]
  simp only [List.foldl_cons, List.foldl_nil, SdpReader.apply, SdpReader.updateLeg, h, List.nil_append,
    List.cons_append, updateLast, reduceCtorEq, if_false, hformat]
  rfl

/-- A configuration with a label of one letter. -/
def plainConfig : Config := { json := .obj [("sender", .obj [("label", .str "x")])] }

theorem sessionName_plainConfig (sSourceName : String) : sessionName plainConfig sSourceName = "x" := rfl

theorem inert_plainConfig (sSourceName : String) : Inert (sessionName plainConfig sSourceName) := by
  rw [sessionName_plainConfig]
  exact inert_of_inline (by simp [quote])

/-- The legs that are returned tell whether mids of another group come first. -/
theorem eq_nil_of_groupLegs {vMids : List (List Char)} (hwords : ∀ sMid ∈ vMids, sMid ≠ []) {sConnection : String}
    (h : { sMulticast := "x" } ∈ (groupLegs (vMids ++ [quote "0.0.0.0"]) (revealingLegs sConnection)).take 2) :
    vMids = [] := by
  by_contra hsome
  have hgroup : 1 < (vMids ++ [quote "0.0.0.0"]).length := by
    have hpos := List.length_pos_of_ne_nil hsome
    rw [List.length_append, List.length_singleton]
    omega
  have hleg : { sMid := "0.0.0.0", sMulticast := sConnection, nPort := 7 } ∈ revealingLegs sConnection := by
    simp [revealingLegs]
  have hmid := sMid_of_mem_groupLegs hgroup hleg (List.mem_append_right _ List.mem_cons_self) (List.mem_of_mem_take h)
  rcases List.mem_append.mp hmid with hmem | hmem
  · exact hwords _ hmem rfl
  · exact absurd (List.mem_singleton.mp hmem) (by decide)

/-- With the sender whose address has lines in it, what the reader knew shows. -/
theorem eq_of_revealingSender {r : SdpReader} (hlegs : r.session.vLegs = []) (hpayload : r.session.nPayloadType = 96)
    (hwords : ∀ sMid ∈ r.vDupMids, sMid ≠ [])
    (h : (r.applyAll (senderLines {} (revealingSender sSourceName))).finish.map SdpSession.transport =
      (SdpReader.applyAll { session := { sName := "x" } } (senderLines {} (revealingSender sSourceName))).finish.map
        SdpSession.transport) :
    r = { session := { sName := r.session.sName, dPacketTimeMs := r.session.dPacketTimeMs } } := by
  rw [applyAll_revealingSender hlegs, applyAll_revealingSender rfl] at h
  have hsession := Option.some.inj h
  have hreturned : (groupLegs (r.vDupMids ++ [quote "0.0.0.0"]) (revealingLegs r.sSessionConnection)).take 2 =
      (groupLegs [quote "0.0.0.0"] (revealingLegs "")).take 2 := congrArg SdpSession.vLegs hsession
  have hmids : r.vDupMids = [] := by
    have hfirst : ({ sMulticast := "x" } : SdpLeg) ∈
        (groupLegs (r.vDupMids ++ [quote "0.0.0.0"]) (revealingLegs r.sSessionConnection)).take 2 := by
      rw [hreturned]
      exact List.mem_cons_self
    exact eq_nil_of_groupLegs hwords hfirst
  have hconnection : r.sSessionConnection = "" := by
    rw [hmids] at hreturned
    exact congrArg SdpLeg.sMulticast (List.cons.inj (List.cons.inj hreturned).2).1
  exact eq_of_unknown hlegs hmids hconnection hpayload (congrArg SdpSession.format hsession)
    (congrArg SdpSession.sPtpGrandmaster hsession) (congrArg SdpSession.nPtpDomain hsession)

/-- What the lines of a name tell shows in the transport of one of two senders. -/
theorem inert_of_leavesTransport (h : LeavesTransport config sSourceName) : Inert (sessionName config sSourceName) := by
  have hinert := inert_plainConfig sSourceName
  have hplain : SdpReader.applyAll {} (nameLines "x") = { session := { sName := "x" } } := by decide +kernel
  have hnone : InlineSources { sSourceName := sSourceName } := fun sIp hmem => absurd hmem List.not_mem_nil
  have hrevealing : InlineSources (revealingSender sSourceName) := fun sIp hmem => absurd hmem List.not_mem_nil
  have hsource : (revealingSender sSourceName).sSourceName = sSourceName := rfl
  have hmids := vDupMids_applyAll {} (nameLines (sessionName config sSourceName))
  have hlegs : (SdpReader.applyAll {} (nameLines (sessionName config sSourceName))).session.vLegs = [] := by
    -- the sender without legs shows whether there is a leg in the name
    have hsilent := h 0 plainConfig {} { sSourceName := sSourceName } rfl hnone hinert
    rw [transportOf_eq hnone, transportOf_eq hnone, applyAll_blank, applyAll_blank, sessionName_plainConfig, hplain,
      applyAll_senderLines_of_none {} rfl, applyAll_senderLines_of_none {} rfl] at hsilent
    by_contra hsome
    rw [SdpReader.finish, if_neg hsome] at hsilent
    cases hsilent
  have hsections : sections (nameLines (sessionName config sSourceName)) = [] := by
    rw [vLegs_applyAll] at hlegs
    exact List.map_eq_nil_iff.mp hlegs
  have hwords : ∀ sMid ∈ (SdpReader.applyAll {} (nameLines (sessionName config sSourceName))).vDupMids, sMid ≠ [] := by
    intro sMid hmem
    rw [hmids] at hmem
    exact ne_nil_of_mem_groupMids hmem
  have hshown := h 0 plainConfig {} (revealingSender sSourceName) rfl hrevealing hinert
  rw [transportOf_eq hrevealing, transportOf_eq hrevealing, applyAll_blank, applyAll_blank, sessionName_plainConfig,
    hplain, hsource] at hshown
  exact inert_iff.mpr ⟨_, _, eq_of_revealingSender hlegs (payloadType_applyAll {} hsections) hwords hshown⟩

/-- A label leaves the transport of every sender just if its lines tell nothing. -/
theorem leavesTransport_iff (config : Config) (sSourceName : String) :
    LeavesTransport config sSourceName ↔ Inert (sessionName config sSourceName) :=
  ⟨inert_of_leavesTransport, fun hinert nSessId config' c s hsource hsources hinert' => by
    subst hsource
    exact transportOf_of_inert hsources nSessId c hinert hinert'⟩

/-- The states of a sender: what `Configure`, `Stop` and the switches make of the first. -/
inductive RtpSender.Reachable : RtpSender → Prop where
  | initial : Reachable {}
  | configure {s : RtpSender} (sys : SenderSystem) (vLegs : List SenderLeg) (nPort : BitVec 16)
      (nPayloadType nPacketTimeUs : Int) (pSource : Option Audio.Source) (h : Reachable s) :
      Reachable (RtpSender.configure sys vLegs nPort nPayloadType nPacketTimeUs pSource s).2
  | stop {s : RtpSender} (h : Reachable s) : Reachable s.stop
  | setLegEnabled {s : RtpSender} (nLeg : Nat) (bEnabled : Bool) (h : Reachable s) :
      Reachable (s.setLegEnabled nLeg bEnabled)

theorem inlineSources_configure (sys : SenderSystem) (vLegs : List SenderLeg) (nPort : BitVec 16)
    (nPayloadType nPacketTimeUs : Int) (pSource : Option Audio.Source) (h : InlineSources s) :
    InlineSources (RtpSender.configure sys vLegs nPort nPayloadType nPacketTimeUs pSource s).2 := by
  cases vLegs with
  | nil => exact h
  | cons leg rest =>
    cases pSource with
    | none => exact h
    | some source =>
      simp only [RtpSender.configure]
      split_ifs
      all_goals
        exact (openLegs_settings sys (leg :: rest) _).2.2 fun sIp hmem => absurd hmem List.not_mem_nil

theorem RtpSender.Reachable.inlineSources (h : s.Reachable) : InlineSources s := by
  induction h with
  | initial => exact fun sIp hmem => absurd hmem List.not_mem_nil
  | configure sys vLegs nPort nPayloadType nPacketTimeUs pSource _ ih =>
    exact inlineSources_configure sys vLegs nPort nPayloadType nPacketTimeUs pSource ih
  | stop _ ih => exact ih
  | setLegEnabled _ _ _ ih => exact ih

/-- A sender of one leg. -/
def singleSender : RtpSender :=
  (RtpSender.configure {} [⟨"eth0", "239.69.145.10", true⟩] 5004 96 1000 (some (.sweep (-18))) {}).2

/-- A label of two lines, the second an m= line. -/
def lineConfig : Config := { json := .obj [("sender", .obj [("label", .str "x\nm=audio 6000 RTP/AVP 96")])] }

/-- The sender of one leg gets another one, on a port it does not use. -/
theorem not_transportOf_of_lines : ¬ ∀ (nSessId : Nat) (config config' : Config) (c : Ptp.PtpClock) (s : RtpSender),
    InlineSources s → transportOf nSessId config c s = transportOf nSessId config' c s := by
  intro hall
  have hreachable : singleSender.Reachable := .configure _ _ _ _ _ _ .initial
  have hsame := hall 0 lineConfig plainConfig {} singleSender hreachable.inlineSources
  rw [transportOf_eq hreachable.inlineSources, transportOf_eq hreachable.inlineSources] at hsame
  exact absurd hsame (by decide +kernel)

end Inert

end PiAudioNode.Rtp
