import PiAudioNode.Ptp.Dataset
import PiAudioNode.Rtp.SdpRoundTrip

/-! Sessions that a description carries whole: what is generated for them parses to
them again, each leg with the source that was written for it. -/
namespace PiAudioNode.Rtp
open Lib

/-- The texts stay on their lines and in their places, the packet time is a number of
microseconds below a second, and the numbers are 32 bits wide. -/
structure Carriable (session : SdpSession) (sOriginIp : String) (vSourceIps : List String) : Prop where
  legs : session.vLegs.length = 1 ∨ session.vLegs.length = 2
  payloadType : Fits session.nPayloadType
  bits : Fits session.nBitsPerSample
  rate : Fits session.nSampleRate
  channels : Fits session.nChannels
  domain : Fits session.nPtpDomain
  someChannels : 1 ≤ session.nChannels
  packetTime : ∃ nUs : Nat, nUs < 1000000 ∧ session.dPacketTimeMs = toDouble (nUs / 1000)
  name : '\n' ∉ quote session.sName ∧ Ends (quote session.sName)
  mids : (session.vLegs.map SdpLeg.sMid).Nodup ∧ ∀ leg ∈ session.vLegs, Unbroken leg.sMid
  addresses : ∀ leg ∈ session.vLegs, Unbroken leg.sMulticast ∧ '/' ∉ quote leg.sMulticast
  filters : ∀ leg ∈ session.vLegs, leg.sSourceFilter ≠ "" → Unbroken leg.sSourceFilter
  grandmaster : Unbroken session.sPtpGrandmaster
  origin : Unbroken sOriginIp
  sources : ∀ sIp ∈ vSourceIps, Unbroken sIp

/-- A leg with the source that is chosen for it; only legs of a group have a mid. -/
def SdpSession.readLeg (session : SdpSession) (sOriginIp : String) (vSourceIps : List String) (x : SdpLeg × Nat) :
    SdpLeg :=
  { x.1 with
    sMid := if 1 < session.vLegs.length then x.1.sMid else ""
    sSourceFilter := sourceIp x.1 x.2 sOriginIp vSourceIps }

/-- The session with the sources that are chosen for its legs. -/
def SdpSession.withSources (session : SdpSession) (sOriginIp : String) (vSourceIps : List String) : SdpSession :=
  { session with vLegs := session.vLegs.zipIdx.map (session.readLeg sOriginIp vSourceIps) }

section Texts
variable {sAddress sIp : String}

theorem lastWord_append {ds : List Char} (h : ' ' ∉ ds) (cs : List Char) : lastWord (cs ++ ' ' :: ds) = ds := by
  have hreverse : (cs ++ ' ' :: ds).reverse = ds.reverse ++ ' ' :: cs.reverse := by simp
  have hds : ∀ c ∈ ds.reverse, decide (c ≠ ' ') = true := by
    intro c hc
    apply decide_eq_true
    rintro rfl
    exact h (List.mem_reverse.mp hc)
  rw [lastWord, hreverse, takeWhile_of_stops hds (stops_cons (by simp) _), List.reverse_reverse]

/-- An address is read up to its slash. -/
theorem carried_of_unbroken (h : Unbroken sAddress) (hslash : '/' ∉ quote sAddress) : carried sAddress = sAddress := by
  have hblank : ' ' ∉ quote sAddress ++ quote "/32" := by
    rw [List.mem_append, not_or]
    exact ⟨h.not_mem rfl, by simp [quote]⟩
  have hword : ((quote sAddress ++ quote "/32").reverse.takeWhile (· ≠ ' ')).reverse =
      quote sAddress ++ quote "/32" := by
    rw [List.takeWhile_eq_self_iff.mpr, List.reverse_reverse]
    intro c hc
    apply decide_eq_true
    rintro rfl
    exact hblank (List.mem_reverse.mp hc)
  have haddress : ∀ c ∈ quote sAddress, decide (c ≠ '/') = true := by
    intro c hc
    apply decide_eq_true
    rintro rfl
    exact hslash hc
  have hlength : Stops (fun c => decide (c ≠ '/')) (quote "/32") := stops_cons (c := '/') (by simp) "32".toList
  rw [carried, hword, takeWhile_of_stops haddress hlength]
  exact String.ofList_toList

theorem filtered_of_unbroken (h : Unbroken sIp) (sAddress : String) : filtered sAddress sIp = sIp := by
  have hparts : ' ' :: (quote sAddress ++ ' ' :: (quote sIp ++ ['\r'])) =
      (' ' :: (quote sAddress ++ [' ']) ++ quote sIp) ++ ['\r'] := by simp
  have htext : quote "source-filter: incl IN IP4" ++ (' ' :: (quote sAddress ++ [' ']) ++ quote sIp) =
      (quote "source-filter: incl IN IP4" ++ (' ' :: quote sAddress)) ++ ' ' :: quote sIp := by simp
  rw [filtered, hparts, trim_return (h.ends _), htext, lastWord_append (h.not_mem rfl)]
  exact String.ofList_toList

/-- An identity is printed in one piece. -/
theorem unbroken_identityToString (id : Ptp.ClockIdentity) : Unbroken (Ptp.identityToString id) := by
  have hdigit : ∀ n < 16, isBlank (Nat.digitChar n) = false := by decide
  exact ⟨Ptp.identityToString_ne_empty id,
    Ptp.forall_identityToString (p := fun c => isBlank c = false) (by decide) hdigit id⟩

end Texts

section Session
variable {session : SdpSession} {sOriginIp : String} {vSourceIps : List String}

theorem Carriable.source (h : Carriable session sOriginIp vSourceIps) {leg : SdpLeg} (hleg : leg ∈ session.vLegs)
    (nLeg : Nat) : Unbroken (sourceIp leg nLeg sOriginIp vSourceIps) := by
  unfold sourceIp
  split_ifs with hown
  · exact h.filters leg hleg hown
  · cases hlisted : vSourceIps[nLeg]? with
    | none => exact h.origin
    | some sIp => exact h.sources sIp (List.mem_of_getElem? hlisted)

theorem Carriable.readLeg_eq (h : Carriable session sOriginIp vSourceIps) {leg : SdpLeg} (hleg : leg ∈ session.vLegs)
    (nLeg : Nat) : readLeg session leg (sourceIp leg nLeg sOriginIp vSourceIps) =
      session.readLeg sOriginIp vSourceIps (leg, nLeg) := by
  obtain ⟨haddress, hslash⟩ := h.addresses leg hleg
  rw [readLeg, carried_of_unbroken haddress hslash, filtered_of_unbroken (h.source hleg nLeg)]
  rfl

/-- The packet time is printed exactly enough to be read as it was. -/
theorem Carriable.kept (h : Carriable session sOriginIp vSourceIps) :
    0 ≤ session.dPacketTimeMs ∧ toDouble (sixSignificant session.dPacketTimeMs) = session.dPacketTimeMs := by
  obtain ⟨nUs, hbelow, htime⟩ := h.packetTime
  rw [htime]
  rcases Nat.eq_zero_or_pos nUs with rfl | hpos
  · simp [toDouble, sixSignificant, sixDigits, roundEven]
  · refine ⟨(toDouble_pos ?_).le, congrArg toDouble (thousandths_kept hpos hbelow)⟩
    have hone : (1 : ℚ) ≤ nUs := by exact_mod_cast hpos
    calc (2 : ℚ) ^ (-1022 : Int) ≤ 2 ^ (-10 : Int) := zpow_le_zpow_right₀ (by norm_num) (by norm_num)
      _ ≤ 1 / 1000 := by norm_num
      _ ≤ nUs / 1000 := by linarith

theorem Carriable.numeric (h : Carriable session sOriginIp vSourceIps) : Numeric session :=
  ⟨h.payloadType, h.bits, h.rate, h.channels, h.someChannels, h.kept.1, h.domain⟩

theorem Carriable.describable (h : Carriable session sOriginIp vSourceIps) :
    Describable session sOriginIp vSourceIps where
  name := h.name.1
  origin := h.origin.not_mem rfl
  sources sIp hsource := (h.sources sIp hsource).not_mem rfl
  legs leg hleg := by
    refine ⟨(h.addresses leg hleg).1.not_mem rfl, ?_⟩
    by_cases hnone : leg.sSourceFilter = ""
    · simp [hnone, quote]
    · exact (h.filters leg hleg hnone).not_mem rfl
  grandmaster := h.grandmaster.not_mem rfl

theorem Carriable.named (h : Carriable session sOriginIp vSourceIps) :
    SdpReader.named session = { session := { sName := session.sName } } := by
  have hname : String.ofList (quote session.sName) = session.sName := String.ofList_toList
  rw [SdpReader.named, trim_return h.name.2, hname]

/-- A reader of sections that knows the name knows everything but the legs. -/
theorem Carriable.withLeg (h : Carriable session sOriginIp vSourceIps) {r : SdpReader}
    (hname : r.session.sName = session.sName) (leg : SdpLeg) :
    r.withLeg session leg = { r with session := { session with vLegs := r.session.vLegs ++ [leg] } } := by
  simp only [SdpReader.withLeg, h.kept.2, if_neg h.grandmaster.1, hname]

/-- Parsing what was generated for a session gives it back. -/
theorem parseSdp_generateSdp_whole (session : SdpSession) (sOriginIp : String) (vSourceIps : List String) (nSessId : Nat)
    (h : Carriable session sOriginIp vSourceIps) :
    parseSdp (generateSdp nSessId session sOriginIp vSourceIps) = some (session.withSources sOriginIp vSourceIps) := by
  have hinline : ∀ leg ∈ session.vLegs, 1 < session.vLegs.length → '\n' ∉ quote leg.sMid :=
    fun leg hleg _ => (h.mids.2 leg hleg).not_mem rfl
  rw [parseSdp_generateSdp nSessId (inline_sdpLines h.describable h.numeric hinline nSessId)]
  rcases h.legs with hone | htwo
  · obtain ⟨leg, hlegs⟩ := List.length_eq_one_iff.mp hone
    have hleg : leg ∈ session.vLegs := by simp [hlegs]
    have hsources : session.withSources sOriginIp vSourceIps =
        { session with vLegs := [session.readLeg sOriginIp vSourceIps (leg, 0)] } := by
      rw [SdpSession.withSources, hlegs]
      rfl
    rw [readLines_single h.numeric hlegs, h.named, h.withLeg rfl, h.readLeg_eq hleg, hsources]
    rfl
  · obtain ⟨first, second, hlegs⟩ := List.length_eq_two.mp htwo
    have hfirst : first ∈ session.vLegs := by simp [hlegs]
    have hsecond : second ∈ session.vLegs := by simp [hlegs]
    have hdistinct : first.sMid ≠ second.sMid := by
      have hnodup := h.mids.1
      rw [hlegs] at hnodup
      simpa using hnodup
    have hmid (leg : SdpLeg) (nLeg : Nat) : (session.readLeg sOriginIp vSourceIps (leg, nLeg)).sMid = leg.sMid :=
      if_pos (by simp [hlegs])
    have hpair := groupLegs_pair (session.readLeg sOriginIp vSourceIps (first, 0))
      (session.readLeg sOriginIp vSourceIps (second, 1)) (by rwa [hmid, hmid])
    have hsources : session.withSources sOriginIp vSourceIps = { session with
        vLegs := [session.readLeg sOriginIp vSourceIps (first, 0),
          session.readLeg sOriginIp vSourceIps (second, 1)] } := by
      rw [SdpSession.withSources, hlegs]
      rfl
    rw [hmid, hmid] at hpair
    rw [readLines_pair h.numeric hlegs (h.mids.2 first hfirst) (h.mids.2 second hsecond), h.named, h.withLeg rfl,
      h.withLeg rfl, h.readLeg_eq hfirst, h.readLeg_eq hsecond, hsources]
    simp only [SdpReader.finish, List.nil_append, List.cons_append, hpair]
    rfl

/-- Two paths at 125 us, one of them with a source of its own. -/
def twoPaths : SdpSession where
  sName := "line in"
  vLegs := [{ sMid := "A", sMulticast := "239.1.1.1" },
    { sMid := "B", sMulticast := "239.1.1.2", sSourceFilter := "10.0.0.9" }]
  dPacketTimeMs := toDouble (125 / 1000)
  sPtpGrandmaster := Ptp.identityToString default
  nPtpDomain := 5

theorem twoPaths_carriable : Carriable twoPaths "10.0.0.1" ["10.0.0.2"] where
  legs := Or.inr rfl
  payloadType := by decide
  bits := by decide
  rate := by decide
  channels := by decide
  domain := by decide
  someChannels := by decide
  packetTime := ⟨125, by norm_num, by norm_num [twoPaths]⟩
  name := by simp [twoPaths, quote, Ends, isTrimmed]
  mids := by simp [twoPaths, Unbroken, quote, isBlank]
  addresses := by simp [twoPaths, Unbroken, quote, isBlank]
  filters := by simp [twoPaths, Unbroken, quote, isBlank]
  grandmaster := unbroken_identityToString default
  origin := by simp [Unbroken, quote, isBlank]
  sources := by simp [Unbroken, quote, isBlank]

theorem twoPaths_whole : parseSdp (generateSdp 7 twoPaths "10.0.0.1" ["10.0.0.2"]) = some { twoPaths with
    vLegs := [{ sMid := "A", sMulticast := "239.1.1.1", sSourceFilter := "10.0.0.2" },
      { sMid := "B", sMulticast := "239.1.1.2", sSourceFilter := "10.0.0.9" }] } :=
  parseSdp_generateSdp_whole twoPaths "10.0.0.1" ["10.0.0.2"] 7 twoPaths_carriable

end Session

end PiAudioNode.Rtp
