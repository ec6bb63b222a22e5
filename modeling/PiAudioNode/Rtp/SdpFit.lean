import PiAudioNode.Lib.Latest
import PiAudioNode.Rtp.Receiver
import PiAudioNode.Rtp.SdpSections

/-! Whether a session that was read is one that the receiver can work with: sample
widths it decodes, ports as they are written, and a packet time that it can count in
frames. -/
namespace PiAudioNode.Rtp
open Lib

section Definitions

/-- The frames of a packet time as they are multiplied out. The double for infinity and
what stands for no number stay as large. -/
def framesIn (dPacketTimeMs : ℚ) : ℚ := toDouble (toDouble (sampleRate * dPacketTimeMs) / 1000)

def truncated (x : ℚ) : Int := if 0 ≤ x then ⌊x⌋ else ⌈x⌉

/-- The conversion to `size_t` has a result: the number without its fraction. -/
def ConvertsTo (x : ℚ) (n : BitVec 64) : Prop := (n.toNat : Int) = truncated x

/-- The frame count that `Configure` makes of a converted one. -/
def frameCount (n : BitVec 64) : Nat := if n.toNat = 0 then 48 else n.toNat

/-- The number written on an m= line after the word. -/
def writtenPort (l : List Char) : Int := integerAt (skipBlanks ((cString ((trim l).drop 2)).drop 5))

/-- The formats that are heeded, each with its width, rate and channels: those for the
payload type of the m= line above. -/
def heededFormats (nPt : Int) : List (List Char) → List (Int × Int × Int)
  | [] => []
  | l :: ls =>
    match SdpLine.ofText l with
    | .media _ nOther => heededFormats nOther ls
    | .rtpmap nOther nBits nRate nChannels =>
      if nOther = nPt then (nBits, nRate, nChannels) :: heededFormats nPt ls else heededFormats nPt ls
    | _ => heededFormats nPt ls

def heededWidths (nPt : Int) (ls : List (List Char)) : List Int := (heededFormats nPt ls).map Prod.fst

def SdpSession.format (session : SdpSession) : Int × Int × Int :=
  (session.nBitsPerSample, session.nSampleRate, session.nChannels)

def packetTimes (ls : List (List Char)) : List ℚ := ls.filterMap fun l => (SdpLine.ofText l).ptime?

variable (ls : List (List Char))

/-- The sections whose legs are returned. -/
def selected : List (SdpSection × Nat) :=
  (if 1 < (groupMids ls).length ∧ matching ls ≠ [] then matching ls else numbered ls).take 2

/-- A session as the receiver needs it. -/
structure Fit (session : SdpSession) : Prop where
  bits : session.nBitsPerSample = 16 ∨ session.nBitsPerSample = 24
  channels : 1 ≤ session.nChannels
  ports : session.vLegs.map (fun leg => (leg.nPort.toNat : Int)) = (selected ls).map fun x => writtenPort x.1.sMedia
  frames : ∃ n, ConvertsTo (framesIn session.dPacketTimeMs) n ∧ 0 < frameCount n

/-- What the text has to say for that: the last width that is heeded is one of the two,
the selected sections have port numbers, and the last packet time is neither below
nor above the range. -/
structure Fitting : Prop where
  bits : ∀ nBits ∈ (heededWidths 96 ls).getLast?, nBits = 16 ∨ nBits = 24
  ports : ∀ x ∈ selected ls, 0 ≤ writtenPort x.1.sMedia ∧ writtenPort x.1.sMedia < 2 ^ 16
  packetTime : ∀ dTimeMs ∈ (packetTimes ls).getLast?, -1 < framesIn dTimeMs ∧ framesIn dTimeMs < 2 ^ 64

end Definitions

section Numbers

/-- Just the numbers between -1 and 2^64 are converted. -/
theorem exists_convertsTo (x : ℚ) : (∃ n, ConvertsTo x n ∧ 0 < frameCount n) ↔ -1 < x ∧ x < 2 ^ 64 := by
  have hcount (n : BitVec 64) : 0 < frameCount n := by
    rw [frameCount]
    split_ifs <;> omega
  have hrange : (0 ≤ truncated x ∧ truncated x < 2 ^ 64) ↔ -1 < x ∧ x < 2 ^ 64 := by
    rw [truncated]
    split_ifs with hneg
    · have hhigh : ⌊x⌋ < 2 ^ 64 ↔ x < 2 ^ 64 := by
        rw [Int.floor_lt]
        norm_num
      rw [hhigh]
      exact and_congr_left fun _ => iff_of_true (Int.floor_nonneg.mpr hneg) (by linarith)
    · rw [not_le] at hneg
      have hlow : 0 ≤ ⌈x⌉ ↔ -1 < x := by
        have hceil : -1 < ⌈x⌉ ↔ ((-1 : Int) : ℚ) < x := Int.lt_ceil
        push_cast at hceil
        rw [← hceil]
        omega
      have hhigh : ⌈x⌉ ≤ 0 := Int.ceil_le.mpr (by exact_mod_cast hneg.le)
      rw [hlow]
      exact and_congr_right fun _ => iff_of_true (by omega) (by linarith)
  rw [← hrange]
  constructor
  · rintro ⟨n, hn, -⟩
    have hlt := n.isLt
    rw [ConvertsTo] at hn
    omega
  · rintro ⟨hlow, hhigh⟩
    refine ⟨BitVec.ofInt 64 (truncated x), ?_, hcount _⟩
    rw [ConvertsTo, BitVec.toNat_ofInt]
    omega

end Numbers

section Lines

/-- The port of a section is the low word of what is written. -/
theorem mediaPort_eq {l : List Char} (h : isMedia l) : mediaPort l = held (writtenPort l) := by
  obtain ⟨nPort, nPt, hkind⟩ := isMedia_iff.mp h
  have hsound := sound_ofText l
  rw [hkind] at hsound
  have hport : mediaPort l = nPort := by simp only [mediaPort, hkind]
  rw [hport]
  exact hsound

theorem isMedia_sections (ls : List (List Char)) : ∀ sec ∈ sections ls, isMedia sec.sMedia := by
  induction ls with
  | nil => intro sec hsec; cases hsec
  | cons l ls ih =>
    intro sec hsec
    by_cases hmedia : isMedia l
    · rw [(splitSections_media hmedia ls).2] at hsec
      rcases List.mem_cons.mp hsec with rfl | hsec
      · exact hmedia
      · exact ih sec hsec
    · rw [(splitSections_other hmedia ls).2] at hsec
      exact ih sec hsec

theorem nPort_applyAll (leg : SdpLeg) (ls : List (List Char)) : (leg.applyAll ls).nPort = leg.nPort := by
  induction ls generalizing leg with
  | nil => rfl
  | cons l ls ih =>
    have hstep : (leg.apply (.ofText l)).nPort = leg.nPort := by cases SdpLine.ofText l <;> rfl
    exact (ih _).trans hstep

theorem SdpSection.nPort_leg (sConnection : String) {sec : SdpSection} (h : isMedia sec.sMedia) :
    (sec.leg sConnection).nPort = BitVec.ofInt 16 (held (writtenPort sec.sMedia)) := by
  rw [SdpSection.leg, nPort_applyAll, mediaPort_eq h]

end Lines

section Reading
variable {ls : List (List Char)}

theorem format_applyAll (r : SdpReader) (ls : List (List Char)) : (r.applyAll ls).session.format =
    (heededFormats r.session.nPayloadType ls).getLast?.getD r.session.format := by
  rw [← List.getLastD_eq_getLast?]
  induction ls generalizing r with
  | nil => rfl
  | cons l ls ih =>
    rw [applyAll_cons, ih, heededFormats]
    cases SdpLine.ofText l with
    | rtpmap nPt nBits nRate nChannels =>
      simp only [SdpReader.apply, SdpSession.format]
      split_ifs
      · rw [List.getLastD_cons]
      · rfl
    | _ => rfl

theorem bits_applyAll (r : SdpReader) (ls : List (List Char)) : (r.applyAll ls).session.nBitsPerSample =
    (heededWidths r.session.nPayloadType ls).getLast?.getD r.session.nBitsPerSample := by
  have hbits : r.session.nBitsPerSample = Prod.fst r.session.format := rfl
  rw [heededWidths, List.getLast?_map, hbits, Option.getD_map]
  exact congrArg Prod.fst (format_applyAll r ls)

theorem sets_packetTime : Sets (fun (r : SdpReader) l => r.apply (.ofText l)) (fun r => r.session.dPacketTimeMs)
    fun l => (SdpLine.ofText l).ptime? := by
  intro r l
  dsimp only
  cases SdpLine.ofText l <;> rfl

theorem packetTime_applyAll (r : SdpReader) (ls : List (List Char)) : (r.applyAll ls).session.dPacketTimeMs =
    (packetTimes ls).getLast?.getD r.session.dPacketTimeMs :=
  sets_packetTime.foldl r ls

theorem channels_applyAll {r : SdpReader} (h : 1 ≤ r.session.nChannels) (ls : List (List Char)) :
    1 ≤ (r.applyAll ls).session.nChannels := by
  induction ls generalizing r with
  | nil => exact h
  | cons l ls ih =>
    have hsound := sound_ofText l
    have hstep : 1 ≤ (r.apply (.ofText l)).session.nChannels := by
      revert hsound
      cases SdpLine.ofText l with
      | rtpmap nPt nBits nRate nChannels =>
        intro hsound
        simp only [SdpReader.apply]
        split_ifs
        · exact hsound.2
        · exact h
      | _ => exact fun _ => h
    exact ih hstep

/-- The ports that are returned are those written on the m= lines just if these are
port numbers. -/
theorem ports_iff (ls : List (List Char)) (sConnection : String) :
    ((selected ls).map fun x => x.1.leg sConnection).map (fun leg => (leg.nPort.toNat : Int)) =
        (selected ls).map (fun x => writtenPort x.1.sMedia) ↔
      ∀ x ∈ selected ls, 0 ≤ writtenPort x.1.sMedia ∧ writtenPort x.1.sMedia < 2 ^ 16 := by
  rw [List.map_map, List.map_inj_left]
  refine forall₂_congr fun x hx => ?_
  have hnumbered : x ∈ numbered ls := by
    have hmem := List.mem_of_mem_take hx
    split_ifs at hmem
    · exact mem_numbered_of_matching hmem
    · exact hmem
  have hsection : x.1 ∈ sections ls := by
    rw [numbered, List.mem_zipIdx_iff_getElem?] at hnumbered
    exact List.mem_of_getElem? hnumbered
  simp only [Function.comp_apply, SdpSection.nPort_leg _ (isMedia_sections ls x.1 hsection)]
  exact toNat_ofInt_held _

/-- One section of two channels, with what is said of its packets. -/
def sectionText (sWidth sTime : String) : String :=
  "m=audio 5004 RTP/AVP 96\na=rtpmap:96 L" ++ sWidth ++ "/48000/2\na=ptime:" ++ sTime ++ "\n"

end Reading

end PiAudioNode.Rtp
