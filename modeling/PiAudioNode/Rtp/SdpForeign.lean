import PiAudioNode.Rtp.SdpFit

/-! Media sections of other kinds in a description, and what they do to the audio legs:
their lines are taken for lines of the audio section above. -/
namespace PiAudioNode.Rtp
open Lib

section Definitions

def joinLines (ls : List (List Char)) : String := String.ofList (['\n'].intercalate ls)

def IsMediaLine (l : List Char) : Prop := ['m', '='] <+: trim l

/-- A line of one of the kinds that a section is described with. -/
def IsSectionLine (l : List Char) : Prop :=
  ['c', '='] <+: trim l ∨ quote "a=mid:" <+: trim l ∨ quote "a=source-filter:" <+: trim l ∨
    quote "a=rtpmap:" <+: trim l ∨ quote "a=ptime:" <+: trim l

instance (l : List Char) : Decidable (IsMediaLine l) := inferInstanceAs (Decidable (_ <+: _))
instance (l : List Char) : Decidable (IsSectionLine l) := inferInstanceAs (Decidable (_ ∨ _))

def SdpSection.lines (sec : SdpSection) : List (List Char) := sec.sMedia :: sec.vLines

/-- A section that is no audio section, whatever its lines say. -/
structure Foreign (sec : SdpSection) : Prop where
  media : IsMediaLine sec.sMedia
  rejected : ¬ isMedia sec.sMedia
  described : ∀ l ∈ sec.vLines, IsSectionLine l
  inline : ∀ l ∈ sec.lines, '\n' ∉ l

/-- The lines before are those of some sections as a whole; another section may follow,
or the end of the text with or without a line end. -/
structure AtSectionEnd (pre post : List (List Char)) : Prop where
  some_section : ∃ l ∈ pre, IsMediaLine l
  next : post = [] ∨ post = [[]] ∨ ∃ l rest, post = l :: rest ∧ IsMediaLine l
  inline : ∀ l ∈ pre ++ post, '\n' ∉ l

/-- The legs, the format and the packet time of a session. -/
def SdpSession.audio (session : SdpSession) : SdpSession :=
  { session with sName := "", sPtpGrandmaster := "", nPtpDomain := 0 }

def audioOf (ls : List (List Char)) : Option SdpSession := (parseSdp (joinLines ls)).map SdpSession.audio

/-- Inserting the section at the end of any section of any text leaves the audio. -/
def LeavesAudio (sec : SdpSection) : Prop :=
  ∀ pre post, AtSectionEnd pre post → audioOf (pre ++ sec.lines ++ post) = audioOf (pre ++ post)

/-- No line of the section tells the reader anything. -/
def TellsNothing (sec : SdpSection) : Prop := ∀ l ∈ sec.vLines, SdpLine.ofText l = .other

end Definitions

section Lines

theorem textLines_joinLines {ls : List (List Char)} (hne : ls ≠ []) (h : ∀ l ∈ ls, '\n' ∉ l) :
    textLines (joinLines ls) = ls := by
  rw [textLines, joinLines, String.toList_ofList]
  exact List.splitOn_intercalate '\n' h hne

/-- Lines that tell nothing change nothing. -/
theorem applyAll_of_other {ls : List (List Char)} (h : ∀ l ∈ ls, SdpLine.ofText l = .other) (r : SdpReader) :
    r.applyAll ls = r := by
  induction ls with
  | nil => rfl
  | cons l ls ih =>
    have hfirst : r.apply (.ofText l) = r := by
      rw [h l List.mem_cons_self]
      rfl
    rw [applyAll_cons, hfirst]
    exact ih fun l hl => h l (List.mem_cons_of_mem _ hl)

theorem splitSections_of_forall {ls : List (List Char)} (h : ∀ l ∈ ls, ¬ isMedia l) :
    preamble ls = ls ∧ sections ls = [] := by
  induction ls with
  | nil => exact ⟨rfl, rfl⟩
  | cons l ls ih =>
    obtain ⟨hpre, hsections⟩ := splitSections_other (h l List.mem_cons_self) ls
    obtain ⟨hpre', hsections'⟩ := ih fun l hl => h l (List.mem_cons_of_mem _ hl)
    exact ⟨hpre.trans (congrArg _ hpre'), hsections.trans hsections'⟩

/-- The kinds of lines that tell about a section. -/
def SdpLine.OfSection : SdpLine → Prop
  | .connection _ | .mid _ | .source _ | .rtpmap .. | .ptime _ | .other => True
  | _ => False

theorem ofSection_ofRtpmap (sValue : List Char) : (SdpLine.ofRtpmap sValue).OfSection := by
  unfold SdpLine.ofRtpmap
  split <;> trivial

/-- An attribute with its name in front. -/
theorem ofText_attribute {l cs : List Char} (h : trim l = 'a' :: '=' :: cs) :
    SdpLine.ofText l = SdpLine.ofAttribute cs := by
  rw [ofText_typed h]
  rfl

theorem ofSection_of_isSectionLine {l : List Char} (h : IsSectionLine l) : (SdpLine.ofText l).OfSection := by
  rcases h with ⟨cs, h⟩ | ⟨cs, h⟩ | ⟨cs, h⟩ | ⟨cs, h⟩ | ⟨cs, h⟩
  · have hkind : SdpLine.ofText l = SdpLine.ofConnection cs := by
      rw [ofText_typed h.symm]
      rfl
    rw [hkind]
    unfold SdpLine.ofConnection
    split <;> trivial
  · have hkind : SdpLine.ofAttribute (quote "mid:" ++ cs) = .mid (String.ofList cs) := rfl
    rw [ofText_attribute h.symm]
    change (SdpLine.ofAttribute (quote "mid:" ++ cs)).OfSection
    rw [hkind]
    trivial
  · have hkind : SdpLine.ofAttribute (quote "source-filter:" ++ cs) =
        SdpLine.ofSource (quote "source-filter:" ++ cs) := rfl
    rw [ofText_attribute h.symm]
    change (SdpLine.ofAttribute (quote "source-filter:" ++ cs)).OfSection
    rw [hkind]
    unfold SdpLine.ofSource
    split <;> trivial
  · have hkind : SdpLine.ofAttribute (quote "rtpmap:" ++ cs) = SdpLine.ofRtpmap (quote "rtpmap:" ++ cs) := rfl
    rw [ofText_attribute h.symm]
    change (SdpLine.ofAttribute (quote "rtpmap:" ++ cs)).OfSection
    rw [hkind]
    exact ofSection_ofRtpmap _
  · have hkind : SdpLine.ofAttribute (quote "ptime:" ++ cs) = .ptime (atof (cString cs)) := rfl
    rw [ofText_attribute h.symm]
    change (SdpLine.ofAttribute (quote "ptime:" ++ cs)).OfSection
    rw [hkind]
    trivial

/-- The m= line of a foreign section tells nothing itself. -/
theorem ofText_of_rejected {l : List Char} (h : IsMediaLine l) (hrejected : ¬ isMedia l) :
    SdpLine.ofText l = .other := by
  obtain ⟨cs, hcs⟩ := h
  have hkind : SdpLine.ofText l = SdpLine.ofMedia cs := by
    rw [ofText_typed hcs.symm]
    rfl
  have hnone : ∀ nPort nPt, SdpLine.ofMedia cs ≠ .media nPort nPt := fun nPort nPt heq =>
    ofText_ne_media hrejected nPort nPt (hkind.trans heq)
  rw [hkind]
  unfold SdpLine.ofMedia at hnone ⊢
  split
  · rfl
  · next nPort rest hscan =>
    rw [hscan] at hnone
    exact absurd rfl (hnone _ _)

end Lines

section Probe
variable {sec : SdpSection} {nPt nBits : Int} {dTimeMs : ℚ}

/-- A leg whose texts are all one. -/
def probeLeg (sText : String) : SdpLeg := { sMid := sText, sMulticast := sText }

def probeSession (nPt nBits : Int) (dTimeMs : ℚ) (sText : String) : SdpSession where
  vLegs := [probeLeg sText, probeLeg sText]
  nPayloadType := nPt
  nBitsPerSample := nBits
  dPacketTimeMs := dTimeMs

/-- One section of such a session. -/
def probeLines (nPt nBits : Int) (dTimeMs : ℚ) (sText : String) : List (List Char) :=
  (mediaLines (probeSession nPt nBits dTimeMs sText) (probeLeg sText) sText).map (· ++ ['\r'])

/-- What is read of a probe. -/
structure Probing (nPt nBits : Int) (dTimeMs : ℚ) (sText : String) : Prop where
  payloadType : Fits nPt
  bits : Fits nBits
  packetTime : 0 ≤ dTimeMs
  text : Unbroken sText

theorem Probing.numeric {sText : String} (h : Probing nPt nBits dTimeMs sText) :
    Numeric (probeSession nPt nBits dTimeMs sText) := by
  have hrate : Fits 48000 := by decide
  have hchannels : Fits 2 := by decide
  have hdomain : Fits 0 := by decide
  exact ⟨h.payloadType, h.bits, hrate, hchannels, by norm_num [probeSession], h.packetTime, hdomain⟩

theorem Probing.applyAll {sText : String} (h : Probing nPt nBits dTimeMs sText) :
    SdpReader.applyAll {} (probeLines nPt nBits dTimeMs sText) =
      SdpReader.withLeg {} (probeSession nPt nBits dTimeMs sText)
        (readLeg (probeSession nPt nBits dTimeMs sText) (probeLeg sText) sText) := by
  rw [← readLines_mediaLines {} h.numeric _ sText fun _ => h.text]
  rw [SdpReader.applyAll, probeLines, List.foldl_map, readLines]
  congr 1
  funext r l
  exact (readLine_eq_apply r _).symm

theorem Probing.inline {sText : String} (h : Probing nPt nBits dTimeMs sText) :
    ∀ l ∈ probeLines nPt nBits dTimeMs sText, '\n' ∉ l := by
  have htext : '\n' ∉ quote sText := h.text.not_mem rfl
  have hdescribable : Describable (probeSession nPt nBits dTimeMs sText) sText [] :=
    { name := by simp [probeSession, quote]
      origin := htext
      sources := by simp
      legs := by simpa [probeSession, probeLeg, quote] using htext
      grandmaster := by simp [probeSession, quote] }
  have hleg : probeLeg sText ∈ (probeSession nPt nBits dTimeMs sText).vLegs := List.mem_cons_self
  intro l hl
  obtain ⟨l', hl', rfl⟩ := List.mem_map.mp hl
  have hinline := inline_mediaLines hdescribable h.numeric hleg (fun _ => htext) 0 l' hl'
  simpa using hinline

theorem isMediaLine_cons (cs : List Char) : IsMediaLine ('m' :: '=' :: cs) := by
  have hends : Ends ['m', '='] := by simp [Ends, isTrimmed]
  have htrim : trim ('m' :: '=' :: cs) = ['m', '='] ++ trim cs := trim_append hends cs
  rw [IsMediaLine, htrim]
  exact List.prefix_append ..

/-- The end of a probe is the end of a section. -/
theorem Probing.atSectionEnd {sText : String} (h : Probing nPt nBits dTimeMs sText) :
    AtSectionEnd (probeLines nPt nBits dTimeMs sText) [] where
  some_section := ⟨_, List.mem_cons_self, isMediaLine_cons _⟩
  next := Or.inl rfl
  inline := by
    rw [List.append_nil]
    exact h.inline

/-- A text with one audio section is read as that section. -/
theorem audioOf_single {ls : List (List Char)} (hne : ls ≠ []) (hinline : ∀ l ∈ ls, '\n' ∉ l) {leg : SdpLeg}
    (hlegs : (SdpReader.applyAll {} ls).session.vLegs = [leg]) (hmids : groupMids ls = []) :
    audioOf ls = some (SdpReader.applyAll {} ls).session.audio := by
  have hwords : (SdpReader.applyAll {} ls).vDupMids = [] := by rw [vDupMids_applyAll, hmids]; rfl
  have hkept : { (SdpReader.applyAll {} ls).session with vLegs := [leg] } = (SdpReader.applyAll {} ls).session := by
    rw [← hlegs]
  rw [audioOf, parseSdp_eq, textLines_joinLines hne hinline, SdpReader.finish, if_neg (by simp [hlegs]), hwords, hlegs]
  exact congrArg (fun session : SdpSession => some session.audio) hkept

theorem Foreign.isMedia_lines (h : Foreign sec) : ∀ l ∈ sec.lines, ¬ isMedia l := by
  intro l hl hmedia
  rcases List.mem_cons.mp hl with rfl | hl
  · exact h.rejected hmedia
  · obtain ⟨nPort, nPt, hkind⟩ := isMedia_iff.mp hmedia
    have hsection := ofSection_of_isSectionLine (h.described l hl)
    rw [hkind] at hsection
    exact hsection

theorem Foreign.groupMids_lines (h : Foreign sec) : groupMids sec.lines = [] := by
  refine List.flatMap_eq_nil_iff.mpr fun l hl => ?_
  rcases List.mem_cons.mp hl with rfl | hl
  · rw [ofText_of_rejected h.media h.rejected]
  · have hsection := ofSection_of_isSectionLine (h.described l hl)
    revert hsection
    cases SdpLine.ofText l with
    | group vMids => exact False.elim
    | _ => exact fun _ => rfl

/-- A section that leaves the audio leaves that of a probe. -/
theorem LeavesAudio.probe (h : LeavesAudio sec) (hforeign : Foreign sec) {sText : String}
    (hprobe : Probing nPt nBits dTimeMs sText) :
    (readLeg (probeSession nPt nBits dTimeMs sText) (probeLeg sText) sText).applyAll sec.lines =
        readLeg (probeSession nPt nBits dTimeMs sText) (probeLeg sText) sText ∧
      (heededWidths nPt sec.lines).getLast?.getD nBits = nBits ∧
      (packetTimes sec.lines).getLast?.getD (toDouble (sixSignificant dTimeMs)) = toDouble (sixSignificant dTimeMs) := by
  generalize hleg : readLeg (probeSession nPt nBits dTimeMs sText) (probeLeg sText) sText = leg
  have hreader := hprobe.applyAll
  rw [hleg] at hreader
  have hlegs : (SdpReader.applyAll {} (probeLines nPt nBits dTimeMs sText)).session.vLegs = [] ++ [leg] := by
    rw [hreader]
    rfl
  have hmids : groupMids (probeLines nPt nBits dTimeMs sText) = [] := by
    have hwords := vDupMids_applyAll {} (probeLines nPt nBits dTimeMs sText)
    rw [hreader] at hwords
    exact hwords.symm
  have hne : probeLines nPt nBits dTimeMs sText ≠ [] := List.cons_ne_nil _ _
  have hsame := h (probeLines nPt nBits dTimeMs sText) [] hprobe.atSectionEnd
  rw [List.append_nil, List.append_nil, audioOf_single hne hprobe.inline hlegs hmids] at hsame
  -- the lines of the section are read as lines of the probe
  obtain ⟨hpre, hsections⟩ := splitSections_of_forall hforeign.isMedia_lines
  have hafter : ((SdpReader.applyAll {} (probeLines nPt nBits dTimeMs sText)).applyAll sec.lines).session.vLegs = _ :=
    vLegs_applyAll_of_append hlegs
  rw [hpre, hsections, List.map_nil, ← applyAll_append] at hafter
  have hboth : groupMids (probeLines nPt nBits dTimeMs sText ++ sec.lines) = [] := by
    have hsplit : groupMids (probeLines nPt nBits dTimeMs sText ++ sec.lines) =
        groupMids (probeLines nPt nBits dTimeMs sText) ++ groupMids sec.lines := List.flatMap_append
    rw [hsplit, hmids, hforeign.groupMids_lines]
    rfl
  have hinline : ∀ l ∈ probeLines nPt nBits dTimeMs sText ++ sec.lines, '\n' ∉ l := by
    intro l hl
    rcases List.mem_append.mp hl with hl | hl
    · exact hprobe.inline l hl
    · exact hforeign.inline l hl
  rw [audioOf_single (List.append_ne_nil_of_left_ne_nil hne _) hinline hafter hboth, applyAll_append] at hsame
  have hsession := Option.some.inj hsame
  have hlegs' := congrArg SdpSession.vLegs hsession
  have hbits' := congrArg SdpSession.nBitsPerSample hsession
  have htime' := congrArg SdpSession.dPacketTimeMs hsession
  simp only [SdpSession.audio, bits_applyAll, packetTime_applyAll, hreader] at hbits' htime'
  simp only [SdpSession.audio, ← applyAll_append, hafter, hlegs] at hlegs'
  exact ⟨(List.cons.inj hlegs').1, hbits', htime'⟩

theorem sets_sMulticast : Sets (fun (leg : SdpLeg) l => leg.apply (.ofText l)) SdpLeg.sMulticast
    fun l => (SdpLine.ofText l).connection? := by
  intro leg l
  dsimp only
  cases SdpLine.ofText l <;> rfl

theorem sets_sMid : Sets (fun (leg : SdpLeg) l => leg.apply (.ofText l)) SdpLeg.sMid
    fun l => (SdpLine.ofText l).mid? := by
  intro leg l
  dsimp only
  cases SdpLine.ofText l <;> rfl

theorem sets_sSourceFilter : Sets (fun (leg : SdpLeg) l => leg.apply (.ofText l)) SdpLeg.sSourceFilter
    fun l => (SdpLine.ofText l).source? := by
  intro leg l
  dsimp only
  cases SdpLine.ofText l <;> rfl

/-- Among lines of one section every format for its payload type is heeded. -/
theorem mem_heededFormats {ls : List (List Char)} (h : ∀ l ∈ ls, ¬ isMedia l) {l : List Char} (hl : l ∈ ls)
    {nRate nChannels : Int} (hkind : SdpLine.ofText l = .rtpmap nPt nBits nRate nChannels) :
    (nBits, nRate, nChannels) ∈ heededFormats nPt ls := by
  induction ls with
  | nil => cases hl
  | cons l' ls ih =>
    have hrest := fun hl => ih (fun l hl => h l (List.mem_cons_of_mem _ hl)) hl
    rw [heededFormats]
    rcases List.mem_cons.mp hl with rfl | hl
    · simp only [hkind, if_true]
      exact List.mem_cons_self
    · have hmedia := h l' List.mem_cons_self
      cases hkind' : SdpLine.ofText l' with
      | media nPort nOther => exact absurd hkind' (ofText_ne_media hmedia nPort nOther)
      | rtpmap nOther nBits' nRate' nChannels' =>
        simp only
        split_ifs
        · exact List.mem_cons_of_mem _ (hrest hl)
        · exact hrest hl
      | _ => exact hrest hl

theorem probing_x (h : Fits nPt) : Probing nPt 24 1 "x" :=
  ⟨h, by decide, by norm_num, by simp [Unbroken, quote, isBlank]⟩

theorem probing_y (h : Fits nPt) : Probing nPt 16 2 "y" :=
  ⟨h, by decide, by norm_num, by simp [Unbroken, quote, isBlank]⟩

/-- A line that tells something shows in one of two different probes. -/
theorem tellsNothing_of_leavesAudio (hforeign : Foreign sec) (h : LeavesAudio sec) : TellsNothing sec := by
  intro l hl
  have hmem : l ∈ sec.lines := List.mem_cons_of_mem _ hl
  have hdefault : Fits 96 := by decide
  obtain ⟨hlegx, -, htimex⟩ := h.probe hforeign (probing_x hdefault)
  obtain ⟨hlegy, -, htimey⟩ := h.probe hforeign (probing_y hdefault)
  have hkinds := ofSection_of_isSectionLine (hforeign.described l hl)
  cases hkind : SdpLine.ofText l with
  | other => rfl
  | connection sAddr =>
    have hne : carried "x" ≠ carried "y" := by decide +kernel
    have hnone := sets_sMulticast.told_eq_none hne (congrArg SdpLeg.sMulticast hlegx) (congrArg SdpLeg.sMulticast hlegy)
      l hmem
    rw [hkind] at hnone
    cases hnone
  | mid sMid =>
    have hne : "x" ≠ "y" := by decide
    have hnone := sets_sMid.told_eq_none hne (congrArg SdpLeg.sMid hlegx) (congrArg SdpLeg.sMid hlegy) l hmem
    rw [hkind] at hnone
    cases hnone
  | source sSource =>
    have hne : filtered "x" "x" ≠ filtered "y" "y" := by decide +kernel
    have hnone := sets_sSourceFilter.told_eq_none hne (congrArg SdpLeg.sSourceFilter hlegx)
      (congrArg SdpLeg.sSourceFilter hlegy) l hmem
    rw [hkind] at hnone
    cases hnone
  | ptime dTimeMs =>
    have hne : toDouble (sixSignificant 1) ≠ toDouble (sixSignificant 2) := by decide +kernel
    have hnone := List.filterMap_eq_nil_iff.mp (eq_nil_of_getLast? hne htimex htimey) l hmem
    rw [hkind] at hnone
    cases hnone
  | rtpmap nPt nBits nRate nChannels =>
    -- the probes have the payload type that the line is about
    have hsound := sound_ofText l
    rw [hkind] at hsound
    obtain ⟨-, hbitsx, -⟩ := h.probe hforeign (probing_x hsound.1)
    obtain ⟨-, hbitsy, -⟩ := h.probe hforeign (probing_y hsound.1)
    have hnone := eq_nil_of_getLast? (by norm_num) hbitsx hbitsy
    have hheeded := mem_heededFormats hforeign.isMedia_lines hmem hkind
    rw [List.map_eq_nil_iff.mp hnone] at hheeded
    cases hheeded
  | _ =>
    rw [hkind] at hkinds
    exact hkinds.elim

theorem leavesAudio_of_tellsNothing (hforeign : Foreign sec) (h : TellsNothing sec) : LeavesAudio sec := by
  intro pre post hend
  have hlines : ∀ l ∈ sec.lines, SdpLine.ofText l = .other := by
    intro l hl
    rcases List.mem_cons.mp hl with rfl | hl
    · exact ofText_of_rejected hforeign.media hforeign.rejected
    · exact h l hl
  have hne : pre ≠ [] := by
    obtain ⟨l, hl, -⟩ := hend.some_section
    exact List.ne_nil_of_mem hl
  have hinline : ∀ l ∈ pre ++ sec.lines ++ post, '\n' ∉ l := by
    intro l hl
    simp only [List.mem_append] at hl
    rcases hl with (hl | hl) | hl
    · exact hend.inline l (List.mem_append_left _ hl)
    · exact hforeign.inline l hl
    · exact hend.inline l (List.mem_append_right _ hl)
  rw [audioOf, audioOf, parseSdp_eq, parseSdp_eq, textLines_joinLines (by simp [hne]) hinline,
    textLines_joinLines (by simp [hne]) hend.inline, applyAll_append, applyAll_append, applyAll_of_other hlines,
    applyAll_append]

/-- A foreign section can be put behind any section of any text if and only if none of
its lines tells anything; any other is taken for a line of an audio section. -/
theorem leavesAudio_iff (hforeign : Foreign sec) : LeavesAudio sec ↔ TellsNothing sec :=
  ⟨tellsNothing_of_leavesAudio hforeign, leavesAudio_of_tellsNothing hforeign⟩

/-- A video section with an address of its own. -/
def videoSection (sAttribute : String) : SdpSection where
  sMedia := quote "m=video 5006 RTP/AVP 97"
  vLines := [quote sAttribute]

theorem foreign_videoSection {sAttribute : String} (hkind : IsSectionLine (quote sAttribute))
    (hinline : '\n' ∉ quote sAttribute) : Foreign (videoSection sAttribute) := by
  have hmedia : IsMediaLine (quote "m=video 5006 RTP/AVP 97") := by decide +kernel
  have hrejected : ¬ isMedia (quote "m=video 5006 RTP/AVP 97") := by decide +kernel
  refine ⟨hmedia, hrejected, by simpa [videoSection] using hkind, fun l hl => ?_⟩
  rcases List.mem_cons.mp hl with rfl | hl
  · simp [videoSection, quote]
  · rw [List.mem_singleton.mp hl]
    exact hinline

/-- The audio leg gets the address of the video. -/
theorem not_leavesAudio_of_connection : ¬ ∀ sec, Foreign sec → LeavesAudio sec := by
  intro hall
  have hforeign : Foreign (videoSection "c=IN IP4 239.9.9.9/32") :=
    foreign_videoSection (by decide +kernel) (by simp [quote])
  have htells := tellsNothing_of_leavesAudio hforeign (hall _ hforeign) _ List.mem_cons_self
  exact absurd htells (by decide +kernel)

theorem leavesAudio_of_h264 : LeavesAudio (videoSection "a=rtpmap:97 H264/90000") := by
  refine (leavesAudio_iff (foreign_videoSection (by decide +kernel) (by simp [quote]))).mpr ?_
  intro l hl
  rw [List.mem_singleton.mp hl]
  decide +kernel

end Probe

end PiAudioNode.Rtp
