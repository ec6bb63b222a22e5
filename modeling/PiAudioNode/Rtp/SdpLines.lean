import PiAudioNode.Rtp.SdpRoundTrip

/-! What each line of a description tells, apart from what the reader knows by then. -/
namespace PiAudioNode.Rtp
open Lib

inductive SdpLine where
  | name (sName : String)
  | connection (sAddr : String)
  | media (nPort nPt : Int)
  | group (vMids : List (List Char))
  | mid (sMid : String)
  | rtpmap (nPt nBits nRate nChannels : Int)
  | ptime (dTimeMs : ℚ)
  | source (sSource : String)
  | clock (sGrandmaster : String) (nDomain : Option Int)
  | other
  deriving DecidableEq

namespace SdpLine

def ofConnection (sValue : List Char) : SdpLine :=
  match splitLast ' ' sValue with
  | none => other
  | some (_, sAddr) => connection (String.ofList (sAddr.takeWhile (· ≠ '/')))

def ofMedia (sValue : List Char) : SdpLine :=
  match scanf [.text "audio".toList, .blank, .decimal, .blank, .text "RTP/AVP".toList, .blank, .decimal]
      (cString sValue) with
  | [] => other
  | nPort :: rest => media nPort (rest.headD 96)

def ofRtpmap (sValue : List Char) : SdpLine :=
  match scanf [.text "rtpmap:".toList, .decimal, .blank, .text ['L'], .decimal, .text ['/'], .decimal, .text ['/'],
      .decimal] (cString sValue) with
  | nPt :: nBits :: nRate :: rest => rtpmap nPt nBits nRate (if 0 < rest.headD 0 then rest.headD 0 else 1)
  | _ => other

def ofSource (sValue : List Char) : SdpLine :=
  match splitLast ' ' sValue with
  | none => other
  | some (_, sSource) => source (String.ofList sSource)

def ofRefclk (sClock : List Char) : SdpLine :=
  if ':' ∈ sClock then
    let sRest := (sClock.dropWhile (· ≠ ':')).tail
    match splitLast ':' sRest with
    | some (sGrandmaster, sDomain) => clock (String.ofList sGrandmaster) (some (atoi (cString sDomain)))
    | none => clock (String.ofList sRest) none
  else other

def ofAttribute (sValue : List Char) : SdpLine :=
  if let some sMids := stripPrefix "group:DUP ".toList sValue then group (words sMids)
  else if (stripPrefix "mid:".toList sValue).isSome then mid (String.ofList (sValue.drop 4))
  else if (stripPrefix "rtpmap:".toList sValue).isSome then ofRtpmap sValue
  else if let some sTime := stripPrefix "ptime:".toList sValue then ptime (atof (cString sTime))
  else if (stripPrefix "source-filter:".toList sValue).isSome then ofSource sValue
  else if let some sClock := stripPrefix "ts-refclk:ptp=".toList sValue then ofRefclk sClock
  else other

def ofText (sLine : List Char) : SdpLine :=
  match trim sLine with
  | cType :: '=' :: sValue =>
    if cType = 's' then name (String.ofList sValue)
    else if cType = 'c' then ofConnection sValue
    else if cType = 'm' then ofMedia sValue
    else if cType = 'a' then ofAttribute sValue
    else other
  | _ => other

def connection? : SdpLine → Option String
  | connection sAddr => some sAddr
  | _ => none

def mid? : SdpLine → Option String
  | mid sMid => some sMid
  | _ => none

def source? : SdpLine → Option String
  | source sSource => some sSource
  | _ => none

def ptime? : SdpLine → Option ℚ
  | ptime dTimeMs => some dTimeMs
  | _ => none

def grandmaster? : SdpLine → Option String
  | clock sGrandmaster _ => some sGrandmaster
  | _ => none

def domain? : SdpLine → Option Int
  | clock _ nDomain => nDomain
  | _ => none

end SdpLine

/-- What a line adds to what is known. A line about a leg is about the last one. -/
def SdpReader.apply (r : SdpReader) : SdpLine → SdpReader
  | .name sName => { r with session.sName := sName }
  | .connection sAddr =>
    { r with
      session.vLegs := updateLast ({ · with sMulticast := sAddr }) r.session.vLegs
      sSessionConnection := if r.session.vLegs = [] then sAddr else r.sSessionConnection }
  | .media nPort nPt =>
    { r with
      session.vLegs := r.session.vLegs ++ [{ nPort := BitVec.ofInt 16 nPort, sMulticast := r.sSessionConnection }]
      session.nPayloadType := nPt }
  | .group vMids => { r with vDupMids := r.vDupMids ++ vMids }
  | .mid sMid => r.updateLeg ({ · with sMid := sMid })
  | .rtpmap nPt nBits nRate nChannels =>
    { r with
      session.nBitsPerSample := if nPt = r.session.nPayloadType then nBits else r.session.nBitsPerSample
      session.nSampleRate := if nPt = r.session.nPayloadType then nRate else r.session.nSampleRate
      session.nChannels := if nPt = r.session.nPayloadType then nChannels else r.session.nChannels }
  | .ptime dTimeMs => { r with session.dPacketTimeMs := dTimeMs }
  | .source sSource => r.updateLeg ({ · with sSourceFilter := sSource })
  | .clock sGrandmaster nDomain =>
    { r with
      session.sPtpGrandmaster := sGrandmaster
      session.nPtpDomain := nDomain.getD r.session.nPtpDomain }
  | .other => r

/-- The lines of a text. -/
def textLines (sSdp : String) : List (List Char) := sSdp.toList.splitOn '\n'

def SdpReader.applyAll (r : SdpReader) (ls : List (List Char)) : SdpReader :=
  ls.foldl (fun r l => r.apply (.ofText l)) r

section Readers
variable (r : SdpReader)

theorem applyAll_cons (l : List Char) (ls : List (List Char)) :
    r.applyAll (l :: ls) = (r.apply (.ofText l)).applyAll ls := rfl

theorem applyAll_append (ls more : List (List Char)) : r.applyAll (ls ++ more) = (r.applyAll ls).applyAll more :=
  List.foldl_append

theorem readConnection_eq (sValue : List Char) : readConnection sValue r = r.apply (.ofConnection sValue) := by
  rw [readConnection, SdpLine.ofConnection]
  cases splitLast ' ' sValue with
  | none => rfl
  | some x =>
    by_cases hnone : r.session.vLegs = []
    · simp only [if_pos hnone, SdpReader.apply]
      rw [hnone, updateLast, ← hnone]
    · simp only [if_neg hnone, SdpReader.apply]
      rfl

theorem readMedia_eq (sValue : List Char) : readMedia sValue r = r.apply (.ofMedia sValue) := by
  unfold readMedia SdpLine.ofMedia
  generalize scanf _ _ = numbers
  cases numbers <;> rfl

theorem readRtpmap_eq (sValue : List Char) : readRtpmap sValue r = r.apply (.ofRtpmap sValue) := by
  unfold readRtpmap SdpLine.ofRtpmap
  generalize scanf _ _ = numbers
  rcases numbers with _ | ⟨nPt, _ | ⟨nBits, _ | ⟨nRate, rest⟩⟩⟩
  · rfl
  · rfl
  · rfl
  · by_cases hown : nPt = r.session.nPayloadType
    · simp only [if_pos hown, SdpReader.apply]
    · simp only [if_neg hown, SdpReader.apply]

theorem readRefclk_eq (sClock : List Char) : readRefclk sClock r = r.apply (.ofRefclk sClock) := by
  rw [readRefclk, SdpLine.ofRefclk]
  by_cases hcolon : ':' ∈ sClock
  · simp only [if_pos hcolon]
    cases splitLast ':' (sClock.dropWhile (· ≠ ':')).tail <;> rfl
  · rw [if_neg hcolon, if_neg hcolon]
    rfl

/-- A line about a leg does nothing before there is one. -/
theorem updateLeg_of_none {r : SdpReader} (h : r.session.vLegs = []) (f : SdpLeg → SdpLeg) : r.updateLeg f = r := by
  rw [SdpReader.updateLeg, h, updateLast, ← h]

/-- A text has at most one of two prefixes that start differently. -/
theorem stripPrefix_exclusive {c d : Char} {s t cs : List Char} (h : (stripPrefix (c :: s) cs).isSome) (hne : c ≠ d) :
    stripPrefix (d :: t) cs = none := by
  rw [stripPrefix] at h
  split_ifs at h with hprefix
  · refine if_neg fun hother => hne ?_
    obtain ⟨rest, rfl⟩ := List.isPrefixOf_iff_prefix.mp hprefix
    exact (List.cons_prefix_cons.mp (List.isPrefixOf_iff_prefix.mp hother)).1.symm
  · cases h

theorem readAttribute_eq (sValue : List Char) : readAttribute sValue r = r.apply (.ofAttribute sValue) := by
  rw [readAttribute, SdpLine.ofAttribute]
  cases hgroup : stripPrefix "group:DUP ".toList sValue with
  | some sMids => rfl
  | none =>
    by_cases hmid : (stripPrefix "mid:".toList sValue).isSome
    · by_cases hlegs : r.session.vLegs = []
      · have hmap : stripPrefix "rtpmap:".toList sValue = none := stripPrefix_exclusive hmid (by decide)
        have htime : stripPrefix "ptime:".toList sValue = none := stripPrefix_exclusive hmid (by decide)
        have hsource : stripPrefix "source-filter:".toList sValue = none := stripPrefix_exclusive hmid (by decide)
        have hclock : stripPrefix "ts-refclk:ptp=".toList sValue = none := stripPrefix_exclusive hmid (by decide)
        have happly : r.apply (.mid (String.ofList (sValue.drop 4))) = r := updateLeg_of_none hlegs _
        simp only [hmid, hlegs, hmap, htime, hsource, hclock, happly, ne_eq, not_true, and_false, if_false, if_true,
          Option.isSome_none, Bool.false_eq_true]
      · simp only [hmid, hlegs, ne_eq, not_false_iff, and_self, if_true]
        rfl
    · simp only [hmid, Bool.false_eq_true, false_and, if_false]
      by_cases hmap : (stripPrefix "rtpmap:".toList sValue).isSome
      · simp only [hmap, if_true]
        exact readRtpmap_eq r sValue
      · simp only [hmap, Bool.false_eq_true, if_false]
        cases htime : stripPrefix "ptime:".toList sValue with
        | some sTime => rfl
        | none =>
          by_cases hsource : (stripPrefix "source-filter:".toList sValue).isSome
          · simp only [hsource, true_and, if_true]
            rw [SdpLine.ofSource]
            by_cases hlegs : r.session.vLegs = []
            · have hclock : stripPrefix "ts-refclk:ptp=".toList sValue = none :=
                stripPrefix_exclusive hsource (by decide)
              have happly (sSource : String) : r.apply (.source sSource) = r := updateLeg_of_none hlegs _
              simp only [hlegs, hclock, ne_eq, not_true, if_false]
              cases splitLast ' ' sValue with
              | none => rfl
              | some x => exact (happly _).symm
            · simp only [hlegs, ne_eq, not_false_iff, if_true]
              cases splitLast ' ' sValue <;> rfl
          · simp only [hsource, Bool.false_eq_true, false_and, if_false]
            cases stripPrefix "ts-refclk:ptp=".toList sValue with
            | some sClock => exact readRefclk_eq r sClock
            | none => rfl

/-- A line with a type is told apart by it. -/
theorem ofText_typed {sLine sValue : List Char} {cType : Char} (h : trim sLine = cType :: '=' :: sValue) :
    SdpLine.ofText sLine =
      if cType = 's' then .name (String.ofList sValue)
      else if cType = 'c' then .ofConnection sValue
      else if cType = 'm' then .ofMedia sValue
      else if cType = 'a' then .ofAttribute sValue
      else .other := by
  simp only [SdpLine.ofText, h]

theorem ofText_untyped {sLine : List Char} (h : ∀ cType sValue, trim sLine ≠ cType :: '=' :: sValue) :
    SdpLine.ofText sLine = .other := by
  unfold SdpLine.ofText
  split
  · next heq => exact absurd heq (h _ _)
  · rfl

theorem readLine_untyped {sLine : List Char} (h : ∀ cType sValue, trim sLine ≠ cType :: '=' :: sValue) :
    readLine r sLine = r := by
  unfold readLine
  split
  · next heq => exact absurd heq (h _ _)
  · rfl

/-- The reader does with a line what the line tells. -/
theorem readLine_eq_apply (sLine : List Char) : readLine r sLine = r.apply (.ofText sLine) := by
  by_cases htyped : ∃ cType sValue, trim sLine = cType :: '=' :: sValue
  · obtain ⟨cType, sValue, htrim⟩ := htyped
    rw [ofText_typed htrim]
    simp only [readLine, htrim]
    split_ifs
    · rfl
    · exact readConnection_eq r sValue
    · exact readMedia_eq r sValue
    · exact readAttribute_eq r sValue
    · rfl
  · have hnone : ∀ cType sValue, trim sLine ≠ cType :: '=' :: sValue := fun cType sValue heq =>
      htyped ⟨cType, sValue, heq⟩
    rw [readLine_untyped r hnone, ofText_untyped hnone]
    rfl

theorem readText_eq (sSdp : String) : readText r sSdp.toList = r.applyAll (textLines sSdp) := by
  rw [readText, SdpReader.applyAll, textLines]
  congr 1
  funext r l
  exact readLine_eq_apply r l

end Readers

theorem parseSdp_eq (sSdp : String) : parseSdp sSdp = (SdpReader.applyAll {} (textLines sSdp)).finish := by
  rw [parseSdp, readText_eq]

section Numbers

/-- Where the numbers of a line come from, and their range. The mids are words. -/
def SdpLine.Sound (sValue : List Char) : SdpLine → Prop
  | .media nPort _ => nPort = held (integerAt (skipBlanks ((cString sValue).drop 5)))
  | .rtpmap nPt _ _ nChannels => Fits nPt ∧ 1 ≤ nChannels
  | .group vMids => ∀ sMid ∈ vMids, sMid ≠ []
  | _ => True

theorem sound_ofMedia (sValue : List Char) : (SdpLine.ofMedia sValue).Sound sValue := by
  unfold SdpLine.ofMedia
  split
  · trivial
  · next nPort rest hscan =>
    rw [scanf] at hscan
    cases hword : stripPrefix "audio".toList (cString sValue) with
    | none =>
      rw [hword] at hscan
      cases hscan
    | some sRest =>
      rw [hword] at hscan
      have hdrop : sRest = (cString sValue).drop 5 := by
        rw [stripPrefix] at hword
        split_ifs at hword
        exact (Option.some.inj hword).symm
      have hdecimal : scanf [.decimal, .blank, .text "RTP/AVP".toList, .blank, .decimal] (skipBlanks sRest) =
          nPort :: rest := hscan
      have honce : skipBlanks (skipBlanks sRest) = skipBlanks sRest := List.dropWhile_idempotent isBlank sRest
      rw [scanf, honce] at hdecimal
      cases hnumber : scanDecimal (skipBlanks sRest) with
      | none =>
        rw [hnumber] at hdecimal
        cases hdecimal
      | some x =>
        rw [hnumber] at hdecimal
        have hport : x.1 = nPort := (List.cons.inj hdecimal).1
        rw [SdpLine.Sound, ← hport, ← hdrop]
        exact scanDecimal_held hnumber

theorem sound_ofRtpmap (sValue : List Char) : (SdpLine.ofRtpmap sValue).Sound sValue := by
  unfold SdpLine.ofRtpmap
  split
  · next nPt nBits nRate rest hscan =>
    refine ⟨scanf_bounds _ _ nPt (hscan ▸ List.mem_cons_self), ?_⟩
    split_ifs with hpositive
    · exact hpositive
    · exact le_refl 1
  · trivial

theorem sound_ofAttribute (sValue : List Char) : (SdpLine.ofAttribute sValue).Sound sValue := by
  unfold SdpLine.ofAttribute
  split
  · next sMids _ =>
    intro sMid hmem
    exact of_decide_eq_true (List.mem_filter.mp hmem).2
  · split_ifs
    · trivial
    · exact sound_ofRtpmap sValue
    · split
      · trivial
      · unfold SdpLine.ofSource
        split <;> trivial
    · split
      · trivial
      · split
        · unfold SdpLine.ofRefclk
          split_ifs
          · dsimp only
            split <;> trivial
          · trivial
        · trivial

theorem sound_ofText (l : List Char) : (SdpLine.ofText l).Sound ((trim l).drop 2) := by
  by_cases htyped : ∃ cType sValue, trim l = cType :: '=' :: sValue
  · obtain ⟨cType, sValue, htrim⟩ := htyped
    rw [ofText_typed htrim, htrim]
    split_ifs
    · trivial
    · unfold SdpLine.ofConnection
      split <;> trivial
    · exact sound_ofMedia sValue
    · exact sound_ofAttribute sValue
    · trivial
  · rw [ofText_untyped fun cType sValue heq => htyped ⟨cType, sValue, heq⟩]
    trivial

end Numbers

end PiAudioNode.Rtp
