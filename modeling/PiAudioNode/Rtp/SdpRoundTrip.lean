import PiAudioNode.Lib.Numeral
import PiAudioNode.Rtp.SdpText

/-! Reading back the description that is written for a session. -/
namespace PiAudioNode.Rtp
open Lib

section Lines
variable {cs ds : List Char}

/-- A character that is neither cut off at the end of a line nor ends one. -/
def Keeps (c : Char) : Prop := ¬ isTrimmed c ∧ c ≠ '\x00'

instance (c : Char) : Decidable (Keeps c) := inferInstanceAs (Decidable (_ ∧ _))

/-- Text without an end of line or of text. -/
def Plain (cs : List Char) : Prop := ∀ c ∈ cs, c = ' ' ∨ Keeps c

instance (cs : List Char) : Decidable (Plain cs) := inferInstanceAs (Decidable (∀ c ∈ cs, _))

/-- Text that ends where it seems to. -/
def Ends (cs : List Char) : Prop := ∀ c ∈ cs.getLast?, ¬ isTrimmed c

instance (cs : List Char) : Decidable (Ends cs) := inferInstanceAs (Decidable (∀ c ∈ cs.getLast?, _))

theorem plain_append (hcs : Plain cs) (hds : Plain ds) : Plain (cs ++ ds) := by
  intro c hc
  rcases List.mem_append.mp hc with hc | hc
  · exact hcs c hc
  · exact hds c hc

theorem plain_of_keeps (h : ∀ c ∈ cs, Keeps c) : Plain cs := fun c hc => Or.inr (h c hc)

theorem Plain.not_mem (h : Plain cs) : '\n' ∉ cs := by
  intro hc
  rcases h _ hc with heq | hkeeps
  · cases heq
  · exact absurd rfl hkeeps.1

theorem ends_append (hne : ds ≠ []) (h : ∀ c ∈ ds, Keeps c) (cs : List Char) : Ends (cs ++ ds) := by
  intro c hc
  rw [List.getLast?_append_of_ne_nil _ hne] at hc
  exact (h c (List.mem_of_getLast? hc)).1

theorem keeps_of_isNumeral {c : Char} (h : isNumeral c) : Keeps c := by
  refine ⟨fun htrim => ?_, ?_⟩
  · simp only [isTrimmed, Bool.or_eq_true, decide_eq_true_eq] at htrim
    rcases htrim with (rfl | rfl) | rfl <;> exact absurd h (by decide)
  · rintro rfl
    exact absurd h (by decide)

theorem trim_append (h : Ends cs) (ds : List Char) : trim (cs ++ ds) = cs ++ trim ds := by
  rw [trim, trim, List.reverse_append, List.dropWhile_append]
  split_ifs with hempty
  · have hds : ds.reverse.dropWhile isTrimmed = [] := List.isEmpty_iff.mp hempty
    rw [hds, List.reverse_nil, List.append_nil, dropWhile_of_stops, List.reverse_reverse]
    intro c hc
    rw [List.head?_reverse] at hc
    exact h c hc
  · rw [List.reverse_append, List.reverse_reverse]

theorem trim_return (h : Ends cs) : trim (cs ++ ['\r']) = cs := by
  rw [trim_append h]
  exact List.append_nil _

theorem cString_of_plain (h : Plain cs) : cString cs = cs := by
  refine List.takeWhile_eq_self_iff.mpr fun c hc => ?_
  rcases h c hc with rfl | hkeeps
  · decide
  · exact decide_eq_true hkeeps.2

theorem splitLast_append {c : Char} (h : c ∉ ds) : splitLast c (cs ++ c :: ds) = some (cs, ds) := by
  have hstop : (cs ++ c :: ds).reverse = ds.reverse ++ c :: cs.reverse := by simp
  have hds : ∀ d ∈ ds.reverse, decide (d ≠ c) = true := by
    intro d hd
    refine decide_eq_true ?_
    rintro rfl
    exact h (List.mem_reverse.mp hd)
  rw [splitLast, if_pos (by simp), hstop, takeWhile_of_stops hds (stops_cons (by simp) _), List.reverse_reverse,
    List.dropWhile_append_of_pos hds]
  simp

/-- A line is read by its type, without the end of the line. -/
theorem readLine_cons (r : SdpReader) (cType : Char) (cs : List Char) : readLine r (cType :: '=' :: cs) =
    if cType = 's' then { r with session.sName := String.ofList (trim cs) }
    else if cType = 'c' then readConnection (trim cs) r
    else if cType = 'm' then readMedia (trim cs) r
    else if cType = 'a' then readAttribute (trim cs) r
    else r := by
  have hequals : Ends [cType, '='] := by
    intro c hc
    obtain rfl : '=' = c := Option.some.inj hc
    decide
  have htrim : trim (cType :: '=' :: cs) = cType :: '=' :: trim cs := trim_append hequals cs
  simp only [readLine, htrim]

theorem readLine_connection (r : SdpReader) (h : Ends cs) :
    readLine r ('c' :: '=' :: (cs ++ ['\r'])) = readConnection cs r := by
  rw [readLine_cons, trim_return h]
  rfl

theorem readLine_media (r : SdpReader) (h : Ends cs) : readLine r ('m' :: '=' :: (cs ++ ['\r'])) = readMedia cs r := by
  rw [readLine_cons, trim_return h]
  rfl

theorem readLine_attribute (r : SdpReader) (h : Ends cs) :
    readLine r ('a' :: '=' :: (cs ++ ['\r'])) = readAttribute cs r := by
  rw [readLine_cons, trim_return h]
  rfl

/-- The texts between line ends, one after the other. -/
theorem readText_lines (r : SdpReader) {lines : List (List Char)} (h : ∀ l ∈ lines, '\n' ∉ l) :
    readText r (lines.flatMap (· ++ ['\r', '\n'])) = lines.foldl (fun r l => readLine r (l ++ ['\r'])) r := by
  induction lines generalizing r with
  | nil => rfl
  | cons l lines ih =>
    have hfirst : '\n' ∉ l ++ ['\r'] := by
      intro hc
      rcases List.mem_append.mp hc with hc | hc
      · exact h l List.mem_cons_self hc
      · cases List.mem_singleton.mp hc
    have hsplit : (l ++ ['\r', '\n']) ++ lines.flatMap (· ++ ['\r', '\n']) =
        (l ++ ['\r']) ++ '\n' :: lines.flatMap (· ++ ['\r', '\n']) := by simp
    rw [List.flatMap_cons, hsplit, readText,  List.splitOn_append_cons_self_of_not_mem hfirst,
      List.foldl_cons, List.foldl_cons]
    exact ih _ fun l hl => h l (List.mem_cons_of_mem _ hl)

theorem isNumeral_decimal (n : Int) : ∀ c ∈ decimal n, isNumeral c := by
  intro c hc
  rw [decimal] at hc
  split_ifs at hc
  · rcases List.mem_cons.mp hc with rfl | hc
    · rfl
    · exact isNumeral_of_isDigit (isDigit_toDigits hc)
  · exact isNumeral_of_isDigit (isDigit_toDigits hc)

theorem keeps_decimal (n : Int) : ∀ c ∈ decimal n, Keeps c := fun c hc => keeps_of_isNumeral (isNumeral_decimal n c hc)

theorem decimal_ne_nil (n : Int) : decimal n ≠ [] := by
  rw [decimal]
  split_ifs
  · simp
  · exact Nat.toDigits_ne_nil

theorem plain_decimal (n : Int) : Plain (decimal n) := plain_of_keeps (keeps_decimal n)

theorem ends_decimal (cs : List Char) (n : Int) : Ends (cs ++ decimal n) :=
  ends_append (decimal_ne_nil n) (keeps_decimal n) cs

end Lines

/-- Numbers of 32 bits. -/
def Fits (n : Int) : Prop := -2 ^ 31 ≤ n ∧ n < 2 ^ 31

instance (n : Int) : Decidable (Fits n) := inferInstanceAs (Decidable (_ ∧ _))

/-- The address a receiver takes from the connection line of a leg. -/
def carried (sAddress : String) : String :=
  String.ofList (((quote sAddress ++ quote "/32").reverse.takeWhile (· ≠ ' ')).reverse.takeWhile (· ≠ '/'))

/-- What follows the last blank. -/
def lastWord (cs : List Char) : List Char := (cs.reverse.takeWhile (· ≠ ' ')).reverse

/-- The source a receiver takes from the source filter of a leg. -/
def filtered (sAddress sIp : String) : String :=
  String.ofList (lastWord (quote "source-filter: incl IN IP4" ++
    trim (' ' :: (quote sAddress ++ ' ' :: (quote sIp ++ ['\r'])))))

section Values
variable {r : SdpReader} {rest : List Char}

theorem scanf_fits {n : Int} (h : Fits n) (hrest : Stops Char.isDigit rest) (directives : List Directive) :
    scanf (.decimal :: directives) (decimal n ++ rest) = n :: scanf directives rest :=
  scanf_decimal h.1 h.2 hrest directives

theorem scanf_last {n : Int} (h : Fits n) : scanf [.decimal] (decimal n) = [n] := by
  have hscan := scanf_fits h (stops_nil Char.isDigit) []
  rwa [List.append_nil] at hscan

theorem stops_last (n : Int) : Stops isBlank (decimal n) := by
  have hstop := stops_decimal n []
  rwa [List.append_nil] at hstop

theorem readMedia_value (r : SdpReader) (nPort : BitVec 16) {nPt : Int} (h : Fits nPt) :
    readMedia (quote "audio " ++ decimal nPort.toNat ++ quote " RTP/AVP " ++ decimal nPt) r =
      { r with
        session.vLegs := r.session.vLegs ++ [{ nPort, sMulticast := r.sSessionConnection }]
        session.nPayloadType := nPt } := by
  have hport : Fits nPort.toNat := by
    have := nPort.isLt
    constructor <;> omega
  have hplain : Plain (quote "audio " ++ decimal nPort.toNat ++ quote " RTP/AVP " ++ decimal nPt) :=
    plain_append (plain_append (plain_append (by simp [quote, Plain, Keeps, isTrimmed]) (plain_decimal _))
      (by simp [quote, Plain, Keeps, isTrimmed])) (plain_decimal _)
  have haudio : quote "audio " = "audio".toList ++ [' '] := rfl
  have hprofile : quote " RTP/AVP " = ' ' :: "RTP/AVP".toList ++ [' '] := rfl
  have hscan : scanf [.text "audio".toList, .blank, .decimal, .blank, .text "RTP/AVP".toList, .blank, .decimal]
      (quote "audio " ++ decimal nPort.toNat ++ quote " RTP/AVP " ++ decimal nPt) = [(nPort.toNat : Int), nPt] := by
    have hrtp : Stops isBlank ("RTP/AVP".toList ++ ' ' :: decimal nPt) :=
      stops_cons (by decide) ("TP/AVP".toList ++ ' ' :: decimal nPt)
    simp only [haudio, hprofile, List.append_assoc, List.cons_append, List.nil_append]
    rw [scanf_text, scanf_blank (stops_decimal _ _), scanf_fits hport (stops_cons (by decide) _), scanf_blank hrtp,
      scanf_text, scanf_blank (stops_last nPt), scanf_last h]
  have hnumber : BitVec.ofInt 16 nPort.toNat = nPort := by simp
  simp only [readMedia, cString_of_plain hplain, hscan, hnumber]
  rfl

/-- The last of the blank-separated parts. -/
theorem splitLast_snd (cs ds : List Char) : ∃ before,
    splitLast ' ' (cs ++ ' ' :: ds) = some (before, lastWord ds) := by
  have hreverse : (cs ++ ' ' :: ds).reverse = ds.reverse ++ ' ' :: cs.reverse := by simp
  rw [splitLast, if_pos (by simp), hreverse]
  refine ⟨_, congrArg (fun x => some (_, x)) (congrArg List.reverse ?_)⟩
  rw [List.takeWhile_append]
  split_ifs with hall
  · rw [List.takeWhile_cons_of_neg (by simp), List.append_nil]
    exact ((List.takeWhile_prefix _).eq_of_length hall).symm
  · rfl

theorem readConnection_value (h : r.session.vLegs ≠ []) (sAddress : String) :
    readConnection (quote "IN IP4 " ++ quote sAddress ++ quote "/32") r =
      r.updateLeg ({ · with sMulticast := carried sAddress }) := by
  have hsplit : quote "IN IP4 " ++ quote sAddress ++ quote "/32" =
      quote "IN IP4" ++ ' ' :: (quote sAddress ++ quote "/32") := by
    have hquote : quote "IN IP4 " = quote "IN IP4" ++ [' '] := rfl
    rw [hquote]
    simp
  obtain ⟨before, hlast⟩ := splitLast_snd (quote "IN IP4") (quote sAddress ++ quote "/32")
  rw [hsplit, readConnection, hlast]
  simp only [if_neg h]
  rfl

/-- The source is read, whatever follows. -/
theorem readAttribute_source (h : r.session.vLegs ≠ []) (cs : List Char) :
    readAttribute (quote "source-filter: incl IN IP4" ++ cs) r = r.updateLeg fun leg =>
      { leg with sSourceFilter := String.ofList (lastWord (quote "source-filter: incl IN IP4" ++ cs)) } := by
  generalize htext : quote "source-filter: incl IN IP4" ++ cs = text
  have hblank : ' ' ∈ text := by simp [← htext, quote]
  have hdup : stripPrefix "group:DUP ".toList text = none := by rw [← htext]; rfl
  have hmid : stripPrefix "mid:".toList text = none := by rw [← htext]; rfl
  have hmap : stripPrefix "rtpmap:".toList text = none := by rw [← htext]; rfl
  have htime : stripPrefix "ptime:".toList text = none := by rw [← htext]; rfl
  have hsource : (stripPrefix "source-filter:".toList text).isSome := by rw [← htext]; rfl
  simp only [readAttribute, hdup, hmid, hmap, htime, hsource, splitLast, if_pos hblank, h, Option.isSome_none,
    Bool.false_eq_true, false_and, if_false, ne_eq, not_false_iff, and_self, if_true, lastWord]

theorem readAttribute_rtpmap {nPt nBits nRate nChannels : Int} (hpt : Fits nPt) (hbits : Fits nBits) (hrate : Fits nRate)
    (hchannels : Fits nChannels) (hpositive : 0 < nChannels) (hown : r.session.nPayloadType = nPt) :
    readAttribute (quote "rtpmap:" ++ decimal nPt ++ quote " L" ++ decimal nBits ++ quote "/" ++ decimal nRate ++
        quote "/" ++ decimal nChannels) r =
      { r with
        session.nBitsPerSample := nBits
        session.nSampleRate := nRate
        session.nChannels := nChannels } := by
  generalize htext : quote "rtpmap:" ++ decimal nPt ++ quote " L" ++ decimal nBits ++ quote "/" ++ decimal nRate ++
    quote "/" ++ decimal nChannels = text
  have hplain : Plain text := by
    rw [← htext]
    refine plain_append (plain_append (plain_append (plain_append (plain_append (plain_append (plain_append ?_
      (plain_decimal _)) ?_) (plain_decimal _)) ?_) (plain_decimal _)) ?_) (plain_decimal _)
    all_goals simp [quote, Plain, Keeps, isTrimmed]
  have hparts : text = "rtpmap:".toList ++ (decimal nPt ++ ' ' :: (['L'] ++ (decimal nBits ++ (['/'] ++
      (decimal nRate ++ (['/'] ++ decimal nChannels)))))) := by
    rw [← htext]
    simp [quote]
  have hslash (cs : List Char) : Stops Char.isDigit (['/'] ++ cs) := stops_cons (by decide) cs
  have hletter (cs : List Char) : Stops isBlank (['L'] ++ cs) := stops_cons (by decide) cs
  have hscan : scanf [.text "rtpmap:".toList, .decimal, .blank, .text ['L'], .decimal, .text ['/'], .decimal,
      .text ['/'], .decimal] text = [nPt, nBits, nRate, nChannels] := by
    rw [hparts, scanf_text, scanf_fits hpt (stops_cons (by decide) _),
      scanf_blank (hletter _), scanf_text, scanf_fits hbits (hslash _), scanf_text,
      scanf_fits hrate (hslash _), scanf_text, scanf_last hchannels]
  have hdup : stripPrefix "group:DUP ".toList text = none := by rw [hparts]; rfl
  have hmid : stripPrefix "mid:".toList text = none := by rw [hparts]; rfl
  have hmap : (stripPrefix "rtpmap:".toList text).isSome := by rw [hparts]; rfl
  simp only [readAttribute, hdup, hmid, hmap, readRtpmap, cString_of_plain hplain, hscan, hown, Option.isSome_none,
    Bool.false_eq_true, false_and, if_false, if_true, List.headD_cons, hpositive]

theorem readAttribute_ptime {x : ℚ} (h : 0 ≤ x) :
    readAttribute (quote "ptime:" ++ formatDouble x) r =
      { r with session.dPacketTimeMs := toDouble (sixSignificant x) } := by
  have hplain : Plain (formatDouble x) :=
    plain_of_keeps fun c hc => keeps_of_isNumeral (isNumeral_formatDouble h c hc)
  have hdup : stripPrefix "group:DUP ".toList (quote "ptime:" ++ formatDouble x) = none := rfl
  have hmid : stripPrefix "mid:".toList (quote "ptime:" ++ formatDouble x) = none := rfl
  have hmap : stripPrefix "rtpmap:".toList (quote "ptime:" ++ formatDouble x) = none := rfl
  have htime : stripPrefix "ptime:".toList (quote "ptime:" ++ formatDouble x) = some (formatDouble x) :=
    stripPrefix_append _ _
  simp only [readAttribute, hdup, hmid, hmap, htime, cString_of_plain hplain, atof_formatDouble h, Option.isSome_none,
    Bool.false_eq_true, false_and, if_false]

/-- The clock of a description: the identity up to the last colon, the domain after it. -/
theorem readAttribute_refclk {nDomain : Int} (h : Fits nDomain) (sGrandmaster : String) :
    readAttribute (quote "ts-refclk:ptp=IEEE1588-2008:" ++ quote sGrandmaster ++ quote ":" ++ decimal nDomain) r =
      { r with session.sPtpGrandmaster := sGrandmaster, session.nPtpDomain := nDomain } := by
  generalize htext : quote "ts-refclk:ptp=IEEE1588-2008:" ++ quote sGrandmaster ++ quote ":" ++ decimal nDomain = text
  generalize hrest : quote sGrandmaster ++ ':' :: decimal nDomain = rest
  have hparts : text = "ts-refclk:ptp=".toList ++ (quote "IEEE1588-2008" ++ ':' :: rest) := by
    rw [← htext, ← hrest]
    simp [quote]
  have hdup : stripPrefix "group:DUP ".toList text = none := by rw [hparts]; rfl
  have hmid : stripPrefix "mid:".toList text = none := by rw [hparts]; rfl
  have hmap : stripPrefix "rtpmap:".toList text = none := by rw [hparts]; rfl
  have htime : stripPrefix "ptime:".toList text = none := by rw [hparts]; rfl
  have hsource : stripPrefix "source-filter:".toList text = none := by rw [hparts]; rfl
  have hclock : stripPrefix "ts-refclk:ptp=".toList text = some (quote "IEEE1588-2008" ++ ':' :: rest) := by
    rw [hparts, stripPrefix_append]
  have hdrop : (quote "IEEE1588-2008" ++ ':' :: rest).dropWhile (· ≠ ':') = ':' :: rest := rfl
  have hcolon : ':' ∉ decimal nDomain := fun hc => absurd (isNumeral_decimal nDomain ':' hc) (by decide)
  have hlast : splitLast ':' rest = some (quote sGrandmaster, decimal nDomain) := by
    rw [← hrest, splitLast_append hcolon]
  have hdomain : atoi (cString (decimal nDomain)) = nDomain := by
    rw [cString_of_plain (plain_decimal _), atoi_decimal h.1 h.2]
  have hname : String.ofList (quote sGrandmaster) = sGrandmaster := String.ofList_toList
  simp only [readAttribute, hdup, hmid, hmap, htime, hsource, hclock, readRefclk, hdrop, List.tail_cons, hlast, hdomain,
    hname, Option.isSome_none, Bool.false_eq_true, false_and, if_false]
  simp

theorem readAttribute_mid (h : r.session.vLegs ≠ []) (sMid : String) :
    readAttribute (quote "mid:" ++ quote sMid) r = r.updateLeg ({ · with sMid := sMid }) := by
  have hdup : stripPrefix "group:DUP ".toList (quote "mid:" ++ quote sMid) = none := rfl
  have hmid : (stripPrefix "mid:".toList (quote "mid:" ++ quote sMid)).isSome := by
    have hsome : stripPrefix "mid:".toList (quote "mid:" ++ quote sMid) = some (quote sMid) := stripPrefix_append _ _
    rw [hsome]
    rfl
  have hdrop : (quote "mid:" ++ quote sMid).drop 4 = quote sMid := rfl
  have hname : String.ofList (quote sMid) = sMid := String.ofList_toList
  simp only [readAttribute, hdup, hmid, hdrop, hname, h, ne_eq, not_false_iff, and_self, if_true]

end Values

/-- The lines, each with the end that the reader cuts off. -/
def readLines (r : SdpReader) (lines : List (List Char)) : SdpReader :=
  lines.foldl (fun r l => readLine r (l ++ ['\r'])) r

/-- Where a leg is and where it comes from. -/
def addressLines (session : SdpSession) (leg : SdpLeg) (sSourceIp : String) : List (List Char) :=
  [quote "m=audio " ++ decimal leg.nPort.toNat ++ quote " RTP/AVP " ++ decimal session.nPayloadType,
    quote "c=IN IP4 " ++ quote leg.sMulticast ++ quote "/32",
    quote "a=source-filter: incl IN IP4 " ++ quote leg.sMulticast ++ quote " " ++ quote sSourceIp]

/-- The format, and the clock if there is one. -/
def formatLines (session : SdpSession) : List (List Char) :=
  [quote "a=rtpmap:" ++ decimal session.nPayloadType ++ quote " L" ++ decimal session.nBitsPerSample ++ quote "/" ++
      decimal session.nSampleRate ++ quote "/" ++ decimal session.nChannels,
    quote "a=ptime:" ++ formatDouble session.dPacketTimeMs,
    quote "a=recvonly"] ++
  (if session.sPtpGrandmaster = "" then []
    else [quote "a=ts-refclk:ptp=IEEE1588-2008:" ++ quote session.sPtpGrandmaster ++ quote ":" ++
      decimal session.nPtpDomain]) ++
  [quote "a=mediaclk:direct=0"]

theorem mediaLines_eq (session : SdpSession) (leg : SdpLeg) (sSourceIp : String) : mediaLines session leg sSourceIp =
    addressLines session leg sSourceIp ++ formatLines session ++
      if 1 < session.vLegs.length then [quote "a=mid:" ++ quote leg.sMid] else [] := rfl

theorem readLines_append (r : SdpReader) (lines more : List (List Char)) :
    readLines r (lines ++ more) = readLines (readLines r lines) more := List.foldl_append

/-- The values of a description that are printed as numbers fit their types. -/
structure Printable (session : SdpSession) : Prop where
  payloadType : Fits session.nPayloadType
  bits : Fits session.nBitsPerSample
  rate : Fits session.nSampleRate
  channels : Fits session.nChannels
  some_channels : 0 < session.nChannels
  packetTime : 0 < session.dPacketTimeMs
  domain : Fits session.nPtpDomain

/-- All that the reader of these values relies on; a packet time of 0 is printed, too. -/
structure Numeric (session : SdpSession) : Prop where
  payloadType : Fits session.nPayloadType
  bits : Fits session.nBitsPerSample
  rate : Fits session.nSampleRate
  channels : Fits session.nChannels
  some_channels : 0 < session.nChannels
  packetTime : 0 ≤ session.dPacketTimeMs
  domain : Fits session.nPtpDomain

theorem Printable.numeric {session : SdpSession} (h : Printable session) : Numeric session :=
  ⟨h.payloadType, h.bits, h.rate, h.channels, h.some_channels, h.packetTime.le, h.domain⟩

/-- A text in one piece. -/
def Unbroken (sText : String) : Prop := sText ≠ "" ∧ ∀ c ∈ quote sText, isBlank c = false

instance (sText : String) : Decidable (Unbroken sText) := inferInstanceAs (Decidable (_ ∧ _))

theorem isBlank_of_isTrimmed {c : Char} (h : isTrimmed c) : isBlank c := by
  simp only [isTrimmed, Bool.or_eq_true, decide_eq_true_eq] at h
  rcases h with (rfl | rfl) | rfl <;> rfl

section Unbroken
variable {sText : String}

theorem Unbroken.ne_nil (h : Unbroken sText) : quote sText ≠ [] := fun hnil => h.1 (String.toList_eq_nil_iff.mp hnil)

theorem Unbroken.not_mem (h : Unbroken sText) {c : Char} (hc : isBlank c) : c ∉ quote sText := by
  intro hmem
  rw [h.2 c hmem] at hc
  cases hc

theorem Unbroken.ends (h : Unbroken sText) (cs : List Char) : Ends (cs ++ quote sText) := by
  intro c hc htrim
  rw [List.getLast?_append_of_ne_nil _ h.ne_nil] at hc
  exact h.not_mem (isBlank_of_isTrimmed htrim) (List.mem_of_getLast? hc)

end Unbroken

/-- What is known after a media section. -/
def SdpReader.withLeg (r : SdpReader) (session : SdpSession) (leg : SdpLeg) : SdpReader :=
  { r with
    session.vLegs := r.session.vLegs ++ [leg]
    session.nPayloadType := session.nPayloadType
    session.nSampleRate := session.nSampleRate
    session.nChannels := session.nChannels
    session.nBitsPerSample := session.nBitsPerSample
    session.dPacketTimeMs := toDouble (sixSignificant session.dPacketTimeMs)
    session.sPtpGrandmaster :=
      if session.sPtpGrandmaster = "" then r.session.sPtpGrandmaster else session.sPtpGrandmaster
    session.nPtpDomain := if session.sPtpGrandmaster = "" then r.session.nPtpDomain else session.nPtpDomain }

section Sections
variable {r : SdpReader} {session : SdpSession}

theorem updateLast_append {α : Type} (f : α → α) (xs : List α) (x : α) : updateLast f (xs ++ [x]) = xs ++ [f x] := by
  induction xs with
  | nil => rfl
  | cons y xs ih =>
    have hne : xs ++ [x] ≠ [] := by simp
    rw [List.cons_append, updateLast]
    · rw [ih, List.cons_append]
    · exact hne

theorem readLine_mediaLine (r : SdpReader) (nPort : BitVec 16) {nPt : Int} (h : Fits nPt) :
    readLine r (quote "m=audio " ++ decimal nPort.toNat ++ quote " RTP/AVP " ++ decimal nPt ++ ['\r']) =
      { r with
        session.vLegs := r.session.vLegs ++ [{ nPort, sMulticast := r.sSessionConnection }]
        session.nPayloadType := nPt } := by
  rw [← readMedia_value r nPort h]
  exact readLine_media r (ends_decimal _ _)

theorem readLine_connectionLine (h : r.session.vLegs ≠ []) (sAddress : String) :
    readLine r (quote "c=IN IP4 " ++ quote sAddress ++ quote "/32" ++ ['\r']) =
      r.updateLeg ({ · with sMulticast := carried sAddress }) := by
  rw [← readConnection_value h]
  exact readLine_connection r (ends_append (by simp [quote]) (by simp [quote, Keeps, isTrimmed]) _)

theorem readLine_sourceLine (h : r.session.vLegs ≠ []) (sAddress sIp : String) :
    readLine r (quote "a=source-filter: incl IN IP4 " ++ quote sAddress ++ quote " " ++ quote sIp ++ ['\r']) =
      r.updateLeg ({ · with sSourceFilter := filtered sAddress sIp }) := by
  have hends : Ends (quote "source-filter: incl IN IP4") := by simp [Ends, quote, isTrimmed]
  have hline : quote "a=source-filter: incl IN IP4 " ++ quote sAddress ++ quote " " ++ quote sIp ++ ['\r'] =
      'a' :: '=' ::
        (quote "source-filter: incl IN IP4" ++ (' ' :: (quote sAddress ++ ' ' :: (quote sIp ++ ['\r'])))) := by
    simp [quote]
  rw [hline, readLine_cons, trim_append hends]
  exact readAttribute_source h _

theorem readLine_rtpmapLine (h : Numeric session) (hown : r.session.nPayloadType = session.nPayloadType) :
    readLine r (quote "a=rtpmap:" ++ decimal session.nPayloadType ++ quote " L" ++ decimal session.nBitsPerSample ++
        quote "/" ++ decimal session.nSampleRate ++ quote "/" ++ decimal session.nChannels ++ ['\r']) =
      { r with
        session.nBitsPerSample := session.nBitsPerSample
        session.nSampleRate := session.nSampleRate
        session.nChannels := session.nChannels } := by
  rw [← readAttribute_rtpmap h.payloadType h.bits h.rate h.channels h.some_channels hown]
  exact readLine_attribute r (ends_decimal _ _)

theorem readLine_ptimeLine (r : SdpReader) (h : Numeric session) :
    readLine r (quote "a=ptime:" ++ formatDouble session.dPacketTimeMs ++ ['\r']) =
      { r with session.dPacketTimeMs := toDouble (sixSignificant session.dPacketTimeMs) } := by
  have hnumeral := isNumeral_formatDouble h.packetTime
  rw [← readAttribute_ptime h.packetTime]
  exact readLine_attribute r
    (ends_append (formatDouble_ne_nil h.packetTime) (fun c hc => keeps_of_isNumeral (hnumeral c hc)) _)

theorem readLine_refclkLine (r : SdpReader) (h : Numeric session) :
    readLine r (quote "a=ts-refclk:ptp=IEEE1588-2008:" ++ quote session.sPtpGrandmaster ++ quote ":" ++
        decimal session.nPtpDomain ++ ['\r']) =
      { r with session.sPtpGrandmaster := session.sPtpGrandmaster, session.nPtpDomain := session.nPtpDomain } := by
  rw [← readAttribute_refclk h.domain session.sPtpGrandmaster]
  exact readLine_attribute r (ends_decimal _ _)

theorem readLine_midLine (hlegs : r.session.vLegs ≠ []) {sMid : String} (h : Unbroken sMid) :
    readLine r (quote "a=mid:" ++ quote sMid ++ ['\r']) = r.updateLeg ({ · with sMid := sMid }) := by
  rw [← readAttribute_mid hlegs]
  exact readLine_attribute r (h.ends _)

theorem readLine_plainLine (r : SdpReader) :
    readLine r (quote "a=recvonly" ++ ['\r']) = r ∧ readLine r (quote "a=mediaclk:direct=0" ++ ['\r']) = r := by
  have hends : Ends (quote "recvonly") ∧ Ends (quote "mediaclk:direct=0") := by
    constructor <;> simp [Ends, quote, isTrimmed]
  exact ⟨readLine_attribute r hends.1, readLine_attribute r hends.2⟩

theorem readLines_addressLines (r : SdpReader) (h : Numeric session) (leg : SdpLeg) (sIp : String) :
    readLines r (addressLines session leg sIp) =
      { r with
        session.vLegs := r.session.vLegs ++
          [{ nPort := leg.nPort, sMulticast := carried leg.sMulticast, sSourceFilter := filtered leg.sMulticast sIp }]
        session.nPayloadType := session.nPayloadType } := by
  have hsome (leg : SdpLeg) : r.session.vLegs ++ [leg] ≠ [] := by simp
  simp only [readLines, addressLines, List.foldl_cons, List.foldl_nil]
  rw [readLine_mediaLine r leg.nPort h.payloadType, readLine_connectionLine (hsome _)]
  simp only [SdpReader.updateLeg, updateLast_append]
  have hsource := readLine_sourceLine (r := { r with
      session.vLegs := r.session.vLegs ++ [{ nPort := leg.nPort, sMulticast := carried leg.sMulticast }]
      session.nPayloadType := session.nPayloadType }) (hsome _) leg.sMulticast sIp
  simp only [SdpReader.updateLeg, updateLast_append] at hsource
  exact hsource

theorem readLines_formatLines (h : Numeric session) (hown : r.session.nPayloadType = session.nPayloadType) :
    readLines r (formatLines session) =
      { r with
        session.nSampleRate := session.nSampleRate
        session.nChannels := session.nChannels
        session.nBitsPerSample := session.nBitsPerSample
        session.dPacketTimeMs := toDouble (sixSignificant session.dPacketTimeMs)
        session.sPtpGrandmaster :=
          if session.sPtpGrandmaster = "" then r.session.sPtpGrandmaster else session.sPtpGrandmaster
        session.nPtpDomain := if session.sPtpGrandmaster = "" then r.session.nPtpDomain else session.nPtpDomain } := by
  simp only [readLines, formatLines, List.foldl_append, List.foldl_cons, List.foldl_nil]
  rw [readLine_rtpmapLine h hown, readLine_ptimeLine _ h, (readLine_plainLine _).1]
  split_ifs
  · exact (readLine_plainLine _).2
  · rw [List.foldl_cons, List.foldl_nil, readLine_refclkLine _ h]
    exact (readLine_plainLine _).2

/-- The leg that is read for one written with its source. -/
def readLeg (session : SdpSession) (leg : SdpLeg) (sIp : String) : SdpLeg where
  sMid := if 1 < session.vLegs.length then leg.sMid else ""
  sMulticast := carried leg.sMulticast
  sSourceFilter := filtered leg.sMulticast sIp
  nPort := leg.nPort

/-- A media section is read as the leg it was written for. -/
theorem readLines_mediaLines (r : SdpReader) (h : Numeric session) (leg : SdpLeg) (sIp : String)
    (hmid : 1 < session.vLegs.length → Unbroken leg.sMid) :
    readLines r (mediaLines session leg sIp) = r.withLeg session (readLeg session leg sIp) := by
  rw [mediaLines_eq, readLines_append, readLines_append, readLines_addressLines r h, readLines_formatLines h rfl]
  by_cases hgroup : 1 < session.vLegs.length
  · rw [if_pos hgroup, readLines, List.foldl_cons, List.foldl_nil, readLine_midLine (by simp) (hmid hgroup)]
    simp only [SdpReader.updateLeg, updateLast_append, SdpReader.withLeg, readLeg, if_pos hgroup]
  · rw [if_neg hgroup, SdpReader.withLeg, readLeg, if_neg hgroup]
    rfl

end Sections

/-- The texts that a description is made of stay on their lines, and two legs carry
the mids of the two paths. -/
structure Describable (session : SdpSession) (sOriginIp : String) (vSourceIps : List String) : Prop where
  name : '\n' ∉ quote session.sName
  origin : '\n' ∉ quote sOriginIp
  sources : ∀ sIp ∈ vSourceIps, '\n' ∉ quote sIp
  legs : ∀ leg ∈ session.vLegs, '\n' ∉ quote leg.sMulticast ∧ '\n' ∉ quote leg.sSourceFilter
  grandmaster : '\n' ∉ quote session.sPtpGrandmaster

/-- A single leg, or the legs of the two paths. -/
def Grouped (session : SdpSession) : Prop :=
  session.vLegs.length = 1 ∨ session.vLegs.map SdpLeg.sMid = ["PRI", "SEC"]

/-- What is read tells what was written, as far as a receiver needs it. -/
structure ReadsBack (session read : SdpSession) : Prop where
  legs : read.vLegs.map (fun leg => (leg.sMulticast, leg.nPort)) =
    session.vLegs.map fun leg => (carried leg.sMulticast, leg.nPort)
  payloadType : read.nPayloadType = session.nPayloadType
  rate : read.nSampleRate = session.nSampleRate
  channels : read.nChannels = session.nChannels
  bits : read.nBitsPerSample = session.nBitsPerSample
  packetTime : read.dPacketTimeMs = toDouble (sixSignificant session.dPacketTimeMs)
  grandmaster : read.sPtpGrandmaster = session.sPtpGrandmaster
  domain : read.nPtpDomain = if session.sPtpGrandmaster = "" then 0 else session.nPtpDomain

section Text
variable {session : SdpSession} {sOriginIp : String} {vSourceIps : List String}

theorem inline_decimal (n : Int) : '\n' ∉ decimal n := (plain_decimal n).not_mem

theorem inline_source (h : Describable session sOriginIp vSourceIps) {leg : SdpLeg} (hleg : leg ∈ session.vLegs)
    (nLeg : Nat) : '\n' ∉ quote (sourceIp leg nLeg sOriginIp vSourceIps) := by
  unfold sourceIp
  split_ifs
  · exact (h.legs leg hleg).2
  · rcases Option.eq_none_or_eq_some vSourceIps[nLeg]? with hnone | ⟨sIp, hsome⟩
    · rw [hnone]
      exact h.origin
    · rw [hsome]
      exact h.sources sIp (List.mem_of_getElem? hsome)

theorem inline_mediaLines (h : Describable session sOriginIp vSourceIps) (hprint : Numeric session) {leg : SdpLeg}
    (hleg : leg ∈ session.vLegs) (hmid : 1 < session.vLegs.length → '\n' ∉ quote leg.sMid) (nLeg : Nat) :
    ∀ l ∈ mediaLines session leg (sourceIp leg nLeg sOriginIp vSourceIps), '\n' ∉ l := by
  have hptime : '\n' ∉ formatDouble session.dPacketTimeMs := fun hc =>
    absurd (isNumeral_formatDouble hprint.packetTime _ hc) (by decide)
  have hsource := inline_source h hleg nLeg
  have haddress := (h.legs leg hleg).1
  have hclock := h.grandmaster
  generalize sourceIp leg nLeg sOriginIp vSourceIps = sIp at hsource
  intro l hl
  simp only [quote] at hsource haddress hclock hmid
  rw [mediaLines_eq] at hl
  rcases List.mem_append.mp hl with hl | hl
  · rcases List.mem_append.mp hl with hl | hl
    · simp only [addressLines, List.mem_cons, List.not_mem_nil, or_false] at hl
      rcases hl with rfl | rfl | rfl <;> simp [quote, inline_decimal, haddress, hsource]
    · simp only [formatLines, List.mem_append, List.mem_cons, List.not_mem_nil, or_false] at hl
      rcases hl with ((rfl | rfl | rfl) | hl) | rfl
      · simp [quote, inline_decimal]
      · simp [quote, hptime]
      · simp [quote]
      · split_ifs at hl
        · cases hl
        · obtain rfl := List.mem_singleton.mp hl
          simp [quote, inline_decimal, hclock]
      · simp [quote]
  · split_ifs at hl with hgroup
    · obtain rfl := List.mem_singleton.mp hl
      simp [quote, hmid hgroup]
    · cases hl

theorem inline_headerLines (h : Describable session sOriginIp vSourceIps)
    (hmids : ∀ leg ∈ session.vLegs, 1 < session.vLegs.length → '\n' ∉ quote leg.sMid) (nSessId : Nat) :
    ∀ l ∈ headerLines nSessId session sOriginIp, '\n' ∉ l := by
  have hid : '\n' ∉ Nat.toDigits 10 nSessId := fun hc => absurd (isDigit_toDigits hc) (by decide)
  have hname := h.name
  have horigin := h.origin
  intro l hl
  simp only [quote] at hname horigin hmids
  simp only [headerLines, List.mem_append, List.mem_cons, List.not_mem_nil, or_false] at hl
  rcases hl with (rfl | rfl | rfl | rfl) | hl
  · simp [quote]
  · simp [quote, hid, horigin]
  · simp [quote, hname]
  · simp [quote]
  · split_ifs at hl with hgroup
    · obtain rfl := List.mem_singleton.mp hl
      simp [quote, List.mem_flatMap]
      exact fun leg hleg => hmids leg hleg hgroup
    · cases hl

/-- Every line of a description stays one. -/
theorem inline_sdpLines (h : Describable session sOriginIp vSourceIps) (hprint : Numeric session)
    (hmids : ∀ leg ∈ session.vLegs, 1 < session.vLegs.length → '\n' ∉ quote leg.sMid) (nSessId : Nat) :
    ∀ l ∈ sdpLines nSessId session sOriginIp vSourceIps, '\n' ∉ l := by
  intro l hl
  rcases List.mem_append.mp hl with hl | hl
  · exact inline_headerLines h hmids nSessId l hl
  · obtain ⟨⟨leg, nLeg⟩, hleg, hl⟩ := List.mem_flatMap.mp hl
    have hmem := List.fst_mem_of_mem_zipIdx hleg
    exact inline_mediaLines h hprint hmem (hmids leg hmem) nLeg l hl

theorem readLine_other (r : SdpReader) {cType : Char} (h : cType ∉ ['s', 'c', 'm', 'a']) (cs : List Char) :
    readLine r (cType :: '=' :: cs) = r := by
  simp only [List.mem_cons, List.not_mem_nil, or_false, not_or] at h
  rw [readLine_cons, if_neg h.1, if_neg h.2.1, if_neg h.2.2.1, if_neg h.2.2.2]

/-- The mids of the group, in their order. -/
theorem readLine_group (r : SdpReader) {first second : String} (hfirst : Unbroken first) (hsecond : Unbroken second) :
    readLine r (quote "a=group:DUP" ++ ([first, second].flatMap fun sMid => ' ' :: quote sMid) ++ ['\r']) =
      { r with vDupMids := r.vDupMids ++ [quote first, quote second] } := by
  have htext : quote "group:DUP" ++ ([first, second].flatMap fun sMid => ' ' :: quote sMid) =
      "group:DUP ".toList ++ (quote first ++ [quote second].flatMap (' ' :: ·)) := by
    simp [quote]
  have hwords : words (quote first ++ [quote second].flatMap (' ' :: ·)) = [quote first, quote second] := by
    apply words_join
    simp only [List.mem_cons, List.not_mem_nil, or_false, forall_eq_or_imp, forall_eq]
    exact ⟨⟨hfirst.ne_nil, hfirst.2⟩, hsecond.ne_nil, hsecond.2⟩
  have hends : Ends ("group:DUP ".toList ++ (quote first ++ [quote second].flatMap (' ' :: ·))) := by
    have htail : [quote second].flatMap (' ' :: ·) = [' '] ++ quote second := by simp
    rw [htail, ← List.append_assoc, ← List.append_assoc]
    exact hsecond.ends _
  have hline := readLine_attribute r hends
  rw [readAttribute, stripPrefix_append] at hline
  simp only [hwords] at hline
  rw [← hline, ← htext]
  rfl

/-- What is known after the line of the name. -/
def SdpReader.named (session : SdpSession) : SdpReader :=
  { session := { sName := String.ofList (trim (quote session.sName ++ ['\r'])) } }

/-- Of the lines before the first leg the reader keeps the name and the group. -/
theorem readLines_headerLines (session : SdpSession) (sOriginIp : String) (nSessId : Nat) :
    readLines {} (headerLines nSessId session sOriginIp) =
      readLines (.named session) (if 1 < session.vLegs.length then
        [quote "a=group:DUP" ++ session.vLegs.flatMap fun leg => ' ' :: quote leg.sMid] else []) := by
  have hversion : readLine {} (quote "v=0" ++ ['\r']) = {} := readLine_other _ (by decide) _
  have horigin (cs : List Char) : readLine {} (quote "o=- " ++ cs) = {} := readLine_other _ (by decide) _
  have hname : readLine {} (quote "s=" ++ quote session.sName ++ ['\r']) = .named session := readLine_cons _ _ _
  have htime (r : SdpReader) : readLine r (quote "t=0 0" ++ ['\r']) = r := readLine_other r (by decide) _
  have hstart : readLines {} [quote "v=0", quote "o=- " ++ Nat.toDigits 10 nSessId ++ quote " " ++
      Nat.toDigits 10 nSessId ++ quote " IN IP4 " ++ quote sOriginIp, quote "s=" ++ quote session.sName,
      quote "t=0 0"] = .named session := by
    simp only [readLines, List.foldl_cons, List.foldl_nil, List.append_assoc, hversion, horigin, htime]
    exact hname
  rw [headerLines, readLines_append, hstart]

theorem parseSdp_generateSdp (nSessId : Nat) (h : ∀ l ∈ sdpLines nSessId session sOriginIp vSourceIps, '\n' ∉ l) :
    parseSdp (generateSdp nSessId session sOriginIp vSourceIps) =
      (readLines {} (sdpLines nSessId session sOriginIp vSourceIps)).finish := by
  rw [parseSdp, generateSdp, String.toList_ofList, readText_lines {} h]
  rfl

theorem parse_empty (h : Describable session sOriginIp vSourceIps) (nSessId : Nat) (hnone : session.vLegs = []) :
    parseSdp (generateSdp nSessId session sOriginIp vSourceIps) = none := by
  have hlines : sdpLines nSessId session sOriginIp vSourceIps = headerLines nSessId session sOriginIp := by
    rw [sdpLines, hnone]
    exact List.append_nil _
  have hall := inline_headerLines h (fun leg hleg => by simp [hnone] at hleg) nSessId
  rw [parseSdp_generateSdp nSessId (by rwa [hlines]), hlines, readLines_headerLines, hnone]
  rfl

theorem unbroken_path : Unbroken "PRI" ∧ Unbroken "SEC" := by
  constructor <;> exact ⟨by decide, by simp [quote, isBlank]⟩

/-- The header, then one section after the other. -/
theorem readLines_sdpLines (session : SdpSession) (sOriginIp : String) (vSourceIps : List String) (nSessId : Nat) :
    readLines {} (sdpLines nSessId session sOriginIp vSourceIps) = session.vLegs.zipIdx.foldl (fun r x =>
      readLines r (mediaLines session x.1 (sourceIp x.1 x.2 sOriginIp vSourceIps)))
        (readLines (.named session) (if 1 < session.vLegs.length then
          [quote "a=group:DUP" ++ session.vLegs.flatMap fun leg => ' ' :: quote leg.sMid] else [])) := by
  rw [sdpLines, readLines_append, readLines_headerLines]
  exact List.foldl_flatMap

/-- The description of a single leg has no group. -/
theorem readLines_single (h : Numeric session) {leg : SdpLeg} (hlegs : session.vLegs = [leg]) (nSessId : Nat) :
    readLines {} (sdpLines nSessId session sOriginIp vSourceIps) =
      (SdpReader.named session).withLeg session (readLeg session leg (sourceIp leg 0 sOriginIp vSourceIps)) := by
  have hsingle : ¬ 1 < session.vLegs.length := by simp [hlegs]
  have hstart : readLines (.named session) [] = .named session := rfl
  rw [readLines_sdpLines, if_neg hsingle, hstart, hlegs, List.zipIdx_cons, List.zipIdx_nil, List.foldl_cons,
    List.foldl_nil, readLines_mediaLines _ h leg _ fun hmany => absurd hmany hsingle]

/-- The description of two legs groups them in their order. -/
theorem readLines_pair (h : Numeric session) {first second : SdpLeg} (hlegs : session.vLegs = [first, second])
    (hfirst : Unbroken first.sMid) (hsecond : Unbroken second.sMid) (nSessId : Nat) :
    readLines {} (sdpLines nSessId session sOriginIp vSourceIps) =
      (SdpReader.withLeg { SdpReader.named session with vDupMids := [quote first.sMid, quote second.sMid] } session
        (readLeg session first (sourceIp first 0 sOriginIp vSourceIps))).withLeg session
          (readLeg session second (sourceIp second 1 sOriginIp vSourceIps)) := by
  have hmany : 1 < session.vLegs.length := by simp [hlegs]
  have hgroup : readLines (.named session)
      [quote "a=group:DUP" ++ [first, second].flatMap fun leg => ' ' :: quote leg.sMid] =
      { SdpReader.named session with vDupMids := [quote first.sMid, quote second.sMid] } :=
    readLine_group _ hfirst hsecond
  rw [readLines_sdpLines, if_pos hmany, hlegs, hgroup, List.zipIdx_cons, List.zipIdx_cons, List.zipIdx_nil,
    List.foldl_cons, List.foldl_cons, List.foldl_nil, readLines_mediaLines _ h first _ fun _ => hfirst,
    readLines_mediaLines _ h second _ fun _ => hsecond]

/-- The clock is not read yet, or it is that of the session. -/
structure HasClock (session : SdpSession) (r : SdpReader) : Prop where
  grandmaster : r.session.sPtpGrandmaster = "" ∨ r.session.sPtpGrandmaster = session.sPtpGrandmaster
  domain : session.sPtpGrandmaster = "" → r.session.nPtpDomain = 0

section WithLeg
variable {r : SdpReader}

theorem HasClock.grandmaster_withLeg (h : HasClock session r) (leg : SdpLeg) :
    (r.withLeg session leg).session.sPtpGrandmaster = session.sPtpGrandmaster := by
  unfold SdpReader.withLeg
  dsimp only
  split_ifs with hnone
  · rcases h.grandmaster with hempty | hsame
    · rw [hempty, hnone]
    · exact hsame
  · rfl

theorem HasClock.domain_withLeg (h : HasClock session r) (leg : SdpLeg) : (r.withLeg session leg).session.nPtpDomain =
    if session.sPtpGrandmaster = "" then 0 else session.nPtpDomain := by
  unfold SdpReader.withLeg
  dsimp only
  split_ifs with hnone
  · exact h.domain hnone
  · rfl

theorem HasClock.withLeg (h : HasClock session r) (leg : SdpLeg) : HasClock session (r.withLeg session leg) where
  grandmaster := Or.inr (h.grandmaster_withLeg leg)
  domain := by
    intro hnone
    rw [h.domain_withLeg leg, if_pos hnone]

/-- Every section has the values of the session, so the last one leaves them. -/
theorem HasClock.readsBack (h : HasClock session r) (leg : SdpLeg) {vLegs : List SdpLeg}
    (hlegs : vLegs.map (fun leg => (leg.sMulticast, leg.nPort)) =
      session.vLegs.map fun leg => (carried leg.sMulticast, leg.nPort)) :
    ReadsBack session { (r.withLeg session leg).session with vLegs := vLegs } where
  legs := hlegs
  payloadType := rfl
  rate := rfl
  channels := rfl
  bits := rfl
  packetTime := rfl
  grandmaster := h.grandmaster_withLeg leg
  domain := h.domain_withLeg leg

theorem finish_withLeg (r : SdpReader) (session : SdpSession) (leg : SdpLeg) : (r.withLeg session leg).finish =
    some { (r.withLeg session leg).session with
      vLegs := (groupLegs r.vDupMids (r.session.vLegs ++ [leg])).take 2 } :=
  if_neg (List.concat_ne_nil leg r.session.vLegs)

end WithLeg

/-- A single leg is not grouped. -/
theorem finish_single (h : Numeric session) {leg : SdpLeg} (hlegs : session.vLegs = [leg]) (nSessId : Nat) :
    ∃ read, (readLines {} (sdpLines nSessId session sOriginIp vSourceIps)).finish = some read ∧
      ReadsBack session read := by
  have hclock : HasClock session (.named session) := ⟨Or.inl rfl, fun _ => rfl⟩
  rw [readLines_single h hlegs, finish_withLeg]
  refine ⟨_, rfl, hclock.readsBack _ ?_⟩
  have hgroup (read : SdpLeg) : groupLegs (SdpReader.named session).vDupMids
      ((SdpReader.named session).session.vLegs ++ [read]) = [read] := rfl
  rw [hlegs, hgroup]
  simp only [List.take_succ_cons, List.take_nil, List.map_cons, List.map_nil, readLeg]

theorem groupLegs_pair (first second : SdpLeg) (hne : first.sMid ≠ second.sMid) :
    groupLegs [quote first.sMid, quote second.sMid] [first, second] = [first, second] := by
  have hquote : first.sMid.toList ≠ second.sMid.toList := fun heq => hne (String.toList_injective heq)
  simp [groupLegs, quote, hquote, hquote.symm]

/-- Two legs come back in the order of their group. -/
theorem finish_pair (h : Numeric session) {first second : SdpLeg} (hlegs : session.vLegs = [first, second])
    (hfirst : Unbroken first.sMid) (hsecond : Unbroken second.sMid) (hne : first.sMid ≠ second.sMid) (nSessId : Nat) :
    ∃ read, (readLines {} (sdpLines nSessId session sOriginIp vSourceIps)).finish = some read ∧
      ReadsBack session read := by
  have hmid (leg : SdpLeg) (sIp : String) : (readLeg session leg sIp).sMid = leg.sMid := by simp [readLeg, hlegs]
  have hpair := groupLegs_pair (readLeg session first (sourceIp first 0 sOriginIp vSourceIps))
    (readLeg session second (sourceIp second 1 sOriginIp vSourceIps)) (by rwa [hmid, hmid])
  rw [hmid, hmid] at hpair
  have hclock : HasClock session { SdpReader.named session with vDupMids := [quote first.sMid, quote second.sMid] } :=
    ⟨Or.inl rfl, fun _ => rfl⟩
  rw [readLines_pair h hlegs hfirst hsecond, finish_withLeg]
  refine ⟨_, rfl, (hclock.withLeg _).readsBack _ ?_⟩
  dsimp only [SdpReader.withLeg, SdpReader.named, List.nil_append, List.cons_append]
  rw [hlegs, hpair]
  simp only [List.take_succ_cons, List.take_zero, List.map_cons, List.map_nil, readLeg]

/-- A description that was written for a session reads back as that session. -/
theorem parse_generate (h : Describable session sOriginIp vSourceIps) (hprint : Printable session)
    (hgroup : Grouped session) (nSessId : Nat) :
    ∃ read, parseSdp (generateSdp nSessId session sOriginIp vSourceIps) = some read ∧ ReadsBack session read := by
  have hmids : ∀ leg ∈ session.vLegs, 1 < session.vLegs.length → Unbroken leg.sMid := by
    intro leg hleg hmany
    rcases hgroup with hone | hpaths
    · omega
    · have hmid : leg.sMid ∈ ["PRI", "SEC"] := by
        rw [← hpaths]
        exact List.mem_map_of_mem hleg
      rcases List.mem_cons.mp hmid with heq | hmid
      · exact heq ▸ unbroken_path.1
      · exact (List.mem_singleton.mp hmid) ▸ unbroken_path.2
  have hinline : ∀ leg ∈ session.vLegs, 1 < session.vLegs.length → '\n' ∉ quote leg.sMid :=
    fun leg hleg hmany => (hmids leg hleg hmany).not_mem rfl
  rw [parseSdp_generateSdp nSessId (inline_sdpLines h hprint.numeric hinline nSessId)]
  rcases hgroup with hone | hpaths
  · obtain ⟨leg, hlegs⟩ := List.length_eq_one_iff.mp hone
    exact finish_single hprint.numeric hlegs nSessId
  · obtain ⟨primary, rest, hlegs, hpri, hrest⟩ := List.map_eq_cons_iff.mp hpaths
    obtain ⟨secondary, none, rfl, hsec, hnone⟩ := List.map_eq_cons_iff.mp hrest
    obtain rfl := List.map_eq_nil_iff.mp hnone
    exact finish_pair hprint.numeric hlegs (hpri ▸ unbroken_path.1) (hsec ▸ unbroken_path.2) (by simp [hpri, hsec])
      nSessId

end Text

end PiAudioNode.Rtp
