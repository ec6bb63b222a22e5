import PiAudioNode.Lib.Selection
import PiAudioNode.Rtp.SdpLines

/-! The legs of a description: one for each audio section, read from its own lines, and
those of them that the duplication group selects. -/
namespace PiAudioNode.Rtp
open Lib

/-- A media section: its m= line and the lines below. -/
structure SdpSection where
  sMedia : List Char
  vLines : List (List Char)
  deriving DecidableEq

section Definitions

def isMedia (l : List Char) : Bool :=
  match SdpLine.ofText l with
  | .media .. => true
  | _ => false

/-- The lines before the first audio section, and the sections: each up to the next
m= line that is accepted. -/
def splitSections : List (List Char) → List (List Char) × List SdpSection
  | [] => ([], [])
  | l :: ls =>
    let x := splitSections ls
    if isMedia l then ([], ⟨l, x.1⟩ :: x.2) else (l :: x.1, x.2)

def preamble (ls : List (List Char)) : List (List Char) := (splitSections ls).1

def sections (ls : List (List Char)) : List SdpSection := (splitSections ls).2

/-- The address that the sections start with: the last one before them. -/
def connectionAfter (sConnection : String) (ls : List (List Char)) : String :=
  ls.foldl (fun sConnection l =>
    match SdpLine.ofText l with
    | .connection sAddr => sAddr
    | _ => sConnection) sConnection

def sessionConnection (ls : List (List Char)) : String := connectionAfter "" (preamble ls)

def SdpLeg.apply (leg : SdpLeg) : SdpLine → SdpLeg
  | .connection sAddr => { leg with sMulticast := sAddr }
  | .mid sMid => { leg with sMid := sMid }
  | .source sSource => { leg with sSourceFilter := sSource }
  | _ => leg

def SdpLeg.applyAll (leg : SdpLeg) (ls : List (List Char)) : SdpLeg :=
  ls.foldl (fun leg l => leg.apply (.ofText l)) leg

/-- The port on an m= line. -/
def mediaPort (l : List Char) : Int :=
  match SdpLine.ofText l with
  | .media nPort _ => nPort
  | _ => 0

/-- The leg of a section. -/
def SdpSection.leg (sConnection : String) (sec : SdpSection) : SdpLeg :=
  SdpLeg.applyAll { nPort := BitVec.ofInt 16 (mediaPort sec.sMedia), sMulticast := sConnection } sec.vLines

/-- The mids that the group lines name, one after the other. -/
def groupMids (ls : List (List Char)) : List (List Char) :=
  ls.flatMap fun l =>
    match SdpLine.ofText l with
    | .group vMids => vMids
    | _ => []

variable (ls : List (List Char))

/-- The mid of a section; it does not depend on the address of the session. -/
def SdpSection.mid (sec : SdpSection) : List Char := (sec.leg "").sMid.toList

/-- The sections with their places in the text, which tell them apart. -/
def numbered : List (SdpSection × Nat) := (sections ls).zipIdx

/-- The sections that match the group, in its order. -/
def matching : List (SdpSection × Nat) := select (fun x => x.1.mid) (groupMids ls) (numbered ls)

/-- The sections whose legs are wanted: those of a group of two or more mids that matches
any, each once, and else all; two at most. -/
def wanted : List (SdpSection × Nat) :=
  if 1 < (groupMids ls).length ∧ matching ls ≠ [] then (matching ls).eraseDups.take 2 else (numbered ls).take 2

/-- The legs are built from one or two different sections, the wanted ones. -/
structure Selects (session : SdpSession) (chosen : List (SdpSection × Nat)) : Prop where
  sections : ∀ x ∈ chosen, x ∈ numbered ls
  distinct : chosen.Nodup
  few : chosen.length = 1 ∨ chosen.length = 2
  legs : session.vLegs = chosen.map fun x => x.1.leg (sessionConnection ls)
  order : chosen = wanted ls

def SelectsLegs (session : SdpSession) : Prop := ∃ chosen, Selects ls session chosen

/-- The mids of the group that a section has. -/
def heededMids : List (List Char) := (groupMids ls).filter fun sMid => ∃ x ∈ numbered ls, x.1.mid = sMid

/-- The first mid that a section has is named again before any other is, and no other
section has it. -/
def Repeats : Prop :=
  ∃ sMid rest, heededMids ls = sMid :: sMid :: rest ∧ ((numbered ls).filter fun x => x.1.mid = sMid).length = 1

end Definitions

section Reading
variable {ls : List (List Char)}

theorem isMedia_iff {l : List Char} : isMedia l ↔ ∃ nPort nPt, SdpLine.ofText l = .media nPort nPt := by
  rw [isMedia]
  cases SdpLine.ofText l <;> simp

theorem splitSections_media {l : List Char} (h : isMedia l) (ls : List (List Char)) :
    preamble (l :: ls) = [] ∧ sections (l :: ls) = ⟨l, preamble ls⟩ :: sections ls := by
  simp only [preamble, sections, splitSections, if_pos h, and_self]

theorem splitSections_other {l : List Char} (h : ¬ isMedia l) (ls : List (List Char)) :
    preamble (l :: ls) = l :: preamble ls ∧ sections (l :: ls) = sections ls := by
  simp only [preamble, sections, splitSections, if_neg h, and_self]

theorem ofText_ne_media {l : List Char} (h : ¬ isMedia l) (nPort nPt : Int) : SdpLine.ofText l ≠ .media nPort nPt :=
  fun heq => h (isMedia_iff.mpr ⟨nPort, nPt, heq⟩)

/-- The mids are collected and nothing else touches them. -/
theorem vDupMids_applyAll (r : SdpReader) (ls : List (List Char)) :
    (r.applyAll ls).vDupMids = r.vDupMids ++ groupMids ls := by
  induction ls generalizing r with
  | nil => exact (List.append_nil _).symm
  | cons l ls ih =>
    have hstep : (r.apply (.ofText l)).vDupMids = r.vDupMids ++
        (match SdpLine.ofText l with | .group vMids => vMids | _ => []) := by
      cases SdpLine.ofText l with
      | group vMids => rfl
      | _ => exact (List.append_nil _).symm
    have hmids : groupMids (l :: ls) =
        (match SdpLine.ofText l with | .group vMids => vMids | _ => []) ++ groupMids ls := List.flatMap_cons ..
    rw [applyAll_cons, ih, hstep, hmids, List.append_assoc]

theorem vLegs_updateLeg {r : SdpReader} {legs : List SdpLeg} {leg : SdpLeg} (h : r.session.vLegs = legs ++ [leg])
    (f : SdpLeg → SdpLeg) : (r.updateLeg f).session.vLegs = legs ++ [f leg] := by
  simp only [SdpReader.updateLeg, h, updateLast_append]

/-- A line that starts no section is about the last leg. -/
theorem vLegs_apply_of_append {r : SdpReader} {legs : List SdpLeg} {leg : SdpLeg} (h : r.session.vLegs = legs ++ [leg])
    {line : SdpLine} (hline : ∀ nPort nPt, line ≠ .media nPort nPt) :
    (r.apply line).session.vLegs = legs ++ [leg.apply line] ∧
      (r.apply line).sSessionConnection = r.sSessionConnection := by
  have hlegs : r.session.vLegs ≠ [] := by simp [h]
  cases line with
  | media nPort nPt => exact absurd rfl (hline nPort nPt)
  | connection sAddr => exact ⟨vLegs_updateLeg h _, if_neg hlegs⟩
  | mid sMid => exact ⟨vLegs_updateLeg h _, rfl⟩
  | source sSource => exact ⟨vLegs_updateLeg h _, rfl⟩
  | _ => exact ⟨h, rfl⟩

/-- Before the first section only the address of the session is kept. -/
theorem vLegs_apply_of_nil {r : SdpReader} (h : r.session.vLegs = []) {l : List Char} (hline : ¬ isMedia l) :
    (r.apply (.ofText l)).session.vLegs = [] ∧
      (r.apply (.ofText l)).sSessionConnection = connectionAfter r.sSessionConnection [l] := by
  simp only [connectionAfter, List.foldl_cons, List.foldl_nil]
  cases hkind : SdpLine.ofText l with
  | media nPort nPt => exact absurd hkind (ofText_ne_media hline nPort nPt)
  | connection sAddr => exact ⟨congrArg (updateLast _) h, if_pos h⟩
  | mid sMid => exact ⟨congrArg (updateLast _) h, rfl⟩
  | source sSource => exact ⟨congrArg (updateLast _) h, rfl⟩
  | _ => exact ⟨h, rfl⟩

/-- An m= line adds a leg with the port on it. -/
theorem vLegs_apply_of_isMedia (r : SdpReader) {l : List Char} (hmedia : isMedia l) :
    (r.apply (.ofText l)).session.vLegs =
        r.session.vLegs ++ [{ nPort := BitVec.ofInt 16 (mediaPort l), sMulticast := r.sSessionConnection }] ∧
      (r.apply (.ofText l)).sSessionConnection = r.sSessionConnection := by
  obtain ⟨nPort, nPt, hkind⟩ := isMedia_iff.mp hmedia
  have hport : mediaPort l = nPort := by simp only [mediaPort, hkind]
  rw [hport, hkind]
  exact ⟨rfl, rfl⟩

theorem vLegs_applyAll_of_append {r : SdpReader} {legs : List SdpLeg} {leg : SdpLeg}
    (h : r.session.vLegs = legs ++ [leg]) : (r.applyAll ls).session.vLegs =
      legs ++ leg.applyAll (preamble ls) :: (sections ls).map (SdpSection.leg r.sSessionConnection) := by
  induction ls generalizing r legs leg with
  | nil => exact h
  | cons l ls ih =>
    rw [applyAll_cons]
    by_cases hmedia : isMedia l
    · obtain ⟨hadded, hconnection⟩ := vLegs_apply_of_isMedia r hmedia
      obtain ⟨hpre, hsections⟩ := splitSections_media hmedia ls
      rw [ih hadded, hconnection, h, hpre, hsections, List.map_cons, SdpSection.leg, List.append_assoc]
      rfl
    · obtain ⟨hstep, hconnection⟩ := vLegs_apply_of_append h (ofText_ne_media hmedia)
      obtain ⟨hpre, hsections⟩ := splitSections_other hmedia ls
      rw [ih hstep, hconnection, hpre, hsections]
      rfl

theorem vLegs_applyAll_of_nil {r : SdpReader} (h : r.session.vLegs = []) : (r.applyAll ls).session.vLegs =
    (sections ls).map (SdpSection.leg (connectionAfter r.sSessionConnection (preamble ls))) := by
  induction ls generalizing r with
  | nil => exact h
  | cons l ls ih =>
    rw [applyAll_cons]
    by_cases hmedia : isMedia l
    · obtain ⟨hadded, hconnection⟩ := vLegs_apply_of_isMedia r hmedia
      obtain ⟨hpre, hsections⟩ := splitSections_media hmedia ls
      rw [vLegs_applyAll_of_append hadded, hconnection, h, hpre, hsections, List.map_cons, SdpSection.leg]
      rfl
    · obtain ⟨hstep, hconnection⟩ := vLegs_apply_of_nil h hmedia
      obtain ⟨hpre, hsections⟩ := splitSections_other hmedia ls
      rw [ih hstep, hconnection, hpre, hsections]
      rfl

/-- The legs that are read are those of the sections. -/
theorem vLegs_applyAll (ls : List (List Char)) : (SdpReader.applyAll {} ls).session.vLegs =
    (sections ls).map (SdpSection.leg (sessionConnection ls)) :=
  vLegs_applyAll_of_nil rfl

end Reading

section Selecting
variable {ls : List (List Char)}

theorem sMid_applyAll {leg leg' : SdpLeg} (h : leg.sMid = leg'.sMid) (ls : List (List Char)) :
    (leg.applyAll ls).sMid = (leg'.applyAll ls).sMid := by
  induction ls generalizing leg leg' with
  | nil => exact h
  | cons l ls ih =>
    have hstep : (leg.apply (.ofText l)).sMid = (leg'.apply (.ofText l)).sMid := by
      cases SdpLine.ofText l with
      | mid sMid => rfl
      | _ => exact h
    exact ih hstep

theorem SdpSection.sMid_leg (sConnection : String) (sec : SdpSection) : (sec.leg sConnection).sMid.toList = sec.mid := by
  have hmid : (sec.leg sConnection).sMid = (sec.leg "").sMid := by
    rw [SdpSection.leg, SdpSection.leg]
    apply sMid_applyAll
    rfl
  rw [hmid, SdpSection.mid]

theorem map_numbered (ls : List (List Char)) (sConnection : String) :
    (numbered ls).map (fun x => x.1.leg sConnection) = (sections ls).map (SdpSection.leg sConnection) := by
  have hfst : (fun x : SdpSection × Nat => x.1.leg sConnection) = SdpSection.leg sConnection ∘ Prod.fst := rfl
  rw [hfst, ← List.map_map, numbered, List.zipIdx_map_fst]

theorem nodup_numbered (ls : List (List Char)) : (numbered ls).Nodup := by
  have hplaces : ((numbered ls).map Prod.snd).Nodup := by
    rw [numbered, List.zipIdx_map_snd]
    exact List.nodup_range'
  exact hplaces.of_map _

/-- The legs of a group are those of the sections that match it. -/
theorem groupLegs_sections (ls : List (List Char)) (sConnection : String) :
    groupLegs (groupMids ls) ((sections ls).map (SdpSection.leg sConnection)) =
      (if 1 < (groupMids ls).length ∧ matching ls ≠ [] then matching ls else numbered ls).map
        fun x => x.1.leg sConnection := by
  have hselect : ((groupMids ls).flatMap fun sMid => ((sections ls).map (SdpSection.leg sConnection)).filter
      fun leg => leg.sMid.toList = sMid) = (matching ls).map fun x => x.1.leg sConnection := by
    have hkey : (fun x : SdpSection × Nat => (x.1.leg sConnection).sMid.toList) = fun x => x.1.mid := by
      funext x
      exact x.1.sMid_leg sConnection
    rw [← map_numbered, matching, ← hkey]
    exact select_map (fun x : SdpSection × Nat => x.1.leg sConnection) (fun leg => leg.sMid.toList) _ _
  simp only [groupLegs, hselect, List.map_eq_nil_iff]
  by_cases hgroup : 1 < (groupMids ls).length
  · by_cases hnone : matching ls = []
    · rw [if_pos hgroup, if_pos hnone, if_neg (by simp [hnone]), map_numbered]
    · rw [if_pos hgroup, if_neg hnone, if_pos ⟨hgroup, hnone⟩]
  · rw [if_neg hgroup, if_neg (fun h => hgroup h.1), map_numbered]

/-- A description is read as a session if it has a section, with the legs that its
group selects. -/
theorem parseSdp_legs {sSdp : String} {session : SdpSession} (h : parseSdp sSdp = some session) :
    numbered (textLines sSdp) ≠ [] ∧
      session.vLegs = ((if 1 < (groupMids (textLines sSdp)).length ∧ matching (textLines sSdp) ≠ []
        then matching (textLines sSdp) else numbered (textLines sSdp)).take 2).map
          fun x => x.1.leg (sessionConnection (textLines sSdp)) := by
  rw [parseSdp_eq, SdpReader.finish] at h
  split_ifs at h with hnone
  obtain rfl := Option.some.inj h
  rw [vLegs_applyAll, List.map_eq_nil_iff] at hnone
  constructor
  · intro hnumbered
    exact hnone (List.zipIdx_eq_nil_iff.mp hnumbered)
  · simp only [vLegs_applyAll, vDupMids_applyAll, List.nil_append, groupLegs_sections, List.map_take]

theorem nodup_take_two_matching (ls : List (List Char)) : ((matching ls).take 2).Nodup ↔ ¬ Repeats ls := by
  rw [matching, ← select_filter]
  exact nodup_take_two_select (nodup_numbered ls) (allHeld_filter _ _ _)

theorem mem_numbered_of_matching {x : SdpSection × Nat} (h : x ∈ matching ls) : x ∈ numbered ls := (mem_select.mp h).1

theorem wanted_subset (ls : List (List Char)) : ∀ x ∈ wanted ls, x ∈ numbered ls := by
  intro x hx
  rw [wanted] at hx
  split_ifs at hx
  · exact mem_numbered_of_matching (List.mem_eraseDups.mp (List.mem_of_mem_take hx))
  · exact List.mem_of_mem_take hx

theorem length_take_two {α : Type} {xs : List α} (h : xs ≠ []) : (xs.take 2).length = 1 ∨ (xs.take 2).length = 2 := by
  have hpos := List.length_pos_of_ne_nil h
  rw [List.length_take]
  omega

/-- A repeated mid is as good as a group. -/
theorem one_lt_groupMids {sMid : List Char} {rest : List (List Char)} (h : heededMids ls = sMid :: sMid :: rest) :
    1 < (groupMids ls).length := by
  have hlength : (heededMids ls).length ≤ (groupMids ls).length := List.length_filter_le _ _
  rw [h, List.length_cons, List.length_cons] at hlength
  omega

/-- Without a repeated mid the wanted sections are the first two that are there. -/
theorem wanted_eq (h : ¬ Repeats ls) : wanted ls =
    (if 1 < (groupMids ls).length ∧ matching ls ≠ [] then matching ls else numbered ls).take 2 := by
  rw [wanted]
  split_ifs
  · exact take_two_eraseDups ((nodup_take_two_matching ls).mpr h)
  · rfl

/-- Of a section that is named twice, the leg is returned twice. -/
theorem not_selectsLegs {sSdp : String} {session : SdpSession} (h : parseSdp sSdp = some session)
    (hrepeats : Repeats (textLines sSdp)) : ¬ SelectsLegs (textLines sSdp) session := by
  obtain ⟨-, hlegs⟩ := parseSdp_legs h
  generalize textLines sSdp = ls at hrepeats hlegs ⊢
  obtain ⟨sMid, rest, hheeded, hone⟩ := hrepeats
  rintro ⟨chosen, hsel⟩
  have hgroup := one_lt_groupMids hheeded
  obtain ⟨x, honly, htwice⟩ := take_two_select_of_repeat hheeded hone
  rw [heededMids, select_filter] at htwice
  have hmatching : matching ls ≠ [] := by
    intro hnone
    rw [matching] at hnone
    rw [hnone] at htwice
    cases htwice
  rw [if_pos ⟨hgroup, hmatching⟩, matching, htwice, hsel.legs] at hlegs
  obtain ⟨y, z, rfl⟩ := List.length_eq_two.mp (by simpa using congrArg List.length hlegs)
  -- a chosen section with the leg of `x` has its mid, so it is `x`
  have heq {y : SdpSection × Nat} (hy : y ∈ numbered ls)
      (hleg : y.1.leg (sessionConnection ls) = x.1.leg (sessionConnection ls)) : y = x := by
    have hmid : y.1.mid = x.1.mid := by
      rw [← y.1.sMid_leg (sessionConnection ls), hleg, x.1.sMid_leg]
    have hx : x ∈ (numbered ls).filter fun x => x.1.mid = sMid := by
      rw [honly]
      exact List.mem_singleton_self x
    have hy' : y ∈ (numbered ls).filter fun x => x.1.mid = sMid := by
      refine List.mem_filter.mpr ⟨hy, decide_eq_true ?_⟩
      rw [hmid]
      exact of_decide_eq_true (List.mem_filter.mp hx).2
    rw [honly] at hy'
    exact List.mem_singleton.mp hy'
  simp only [List.map_cons, List.map_nil, List.cons.injEq, and_true] at hlegs
  have hy := heq (hsel.sections y (by simp)) hlegs.1
  have hz := heq (hsel.sections z (by simp)) hlegs.2
  have hnodup := hsel.distinct
  rw [hy, hz] at hnodup
  simp at hnodup

theorem selectsLegs_of_fresh {sSdp : String} {session : SdpSession} (h : parseSdp sSdp = some session)
    (hfresh : ¬ Repeats (textLines sSdp)) : SelectsLegs (textLines sSdp) session := by
  obtain ⟨hsome, hlegs⟩ := parseSdp_legs h
  generalize textLines sSdp = ls at hsome hlegs hfresh ⊢
  refine ⟨wanted ls, wanted_subset ls, ?_, ?_, ?_, rfl⟩
  all_goals rw [wanted_eq hfresh]
  · split_ifs
    · exact (nodup_take_two_matching ls).mpr hfresh
    · exact (nodup_numbered ls).take
  · apply length_take_two
    split_ifs with hgroup
    · exact hgroup.2
    · exact hsome
  · exact hlegs

/-- The legs are those of different sections, selected as the group asks, unless its
first mid comes again and the one section with that mid is taken twice. -/
theorem selectsLegs_iff {sSdp : String} {session : SdpSession} (h : parseSdp sSdp = some session) :
    SelectsLegs (textLines sSdp) session ↔ ¬ Repeats (textLines sSdp) :=
  ⟨fun hselects hrepeats => not_selectsLegs h hrepeats hselects, selectsLegs_of_fresh h⟩

/-- A group of two sections with ports of their own. -/
def groupedText (sGroup : String) : String :=
  "a=group:DUP " ++ sGroup ++
    "\nm=audio 5004 RTP/AVP 96\nc=IN IP4 239.1.1.1/32\na=mid:A\nm=audio 5006 RTP/AVP 96\nc=IN IP4 239.1.1.2/32\na=mid:B\n"

/-- Its sections, line by line. -/
def pairLines : List (List Char) :=
  ["m=audio 5004 RTP/AVP 96", "c=IN IP4 239.1.1.1/32", "a=mid:A", "m=audio 5006 RTP/AVP 96", "c=IN IP4 239.1.1.2/32",
    "a=mid:B", ""].map String.toList

theorem textLines_groupedText {sGroup : String} (h : '\n' ∉ sGroup.toList) :
    textLines (groupedText sGroup) = ("a=group:DUP ".toList ++ sGroup.toList) :: pairLines := by
  have hfree : ∀ l ∈ pairLines, '\n' ∉ l := by decide +kernel
  have hgroup : '\n' ∉ "a=group:DUP ".toList ++ sGroup.toList := by
    rw [List.mem_append, not_or]
    exact ⟨by decide, h⟩
  have htext : (groupedText sGroup).toList =
      List.intercalate ['\n'] (("a=group:DUP ".toList ++ sGroup.toList) :: pairLines) := by
    unfold pairLines
    rw [groupedText, String.toList_append, String.toList_append, List.map_cons, List.intercalate_cons_cons,
      List.append_assoc _ ['\n']]
    refine congrArg (("a=group:DUP ".toList ++ sGroup.toList) ++ ·) ?_
    decide +kernel
  rw [textLines, htext]
  exact List.splitOn_intercalate '\n' (List.forall_mem_cons.mpr ⟨hgroup, hfree⟩) (List.cons_ne_nil _ _)

theorem not_selectsLegs_of_repeat : ¬ ∀ (sSdp : String) (session : SdpSession), parseSdp sSdp = some session →
    SelectsLegs (textLines sSdp) session := by
  intro hall
  have hlines : textLines (groupedText "A A B") = ("a=group:DUP ".toList ++ "A A B".toList) :: pairLines :=
    textLines_groupedText (by decide)
  have hparse : (parseSdp (groupedText "A A B")).isSome := by
    rw [parseSdp_eq, hlines]
    decide +kernel
  obtain ⟨session, hsession⟩ := Option.isSome_iff_exists.mp hparse
  have hrepeats : Repeats (textLines (groupedText "A A B")) := by
    rw [hlines]
    have hheeded : heededMids (("a=group:DUP ".toList ++ "A A B".toList) :: pairLines) = [['A'], ['A'], ['B']] := by
      decide +kernel
    exact ⟨['A'], [['B']], hheeded, by decide +kernel⟩
  exact not_selectsLegs hsession hrepeats (hall _ session hsession)

theorem selectsLegs_of_reversed : ∃ session, parseSdp (groupedText "B A") = some session ∧
    SelectsLegs (textLines (groupedText "B A")) session := by
  have hlines : textLines (groupedText "B A") = ("a=group:DUP ".toList ++ "B A".toList) :: pairLines :=
    textLines_groupedText (by decide)
  have hparse : (parseSdp (groupedText "B A")).isSome := by
    rw [parseSdp_eq, hlines]
    decide +kernel
  obtain ⟨session, hsession⟩ := Option.isSome_iff_exists.mp hparse
  have hheeded : heededMids (textLines (groupedText "B A")) = [['B'], ['A']] := by
    rw [hlines]
    decide +kernel
  refine ⟨session, hsession, (selectsLegs_iff hsession).mpr ?_⟩
  rintro ⟨sMid, rest, hrepeat, -⟩
  rw [hheeded] at hrepeat
  obtain ⟨rfl, hrest⟩ := List.cons.inj hrepeat
  cases (List.cons.inj hrest).1

end Selecting

end PiAudioNode.Rtp
