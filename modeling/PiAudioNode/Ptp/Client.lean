import Mathlib
import PiAudioNode.Lib.Run
import PiAudioNode.Lib.Tournament
import PiAudioNode.Ptp.Dataset

/-! The PTP client's foreign master table: announces from the two networks, the
best master selection run after every change, and the ageing timer. -/
namespace PiAudioNode.Ptp
open Lib Lib.Tournament

/-- The two networks: interface 0 is the primary (amber) one, interface 1 the
monitored blue one. -/
inductive Interface where
  | amber
  | blue
  deriving DecidableEq

/-- Nanoseconds of the steady clock. -/
abbrev Time := Int

structure ForeignMaster where
  dataset : AnnounceDataset := {}
  nAnnounceCount : Nat := 0
  aAnnounceCount : Interface → Nat := fun _ => 0
  aDataset : Interface → AnnounceDataset := fun _ => {}
  lastSeen : Time := 0
  firstSeen : Time := 0
  sAddress : String := ""
  sBmcaInfo : String := ""
  bSelected : Bool := false

instance : Inhabited ForeignMaster := ⟨{}⟩

abbrev ForeignTable := Std.TreeMap PortIdentity ForeignMaster

structure PtpClient where
  mForeign : ForeignTable := ∅
  selectedMaster : Option PortIdentity := none
  bAwaitFollowUp : Bool := false
  bHaveDelay : Bool := false
  qOffsetWindow : List ℚ := []
  bSynced : Bool := false
  lastSyncSeen : Time := 0

/-- A master is qualified once it was announced twice on the primary network. -/
def ForeignMaster.Qualified (f : ForeignMaster) : Prop := 2 ≤ f.nAnnounceCount

instance (f : ForeignMaster) : Decidable f.Qualified := inferInstanceAs (Decidable (2 ≤ f.nAnnounceCount))

abbrev Candidate := PortIdentity × AnnounceDataset

/-- The qualified masters in the order of the map. -/
def candidates (t : ForeignTable) : List Candidate :=
  (t.toList.filter fun e => e.2.Qualified).map fun e => (e.1, e.2.dataset)

def BeatsCandidate (a b : Candidate) : Prop := Beats a.2 b.2

instance : DecidableRel BeatsCandidate := fun a b => inferInstanceAs (Decidable (Beats a.2 b.2))

/-- The loop that leaves `pBest`. -/
def bestMaster (t : ForeignTable) : Option Candidate := champion BeatsCandidate (candidates t)

def losesTo (best : Candidate) (dataset : AnnounceDataset) : String :=
  "loses to " ++ identityToString best.1.clockIdentity ++ " on " ++ (compareDatasets best.2 dataset).sDecidingField

/-- The note the analyzer shows; the source leaves it alone when nothing else applies. -/
def bmcaInfo (best : Option Candidate) (id : PortIdentity) (foreign : ForeignMaster) : String :=
  if best.map Prod.fst = some id then "selected"
  else if foreign.nAnnounceCount = 0 ∧ 0 < foreign.aAnnounceCount .blue then "only on blue - not eligible"
  else if foreign.nAnnounceCount < 2 then "not yet qualified"
  else match best with
    | some b => losesTo b foreign.dataset
    | none => foreign.sBmcaInfo

def annotate (best : Option Candidate) (id : PortIdentity) (foreign : ForeignMaster) : ForeignMaster :=
  { foreign with bSelected := best.map Prod.fst = some id, sBmcaInfo := bmcaInfo best id foreign }

/-- A change of master drops the measurements made against the old one. -/
def changeMaster (c : PtpClient) (newMaster : Option PortIdentity) : PtpClient :=
  if newMaster = c.selectedMaster then c
  else { c with
    selectedMaster := newMaster
    bAwaitFollowUp := false
    bHaveDelay := false
    qOffsetWindow := []
    bSynced := if newMaster.isSome then c.bSynced else false }

def runBmca (c : PtpClient) : PtpClient :=
  let best := bestMaster c.mForeign
  changeMaster { c with mForeign := c.mForeign.map (annotate best) } (best.map Prod.fst)

def parseAnnounce (pData : Bytes) : AnnounceDataset :=
  let identity (i : Nat) : ClockIdentity := ⟨List.ofFn fun k : Fin 8 => byteAt pData (i + k), List.length_ofFn⟩
  let nFlags := get16 pData 6
  { source := ⟨identity 20, get16 pData 28⟩
    bLeap61 := nFlags &&& 0x0001 ≠ 0
    bLeap59 := nFlags &&& 0x0002 ≠ 0
    bUtcValid := nFlags &&& 0x0004 ≠ 0
    bTimeTraceable := nFlags &&& 0x0010 ≠ 0
    bFreqTraceable := nFlags &&& 0x0020 ≠ 0
    nUtcOffset := (get16 pData 44).toInt
    nPriority1 := byteAt pData 47
    nClockClass := byteAt pData 48
    nClockAccuracy := byteAt pData 49
    nOffsetScaledLogVariance := get16 pData 50
    nPriority2 := byteAt pData 52
    grandmasterIdentity := identity 53
    nStepsRemoved := get16 pData 61
    nTimeSource := byteAt pData 63 }

/-- Book one announce in the record of its source. The primary network decides
the dataset; the blue one fills it in only while amber never announced. -/
def noteAnnounce (foreign : ForeignMaster) (ds : AnnounceDataset) (sFrom : String) (nInterface : Interface)
    (now : Time) : ForeignMaster :=
  let first := foreign.aAnnounceCount .amber + foreign.aAnnounceCount .blue = 0
  let foreign := { foreign with
    firstSeen := if first then now else foreign.firstSeen
    aAnnounceCount := Function.update foreign.aAnnounceCount nInterface (foreign.aAnnounceCount nInterface + 1)
    aDataset := Function.update foreign.aDataset nInterface ds
    lastSeen := now }
  if nInterface = .amber then
    { foreign with dataset := ds, nAnnounceCount := foreign.nAnnounceCount + 1, sAddress := sFrom }
  else if foreign.nAnnounceCount = 0 then { foreign with dataset := ds, sAddress := sFrom }
  else foreign

def handleAnnounce (c : PtpClient) (pData : Bytes) (sFrom : String) (nInterface : Interface) (now : Time) : PtpClient :=
  if pData.length < 64 then c
  else
    let ds := parseAnnounce pData
    let foreign := noteAnnounce (c.mForeign.getD ds.source default) ds sFrom nInterface now
    runBmca { c with mForeign := c.mForeign.insert ds.source foreign }

def announceTimeout : Time := 6000 * 1000000
def syncTimeout : Time := 5000 * 1000000

def Stale (now seen : Time) : Prop := announceTimeout < now - seen

instance (now seen : Time) : Decidable (Stale now seen) := inferInstanceAs (Decidable (announceTimeout < now - seen))

/-- Erase one silent master; the selection is run again after each. -/
def dropMaster (c : PtpClient) (id : PortIdentity) : PtpClient := runBmca { c with mForeign := c.mForeign.erase id }

def staleMasters (t : ForeignTable) (now : Time) : List PortIdentity :=
  (t.toList.filter fun e => Stale now e.2.lastSeen).map Prod.fst

def ageOut (c : PtpClient) (now : Time) : PtpClient := (staleMasters c.mForeign now).foldl dropMaster c

/-- The locked part of one timer tick, up to the delay request it may send. -/
def timerTick (c : PtpClient) (now : Time) : PtpClient :=
  let c := ageOut c now
  if c.bSynced ∧ syncTimeout < now - c.lastSyncSeen then { c with bSynced := false, qOffsetWindow := [] } else c

/-- The grandmaster behind the selected master, empty without one. -/
def grandmasterId (c : PtpClient) : String :=
  match c.selectedMaster.bind (c.mForeign[·]?) with
  | some foreign => identityToString foreign.dataset.grandmasterIdentity
  | none => ""

inductive Event where
  | announce (pData : Bytes) (sFrom : String) (nInterface : Interface) (now : Time)
  | tick (now : Time)

def step (c : PtpClient) : Event → PtpClient
  | .announce pData sFrom nInterface now => handleAnnounce c pData sFrom nInterface now
  | .tick now => timerTick c now

/-- The client after a run of received announces and timer ticks. -/
def after (es : List Event) : PtpClient := run step {} es

/-- What dropping a silent master and losing sync keep, a timer tick keeps. -/
theorem timerTick_keeps {I : PtpClient → Prop} (drop : ∀ c id, I c → I (dropMaster c id))
    (lose : ∀ c, I c → I { c with bSynced := false, qOffsetWindow := [] }) {c : PtpClient} (h : I c) (now : Time) :
    I (timerTick c now) := by
  have haged : I (ageOut c now) := invariant h drop (staleMasters c.mForeign now)
  unfold timerTick
  dsimp only
  split
  · exact lose _ haged
  · exact haged

section Narrows

/-- The window is emptied, or is left with the sync state. -/
def KeptOrEmptied (c d : PtpClient) : Prop :=
  d.qOffsetWindow = [] ∨ (d.qOffsetWindow = c.qOffsetWindow ∧ d.bSynced = c.bSynced)

theorem KeptOrEmptied.refl (c : PtpClient) : KeptOrEmptied c c := Or.inr ⟨rfl, rfl⟩

theorem KeptOrEmptied.trans {c d e : PtpClient} (h : KeptOrEmptied c d) (h' : KeptOrEmptied d e) :
    KeptOrEmptied c e := by
  rcases h' with hempty | ⟨hwindow, hsynced⟩
  · exact Or.inl hempty
  · rcases h with hempty | ⟨hwindow', hsynced'⟩
    · exact Or.inl (hwindow.trans hempty)
    · exact Or.inr ⟨hwindow.trans hwindow', hsynced.trans hsynced'⟩

/-- What an announce or a timer tick may do to what was measured. -/
structure Narrows (c d : PtpClient) : Prop where
  delay : d.bHaveDelay → c.bHaveDelay
  awaits : d.bAwaitFollowUp → c.bAwaitFollowUp ∧ d.selectedMaster = c.selectedMaster
  window : KeptOrEmptied c d

theorem Narrows.refl (c : PtpClient) : Narrows c c := ⟨id, fun h => ⟨h, rfl⟩, .refl c⟩

theorem Narrows.trans {c d e : PtpClient} (h : Narrows c d) (h' : Narrows d e) : Narrows c e := by
  refine ⟨fun hd => h.delay (h'.delay hd), fun ha => ?_, h.window.trans h'.window⟩
  obtain ⟨hawait', hsel'⟩ := h'.awaits ha
  obtain ⟨hawait, hsel⟩ := h.awaits hawait'
  exact ⟨hawait, hsel'.trans hsel⟩

theorem narrows_runBmca (c : PtpClient) (t : ForeignTable) : Narrows c (runBmca { c with mForeign := t }) := by
  unfold runBmca changeMaster
  dsimp only
  split
  · exact ⟨id, fun h => ⟨h, rfl⟩, Or.inr ⟨rfl, rfl⟩⟩
  · exact ⟨fun h => absurd h Bool.false_ne_true, fun h => absurd h Bool.false_ne_true, Or.inl rfl⟩

theorem narrows_handleAnnounce (c : PtpClient) (pData : Bytes) (sFrom : String) (nInterface : Interface) (now : Time) :
    Narrows c (handleAnnounce c pData sFrom nInterface now) := by
  unfold handleAnnounce
  split
  · exact .refl c
  · exact narrows_runBmca c _

theorem narrows_timerTick (c : PtpClient) (now : Time) : Narrows c (timerTick c now) := by
  refine timerTick_keeps (fun d id h => ?_) (fun d h => ?_) (.refl c) now
  · exact h.trans (narrows_runBmca d _)
  · exact ⟨h.delay, h.awaits, Or.inl rfl⟩

end Narrows

end PiAudioNode.Ptp
