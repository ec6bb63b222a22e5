import PiAudioNode.Ptp.Status

/-! What the verdict on two networks says of the datasets they announced. The comparison
reads the attributes of a grandmaster only where two grandmasters differ. -/
namespace PiAudioNode.Ptp
open Lib

/-- Every field the selection compares is the same, and the offset to UTC. -/
structure AnnounceDataset.Identical (a b : AnnounceDataset) : Prop extends a.Agree b where
  grandmaster : a.grandmasterIdentity = b.grandmasterIdentity
  stepsRemoved : a.nStepsRemoved = b.nStepsRemoved
  source : a.source = b.source
  utcOffset : a.nUtcOffset = b.nUtcOffset

/-- The topology and the offset to UTC leave no difference to the attributes. -/
def AnnounceDataset.Told (a b : AnnounceDataset) : Prop :=
  a.grandmasterIdentity = b.grandmasterIdentity → a.nStepsRemoved = b.nStepsRemoved →
    a.nUtcOffset = b.nUtcOffset → a.Agree b

/-- The verdict on the master at one place of the document. -/
def netMatchAt (ctx : StatusContext) (c : PtpClock) (k : Nat) : Option Json :=
  (((statusJson ctx c).member "masters").bind Json.elements).bind fun masters =>
    masters[k]?.bind (Json.member "net_match")

theorem netMatchAt_eq (ctx : StatusContext) {c : PtpClock} {k : Nat} {id : PortIdentity} {f : ForeignMaster}
    (hk : c.mForeign.toList[k]? = some (id, f)) : netMatchAt ctx c k = some (netMatch f) := by
  have hmasters : (statusJson ctx c).member "masters" =
      some (.arr (c.mForeign.toList.map fun e => masterJson ctx.now e.1 e.2)) := rfl
  rw [netMatchAt, hmasters, Option.bind_some, Json.elements, Option.bind_some, List.getElem?_map, hk]
  rfl

theorem netMatch_eq {f : ForeignMaster} (hamber : 0 < f.aAnnounceCount .amber) (hblue : 0 < f.aAnnounceCount .blue) :
    netMatch f = .bool ((compareDatasets (f.aDataset .amber) (f.aDataset .blue)).nResult = 0 ∧
      (f.aDataset .amber).nUtcOffset = (f.aDataset .blue).nUtcOffset) := by
  unfold netMatch
  rw [if_neg]
  omega

theorem noteAnnounce_aAnnounceCount (f : ForeignMaster) (ds : AnnounceDataset) (sFrom : String) (i : Interface)
    (now : Time) : (noteAnnounce f ds sFrom i now).aAnnounceCount =
      Function.update f.aAnnounceCount i (f.aAnnounceCount i + 1) := by
  simp only [noteAnnounce]
  split_ifs <;> rfl

theorem noteAnnounce_aDataset (f : ForeignMaster) (ds : AnnounceDataset) (sFrom : String) (i : Interface)
    (now : Time) : (noteAnnounce f ds sFrom i now).aDataset = Function.update f.aDataset i ds := by
  simp only [noteAnnounce]
  split_ifs <;> rfl

/-- A network that announced the master named it as its source. -/
def Sourced (id : PortIdentity) (f : ForeignMaster) : Prop :=
  ∀ nInterface, 0 < f.aAnnounceCount nInterface → (f.aDataset nInterface).source = id

theorem sourced_ofEntries : OfEntries Sourced := by
  refine ⟨fun id nInterface hpos => absurd hpos (lt_irrefl 0), ?_, fun best id f h => h⟩
  intro f ds sFrom nInterface now h i hpos
  rw [noteAnnounce_aDataset]
  by_cases hi : i = nInterface
  · rw [hi, Function.update_self]
  · rw [noteAnnounce_aAnnounceCount, Function.update_of_ne hi] at hpos
    rw [Function.update_of_ne hi]
    exact h i hpos

/-- The comparison finds no difference exactly in topology and offset, which is all of it
where these leave none to the attributes. -/
theorem match_iff_identical_iff {a b : AnnounceDataset} (hsource : a.source = b.source) :
    (((compareDatasets a b).nResult = 0 ∧ a.nUtcOffset = b.nUtcOffset) ↔ a.Identical b) ↔ a.Told b := by
  rw [nResult_eq_zero_iff]
  constructor
  · intro hiff hgm hsteps hutc
    exact (hiff.mp ⟨⟨hgm, hsteps, hsource⟩, hutc⟩).toAgree
  · intro htold
    constructor
    · rintro ⟨⟨hgm, hsteps, -⟩, hutc⟩
      exact ⟨htold hgm hsteps hutc, hgm, hsteps, hsource, hutc⟩
    · intro h
      exact ⟨⟨h.grandmaster, h.stepsRemoved, h.source⟩, h.utcOffset⟩

/-- In every state of the client, and for every master both networks announced, the
verdict means that the two descriptions are identical exactly where the attributes cannot
differ alone. -/
theorem net_match_iff_identical_iff (nDomain : Int) (ownIdentity : ClockIdentity) (es : List ThreadEvent)
    (ctx : StatusContext) (k : Nat) (id : PortIdentity) (f : ForeignMaster)
    (hk : (threadsAfter nDomain ownIdentity es).clock.mForeign.toList[k]? = some (id, f))
    (hamber : 0 < f.aAnnounceCount .amber) (hblue : 0 < f.aAnnounceCount .blue) :
    (netMatchAt ctx (threadsAfter nDomain ownIdentity es).clock k = some (.bool true) ↔
        (f.aDataset .amber).Identical (f.aDataset .blue)) ↔
      (f.aDataset .amber).Told (f.aDataset .blue) := by
  have hsourced : Sourced id f :=
    sourced_ofEntries.after nDomain ownIdentity es id f
      (Std.TreeMap.mem_toList_iff_getElem?_eq_some.mp (List.mem_of_getElem? hk))
  have hsource : (f.aDataset .amber).source = (f.aDataset .blue).source :=
    (hsourced .amber hamber).trans (hsourced .blue hblue).symm
  rw [netMatchAt_eq ctx hk, netMatch_eq hamber hblue, ← match_iff_identical_iff hsource]
  simp only [Option.some.injEq, Json.bool.injEq, decide_eq_true_eq]

section TwoNetworks

/-- An announce of clock 1 for itself. -/
def announceWith (nPriority1 : Byte) : Bytes :=
  messageOf .announce 0 1 0 (List.replicate 13 0 ++ [nPriority1, 248, 0x21, 0, 0, 128] ++ List.replicate 7 0 ++ [1, 0, 0, 0xA0])

def onBothNetworks (nAmber nBlue : Byte) : List ThreadEvent :=
  [.check ⟨announceWith nAmber, 0, "10.0.0.1", .amber, 0⟩, .handle,
    .check ⟨announceWith nBlue, 0, "10.0.0.1", .blue, 0⟩, .handle]

def twoNetworks : StatusContext := ⟨["eth0", "eth1"], 0, 0, []⟩

/-- Both networks announce the same priority. -/
theorem net_match_iff_identical_iff_agreeing : ∃ id f,
    (threadsAfter 0 (clockOf 9) (onBothNetworks 10 10)).clock.mForeign.toList[0]? = some (id, f) ∧
      ((netMatchAt twoNetworks (threadsAfter 0 (clockOf 9) (onBothNetworks 10 10)).clock 0 = some (.bool true) ↔
          (f.aDataset .amber).Identical (f.aDataset .blue)) ↔ (f.aDataset .amber).Told (f.aDataset .blue)) := by
  obtain ⟨⟨id, f⟩, hk⟩ := Option.isSome_iff_exists.mp (by decide +kernel :
    ((threadsAfter 0 (clockOf 9) (onBothNetworks 10 10)).clock.mForeign.toList[0]?).isSome)
  have hall : ((threadsAfter 0 (clockOf 9) (onBothNetworks 10 10)).clock.mForeign.toList[0]?).all
      (fun e => 0 < e.2.aAnnounceCount .amber ∧ 0 < e.2.aAnnounceCount .blue) = true := by decide +kernel
  rw [hk, Option.all_some, decide_eq_true_eq] at hall
  exact ⟨id, f, hk, net_match_iff_identical_iff 0 (clockOf 9) (onBothNetworks 10 10) twoNetworks 0 id f hk hall.1 hall.2⟩

/-- The networks announce one grandmaster with two priorities, and match. -/
theorem net_match_differing : ¬ ∀ (nDomain : Int) (ownIdentity : ClockIdentity) (es : List ThreadEvent)
    (ctx : StatusContext) (k : Nat) (id : PortIdentity) (f : ForeignMaster),
    (threadsAfter nDomain ownIdentity es).clock.mForeign.toList[k]? = some (id, f) →
    0 < f.aAnnounceCount .amber → 0 < f.aAnnounceCount .blue →
    (netMatchAt ctx (threadsAfter nDomain ownIdentity es).clock k = some (.bool true) ↔
      (f.aDataset .amber).Identical (f.aDataset .blue)) := by
  intro hclaim
  obtain ⟨⟨id, f⟩, hk⟩ := Option.isSome_iff_exists.mp (by decide +kernel :
    ((threadsAfter 0 (clockOf 9) (onBothNetworks 10 20)).clock.mForeign.toList[0]?).isSome)
  have hall : ((threadsAfter 0 (clockOf 9) (onBothNetworks 10 20)).clock.mForeign.toList[0]?).all
      (fun e => (0 < e.2.aAnnounceCount .amber ∧ 0 < e.2.aAnnounceCount .blue) ∧
        ((compareDatasets (e.2.aDataset .amber) (e.2.aDataset .blue)).nResult = 0 ∧
          (e.2.aDataset .amber).nUtcOffset = (e.2.aDataset .blue).nUtcOffset) ∧
        (e.2.aDataset .amber).nPriority1 ≠ (e.2.aDataset .blue).nPriority1) = true := by decide +kernel
  rw [hk, Option.all_some, decide_eq_true_eq] at hall
  obtain ⟨⟨hamber, hblue⟩, hmatch, hdiffer⟩ := hall
  have hiff := hclaim 0 (clockOf 9) (onBothNetworks 10 20) twoNetworks 0 id f hk hamber hblue
  rw [netMatchAt_eq twoNetworks hk, netMatch_eq hamber hblue, decide_eq_true hmatch] at hiff
  exact hdiffer (hiff.mp rfl).priority1

end TwoNetworks

end PiAudioNode.Ptp
