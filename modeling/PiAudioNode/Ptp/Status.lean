import PiAudioNode.Lib.Access
import PiAudioNode.Ptp.Isolation

/-! The status document of the client, and its comparison of the best masters of the
two networks against the selection the clock itself follows. -/
namespace PiAudioNode.Ptp
open Lib Lib.Tournament

/-- What the document shows of the clock besides its state: the interfaces it runs on,
the two clocks of the system and the chart of offsets. -/
structure StatusContext where
  vInterfaces : List String
  nRealtimeNs : BitVec 64
  now : Time
  qOffsetHistory : List (Nat × ℚ)

def ptpTimeNs (c : PtpClock) (nRealtimeNs : BitVec 64) : BitVec 64 :=
  if c.bSynced then nRealtimeNs + BitVec.ofInt 64 c.nMappingNs else 0

/-- The duration in whole seconds. -/
def seconds (t : Time) : Int := t.tdiv 1000000000

/-- Whether the two networks describe the clock identically, once both announced it. -/
def netMatch (foreign : ForeignMaster) : Json :=
  if foreign.aAnnounceCount .amber = 0 ∨ foreign.aAnnounceCount .blue = 0 then .null
  else .bool ((compareDatasets (foreign.aDataset .amber) (foreign.aDataset .blue)).nResult = 0 ∧
    (foreign.aDataset .amber).nUtcOffset = (foreign.aDataset .blue).nUtcOffset)

def masterJson (now : Time) (id : PortIdentity) (foreign : ForeignMaster) : Json :=
  let ds := foreign.dataset
  .obj [
    ("address", .str foreign.sAddress),
    ("announces", .int foreign.nAnnounceCount),
    ("bmca", .str foreign.sBmcaInfo),
    ("clock_accuracy", .int ds.nClockAccuracy.toNat),
    ("clock_class", .int ds.nClockClass.toNat),
    ("freq_traceable", .bool ds.bFreqTraceable),
    ("grandmaster", .str (identityToString ds.grandmasterIdentity)),
    ("net_match", netMatch foreign),
    ("nets", .obj [("amber", .int (foreign.aAnnounceCount .amber)), ("blue", .int (foreign.aAnnounceCount .blue))]),
    ("port_identity", .str (identityToString id.clockIdentity ++ "-" ++ toString id.nPort.toNat)),
    ("priority1", .int ds.nPriority1.toNat),
    ("priority2", .int ds.nPriority2.toNat),
    ("seen_seconds", .int (seconds (now - foreign.firstSeen))),
    ("selected", .bool foreign.bSelected),
    ("steps_removed", .int ds.nStepsRemoved.toNat),
    ("time_source", .int ds.nTimeSource.toNat),
    ("time_traceable", .bool ds.bTimeTraceable),
    ("utc_offset", .int ds.nUtcOffset),
    ("variance", .int ds.nOffsetScaledLogVariance.toNat)]

/-- What one network announced of the masters it announced twice. -/
def datasetsOn (t : ForeignTable) (nIf : Interface) : List AnnounceDataset :=
  (t.toList.filter fun e => 2 ≤ e.2.aAnnounceCount nIf).map fun e => e.2.aDataset nIf

/-- The loop that leaves `apBest[nIf]`. -/
def bestOn (t : ForeignTable) (nIf : Interface) : Option AnnounceDataset := champion Beats (datasetsOn t nIf)

def gmName (best : Option AnnounceDataset) : String :=
  match best with
  | some ds => identityToString ds.grandmasterIdentity
  | none => ""

def metaDetail (amber blue : Option AnnounceDataset) : String :=
  match amber, blue with
  | some a, some b =>
    if (compareDatasets a b).nResult = 0 then "" else "differs on " ++ (compareDatasets a b).sDecidingField
  | some _, none => "no ptp on blue"
  | none, some _ => "no ptp on amber"
  | none, none => "no ptp on either net"

def metaMatch (amber blue : Option AnnounceDataset) : Json :=
  match amber, blue with
  | some a, some b => .bool (a.grandmasterIdentity = b.grandmasterIdentity)
  | _, _ => .null

def metaJson (t : ForeignTable) : Json :=
  .obj [
    ("amber_gm", .str (gmName (bestOn t .amber))),
    ("blue_gm", .str (gmName (bestOn t .blue))),
    ("detail", .str (metaDetail (bestOn t .amber) (bestOn t .blue))),
    ("match", metaMatch (bestOn t .amber) (bestOn t .blue))]

/-- The offset to UTC that the selected master announces. -/
def utcOffset (c : PtpClient) : Int :=
  match c.selectedMaster.bind (c.mForeign[·]?) with
  | some foreign => foreign.dataset.nUtcOffset
  | none => 37

def statusJson (ctx : StatusContext) (c : PtpClock) : Json :=
  .obj ([
    ("correction_ns", .real ((ctx.qOffsetHistory.getLast?.map Prod.snd).getD 0)),
    ("domain", .int c.nDomain),
    ("identity", .str (identityToString c.ownIdentity)),
    ("interface", .str (ctx.vInterfaces.head?.getD "")),
    ("masters", .arr (c.mForeign.toList.map fun e => masterJson ctx.now e.1 e.2)),
    ("mean_path_delay_ns", if c.bHaveDelay then .real c.dMeanPathDelayNs else .null)] ++
    (if 1 < ctx.vInterfaces.length then [("meta", metaJson c.mForeign)] else []) ++ [
    ("offset_history", .arr (ctx.qOffsetHistory.map fun e => .arr [.int e.1, .real e.2])),
    ("sync_count", .int c.nSyncCount),
    ("synced", .bool c.bSynced),
    ("time_ms", .int (if c.bSynced then (ptpTimeNs c ctx.nRealtimeNs).toNat / 1000000 else 0)),
    ("utc_offset", .int (utcOffset c.toPtpClient))])

/-- The comparison, where there is one. -/
theorem statusJson_meta {ctx : StatusContext} (h : 1 < ctx.vInterfaces.length) (c : PtpClock) :
    (statusJson ctx c).member "meta" = some (metaJson c.mForeign) := by
  simp [statusJson, Json.member, findKey, h]

section Records

def EveryEntry (P : PortIdentity → ForeignMaster → Prop) (t : ForeignTable) : Prop :=
  ∀ (id : PortIdentity) (f : ForeignMaster), t[id]? = some f → P id f

/-- What a fresh record has under every port, and what stays when the port's announce is
booked or the selection notes its verdict. -/
structure OfEntries (P : PortIdentity → ForeignMaster → Prop) : Prop where
  fresh : ∀ id, P id default
  noted : ∀ f ds sFrom nInterface now, P ds.source f → P ds.source (noteAnnounce f ds sFrom nInterface now)
  annotated : ∀ best id f, P id f → P id (annotate best id f)

section Entries
variable {P : PortIdentity → ForeignMaster → Prop} {c : PtpClient}

theorem everyEntry_empty : EveryEntry P ∅ := by
  intro id f hf
  exact absurd hf (by simp)

theorem OfEntries.runBmca (hP : OfEntries P) (h : EveryEntry P c.mForeign) : EveryEntry P (runBmca c).mForeign := by
  intro id f hf
  rw [runBmca_mForeign, Std.TreeMap.getElem?_map, Option.map_eq_some_iff] at hf
  obtain ⟨g, hg, rfl⟩ := hf
  exact hP.annotated _ _ _ (h id g hg)

theorem OfEntries.handleAnnounce (hP : OfEntries P) (h : EveryEntry P c.mForeign) (pData : Bytes) (sFrom : String)
    (nInterface : Interface) (now : Time) : EveryEntry P (handleAnnounce c pData sFrom nInterface now).mForeign := by
  unfold Ptp.handleAnnounce
  split
  · exact h
  apply hP.runBmca
  intro id f hf
  rw [Std.TreeMap.getElem?_insert] at hf
  split at hf
  next hid =>
    obtain rfl := Std.LawfulEqCmp.eq_of_compare hid
    obtain rfl := Option.some.inj hf
    apply hP.noted
    rw [Std.TreeMap.getD_eq_getD_getElem?]
    cases hold : c.mForeign[(parseAnnounce pData).source]? with
    | none => exact hP.fresh _
    | some g => exact h _ g hold
  next => exact h id f hf

theorem OfEntries.dropMaster (hP : OfEntries P) (h : EveryEntry P c.mForeign) (gone : PortIdentity) :
    EveryEntry P (dropMaster c gone).mForeign := by
  apply hP.runBmca
  intro id f hf
  rw [Std.TreeMap.getElem?_erase] at hf
  split at hf
  · cases hf
  · exact h id f hf

theorem OfEntries.timerTick (hP : OfEntries P) (h : EveryEntry P c.mForeign) (now : Time) :
    EveryEntry P (timerTick c now).mForeign := by
  refine timerTick_keeps (I := fun d => EveryEntry P d.mForeign) (fun d id hd => ?_) (fun _ hd => hd) h now
  exact hP.dropMaster hd id

theorem OfEntries.dispatch (hP : OfEntries P) {c : PtpClock} {m : Datagram} (hpassed : Passed c.ownIdentity m)
    (h : EveryEntry P c.mForeign) : EveryEntry P (dispatch c m).1.mForeign := by
  have hh := handles {} hpassed
  generalize ({} : Origins).handled c m = o' at hh
  cases hh with
  | announce client _ =>
    rw [client]
    exact hP.handleAnnounce h _ _ _ _
  | refused client => rwa [client]
  | awaits _ client => rwa [client]
  | measures _ _ client _ _ => rwa [client.table]
  | delay _ client => rwa [client]

theorem OfEntries.threadStep (hP : OfEntries P) {s : Threads} (hs : Lawful s) (h : EveryEntry P s.clock.mForeign)
    (e : ThreadEvent) : EveryEntry P (threadStep s e).clock.mForeign := by
  cases e with
  | check m =>
    simp only [Ptp.threadStep]
    split <;> exact h
  | handle =>
    cases hm : s.inFlight with
    | none => simpa only [Ptp.threadStep, hm] using h
    | some m =>
      simp only [Ptp.threadStep, hm]
      exact hP.dispatch (hs.passed m hm) h
  | test nDomain =>
    simp only [Ptp.threadStep]
    split <;> exact h
  | store nDomain =>
    simp only [Ptp.threadStep]
    split <;> exact h
  | reset =>
    simp only [Ptp.threadStep]
    split
    · exact h
    · exact everyEntry_empty
  | tick now => exact hP.timerTick h now
  | sendDelayReq nTxNs => exact h

/-- Every entry of every table of the threads has it. -/
theorem OfEntries.after (hP : OfEntries P) (nDomain : Int) (ownIdentity : ClockIdentity) (es : List ThreadEvent) :
    EveryEntry P (threadsAfter nDomain ownIdentity es).clock.mForeign := by
  have both : Lawful (threadsAfter nDomain ownIdentity es) ∧
      EveryEntry P (threadsAfter nDomain ownIdentity es).clock.mForeign := by
    apply invariant (I := fun s => Lawful s ∧ EveryEntry P s.clock.mForeign)
    · exact ⟨lawful_after nDomain ownIdentity [], everyEntry_empty⟩
    · intro s e h
      exact ⟨h.1.step e, hP.threadStep h.1 h.2 e⟩
  exact both.2

end Entries

def EveryRecord (P : ForeignMaster → Prop) (t : ForeignTable) : Prop :=
  ∀ (id : PortIdentity) (f : ForeignMaster), t[id]? = some f → P f

/-- What a fresh record has, and what stays when an announce is booked or the selection
notes its verdict. -/
structure OfRecords (P : ForeignMaster → Prop) : Prop where
  fresh : P default
  noted : ∀ f ds sFrom nInterface now, P f → P (noteAnnounce f ds sFrom nInterface now)
  annotated : ∀ best id f, P f → P (annotate best id f)

/-- Every record of every state of the threads has it. -/
theorem OfRecords.after {P : ForeignMaster → Prop} (hP : OfRecords P) (nDomain : Int) (ownIdentity : ClockIdentity)
    (es : List ThreadEvent) : EveryRecord P (threadsAfter nDomain ownIdentity es).clock.mForeign := by
  have hentries : OfEntries fun _ => P :=
    ⟨fun _ => hP.fresh, fun f ds sFrom nInterface now => hP.noted f ds sFrom nInterface now, hP.annotated⟩
  exact hentries.after nDomain ownIdentity es

/-- The dataset that competes is the one amber announced last, as often as amber did. -/
structure AmberBooked (f : ForeignMaster) : Prop where
  count : f.nAnnounceCount = f.aAnnounceCount .amber
  dataset : 0 < f.nAnnounceCount → f.dataset = f.aDataset .amber

theorem amberBooked_noteAnnounce {f : ForeignMaster} (h : AmberBooked f) (ds : AnnounceDataset) (sFrom : String)
    (nInterface : Interface) (now : Time) : AmberBooked (noteAnnounce f ds sFrom nInterface now) := by
  obtain ⟨hcount, hdataset⟩ := h
  cases nInterface with
  | amber =>
    constructor
    · simp [noteAnnounce, hcount]
    · intro _
      simp [noteAnnounce]
  | blue =>
    by_cases hnone : f.nAnnounceCount = 0
    · constructor
      · simpa [noteAnnounce, hnone] using hcount
      · intro hpos
        simp [noteAnnounce, hnone] at hpos
    · constructor
      · simpa [noteAnnounce, hnone] using hcount
      · intro _
        simpa [noteAnnounce, hnone] using hdataset (Nat.pos_of_ne_zero hnone)

theorem amberBooked_ofRecords : OfRecords AmberBooked := by
  refine ⟨⟨rfl, fun h => absurd h (lt_irrefl 0)⟩, ?_, ?_⟩
  · intro f ds sFrom nInterface now h
    exact amberBooked_noteAnnounce h ds sFrom nInterface now
  · intro best id f h
    exact ⟨h.count, h.dataset⟩

end Records

section Meta
variable {t : ForeignTable}

/-- Amber's datasets are those the selection runs over. -/
theorem datasetsOn_amber (h : EveryRecord AmberBooked t) :
    datasetsOn t .amber = (candidates t).map Prod.snd := by
  have hbooked (e : PortIdentity × ForeignMaster) (he : e ∈ t.toList) : AmberBooked e.2 :=
    h e.1 e.2 (Std.TreeMap.mem_toList_iff_getElem?_eq_some.mp he)
  have hfilter : (t.toList.filter fun e => 2 ≤ e.2.aAnnounceCount .amber) = t.toList.filter fun e => e.2.Qualified := by
    apply List.filter_congr
    intro e he
    rw [← (hbooked e he).count]
    rfl
  rw [datasetsOn, candidates, hfilter, List.map_map]
  apply List.map_congr_left
  intro e he
  obtain ⟨hmem, hq⟩ := List.mem_filter.mp he
  have hq : 2 ≤ e.2.nAnnounceCount := of_decide_eq_true hq
  exact ((hbooked e hmem).dataset (by omega)).symm

theorem bestOn_amber (h : EveryRecord AmberBooked t) :
    bestOn t .amber = (bestMaster t).map Prod.snd := by
  rw [bestOn, datasetsOn_amber h, champion_map]
  rfl

/-- The grandmaster that is followed is that of the selection's winner. -/
theorem grandmasterId_eq {c : PtpClient} (h : Coherent c) :
    grandmasterId c = gmName ((bestMaster c.mForeign).map Prod.snd) := by
  unfold grandmasterId
  rw [h.selected]
  cases hbest : bestMaster c.mForeign with
  | none => rfl
  | some b =>
    obtain ⟨f, hf, -, hds⟩ := mem_candidates.mp (champion_mem hbest)
    simp only [Option.map_some, Option.bind_some, hf, gmName, hds]

end Meta

/-- In every state of a client with two interfaces the analyzer names the grandmaster
that the clock follows, and none when it follows none. -/
theorem amber_gm_eq_grandmasterId (nDomain : Int) (ownIdentity : ClockIdentity) (es : List ThreadEvent)
    (ctx : StatusContext) (htwo : 1 < ctx.vInterfaces.length) :
    ((statusJson ctx (threadsAfter nDomain ownIdentity es).clock).member "meta").bind (·.member "amber_gm") =
      some (.str (grandmasterId (threadsAfter nDomain ownIdentity es).clock.toPtpClient)) := by
  have hbooked := amberBooked_ofRecords.after nDomain ownIdentity es
  have hcoherent := (lawful_after nDomain ownIdentity es).coherent
  rw [statusJson_meta htwo, grandmasterId_eq hcoherent, ← bestOn_amber hbooked]
  rfl

/-- One master, announced twice. -/
theorem amber_gm_both : (((statusJson ⟨["eth0", "eth1"], 0, 0, []⟩
    (threadsAfter 0 (clockOf 9) (receives (announceFrom 1) 0 ++ receives (announceFrom 1) 0)).clock).member "meta").bind
      (·.member "amber_gm")) = some (.str (grandmasterId (threadsAfter 0 (clockOf 9)
        (receives (announceFrom 1) 0 ++ receives (announceFrom 1) 0)).clock.toPtpClient)) :=
  amber_gm_eq_grandmasterId 0 (clockOf 9) (receives (announceFrom 1) 0 ++ receives (announceFrom 1) 0)
    ⟨["eth0", "eth1"], 0, 0, []⟩ (by decide)

end PiAudioNode.Ptp
