import PiAudioNode.Lib.Position
import PiAudioNode.Ptp.Mapping
import PiAudioNode.Ptp.Threads

/-! From which domains the records, the samples and the path delay of the client
stem, when its domain changes under the receive thread. -/
namespace PiAudioNode.Ptp
open Lib

/-- The domains behind what the client holds: behind each record, the Sync it
remembers, the offset samples of the window, the smoothed offset and the path delay. -/
structure Origins where
  record : PortIdentity → Finset Int := fun _ => ∅
  sync : Finset Int := ∅
  samples : List (Finset Int) := []
  offset : Finset Int := ∅
  delay : Finset Int := ∅

/-- An announce that is booked. -/
def Announces (m : Datagram) : Prop := msgTypeOf m.pData = MsgType.announce.code ∧ 64 ≤ m.pData.length

instance (m : Datagram) : Decidable (Announces m) := inferInstanceAs (Decidable (_ ∧ _))

/-- A Sync that is remembered, or measured at once. -/
def HearsSync (c : PtpClock) (m : Datagram) : Prop :=
  m.nInterface = .amber ∧ msgTypeOf m.pData = MsgType.sync.code ∧ 44 ≤ m.pData.length ∧ FromSelectedClock c m.pData

instance (c : PtpClock) (m : Datagram) : Decidable (HearsSync c m) := inferInstanceAs (Decidable (_ ∧ _ ∧ _ ∧ _))

/-- A delay response that is believed. -/
def HearsDelayResp (c : PtpClock) (m : Datagram) : Prop :=
  m.nInterface = .amber ∧ msgTypeOf m.pData = MsgType.delayResp.code ∧ 54 ≤ m.pData.length ∧
    identityAt m.pData 44 = c.ownIdentity ∧ sequenceId m.pData = c.nDelaySeq ∧
    Plausible c (getTimestampNs m.pData 34 - c.nDelayReqTxNs).toInt

instance (c : PtpClock) (m : Datagram) : Decidable (HearsDelayResp c m) :=
  inferInstanceAs (Decidable (_ ∧ _ ∧ _ ∧ _ ∧ _ ∧ _))

namespace Origins
variable (o : Origins) (c : PtpClock) (m : Datagram)

/-- A new record starts with the domain of its announce, another one gains it. -/
def announced : Origins :=
  let source := (parseAnnounce m.pData).source
  { o with record := Function.update o.record source
             ((if source ∈ c.mForeign then o.record source else ∅) ∪ {domainOf m}) }

/-- The window of the clock, one sample longer. -/
def pushSample (d : ℚ) (sample : Finset Int) : List (Finset Int) :=
  let q := (if Jumps c d then [] else o.samples) ++ [sample]
  if 16 < q.length then q.tail else q

def sampled (d : ℚ) (sample : Finset Int) : Origins :=
  let samples := o.pushSample c d sample
  { o with
    samples
    offset := if 4 ≤ samples.length then (if c.bSynced then o.offset else ∅) ∪ samples.foldr (· ∪ ·) ∅ else o.offset }

/-- The samples go with the window. -/
def emptied (c' : PtpClock) : Origins := { o with samples := if c'.qOffsetWindow = [] then [] else o.samples }

/-- After a message was handled. A path delay stems from the offset it was freed of,
a sample from the path delay that was added. -/
def handled : Origins :=
  let o := if Announces m then o.announced c m else o
  let o := if HearsSync c m then { o with sync := {domainOf m} } else o
  let behindDelay := if c.bHaveDelay then o.delay else ∅
  match (dispatch c m).2 with
  | some (.offset nT1 nT2) => o.sampled c (offsetValue c nT1 nT2) ({domainOf m} ∪ o.sync ∪ behindDelay)
  | some (.pathDelay _ _) => { o with delay := behindDelay ∪ {domainOf m} ∪ o.offset }
  | none => o.emptied (dispatch c m).1

end Origins

/-- The threads with the origins of their state. It is settled while no domain has been
stored since the last call that returned. -/
structure Traced where
  threads : Threads
  origins : Origins := {}
  bSettled : Bool := true

def tracedStep (t : Traced) (e : ThreadEvent) : Traced where
  threads := threadStep t.threads e
  origins := match e, t.threads.inFlight with
    | .handle, some m => t.origins.handled t.threads.clock m
    | _, _ => t.origins.emptied (threadStep t.threads e).clock
  bSettled := match e with
    | .test nDomain => if nDomain = t.threads.clock.nDomain then true else t.bSettled
    | .store nDomain => if nDomain ∈ t.threads.tested then false else t.bSettled
    | .reset => if t.threads.nStored = 0 then t.bSettled else true
    | _ => t.bSettled

def tracedAfter (nDomain : Int) (ownIdentity : ClockIdentity) (es : List ThreadEvent) : Traced :=
  run tracedStep { threads := ⟨{ nDomain, ownIdentity }, none, [], 0⟩ } es

theorem tracedAfter_threads (nDomain : Int) (ownIdentity : ClockIdentity) (es : List ThreadEvent) :
    (tracedAfter nDomain ownIdentity es).threads = threadsAfter nDomain ownIdentity es := by
  induction es using List.reverseRecOn with
  | nil => rfl
  | append_singleton es e ih =>
    rw [threadsAfter, tracedAfter, run_snoc, run_snoc]
    exact congrArg (fun s => threadStep s e) ih

/-- What the client holds stems from its own domain only. -/
structure Isolated (c : PtpClock) (o : Origins) : Prop where
  records : ∀ id, id ∈ c.mForeign → o.record id ⊆ {c.nDomain}
  selected : ∀ id, c.selectedMaster = some id → id ∈ c.mForeign
  samples : o.samples.length = c.qOffsetWindow.length ∧ ∀ sample ∈ o.samples, sample ⊆ {c.nDomain}
  delay : c.bHaveDelay → o.delay ⊆ {c.nDomain}

/-- The steps that keep it so: no call returns early while another one that stored the
domain has not reset the state, no announce that passed the test on another domain is
booked, and no delay response is believed that did, or that is measured against an
offset of another domain. -/
def Tolerated (t : Traced) : ThreadEvent → Prop
  | .test nDomain => nDomain = t.threads.clock.nDomain → t.bSettled
  | .handle => ∀ m ∈ t.threads.inFlight, t.bSettled →
      (Announces m → domainOf m = t.threads.clock.nDomain) ∧
      (HearsDelayResp t.threads.clock m →
        domainOf m = t.threads.clock.nDomain ∧ t.origins.offset ⊆ {t.threads.clock.nDomain})
  | _ => True

instance (t : Traced) : (e : ThreadEvent) → Decidable (Tolerated t e)
  | .test _ => inferInstanceAs (Decidable (_ → _))
  | .handle => inferInstanceAs (Decidable (∀ _ ∈ _, _))
  | .check _ => inferInstanceAs (Decidable True)
  | .store _ => inferInstanceAs (Decidable True)
  | .reset => inferInstanceAs (Decidable True)
  | .tick _ => inferInstanceAs (Decidable True)
  | .sendDelayReq _ => inferInstanceAs (Decidable True)

section Table

theorem mem_runBmca {c : PtpClient} {id : PortIdentity} : id ∈ (runBmca c).mForeign ↔ id ∈ c.mForeign := by
  simp

theorem mem_timerTick {c : PtpClient} {now : Time} {id : PortIdentity} (h : id ∈ (timerTick c now).mForeign) :
    id ∈ c.mForeign := by
  have kept : ∀ id, id ∈ (timerTick c now).mForeign → id ∈ c.mForeign := by
    refine timerTick_keeps (I := fun d => ∀ id, id ∈ d.mForeign → id ∈ c.mForeign) (fun d gone hd id h => ?_)
      (fun _ hd => hd) (fun _ h => h) now
    rw [dropMaster, mem_runBmca] at h
    exact hd id (Std.TreeMap.mem_of_mem_erase h)
  exact kept id h

theorem mem_handleAnnounce {c : PtpClient} {pData : Bytes} {sFrom : String} {nInterface : Interface} {now : Time}
    {id : PortIdentity} (h : id ∈ (handleAnnounce c pData sFrom nInterface now).mForeign) :
    (64 ≤ pData.length ∧ id = (parseAnnounce pData).source) ∨ id ∈ c.mForeign := by
  unfold handleAnnounce at h
  split at h
  · exact Or.inr h
  · rename_i hlen
    rw [mem_runBmca, Std.TreeMap.mem_insert] at h
    rcases h with hsource | hold
    · exact Or.inl ⟨not_lt.mp hlen, (compare_eq_iff_eq.mp hsource).symm⟩
    · exact Or.inr hold

end Table

section Hears
variable {c : PtpClock} {m : Datagram}

theorem hearsSync_iff (h : Passed c.ownIdentity m) : HearsSync c m ↔ SyncTaken (c.onDomain (domainOf m)) m := by
  constructor
  · rintro ⟨hamber, htype, hlong, hsel⟩
    exact ⟨⟨h.received, h.addressed, hamber, htype⟩, hlong, hsel⟩
  · rintro ⟨⟨-, -, hamber, htype⟩, hlong, hsel⟩
    exact ⟨hamber, htype, hlong, hsel⟩

theorem hearsDelayResp_iff (h : Passed c.ownIdentity m) :
    HearsDelayResp c m ↔ DelayRespTaken (c.onDomain (domainOf m)) m := by
  constructor
  · rintro ⟨hamber, htype, hlong, hours, hseq, hrange⟩
    exact ⟨⟨h.received, h.addressed, hamber, htype⟩, hlong, hours, hseq, hrange⟩
  · rintro ⟨⟨-, -, hamber, htype⟩, hlong, hours, hseq, hrange⟩
    exact ⟨hamber, htype, hlong, hours, hseq, hrange⟩

/-- A message that is no announce and that its handler does not take. -/
theorem dispatch_refused (h : Passed c.ownIdentity m) (hann : msgTypeOf m.pData ≠ MsgType.announce.code)
    (hsync : ¬ SyncTaken (c.onDomain (domainOf m)) m) (hfollow : ¬ FollowUpTaken (c.onDomain (domainOf m)) m)
    (hresp : ¬ DelayRespTaken (c.onDomain (domainOf m)) m) :
    (dispatch c m).1.toPtpClient = c.toPtpClient ∧ (dispatch c m).2 = none := by
  by_cases hamber : m.nInterface = .amber
  swap
  · simp only [dispatch, if_neg hann, if_pos hamber, and_self]
  by_cases htype : ∃ t, t ≠ .announce ∧ msgTypeOf m.pData = MsgType.code t
  · obtain ⟨t, ht, htype⟩ := htype
    have hrefused := clockStep_refused ⟨h.received, h.addressed, hamber, htype⟩ ht hsync hfollow hresp
    rw [h.client_eq, h.sample_eq, hrefused]
    exact ⟨rfl, rfl⟩
  · have hnone (t : MsgType) (ht : t ≠ .announce) : msgTypeOf m.pData ≠ t.code := fun hcode => htype ⟨t, ht, hcode⟩
    simp only [dispatch, if_neg hann, if_neg (not_not.mpr hamber), if_neg (hnone .sync nofun),
      if_neg (hnone .followUp nofun), if_neg (hnone .delayResp nofun), and_self]

/-- What a measurement leaves of the client, and the window it makes. -/
structure Measured (c : PtpClock) (d : PtpClient) (dOffsetNs : ℚ) : Prop where
  table : d.mForeign = c.mForeign
  selected : d.selectedMaster = c.selectedMaster
  haveDelay : d.bHaveDelay = c.bHaveDelay
  window : d.qOffsetWindow = pushOffset c.qOffsetWindow c.dSmoothedOffsetNs dOffsetNs

theorem measured_completeMeasurement (c : PtpClock) (nT1 nT2 : BitVec 64) :
    Measured c (completeMeasurement c nT1 nT2).toPtpClient (offsetValue c nT1 nT2) := by
  refine ⟨?_, ?_, ?_, addOffsetSample_qOffsetWindow c _⟩
  all_goals
    simp only [completeMeasurement, addM2S, addOffsetSample]
    split_ifs <;> rfl

/-- What handling a message may come to, with the origins it leaves. -/
inductive Handles (c : PtpClock) (o : Origins) (m : Datagram) (c' : PtpClock) : Origins → Prop
  | announce (client : c'.toPtpClient = handleAnnounce c.toPtpClient m.pData m.sFrom m.nInterface m.now)
      (type : msgTypeOf m.pData = MsgType.announce.code) :
      Handles c o m c' ((if Announces m then o.announced c m else o).emptied c')
  | refused (client : c'.toPtpClient = c.toPtpClient) : Handles c o m c' (o.emptied c')
  | awaits (selected : FromSelectedClock c m.pData)
      (client : c'.toPtpClient = { c.toPtpClient with lastSyncSeen := m.now, bAwaitFollowUp := true }) :
      Handles c o m c' ({ o with sync := {domainOf m} }.emptied c')
  | measures (selected : FromSelectedClock c m.pData) (d : ℚ) (client : Measured c c'.toPtpClient d)
      (sync : Finset Int) (hsync : sync = {domainOf m} ∨ c.bAwaitFollowUp ∧ sync = o.sync) :
      Handles c o m c' ({ o with sync }.sampled c d ({domainOf m} ∪ sync ∪ if c.bHaveDelay then o.delay else ∅))
  | delay (hears : HearsDelayResp c m) (client : c'.toPtpClient = { c.toPtpClient with bHaveDelay := true }) :
      Handles c o m c' { o with delay := (if c.bHaveDelay then o.delay else ∅) ∪ {domainOf m} ∪ o.offset }

theorem announce_not_hearsSync (hann : msgTypeOf m.pData = MsgType.announce.code) : ¬ HearsSync c m := by
  rintro ⟨-, htype, -⟩
  exact absurd (hann.symm.trans htype) (by decide)

theorem handles (o : Origins) (h : Passed c.ownIdentity m) : Handles c o m (dispatch c m).1 (o.handled c m) := by
  by_cases hann : msgTypeOf m.pData = MsgType.announce.code
  · have hdispatch : dispatch c m =
        ({ c with toPtpClient := handleAnnounce c.toPtpClient m.pData m.sFrom m.nInterface m.now }, none) :=
      if_pos hann
    simp only [Origins.handled, if_neg (announce_not_hearsSync hann), hdispatch]
    exact .announce rfl hann
  have hquiet : ¬ Announces m := fun ha => hann ha.1
  by_cases hsync : SyncTaken (c.onDomain (domainOf m)) m
  · have hears : HearsSync c m := (hearsSync_iff h).mpr hsync
    have hselected : FromSelectedClock c m.pData := hsync.selected
    by_cases htwo : TwoStep m.pData
    · have hsample : (dispatch c m).2 = none := by rw [h.sample_eq, hsync.step, if_pos htwo]
      simp only [Origins.handled, if_neg hquiet, if_pos hears, hsample]
      refine .awaits hselected ?_
      rw [h.client_eq, hsync.step, if_pos htwo]
      rfl
    · have hsample : (dispatch c m).2 = some (.offset (getTimestampNs m.pData 34) m.nRxNs) := by
        rw [h.sample_eq, hsync.step, if_neg htwo]
      simp only [Origins.handled, if_neg hquiet, if_pos hears, hsample]
      refine .measures hselected _ ?_ _ (Or.inl rfl)
      rw [h.client_eq, hsync.step, if_neg htwo]
      obtain ⟨htable, hmaster, hdelay, hwindow⟩ := measured_completeMeasurement
        { c.onDomain (domainOf m) with
          lastSyncSeen := m.now, nSyncSeq := sequenceId m.pData, nSyncRxNs := m.nRxNs }
        (getTimestampNs m.pData 34) m.nRxNs
      exact ⟨htable, hmaster, hdelay, hwindow⟩
  have hdeaf : ¬ HearsSync c m := fun hears => hsync ((hearsSync_iff h).mp hears)
  by_cases hfollow : FollowUpTaken (c.onDomain (domainOf m)) m
  · have hsample : (dispatch c m).2 = some (.offset (getTimestampNs m.pData 34) c.nSyncRxNs) := by
      rw [h.sample_eq, hfollow.step]
      rfl
    simp only [Origins.handled, if_neg hquiet, if_neg hdeaf, hsample]
    have hselected : FromSelectedClock c m.pData := hfollow.selected
    refine .measures hselected _ ?_ o.sync (Or.inr ⟨hfollow.awaited, rfl⟩)
    rw [h.client_eq, hfollow.step]
    obtain ⟨htable, hmaster, hdelay, hwindow⟩ := measured_completeMeasurement
      { c.onDomain (domainOf m) with bAwaitFollowUp := false } (getTimestampNs m.pData 34) c.nSyncRxNs
    exact ⟨htable, hmaster, hdelay, hwindow⟩
  by_cases hresp : DelayRespTaken (c.onDomain (domainOf m)) m
  · have hsample : (dispatch c m).2 = some (.pathDelay (getTimestampNs m.pData 34) c.nDelayReqTxNs) := by
      rw [h.sample_eq, hresp.step]
      rfl
    simp only [Origins.handled, if_neg hquiet, if_neg hdeaf, hsample]
    refine .delay ((hearsDelayResp_iff h).mpr hresp) ?_
    rw [h.client_eq, hresp.step, addS2M, if_pos hresp.inRange]
    rfl
  · obtain ⟨hclient, hsample⟩ := dispatch_refused h hann hsync hfollow hresp
    simp only [Origins.handled, if_neg hquiet, if_neg hdeaf, hsample]
    exact .refused hclient

end Hears

/-- What holds of a settled state between any two steps. A Sync is only waited for while
its master is selected, and a message of another domain only in flight while the table
is still empty. -/
structure Clean (c : PtpClock) (inFlight : Option Datagram) (o : Origins) : Prop where
  records : ∀ id, id ∈ c.mForeign → o.record id ⊆ {c.nDomain}
  samples : ∀ sample ∈ o.samples, sample ⊆ {c.nDomain}
  delay : c.bHaveDelay → o.delay ⊆ {c.nDomain}
  sync : c.bAwaitFollowUp → c.selectedMaster.isSome → o.sync ⊆ {c.nDomain}
  late : ∀ m ∈ inFlight, domainOf m ≠ c.nDomain → ∀ id, id ∉ c.mForeign

section Clean
variable {c : PtpClock} {inFlight : Option Datagram} {o : Origins} {m : Datagram}

/-- Every sample of the window has its origins. -/
def Aligned (c : PtpClock) (o : Origins) : Prop := o.samples.length = c.qOffsetWindow.length

theorem Aligned.emptied {c' : PtpClock} (h : Aligned c o) (hkept : KeptOrEmptied c.toPtpClient c'.toPtpClient) :
    Aligned c' (o.emptied c') := by
  unfold Aligned Origins.emptied
  by_cases hempty : c'.qOffsetWindow = []
  · simp [hempty]
  · obtain ⟨hwindow, -⟩ := hkept.resolve_left hempty
    rw [if_neg hempty, hwindow]
    exact h

theorem Aligned.sampled {c' : PtpClock} {d : ℚ} (h : Aligned c o)
    (hwindow : c'.qOffsetWindow = pushOffset c.qOffsetWindow c.dSmoothedOffsetNs d) (sample : Finset Int) :
    Aligned c' (o.sampled c d sample) := by
  have h : o.samples.length = c.qOffsetWindow.length := h
  rw [Aligned, hwindow]
  by_cases hjump : Jumps c d
  · have hfields : 8 ≤ c.qOffsetWindow.length ∧ offsetJump < |d - c.dSmoothedOffsetNs| := hjump
    simp [Origins.sampled, Origins.pushSample, hjump, pushOffset, hfields]
  · have hfields : ¬ (8 ≤ c.qOffsetWindow.length ∧ offsetJump < |d - c.dSmoothedOffsetNs|) := hjump
    have hlen : (o.samples ++ [sample]).length = (c.qOffsetWindow ++ [d]).length := by
      rw [List.length_append, List.length_append, h, List.length_singleton, List.length_singleton]
    simp only [Origins.sampled, Origins.pushSample, hjump, pushOffset, hfields, if_false, hlen]
    split
    · rw [List.length_tail, List.length_tail, hlen]
    · exact hlen

theorem mem_pushSample {d : ℚ} {sample x : Finset Int} (h : x ∈ o.pushSample c d sample) :
    x ∈ o.samples ∨ x = sample := by
  have tail_of {q : List (Finset Int)} (hq : x ∈ if 16 < q.length then q.tail else q) : x ∈ q := by
    split at hq
    · exact List.mem_of_mem_tail hq
    · exact hq
  have hmem := tail_of h
  rw [List.mem_append, List.mem_singleton] at hmem
  refine hmem.imp_left fun hold => ?_
  split at hold
  · exact absurd hold (List.not_mem_nil)
  · exact hold

theorem Clean.narrow {c' : PtpClock} (h : Clean c inFlight o) (hdomain : c'.nDomain = c.nDomain)
    (hmem : ∀ id, id ∈ c'.mForeign → id ∈ c.mForeign) (hn : Narrows c.toPtpClient c'.toPtpClient) :
    Clean c' inFlight (o.emptied c') := by
  rw [Origins.emptied]
  refine ⟨fun id hid => ?_, fun sample hs => ?_, fun hd => ?_, fun ha hsel => ?_, fun m hm hne id hid => ?_⟩
  · rw [hdomain]
    exact h.records id (hmem id hid)
  · rw [hdomain]
    dsimp only at hs
    split at hs
    · exact absurd hs List.not_mem_nil
    · exact h.samples sample hs
  · rw [hdomain]
    exact h.delay (hn.delay hd)
  · rw [hdomain]
    obtain ⟨hawait, hsame⟩ := hn.awaits ha
    exact h.sync hawait (hsame ▸ hsel)
  · exact h.late m hm (hdomain ▸ hne) id (hmem id hid)

/-- While a master is selected, only messages of the domain are in flight. -/
theorem Clean.domain_eq (h : Clean c (some m) o) (hcoherent : Coherent c.toPtpClient)
    (hsel : c.selectedMaster.isSome) : domainOf m = c.nDomain := by
  by_contra hne
  obtain ⟨p, hp⟩ := Option.isSome_iff_exists.mp hsel
  obtain ⟨f, hf, -⟩ := hcoherent.exists_qualified hp
  exact h.late m rfl hne p (Std.TreeMap.mem_iff_isSome_getElem?.mpr (by simp [hf]))

theorem Aligned.handled {c' : PtpClock} {o' : Origins} (h : Aligned c o) (hh : Handles c o m c' o') :
    Aligned c' o' := by
  cases hh with
  | announce client _ =>
    have hkept := (narrows_handleAnnounce c.toPtpClient m.pData m.sFrom m.nInterface m.now).window
    rw [← client] at hkept
    split
    · exact Aligned.emptied (o := o.announced c m) h hkept
    · exact h.emptied hkept
  | refused client => exact h.emptied (Or.inr ⟨by rw [client], by rw [client]⟩)
  | awaits _ client =>
    exact Aligned.emptied (o := { o with sync := {domainOf m} }) h (Or.inr ⟨by rw [client], by rw [client]⟩)
  | measures _ d client sync _ => exact Aligned.sampled (o := { o with sync }) h client.window _
  | delay _ client =>
    rw [Aligned, client]
    exact h

/-- An announce of the domain. -/
theorem Clean.announce {c' : PtpClock} (h : Clean c (some m) o) (hdomain : c'.nDomain = c.nDomain)
    (hm : domainOf m = c.nDomain)
    (client : c'.toPtpClient = handleAnnounce c.toPtpClient m.pData m.sFrom m.nInterface m.now) :
    Clean c' none ((o.announced c m).emptied c') := by
  have hn := narrows_handleAnnounce c.toPtpClient m.pData m.sFrom m.nInterface m.now
  rw [← client] at hn
  refine ⟨fun id hid => ?_, fun sample hs => ?_, fun hd => ?_, fun ha hsel => ?_, nofun⟩
  · rw [hdomain]
    simp only [Origins.emptied, Origins.announced]
    by_cases hsource : id = (parseAnnounce m.pData).source
    · subst hsource
      rw [Function.update_self, hm]
      apply Finset.union_subset _ (Finset.Subset.refl _)
      split
      · rename_i hold
        exact h.records _ hold
      · exact Finset.empty_subset _
    · rw [Function.update_of_ne hsource]
      rw [client] at hid
      exact h.records id ((mem_handleAnnounce hid).resolve_left fun hs => hsource hs.2)
  · rw [hdomain]
    simp only [Origins.emptied, Origins.announced] at hs
    split at hs
    · exact absurd hs List.not_mem_nil
    · exact h.samples sample hs
  · rw [hdomain]
    exact h.delay (hn.delay hd)
  · rw [hdomain]
    obtain ⟨hawait, hsame⟩ := hn.awaits ha
    exact h.sync hawait (hsame ▸ hsel)

/-- Whatever else a message in flight comes to. -/
theorem Clean.handled {c' : PtpClock} {o' : Origins} (h : Clean c (some m) o) (hcoherent : Coherent c.toPtpClient)
    (hdomain : c'.nDomain = c.nDomain) (hann : Announces m → domainOf m = c.nDomain)
    (hresp : HearsDelayResp c m → domainOf m = c.nDomain ∧ o.offset ⊆ {c.nDomain}) (hh : Handles c o m c' o') :
    Clean c' none o' := by
  have hdelay : (if c.bHaveDelay then o.delay else ∅) ⊆ {c.nDomain} := by
    split
    · rename_i hhave
      exact h.delay hhave
    · exact Finset.empty_subset _
  cases hh with
  | announce client type =>
    by_cases hlen : 64 ≤ m.pData.length
    · rw [if_pos ⟨type, hlen⟩]
      exact h.announce hdomain (hann ⟨type, hlen⟩) client
    · rw [if_neg fun ha => hlen ha.2]
      have hsame : handleAnnounce c.toPtpClient m.pData m.sFrom m.nInterface m.now = c.toPtpClient :=
        if_pos (not_le.mp hlen)
      rw [hsame] at client
      have hclean := h.narrow hdomain (fun id hid => client ▸ hid) (client ▸ .refl c.toPtpClient)
      exact { hclean with late := nofun }
  | refused client =>
    have hclean := h.narrow hdomain (fun id hid => client ▸ hid) (client ▸ .refl c.toPtpClient)
    exact { hclean with late := nofun }
  | awaits selected client =>
    have hm : domainOf m = c.nDomain := h.domain_eq hcoherent selected.isSome
    simp only [Origins.emptied, client]
    refine ⟨?_, fun sample hs => ?_, ?_, fun _ _ => ?_, nofun⟩
    · rw [hdomain, client]
      exact h.records
    · rw [hdomain]
      dsimp only at hs
      split at hs
      · exact absurd hs List.not_mem_nil
      · exact h.samples sample hs
    · rw [hdomain, client]
      exact h.delay
    · rw [hdomain, hm]
  | measures selected d client sync hsync =>
    have hm : domainOf m = c.nDomain := h.domain_eq hcoherent selected.isSome
    have hsync : sync ⊆ {c.nDomain} := by
      rcases hsync with rfl | ⟨hawait, rfl⟩
      · rw [hm]
      · exact h.sync hawait selected.isSome
    refine ⟨?_, fun sample hs => ?_, ?_, fun _ _ => ?_, nofun⟩
    · rw [hdomain, client.table]
      exact h.records
    · rw [hdomain]
      rcases mem_pushSample hs with hold | rfl
      · exact h.samples sample hold
      · rw [hm]
        exact Finset.union_subset (Finset.union_subset (Finset.Subset.refl _) hsync) hdelay
    · rw [hdomain, client.haveDelay]
      exact h.delay
    · rw [hdomain]
      exact hsync
  | delay hears client =>
    obtain ⟨hm, hoffset⟩ := hresp hears
    refine ⟨?_, ?_, fun _ => ?_, ?_, nofun⟩
    · rw [hdomain, client]
      exact h.records
    · rw [hdomain]
      exact h.samples
    · rw [hdomain, hm]
      exact Finset.union_subset (Finset.union_subset hdelay (Finset.Subset.refl _)) hoffset
    · rw [hdomain, client]
      exact h.sync

end Clean

/-- The invariant of the traced threads. -/
structure Sound (t : Traced) : Prop where
  lawful : Lawful t.threads
  aligned : Aligned t.threads.clock t.origins
  clean : t.bSettled → Clean t.threads.clock t.threads.inFlight t.origins

theorem Sound.isolated {t : Traced} (h : Sound t) (hsettled : t.bSettled) : Isolated t.threads.clock t.origins := by
  have hclean := h.clean hsettled
  refine ⟨hclean.records, fun id hsel => ?_, ⟨h.aligned, hclean.samples⟩, hclean.delay⟩
  obtain ⟨f, hf, -⟩ := h.lawful.coherent.exists_qualified hsel
  exact Std.TreeMap.mem_iff_isSome_getElem?.mpr (by simp [hf])

/-- The receive thread takes the lock. -/
theorem Sound.handle {t : Traced} (h : Sound t) (ht : Tolerated t .handle) {m : Datagram}
    (hm : t.threads.inFlight = some m) : Sound (tracedStep t .handle) := by
  have hh := handles t.origins (h.lawful.passed m hm)
  refine ⟨h.lawful.step .handle, ?_, fun hsettled => ?_⟩
  · simp only [tracedStep, threadStep, hm]
    exact h.aligned.handled hh
  · obtain ⟨hann, hresp⟩ := ht m hm hsettled
    have hclean := h.clean hsettled
    rw [hm] at hclean
    simp only [tracedStep, threadStep, hm]
    exact hclean.handled h.lawful.coherent (dispatch_nDomain t.threads.clock m) hann hresp hh

/-- A step that handles no message only narrows what the clock holds. -/
theorem Sound.other {t t' : Traced} (h : Sound t) (hlawful : Lawful t'.threads)
    (hn : Narrows t.threads.clock.toPtpClient t'.threads.clock.toPtpClient)
    (horigins : t'.origins = t.origins.emptied t'.threads.clock)
    (hclean : t'.bSettled → t.bSettled ∧ t'.threads.clock.nDomain = t.threads.clock.nDomain ∧
      (∀ id, id ∈ t'.threads.clock.mForeign → id ∈ t.threads.clock.mForeign) ∧
      ∀ m ∈ t'.threads.inFlight, m ∈ t.threads.inFlight ∨ domainOf m = t.threads.clock.nDomain) : Sound t' := by
  refine ⟨hlawful, ?_, fun hsettled => ?_⟩
  · rw [horigins]
    exact h.aligned.emptied hn.window
  · obtain ⟨hsettled, hdomain, hmem, hflight⟩ := hclean hsettled
    have hnarrow := (h.clean hsettled).narrow hdomain hmem hn
    rw [horigins]
    refine { hnarrow with late := fun m hm hne => ?_ }
    rcases hflight m hm with hold | hsame
    · exact hnarrow.late m hold hne
    · exact absurd hsame (hdomain ▸ hne)

/-- A step that leaves the clock as it is, and no message of another domain in flight. -/
theorem Sound.still {t t' : Traced} (h : Sound t) (hlawful : Lawful t'.threads)
    (hclock : t'.threads.clock = t.threads.clock) (horigins : t'.origins = t.origins.emptied t'.threads.clock)
    (hsettled : t'.bSettled → t.bSettled)
    (hflight : ∀ m ∈ t'.threads.inFlight, m ∈ t.threads.inFlight ∨ domainOf m = t.threads.clock.nDomain) : Sound t' := by
  refine h.other hlawful ?_ horigins fun hs => ⟨hsettled hs, ?_, ?_, hflight⟩
  · rw [hclock]
    exact .refl _
  · rw [hclock]
  · rw [hclock]
    exact fun _ hid => hid

/-- Between the store and the reset nothing is claimed. -/
theorem Sound.store {t : Traced} (h : Sound t) (nDomain : Int) : Sound (tracedStep t (.store nDomain)) := by
  have hlawful : Lawful (tracedStep t (.store nDomain)).threads := h.lawful.step (.store nDomain)
  by_cases hcall : nDomain ∈ t.threads.tested
  · refine ⟨hlawful, ?_, fun hsettled => ?_⟩
    · simp only [tracedStep, threadStep, if_pos hcall]
      exact h.aligned.emptied (.refl _)
    · simp only [tracedStep, if_pos hcall] at hsettled
      exact absurd hsettled Bool.false_ne_true
  · have hsame : threadStep t.threads (.store nDomain) = t.threads := if_neg hcall
    refine h.still hlawful (congrArg Threads.clock hsame) rfl (fun hsettled => ?_) fun m hm => Or.inl ?_
    · simpa only [tracedStep, if_neg hcall] using hsettled
    · rw [tracedStep, hsame] at hm
      exact hm

/-- The reset leaves nothing of another domain. -/
theorem Sound.reset {t : Traced} (h : Sound t) : Sound (tracedStep t .reset) := by
  have hlawful : Lawful (tracedStep t .reset).threads := h.lawful.step .reset
  by_cases hcall : t.threads.nStored = 0
  · have hsame : threadStep t.threads .reset = t.threads := if_pos hcall
    refine h.still hlawful (congrArg Threads.clock hsame) rfl (fun hsettled => ?_) fun m hm => Or.inl ?_
    · simpa only [tracedStep, if_pos hcall] using hsettled
    · rw [tracedStep, hsame] at hm
      exact hm
  · refine ⟨hlawful, ?_, fun _ => ?_⟩
    · simp only [tracedStep, threadStep, if_neg hcall]
      exact h.aligned.emptied (Or.inl rfl)
    · simp only [tracedStep, threadStep, if_neg hcall]
      refine ⟨fun id hid => ?_, ?_, fun hdelay => ?_, fun _ hsel => ?_, fun _ _ _ id => ?_⟩
      · simp [restart] at hid
      · simp [Origins.emptied, restart]
      · simp [restart] at hdelay
      · simp [restart] at hsel
      · simp [restart]

theorem Sound.step {t : Traced} (h : Sound t) {e : ThreadEvent} (ht : Tolerated t e) : Sound (tracedStep t e) := by
  have hlawful : Lawful (tracedStep t e).threads := h.lawful.step e
  cases e with
  | check m =>
    refine h.still hlawful ?_ rfl id fun m' hm' => ?_
    · simp only [tracedStep, threadStep]
      split <;> rfl
    · simp only [tracedStep, threadStep] at hm'
      split at hm'
      · rename_i hpass
        obtain rfl := Option.some.inj hm'
        exact Or.inr hpass.2.2.2.1
      · exact Or.inl hm'
  | handle =>
    cases hm : t.threads.inFlight with
    | some m => exact h.handle ht hm
    | none =>
      have hsame : threadStep t.threads .handle = t.threads := by simp only [threadStep, hm]
      refine h.still hlawful (congrArg Threads.clock hsame) ?_ id fun m' hm' => Or.inl ?_
      · dsimp only [tracedStep]
        rw [hm]
      · change m' ∈ (threadStep t.threads .handle).inFlight at hm'
        rwa [hsame] at hm'
  | test nDomain =>
    refine h.still hlawful ?_ rfl (fun hsettled => ?_) fun m hm => Or.inl ?_
    · simp only [tracedStep, threadStep]
      split <;> rfl
    · simp only [tracedStep] at hsettled
      split at hsettled
      · rename_i hsame
        exact ht hsame
      · exact hsettled
    · simp only [tracedStep, threadStep] at hm
      split at hm <;> exact hm
  | store nDomain => exact h.store nDomain
  | reset => exact h.reset
  | tick now =>
    exact h.other hlawful (narrows_timerTick _ now) rfl
      fun hsettled => ⟨hsettled, rfl, fun _ => mem_timerTick, fun _ hm => Or.inl hm⟩
  | sendDelayReq nTxNs =>
    exact h.other hlawful (.refl _) rfl fun hsettled => ⟨hsettled, rfl, fun _ hid => hid, fun _ hm => Or.inl hm⟩

theorem sound_after {nDomain : Int} {ownIdentity : ClockIdentity} {es : List ThreadEvent}
    (h : Admits (fun pre e => Tolerated (tracedAfter nDomain ownIdentity pre) e) es) :
    Sound (tracedAfter nDomain ownIdentity es) := by
  refine history_invariant (I := fun _ t => Sound t) ⟨?_, ?_, fun _ => ?_⟩ ?_ es h
  · exact lawful_after nDomain ownIdentity []
  · exact List.length_nil
  · exact ⟨fun id hid => absurd hid (by simp), nofun, nofun, nofun, nofun⟩
  · intro es e ht hsound
    exact hsound.step ht

/-- In a run of tolerated steps, everything in every settled state stems from its domain. -/
theorem isolated_of_tolerated (nDomain : Int) (ownIdentity : ClockIdentity) (es : List ThreadEvent)
    (h : Admits (fun pre e => Tolerated (tracedAfter nDomain ownIdentity pre) e) es) :
    ∀ pre, pre <+: es → (tracedAfter nDomain ownIdentity pre).bSettled →
      Isolated (threadsAfter nDomain ownIdentity pre).clock (tracedAfter nDomain ownIdentity pre).origins := by
  rintro pre ⟨post, rfl⟩ hsettled
  rw [← tracedAfter_threads]
  exact (sound_after h.of_append).isolated hsettled

section Change

/-- A message received with no change of domain in between. -/
def receives (pData : Bytes) (nRxNs : BitVec 64) : List ThreadEvent :=
  [.check ⟨pData, nRxNs, "10.0.0.1", .amber, 0⟩, .handle]

def changesTo (nDomain : Int) : List ThreadEvent := [.test nDomain, .store nDomain, .reset]

/-- From domain 5 to domain 0, where clock 1 is selected, measured and asked for the delay. -/
def quietChange : List ThreadEvent :=
  changesTo 0 ++ receives (announceFrom 1) 0 ++ receives (announceFrom 1) 0 ++
    receives (messageOf .sync 0 1 0 (stampOf 100)) 0 ++ [.tick 0, .sendDelayReq 100] ++ receives (delayRespFrom 1 1 150) 0

theorem quietChange_isolated :
    Isolated (threadsAfter 5 (clockOf 9) quietChange).clock (tracedAfter 5 (clockOf 9) quietChange).origins := by
  refine isolated_of_tolerated 5 (clockOf 9) quietChange ?_ _ List.prefix_rfl (by decide +kernel)
  apply admits_of_getElem
  decide +kernel

/-- An announce of domain 0 passes the test before domain 5 is stored, and is booked
after the reset. -/
def announceLate : List ThreadEvent :=
  [.check ⟨announceFrom 1, 0, "10.0.0.1", .amber, 0⟩] ++ changesTo 5 ++ [.handle]

theorem announceLate_mixed : (tracedAfter 0 (clockOf 9) announceLate).bSettled ∧
    ¬ Isolated (threadsAfter 0 (clockOf 9) announceLate).clock (tracedAfter 0 (clockOf 9) announceLate).origins := by
  refine ⟨by decide +kernel, fun h => ?_⟩
  have hrecord := h.records ⟨clockOf 1, 1⟩ (by decide +kernel)
  exact absurd hrecord (by decide +kernel)

end Change

end PiAudioNode.Ptp
