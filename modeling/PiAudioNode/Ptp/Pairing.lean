import Mathlib
import PiAudioNode.Lib.Position
import PiAudioNode.Ptp.Steering

/-! Which times the samples combine: each Sync and each delay request may be
measured once, with the message that belongs to it. -/
namespace PiAudioNode.Ptp
open Lib

/-- The state that matches messages to each other. -/
structure Pairing where
  nSyncSeq : BitVec 16
  nSyncRxNs : BitVec 64
  bAwaitFollowUp : Bool
  nDelaySeq : BitVec 16
  nDelayReqTxNs : BitVec 64

def PtpClock.pairing (c : PtpClock) : Pairing :=
  ⟨c.nSyncSeq, c.nSyncRxNs, c.bAwaitFollowUp, c.nDelaySeq, c.nDelayReqTxNs⟩

section Frame
variable {c : PtpClock}

@[simp] theorem addM2S_pairing (d : ℚ) : (addM2S c d).pairing = c.pairing := by
  simp only [addM2S, addOffsetSample]
  split_ifs <;> rfl

@[simp] theorem addS2M_pairing (d : ℚ) : (addS2M c d).pairing = c.pairing := by
  unfold addS2M
  split_ifs <;> rfl

end Frame

section Steps
variable {c : PtpClock} {m : Datagram}

theorem SyncTaken.pairing (h : SyncTaken c m) : (clockStep c (.rx m)).1.pairing =
    { c.pairing with
      nSyncSeq := sequenceId m.pData
      nSyncRxNs := m.nRxNs
      bAwaitFollowUp := if TwoStep m.pData then true else c.bAwaitFollowUp } := by
  rw [h.step]
  split_ifs
  · rfl
  · exact addM2S_pairing _

theorem FollowUpTaken.pairing (h : FollowUpTaken c m) :
    (clockStep c (.rx m)).1.pairing = { c.pairing with bAwaitFollowUp := false } := by
  rw [h.step]
  exact addM2S_pairing _

theorem DelayRespTaken.pairing (h : DelayRespTaken c m) : (clockStep c (.rx m)).1.pairing = c.pairing := by
  rw [h.step]
  exact addS2M_pairing _

/-- A message of no use to the filters may end the wait, as a change of master does. -/
theorem pairing_not_taken (hsync : ¬ SyncTaken c m) (hfollow : ¬ FollowUpTaken c m) (hresp : ¬ DelayRespTaken c m) :
    (clockStep c (.rx m)).1.pairing = c.pairing ∨
      (clockStep c (.rx m)).1.pairing = { c.pairing with bAwaitFollowUp := false } := by
  rcases clockStep_not_taken hsync hfollow hresp with hstep | hstep
  · exact Or.inl (by rw [hstep])
  · rw [hstep]
    simp only [PtpClock.pairing]
    cases hawait : (handleAnnounce c.toPtpClient m.pData m.sFrom m.nInterface m.now).bAwaitFollowUp with
    | false => exact Or.inr rfl
    | true => exact Or.inl (by rw [((narrows_handleAnnounce ..).awaits hawait).1])

theorem pairing_setDomain (nDomain : Int) : (setDomain c nDomain).pairing = c.pairing := by
  unfold setDomain
  split_ifs <;> rfl

/-- The Sync last taken is remembered until the next. -/
theorem sync_kept {e : ClockEvent} (h : ∀ m, e = .rx m → ¬ SyncTaken c m) :
    (clockStep c e).1.nSyncSeq = c.nSyncSeq ∧ (clockStep c e).1.nSyncRxNs = c.nSyncRxNs := by
  have of_pairing {c' : PtpClock} {b : Bool} (hp : c'.pairing = { c.pairing with bAwaitFollowUp := b }) :
      c'.nSyncSeq = c.nSyncSeq ∧ c'.nSyncRxNs = c.nSyncRxNs :=
    ⟨congrArg Pairing.nSyncSeq hp, congrArg Pairing.nSyncRxNs hp⟩
  cases e with
  | rx m =>
    have hsync := h m rfl
    by_cases hfollow : FollowUpTaken c m
    · exact of_pairing hfollow.pairing
    by_cases hresp : DelayRespTaken c m
    · exact of_pairing hresp.pairing
    rcases pairing_not_taken hsync hfollow hresp with hp | hp
    · exact of_pairing hp
    · exact of_pairing hp
  | tick now => exact ⟨rfl, rfl⟩
  | sendDelayReq nTxNs => exact ⟨rfl, rfl⟩
  | setDomain nDomain => exact of_pairing (pairing_setDomain nDomain)

theorem request_kept {e : ClockEvent} (h : ∀ t, e ≠ .sendDelayReq t) :
    (clockStep c e).1.nDelaySeq = c.nDelaySeq ∧ (clockStep c e).1.nDelayReqTxNs = c.nDelayReqTxNs := by
  have of_pairing {c' : PtpClock} {q : BitVec 16} {r : BitVec 64} {b : Bool} (hp : c'.pairing =
      { c.pairing with nSyncSeq := q, nSyncRxNs := r, bAwaitFollowUp := b }) :
      c'.nDelaySeq = c.nDelaySeq ∧ c'.nDelayReqTxNs = c.nDelayReqTxNs :=
    ⟨congrArg Pairing.nDelaySeq hp, congrArg Pairing.nDelayReqTxNs hp⟩
  cases e with
  | rx m =>
    by_cases hsync : SyncTaken c m
    · exact of_pairing hsync.pairing
    by_cases hfollow : FollowUpTaken c m
    · exact of_pairing hfollow.pairing
    by_cases hresp : DelayRespTaken c m
    · exact of_pairing hresp.pairing
    rcases pairing_not_taken hsync hfollow hresp with hp | hp
    · exact of_pairing hp
    · exact of_pairing hp
  | tick now => exact ⟨rfl, rfl⟩
  | sendDelayReq nTxNs => exact absurd rfl (h nTxNs)
  | setDomain nDomain => exact of_pairing (pairing_setDomain nDomain)

/-- Only a two-step Sync begins a wait. -/
theorem await_begins {e : ClockEvent} (hnot : ¬ c.bAwaitFollowUp) (h : (clockStep c e).1.bAwaitFollowUp) :
    ∃ m, e = .rx m ∧ SyncTaken c m ∧ TwoStep m.pData := by
  have no_wait {c' : PtpClock} (hp : c'.pairing = c.pairing ∨ c'.pairing = { c.pairing with bAwaitFollowUp := false })
      (hc : c'.bAwaitFollowUp) : False := by
    rcases hp with hp | hp
    · exact hnot ((congrArg Pairing.bAwaitFollowUp hp).symm.trans hc)
    · exact Bool.false_ne_true ((congrArg Pairing.bAwaitFollowUp hp).symm.trans hc)
  cases e with
  | rx m =>
    by_cases hsync : SyncTaken c m
    · refine ⟨m, rfl, hsync, ?_⟩
      by_contra htwo
      have hp := hsync.pairing
      rw [if_neg htwo] at hp
      exact hnot ((congrArg Pairing.bAwaitFollowUp hp).symm.trans h)
    by_cases hfollow : FollowUpTaken c m
    · exact (no_wait (.inr hfollow.pairing) h).elim
    by_cases hresp : DelayRespTaken c m
    · exact (no_wait (.inl hresp.pairing) h).elim
    exact (no_wait (pairing_not_taken hsync hfollow hresp) h).elim
  | tick now => exact absurd ((narrows_timerTick ..).awaits h).1 hnot
  | sendDelayReq nTxNs => exact absurd h hnot
  | setDomain nDomain => exact (no_wait (.inl (pairing_setDomain nDomain)) h).elim

end Steps

section Runs
variable (nDomain : Int) (ownIdentity : ClockIdentity) (es : List ClockEvent)

/-- The clock before the event at a position. -/
def clockAt (i : Nat) : PtpClock := clockAfter nDomain ownIdentity (es.take i)

/-- The event at a position feeds a filter. -/
def Yields (i : Nat) (s : Sample) : Prop :=
  ∃ e, es[i]? = some e ∧ (clockStep (clockAt nDomain ownIdentity es i) e).2 = some s

/-- An offset sample at `j` measures the Sync at `i`: with its own origin
timestamp, or with that of a Follow_Up to it. -/
def MeasuresSync (i j : Nat) (nT1 nT2 : BitVec 64) : Prop :=
  ∃ m, es[i]? = some (.rx m) ∧ msgTypeOf m.pData = MsgType.sync.code ∧ nT2 = m.nRxNs ∧
    ((i = j ∧ ¬ TwoStep m.pData ∧ nT1 = getTimestampNs m.pData 34) ∨
      (i < j ∧ TwoStep m.pData ∧ ∃ f, es[j]? = some (.rx f) ∧ msgTypeOf f.pData = MsgType.followUp.code ∧
        sequenceId f.pData = sequenceId m.pData ∧ nT1 = getTimestampNs f.pData 34))

def isRequest : ClockEvent → Bool
  | .sendDelayReq _ => true
  | _ => false

/-- The sequence number of the request sent at a position. -/
def requestSeq (i : Nat) : BitVec 16 := BitVec.ofNat 16 ((es.take (i + 1)).countP isRequest)

/-- A path delay sample at `j` answers the request sent at `i`. -/
def AnswersRequest (i j : Nat) (nT4 nT3 : BitVec 64) : Prop :=
  es[i]? = some (.sendDelayReq nT3) ∧ i < j ∧ ∃ r, es[j]? = some (.rx r) ∧
    msgTypeOf r.pData = MsgType.delayResp.code ∧ sequenceId r.pData = requestSeq es i ∧
    nT4 = getTimestampNs r.pData 34

/-- Each sample belongs to one exchange, and no exchange to two samples. -/
structure MeasuredOnce : Prop where
  offset : ∃ sync : Nat → Nat,
    (∀ j nT1 nT2, Yields nDomain ownIdentity es j (.offset nT1 nT2) → MeasuresSync es (sync j) j nT1 nT2) ∧
    Set.InjOn sync {j | ∃ nT1 nT2, Yields nDomain ownIdentity es j (.offset nT1 nT2)}
  pathDelay : ∃ request : Nat → Nat,
    (∀ j nT4 nT3, Yields nDomain ownIdentity es j (.pathDelay nT4 nT3) → AnswersRequest es (request j) j nT4 nT3) ∧
    Set.InjOn request {j | ∃ nT4 nT3, Yields nDomain ownIdentity es j (.pathDelay nT4 nT3)}

def SyncAt (i : Nat) : Prop := ∃ m, es[i]? = some (.rx m) ∧ SyncTaken (clockAt nDomain ownIdentity es i) m

def FollowUpAt (i : Nat) : Prop := ∃ m, es[i]? = some (.rx m) ∧ FollowUpTaken (clockAt nDomain ownIdentity es i) m

def AnswerAt (i : Nat) : Prop := ∃ m, es[i]? = some (.rx m) ∧ DelayRespTaken (clockAt nDomain ownIdentity es i) m

def RequestAt (i : Nat) : Prop := ∃ nT3, es[i]? = some (.sendDelayReq nT3)

/-- What the handlers leave to the network: no Follow_Up to a one-step Sync, no
answer before there was a request, no second answer to one. -/
structure Orderly : Prop where
  followUp : ∀ i j m, LastBefore (SyncAt nDomain ownIdentity es) i j → es[i]? = some (.rx m) →
    FollowUpAt nDomain ownIdentity es j → TwoStep m.pData
  requested : ∀ j, AnswerAt nDomain ownIdentity es j → ∃ i < j, RequestAt es i
  answeredOnce : ∀ j k, j < k → AnswerAt nDomain ownIdentity es j → AnswerAt nDomain ownIdentity es k →
    ∃ i, j < i ∧ i < k ∧ RequestAt es i

variable {nDomain ownIdentity es}

theorem clockAt_succ {i : Nat} {e : ClockEvent} (h : es[i]? = some e) :
    clockAt nDomain ownIdentity es (i + 1) = (clockStep (clockAt nDomain ownIdentity es i) e).1 := run_take_succ h

theorem clockAfter_nDelaySeq (nDomain : Int) (ownIdentity : ClockIdentity) (es : List ClockEvent) :
    (clockAfter nDomain ownIdentity es).nDelaySeq = BitVec.ofNat 16 (es.countP isRequest) := by
  induction es using List.reverseRecOn with
  | nil => rfl
  | append_singleton es e ih =>
    have hstep : clockAfter nDomain ownIdentity (es ++ [e]) = (clockStep (clockAfter nDomain ownIdentity es) e).1 :=
      run_snoc ..
    rw [hstep, List.countP_append, List.countP_singleton]
    by_cases hrequest : isRequest e
    · cases e with
      | sendDelayReq nTxNs =>
        rw [if_pos hrequest, BitVec.ofNat_add, ← ih]
        rfl
      | _ => cases hrequest
    · have hnot (t : BitVec 64) : e ≠ .sendDelayReq t := by
        rintro rfl
        exact hrequest rfl
      rw [if_neg hrequest, (request_kept hnot).1, ih, Nat.add_zero]

/-- The Sync last taken is the one remembered. -/
theorem remembered_sync {i j : Nat} {m : Datagram} (h : LastBefore (SyncAt nDomain ownIdentity es) i j)
    (hm : es[i]? = some (.rx m)) :
    (clockAt nDomain ownIdentity es j).nSyncSeq = sequenceId m.pData ∧
      (clockAt nDomain ownIdentity es j).nSyncRxNs = m.nRxNs := by
  obtain ⟨m', hm', htaken⟩ := h.here
  obtain rfl : m' = m := by simpa using hm'.symm.trans hm
  refine run_take_keeps (P := fun c : PtpClock => c.nSyncSeq = sequenceId m'.pData ∧ c.nSyncRxNs = m'.nRxNs)
    (show i + 1 ≤ j from h.before) ?_ ?_
  · have hat : clockAt nDomain ownIdentity es (i + 1) = _ := clockAt_succ hm
    have hp := htaken.pairing
    rw [← hat] at hp
    exact ⟨congrArg Pairing.nSyncSeq hp, congrArg Pairing.nSyncRxNs hp⟩
  · rintro k e hik hkj he ⟨hseq, hrx⟩
    have hnot : ∀ m, e = .rx m → ¬ SyncTaken (clockAt nDomain ownIdentity es k) m := by
      rintro m rfl hsync
      exact h.last k hik hkj ⟨m, he, hsync⟩
    obtain ⟨hseq', hrx'⟩ := sync_kept hnot
    exact ⟨hseq'.trans hseq, hrx'.trans hrx⟩

theorem remembered_request {i j : Nat} {nT3 : BitVec 64} (h : LastBefore (RequestAt es) i j)
    (hi : es[i]? = some (.sendDelayReq nT3)) :
    (clockAt nDomain ownIdentity es j).nDelaySeq = requestSeq es i ∧
      (clockAt nDomain ownIdentity es j).nDelayReqTxNs = nT3 := by
  refine run_take_keeps (P := fun c : PtpClock => c.nDelaySeq = requestSeq es i ∧ c.nDelayReqTxNs = nT3)
    (show i + 1 ≤ j from h.before) ?_ ?_
  · have hat : clockAt nDomain ownIdentity es (i + 1) = _ := clockAt_succ hi
    exact ⟨clockAfter_nDelaySeq .., congrArg PtpClock.nDelayReqTxNs hat⟩
  · rintro k e hik hkj he ⟨hseq, htx⟩
    have hnot : ∀ t, e ≠ .sendDelayReq t := by
      rintro t rfl
      exact h.last k hik hkj ⟨t, he⟩
    obtain ⟨hseq', htx'⟩ := request_kept (c := clockAt nDomain ownIdentity es k) hnot
    exact ⟨hseq'.trans hseq, htx'.trans htx⟩

/-- A Follow_Up is waited for since some two-step Sync. -/
theorem FollowUpAt.onset {j : Nat} (h : FollowUpAt nDomain ownIdentity es j) :
    ∃ i < j, SyncAt nDomain ownIdentity es i ∧
      ∀ k, i < k → k ≤ j → (clockAt nDomain ownIdentity es k).bAwaitFollowUp := by
  obtain ⟨m, hm, htaken⟩ := h
  obtain ⟨i, hij, hi, hall⟩ := exists_onset (P := fun k => (clockAt nDomain ownIdentity es k).bAwaitFollowUp)
    (fun h₀ => Bool.false_ne_true h₀) htaken.awaited
  refine ⟨i, hij, ?_, hall⟩
  have hlen : j < es.length := (List.getElem?_eq_some_iff.mp hm).1
  have he : es[i]? = some (es.get ⟨i, by omega⟩) := List.getElem?_eq_getElem _
  have hnext := hall (i + 1) (by omega) (by omega)
  rw [clockAt_succ he] at hnext
  obtain ⟨s, hs, hsync, -⟩ := await_begins hi hnext
  exact ⟨s, by rw [he, hs], hsync⟩

theorem FollowUpAt.lastSync {j : Nat} (h : FollowUpAt nDomain ownIdentity es j) :
    ∃ i, LastBefore (SyncAt nDomain ownIdentity es) i j := by
  obtain ⟨i, hij, hsync, -⟩ := h.onset
  exact LastBefore.exists hij hsync

/-- Two Follow_Ups measure two Syncs: the first ends the wait. -/
theorem FollowUpAt.distinct {i j k : Nat} (hj : FollowUpAt nDomain ownIdentity es j)
    (hk : FollowUpAt nDomain ownIdentity es k) (hij : LastBefore (SyncAt nDomain ownIdentity es) i j)
    (hik : LastBefore (SyncAt nDomain ownIdentity es) i k) : ¬ j < k := by
  intro hjk
  obtain ⟨l, hlk, hsync, hwait⟩ := hk.onset
  have hli := hik.le hlk hsync
  obtain ⟨m, hm, htaken⟩ := hj
  have hcleared := hwait (j + 1) (by have := hij.before; omega) hjk
  rw [clockAt_succ hm] at hcleared
  exact Bool.false_ne_true ((congrArg Pairing.bAwaitFollowUp htaken.pairing).symm.trans hcleared)

/-- Where an offset sample comes from. -/
theorem Yields.offset_cases {j : Nat} {nT1 nT2 : BitVec 64} (h : Yields nDomain ownIdentity es j (.offset nT1 nT2)) :
    ∃ m, es[j]? = some (.rx m) ∧ nT1 = getTimestampNs m.pData 34 ∧
      ((SyncTaken (clockAt nDomain ownIdentity es j) m ∧ ¬ TwoStep m.pData ∧ nT2 = m.nRxNs) ∨
        (FollowUpTaken (clockAt nDomain ownIdentity es j) m ∧
          nT2 = (clockAt nDomain ownIdentity es j).nSyncRxNs)) := by
  obtain ⟨e, he, hs⟩ := h
  cases e with
  | rx m =>
    rcases sample_iff.mp hs with ⟨hsync, htwo, hsample⟩ | ⟨hfollow, hsample⟩ | ⟨-, hsample⟩
    · obtain ⟨rfl, rfl⟩ := Sample.offset.inj hsample
      exact ⟨m, he, rfl, .inl ⟨hsync, htwo, rfl⟩⟩
    · obtain ⟨rfl, rfl⟩ := Sample.offset.inj hsample
      exact ⟨m, he, rfl, .inr ⟨hfollow, rfl⟩⟩
    · cases hsample
  | _ => cases hs

theorem Yields.pathDelay_cases {j : Nat} {nT4 nT3 : BitVec 64}
    (h : Yields nDomain ownIdentity es j (.pathDelay nT4 nT3)) :
    ∃ m, es[j]? = some (.rx m) ∧ nT4 = getTimestampNs m.pData 34 ∧
      DelayRespTaken (clockAt nDomain ownIdentity es j) m ∧
      nT3 = (clockAt nDomain ownIdentity es j).nDelayReqTxNs := by
  obtain ⟨e, he, hs⟩ := h
  cases e with
  | rx m =>
    rcases sample_iff.mp hs with ⟨-, -, hsample⟩ | ⟨-, hsample⟩ | ⟨hresp, hsample⟩
    · cases hsample
    · cases hsample
    · obtain ⟨rfl, rfl⟩ := Sample.pathDelay.inj hsample
      exact ⟨m, he, rfl, hresp, rfl⟩
  | _ => cases hs

theorem not_sync_followUp {c : PtpClock} {m : Datagram} (hsync : SyncTaken c m) (hfollow : FollowUpTaken c m) :
    False := MsgType.noConfusion (hsync.toDispatched.unique hfollow.toDispatched)

/-- A Sync that one sample measures at once is measured at once by every sample. -/
theorem MeasuresSync.at_once {i j k : Nat} {nT1 nT2 nT1' nT2' : BitVec 64} (hj : MeasuresSync es i j nT1 nT2)
    (hk : MeasuresSync es i k nT1' nT2') (hij : i = j) : i = k := by
  obtain ⟨m, hm, -, -, hj⟩ := hj
  obtain ⟨m', hm', -, -, hk⟩ := hk
  obtain rfl : m' = m := by simpa using hm'.symm.trans hm
  rcases hj with ⟨-, hone, -⟩ | ⟨hlt, -⟩
  · rcases hk with ⟨hik, -⟩ | ⟨-, htwo, -⟩
    · exact hik
    · exact absurd htwo hone
  · omega

/-- One-step Syncs measure themselves, a Follow_Up the Sync last taken. -/
theorem Orderly.offset (h : Orderly nDomain ownIdentity es) : ∃ sync : Nat → Nat,
    (∀ j nT1 nT2, Yields nDomain ownIdentity es j (.offset nT1 nT2) → MeasuresSync es (sync j) j nT1 nT2) ∧
    Set.InjOn sync {j | ∃ nT1 nT2, Yields nDomain ownIdentity es j (.offset nT1 nT2)} := by
  classical
  have lastOf (j : Nat) : ∃ i, (FollowUpAt nDomain ownIdentity es j → LastBefore (SyncAt nDomain ownIdentity es) i j) ∧
      (¬ FollowUpAt nDomain ownIdentity es j → i = j) := by
    by_cases hfollow : FollowUpAt nDomain ownIdentity es j
    · obtain ⟨i, hi⟩ := hfollow.lastSync
      exact ⟨i, fun _ => hi, fun hnot => absurd hfollow hnot⟩
    · exact ⟨j, fun hf => absurd hf hfollow, fun _ => rfl⟩
  choose sync hfollowed hown using lastOf
  have source (j : Nat) (nT1 nT2 : BitVec 64) (hy : Yields nDomain ownIdentity es j (.offset nT1 nT2)) :
      MeasuresSync es (sync j) j nT1 nT2 := by
    obtain ⟨m, hm, hts, ⟨hsync, htwo, hrx⟩ | ⟨hfollow, hrx⟩⟩ := hy.offset_cases
    · have hnot : ¬ FollowUpAt nDomain ownIdentity es j := by
        rintro ⟨m', hm', hfollow⟩
        obtain rfl : m' = m := by simpa using hm'.symm.trans hm
        exact not_sync_followUp hsync hfollow
      rw [hown j hnot]
      exact ⟨m, hm, hsync.type, hrx, .inl ⟨rfl, htwo, hts⟩⟩
    · have hat : FollowUpAt nDomain ownIdentity es j := ⟨m, hm, hfollow⟩
      have hlast := hfollowed j hat
      obtain ⟨s, hs, hsync⟩ := hlast.here
      obtain ⟨hseq, hrx'⟩ := remembered_sync hlast hs
      exact ⟨s, hs, hsync.type, hrx.trans hrx', .inr ⟨hlast.before, h.followUp _ j s hlast hs hat, m, hm, hfollow.type,
        hfollow.sequence.trans hseq, hts⟩⟩
  refine ⟨sync, source, ?_⟩
  rintro j ⟨a, b, hj⟩ k ⟨a', b', hk⟩ hjk
  by_cases hfj : FollowUpAt nDomain ownIdentity es j <;> by_cases hfk : FollowUpAt nDomain ownIdentity es k
  · have hlj := hfollowed j hfj
    have hlk := hfollowed k hfk
    rw [← hjk] at hlk
    exact le_antisymm (not_lt.mp (hfk.distinct hfj hlk hlj)) (not_lt.mp (hfj.distinct hfk hlj hlk))
  · have hback := source j a b hj
    rw [hjk] at hback
    exact ((source k a' b' hk).at_once hback (hown k hfk)).symm.trans (hown k hfk)
  · have hback := source k a' b' hk
    rw [← hjk] at hback
    exact (hown j hfj).symm.trans ((source j a b hj).at_once hback (hown j hfj))
  · rw [hown j hfj, hown k hfk] at hjk
    exact hjk

/-- An accepted response answers the request last sent. -/
theorem Orderly.pathDelay (h : Orderly nDomain ownIdentity es) : ∃ request : Nat → Nat,
    (∀ j nT4 nT3, Yields nDomain ownIdentity es j (.pathDelay nT4 nT3) → AnswersRequest es (request j) j nT4 nT3) ∧
    Set.InjOn request {j | ∃ nT4 nT3, Yields nDomain ownIdentity es j (.pathDelay nT4 nT3)} := by
  have lastOf (j : Nat) : ∃ i, AnswerAt nDomain ownIdentity es j → LastBefore (RequestAt es) i j := by
    by_cases hanswer : AnswerAt nDomain ownIdentity es j
    · obtain ⟨i, hij, hi⟩ := h.requested j hanswer
      obtain ⟨k, hk⟩ := LastBefore.exists hij hi
      exact ⟨k, fun _ => hk⟩
    · exact ⟨0, fun ha => absurd ha hanswer⟩
  choose request answered using lastOf
  refine ⟨request, ?_, ?_⟩
  · intro j nT4 nT3 hy
    obtain ⟨m, hm, hts, hresp, htx⟩ := hy.pathDelay_cases
    have hlast := answered j ⟨m, hm, hresp⟩
    obtain ⟨t, ht⟩ := hlast.here
    obtain ⟨hseq, htx'⟩ : (clockAt nDomain ownIdentity es j).nDelaySeq = requestSeq es (request j) ∧ _ :=
      remembered_request hlast ht
    rw [htx, htx']
    exact ⟨ht, hlast.before, m, hm, hresp.type, hresp.sequence.trans hseq, hts⟩
  · have apart {j k : Nat} (hjk : j < k) (hj : AnswerAt nDomain ownIdentity es j)
        (hk : AnswerAt nDomain ownIdentity es k) : request j < request k := by
      obtain ⟨i, hji, hik, hi⟩ := h.answeredOnce j k hjk hj hk
      have hbefore := (answered j hj).before
      have hle := (answered k hk).le hik hi
      omega
    rintro j ⟨a, b, hj⟩ k ⟨a', b', hk⟩ heq
    obtain ⟨m, hm, -, hj, -⟩ := hj.pathDelay_cases
    obtain ⟨m', hm', -, hk, -⟩ := hk.pathDelay_cases
    rcases lt_trichotomy j k with hlt | rfl | hlt
    · have := apart hlt ⟨m, hm, hj⟩ ⟨m', hm', hk⟩
      omega
    · rfl
    · have := apart hlt ⟨m', hm', hk⟩ ⟨m, hm, hj⟩
      omega

end Runs

/-- Where the network is orderly, every exchange is measured at most once, with
the times that belong together. -/
theorem measuredOnce_of_orderly (nDomain : Int) (ownIdentity : ClockIdentity) (es : List ClockEvent)
    (h : Orderly nDomain ownIdentity es) : MeasuredOnce nDomain ownIdentity es :=
  ⟨h.offset, h.pathDelay⟩

section Messages

def syncFrom (nFlags nId nSeq nNs : Byte) : Bytes := messageOf .sync nFlags nId nSeq (stampOf nNs)

def followUpFrom (nId nSeq nNs : Byte) : Bytes := messageOf .followUp 0 nId nSeq (stampOf nNs)

/-- A request, a two-step Sync with its Follow_Up, and the answer. -/
def exchange : List ClockEvent :=
  requested ++ [received (syncFrom 2 1 5 0) 110, received (followUpFrom 1 5 90) 0, received (delayRespFrom 1 1 150) 0]

/-- The position and type of a message the handlers of the clock read. -/
def typeAt (es : List ClockEvent) (i : Nat) : Option Byte :=
  match es[i]? with
  | some (.rx m) => some (msgTypeOf m.pData)
  | _ => none

theorem typeAt_eq {es : List ClockEvent} {i : Nat} {m : Datagram} (h : es[i]? = some (.rx m)) :
    i < es.length ∧ typeAt es i = some (msgTypeOf m.pData) :=
  ⟨(List.getElem?_eq_some_iff.mp h).1, by rw [typeAt, h]⟩

theorem exchange_orderly : Orderly 0 (clockOf 9) exchange := by
  have syncs : ∀ i < 7, typeAt exchange i = some MsgType.sync.code → i = 4 := by decide +kernel
  have answers : ∀ i < 7, typeAt exchange i = some MsgType.delayResp.code → i = 6 := by decide +kernel
  have answer_at {j : Nat} (h : AnswerAt 0 (clockOf 9) exchange j) : j = 6 := by
    obtain ⟨m, hm, htaken⟩ := h
    obtain ⟨hlt, htype⟩ := typeAt_eq hm
    exact answers j hlt (htype.trans (congrArg some htaken.type))
  refine ⟨fun i j m hlast hm _ => ?_, fun j hj => ?_, fun j k hjk hj hk => ?_⟩
  · obtain ⟨m', hm', htaken⟩ := hlast.here
    obtain ⟨hlt, htype⟩ := typeAt_eq hm'
    obtain rfl := syncs i hlt (htype.trans (congrArg some htaken.type))
    obtain rfl : _ = m := ClockEvent.rx.inj (Option.some.inj hm)
    decide
  · obtain rfl := answer_at hj
    exact ⟨3, by decide, 100, rfl⟩
  · have hj6 := answer_at hj
    have hk6 := answer_at hk
    omega

theorem exchange_measuredOnce : MeasuredOnce 0 (clockOf 9) exchange :=
  measuredOnce_of_orderly 0 (clockOf 9) exchange exchange_orderly

/-- The answer to the request arrives twice. -/
def answeredTwice : List ClockEvent :=
  requested ++ [received (delayRespFrom 1 1 150) 0, received (delayRespFrom 1 1 150) 0]

/-- The Follow_Up to a two-step Sync is lost; one names the one-step Sync after it. -/
def strayFollowUp : List ClockEvent :=
  requested ++ [received (syncFrom 2 1 5 0) 110, received (syncFrom 0 1 6 90) 120, received (followUpFrom 1 6 95) 0]

theorem answeredTwice_strayFollowUp :
    ¬ MeasuredOnce 0 (clockOf 9) answeredTwice ∧ ¬ MeasuredOnce 0 (clockOf 9) strayFollowUp := by
  constructor
  · intro h
    obtain ⟨request, hanswers, hinj⟩ := h.pathDelay
    have hfirst : Yields 0 (clockOf 9) answeredTwice 4 (.pathDelay 150 100) := ⟨_, rfl, by decide +kernel⟩
    have hsecond : Yields 0 (clockOf 9) answeredTwice 5 (.pathDelay 150 100) := ⟨_, rfl, by decide +kernel⟩
    have requests : ∀ i < 6, (answeredTwice[i]?.map isRequest) = some true → i = 3 := by decide +kernel
    have request_eq {j : Nat} (hj : Yields 0 (clockOf 9) answeredTwice j (.pathDelay 150 100)) : request j = 3 := by
      obtain ⟨hsent, -⟩ := hanswers j _ _ hj
      exact requests _ (List.getElem?_eq_some_iff.mp hsent).1 (by rw [hsent]; rfl)
    exact absurd (hinj ⟨_, _, hfirst⟩ ⟨_, _, hsecond⟩ ((request_eq hfirst).trans (request_eq hsecond).symm)) (by decide)
  · intro h
    obtain ⟨sync, hmeasures, -⟩ := h.offset
    have hy : Yields 0 (clockOf 9) strayFollowUp 6 (.offset 95 120) := ⟨_, rfl, by decide +kernel⟩
    obtain ⟨m, hm, hsync, hrx, hpair⟩ := hmeasures 6 _ _ hy
    obtain ⟨hlt, htype⟩ := typeAt_eq hm
    have syncs : ∀ i < 7, typeAt strayFollowUp i = some MsgType.sync.code → i = 4 ∨ i = 5 := by decide +kernel
    rcases syncs _ hlt (htype.trans (congrArg some hsync)) with hi | hi <;> rw [hi] at hm hpair <;>
      obtain rfl : _ = m := ClockEvent.rx.inj (Option.some.inj hm)
    · exact absurd hrx (by decide)
    · rcases hpair with ⟨hself, -⟩ | ⟨-, htwo, -⟩
      · exact absurd hself (by decide)
      · exact absurd htwo (by decide)

end Messages

end PiAudioNode.Ptp
