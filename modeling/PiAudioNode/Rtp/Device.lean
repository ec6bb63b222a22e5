import PiAudioNode.Ptp.Status
import PiAudioNode.Ptp.Tracking
import PiAudioNode.Rtp.AnchorWait

/-! A receiver and its PTP client on the real-time clock of one device: how far from its
due time, as the master has it, the playout of a first packet begins. -/
namespace PiAudioNode.Rtp
open Lib

/-- What `IsSynced` and `PtpTimeNs` tell the playout thread, which asks both at one time. -/
def readClock (c : Ptp.PtpClock) (nRealtimeNs : Nat) : PtpClock :=
  if c.bSynced then .synced (Ptp.ptpTimeNs c (BitVec.ofNat 64 nRealtimeNs)).toNat else .unsynced

/-- The sleep before the start, in whole microseconds. -/
def startSleepNs (cfg : RxConfig) (nFirstTs : BitVec 32) (clock : PtpClock) : Nat :=
  prerollFrames cfg nFirstTs clock * 1000000 / sampleRate * 1000

/-- The PTP client and the receiver of a device. The playout thread found its first packet
at `nFoundNs` of the real-time clock, and sleeps until `nWakeNs`. -/
structure Device where
  clock : Ptp.PtpClock
  rx : RtpReceiver
  nFoundNs : Nat := 0
  bSynced : Bool := false
  nWakeNs : Nat := 0

inductive DeviceEvent where
  | ptp (e : Ptp.ClockEvent)
  | rx (nRealtimeNs : Nat) (e : Event)

/-- A start of the playout: the first packet, when it was found and whether the clock was
in sync then, and when the sleep was over. -/
structure Start where
  nSeq : BitVec 16
  nTs : BitVec 32
  nFoundNs : Nat
  bSynced : Bool
  nStartNs : Nat
  deriving DecidableEq

def Device.step (cfg : RxConfig) (d : Device) : DeviceEvent → Device × List Start
  | .ptp e => ({ d with clock := (Ptp.clockStep d.clock e).1 }, [])
  | .rx nRealtimeNs e =>
    let rx := (Rtp.step cfg d.rx e).1
    if d.rx.playout = .awaitFirst ∧ rx.playout = .preroll then
      ({ d with
          rx
          nFoundNs := nRealtimeNs
          bSynced := d.clock.bSynced
          nWakeNs := nRealtimeNs + startSleepNs cfg d.rx.nFirstTs (readClock d.clock nRealtimeNs) }, [])
    else if d.rx.playout = .preroll ∧ rx.playout = .loop then
      ({ d with rx }, [⟨d.rx.nFirstSeq, d.rx.nFirstTs, d.nFoundNs, d.bSynced, nRealtimeNs⟩])
    else ({ d with rx }, [])

def runDevice (cfg : RxConfig) (c : Ptp.PtpClock) (r : RtpReceiver) (es : List DeviceEvent) : Device × List Start :=
  runReport (Device.step cfg) { clock := c, rx := configure cfg r } es

/-- The master is true, the packets are sent ones, and a sleep takes as long as it was
meant to, or at most `σ` longer. -/
def Device.Behaves (O D : ℚ) (σ : Nat) (Sent : Bytes → Prop) (d : Device) : DeviceEvent → Prop
  | .ptp e => Ptp.Steady O D d.clock e
  | .rx _ (.packet _ pData _) => Sent pData
  | .rx nRealtimeNs (.playout _ _) =>
    d.rx.playout = .preroll → d.nWakeNs ≤ nRealtimeNs ∧ nRealtimeNs ≤ d.nWakeNs + σ
  | .rx _ (.age _) => True
  | .rx _ (.setMonitor _ _) => True

instance (O D : ℚ) (σ : Nat) (Sent : Bytes → Prop) [DecidablePred Sent] (d : Device) :
    (e : DeviceEvent) → Decidable (d.Behaves O D σ Sent e)
  | .ptp e => inferInstanceAs (Decidable (Ptp.Steady O D d.clock e))
  | .rx _ (.packet _ pData _) => inferInstanceAs (Decidable (Sent pData))
  | .rx _ (.playout _ _) => inferInstanceAs (Decidable (_ → _ ∧ _))
  | .rx _ (.age _) => inferInstanceAs (Decidable True)
  | .rx _ (.setMonitor _ _) => inferInstanceAs (Decidable True)

def BehavedRun (cfg : RxConfig) (O D : ℚ) (σ : Nat) (Sent : Bytes → Prop) (c : Ptp.PtpClock) (r : RtpReceiver)
    (es : List DeviceEvent) : Prop :=
  Admits (fun pre e => (runDevice cfg c r pre).1.Behaves O D σ Sent e) es

/-- The first packet is one of those that were sent. -/
def Heads (Sent : Bytes → Prop) (nSeq : BitVec 16) (nTs : BitVec 32) : Prop :=
  ∃ pPacket, Sent pPacket ∧ rtpSeq pPacket = nSeq ∧ rtpTs pPacket = nTs

namespace RxConfig

/-- The playout delay in nanoseconds. -/
def delayNs (cfg : RxConfig) : ℚ := cfg.nPlayoutDelayMs * 1000000

end RxConfig

/-- How far a start may be off: the error of the clock, a sample and a microsecond. -/
def startError (M : ℚ) : ℚ := M + 1 + 1000000000 / 48000 + 1000

/-- A first packet that is found in time: the clock is in sync and can tell the time, and
the packet is due now or later, in less than a second. -/
structure FoundInTime (cfg : RxConfig) (O M : ℚ) (nMediaNs : Nat) (x : Start) : Prop where
  synced : x.bSynced
  begun : M + 1 ≤ x.nFoundNs + O
  ends : x.nFoundNs + O + M + 1 < 2 ^ 64
  early : nMediaNs + cfg.delayNs - 1000000000 + startError M < x.nFoundNs + O
  due : x.nFoundNs + O ≤ nMediaNs + cfg.delayNs

/-- When a thread wakes that slept for what it read of a clock on its master. -/
def SleepsUntil (cfg : RxConfig) (O D M : ℚ) (nTs : BitVec 32) (nFoundNs : Nat) (bSynced : Bool) (nWakeNs : Nat) : Prop :=
  ∃ c : Ptp.PtpClock, Ptp.Tracks O D M c ∧ c.bSynced = bSynced ∧
    nWakeNs = nFoundNs + startSleepNs cfg nTs (readClock c nFoundNs)

/-- A start on a packet that was sent, after the sleep. -/
structure Start.Sound (cfg : RxConfig) (O D M : ℚ) (σ : Nat) (Sent : Bytes → Prop) (x : Start) : Prop where
  heads : Heads Sent x.nSeq x.nTs
  slept : ∃ nWakeNs, SleepsUntil cfg O D M x.nTs x.nFoundNs x.bSynced nWakeNs ∧ nWakeNs ≤ x.nStartNs ∧
    x.nStartNs ≤ nWakeNs + σ

structure Device.Sound (cfg : RxConfig) (O D M : ℚ) (σ : Nat) (Sent : Bytes → Prop) (starts : List Start) (d : Device) :
    Prop where
  tracks : Ptp.Tracks O D M d.clock
  first : d.rx.bHaveFirst → Heads Sent d.rx.nFirstSeq d.rx.nFirstTs
  asleep : d.rx.playout = .preroll → d.rx.bHaveFirst ∧
    SleepsUntil cfg O D M d.rx.nFirstTs d.nFoundNs d.bSynced d.nWakeNs
  starts : ∀ x ∈ starts, x.Sound cfg O D M σ Sent

section Reading
variable {cfg : RxConfig} {O D M : ℚ} {c : Ptp.PtpClock}

theorem toNat_ptpTimeNs (hsynced : c.bSynced) {nRealtimeNs : Nat} (hlow : 0 ≤ (nRealtimeNs : Int) + c.nMappingNs)
    (hhigh : (nRealtimeNs : Int) + c.nMappingNs < 2 ^ 64) :
    ((Ptp.ptpTimeNs c (BitVec.ofNat 64 nRealtimeNs)).toNat : Int) = nRealtimeNs + c.nMappingNs := by
  rw [Ptp.ptpTimeNs, if_pos hsynced, ← BitVec.ofInt_natCast, ← BitVec.ofInt_add, BitVec.toNat_ofInt]
  have hmod : ((nRealtimeNs : Int) + c.nMappingNs) % ((2 ^ 64 : Nat) : Int) = nRealtimeNs + c.nMappingNs :=
    Int.emod_eq_of_lt hlow (by push_cast; exact hhigh)
  rw [hmod, Int.toNat_of_nonneg hlow]

/-- A clock that tracks its master tells its time. -/
theorem ptpTimeNs_near (h : Ptp.Tracks O D M c) (hsynced : c.bSynced) {nRealtimeNs : Nat}
    (hbegun : M + 1 ≤ nRealtimeNs + O) (hends : nRealtimeNs + O + M + 1 < 2 ^ 64) :
    |((Ptp.ptpTimeNs c (BitVec.ofNat 64 nRealtimeNs)).toNat : ℚ) - (nRealtimeNs + O)| ≤ M + 1 := by
  obtain ⟨hlow, hhigh⟩ := abs_le.mp h.mapping_near
  have hfirst : 0 ≤ (nRealtimeNs : Int) + c.nMappingNs := by
    have : (0 : ℚ) ≤ nRealtimeNs + c.nMappingNs := by linarith
    exact_mod_cast this
  have hlast : (nRealtimeNs : Int) + c.nMappingNs < 2 ^ 64 := by
    have : (nRealtimeNs : ℚ) + c.nMappingNs < 2 ^ 64 := by linarith
    exact_mod_cast this
  have hread : ((Ptp.ptpTimeNs c (BitVec.ofNat 64 nRealtimeNs)).toNat : ℚ) = nRealtimeNs + c.nMappingNs := by
    exact_mod_cast toNat_ptpTimeNs hsynced hfirst hlast
  rw [hread, abs_le]
  constructor <;> linarith

theorem ptpSamples_bounds (nPtpNs : Nat) : (nPtpNs : ℚ) * 48000 / 1000000000 - 1 < ptpSamples nPtpNs ∧
    (ptpSamples nPtpNs : ℚ) ≤ nPtpNs * 48000 / 1000000000 := by
  have hfloor : nPtpNs * 48000 < (ptpSamples nPtpNs + 1) * 1000000000 ∧
      ptpSamples nPtpNs * 1000000000 ≤ nPtpNs * 48000 := by
    rw [ptpSamples_eq]
    omega
  have hhigh : (nPtpNs : ℚ) * 48000 < (ptpSamples nPtpNs + 1) * 1000000000 := by exact_mod_cast hfloor.1
  have hlow : (ptpSamples nPtpNs : ℚ) * 1000000000 ≤ nPtpNs * 48000 := by exact_mod_cast hfloor.2
  constructor
  · linarith
  · linarith

/-- The sleep in nanoseconds, for a wait of some samples. -/
theorem sleep_bounds (w : Nat) : (w : ℚ) * 1000000000 / 48000 - 1000 < (w * 1000000 / sampleRate * 1000 : Nat) ∧
    ((w * 1000000 / sampleRate * 1000 : Nat) : ℚ) ≤ w * 1000000000 / 48000 := by
  have hfloor : w * 1000000 < (w * 1000000 / sampleRate + 1) * 48000 ∧ w * 1000000 / sampleRate * 48000 ≤ w * 1000000 := by
    unfold sampleRate
    omega
  have hhigh : (w : ℚ) * 1000000 < ((w * 1000000 / sampleRate : Nat) + 1) * 48000 := by exact_mod_cast hfloor.1
  have hlow : ((w * 1000000 / sampleRate : Nat) : ℚ) * 48000 ≤ w * 1000000 := by exact_mod_cast hfloor.2
  rw [Nat.cast_mul]
  push_cast
  constructor <;> linarith

theorem targetDelay_samples (cfg : RxConfig) : cfg.nTargetDelayFrames = cfg.nPlayoutDelayMs * 48 := by
  unfold RxConfig.nTargetDelayFrames sampleRate
  omega

/-- The sleep of a thread that reads the time `p` when a packet from the time `a` is its
first: it ends when the packet is due, to within a sample and a microsecond. -/
theorem sleep_until_due {E T : ℚ} {p a : Nat} (hdelay : cfg.nPlayoutDelayMs ≤ 500) (hE : E ≤ 1000000000)
    (hread : |(p : ℚ) - T| ≤ E) (hearly : a + cfg.delayNs - 1000000000 + (E + 1000000000 / 48000 + 1000) < T)
    (hdue : T ≤ a + cfg.delayNs) :
    |T + startSleepNs cfg (BitVec.ofNat 32 (ptpSamples a)) (.synced p) - (a + cfg.delayNs)| ≤
      E + 1000000000 / 48000 + 1000 := by
  obtain ⟨hlow, hhigh⟩ := abs_le.mp hread
  obtain ⟨hp, hp'⟩ := ptpSamples_bounds p
  obtain ⟨ha, ha'⟩ := ptpSamples_bounds a
  have hms : (cfg.nPlayoutDelayMs : ℚ) ≤ 500 := by exact_mod_cast hdelay
  have hdelayNs : cfg.delayNs = cfg.nPlayoutDelayMs * 1000000 := rfl
  have hage : ageAt p (BitVec.ofNat 32 (ptpSamples a)) = (ptpSamples p : Int) - ptpSamples a := by
    refine toInt_ofNat_sub_ofNat ?_
    have hnear : |(ptpSamples p : ℚ) - ptpSamples a| < 2 ^ 31 := by
      rw [abs_lt]
      constructor <;> linarith
    exact_mod_cast hnear
  have hwait : prerollFrames cfg (BitVec.ofNat 32 (ptpSamples a)) (.synced p) =
      if 0 < cfg.nTargetDelayFrames - ageAt p (BitVec.ofNat 32 (ptpSamples a)) ∧
        cfg.nTargetDelayFrames - ageAt p (BitVec.ofNat 32 (ptpSamples a)) < sampleRate then
        (cfg.nTargetDelayFrames - ageAt p (BitVec.ofNat 32 (ptpSamples a))).toNat else 0 := rfl
  rw [hage, targetDelay_samples] at hwait
  rw [startSleepNs, hwait]
  split_ifs with hrange
  · obtain ⟨w, hw⟩ := Int.eq_ofNat_of_zero_le hrange.1.le
    have hwait' : (w : ℚ) = cfg.nPlayoutDelayMs * 48 - (ptpSamples p - ptpSamples a) := by
      exact_mod_cast hw.symm
    rw [hw, Int.toNat_natCast]
    obtain ⟨hs, hs'⟩ := sleep_bounds w
    rw [abs_le]
    constructor <;> linarith
  · -- no sleep: the wait is over, as it is below a second
    have hpast : (cfg.nPlayoutDelayMs * 48 : Int) - (ptpSamples p - ptpSamples a) ≤ 0 := by
      by_contra hpos
      have hlong : (48000 : Int) ≤ cfg.nPlayoutDelayMs * 48 - (ptpSamples p - ptpSamples a) := by
        by_contra hshort
        exact hrange ⟨not_le.mp hpos, not_le.mp hshort⟩
      have hlong' : (48000 : ℚ) ≤ cfg.nPlayoutDelayMs * 48 - (ptpSamples p - ptpSamples a) := by exact_mod_cast hlong
      linarith
    have hpast' : (cfg.nPlayoutDelayMs : ℚ) * 48 - (ptpSamples p - ptpSamples a) ≤ 0 := by exact_mod_cast hpast
    rw [abs_le]
    simp only [Nat.zero_mul, Nat.zero_div, Nat.cast_zero]
    constructor <;> linarith

end Reading

section Steps
variable {cfg : RxConfig} {r : RtpReceiver} {Sent : Bytes → Prop}

theorem steer_first (cfg : RxConfig) (nDrift : Int) (r : RtpReceiver) : (steer cfg nDrift r).1.bHaveFirst = r.bHaveFirst ∧
    (steer cfg nDrift r).1.nFirstSeq = r.nFirstSeq ∧ (steer cfg nDrift r).1.nFirstTs = r.nFirstTs := by
  unfold steer
  split_ifs <;> exact ⟨rfl, rfl, rfl⟩

/-- The playout thread leaves the first packet as it is, or asks for another. -/
theorem playoutStep_first (nDelay nDrift : Int) (h : r.bHaveFirst → Heads Sent r.nFirstSeq r.nFirstTs) :
    (playoutStep cfg nDelay nDrift r).1.bHaveFirst →
      Heads Sent (playoutStep cfg nDelay nDrift r).1.nFirstSeq (playoutStep cfg nDelay nDrift r).1.nFirstTs := by
  have steered (r' : RtpReceiver)
      (hsame : r'.bHaveFirst = r.bHaveFirst ∧ r'.nFirstSeq = r.nFirstSeq ∧ r'.nFirstTs = r.nFirstTs) :
      (steer cfg nDrift r').1.bHaveFirst →
        Heads Sent (steer cfg nDrift r').1.nFirstSeq (steer cfg nDrift r').1.nFirstTs := by
    obtain ⟨hfirst, hseq, hts⟩ := steer_first cfg nDrift r'
    rw [hfirst, hseq, hts, hsame.1, hsame.2.1, hsame.2.2]
    exact h
  unfold playoutStep
  split
  · split <;> exact h
  · exact h
  · split
    · exact steered _ ⟨rfl, rfl, rfl⟩
    · split
      · split
        · exact h
        · exact steered _ ⟨rfl, rfl, rfl⟩
      · exact fun hfalse => absurd hfalse Bool.false_ne_true
  · split <;> exact steered _ ⟨rfl, rfl, rfl⟩
  · split
    · exact steered _ ⟨rfl, rfl, rfl⟩
    · exact h

/-- The first packet of a receiver is one that arrived. -/
theorem step_first (cfg : RxConfig) {e : Event} (h : r.bHaveFirst → Heads Sent r.nFirstSeq r.nFirstTs)
    (hsent : ∀ nLeg pData now, e = .packet nLeg pData now → Sent pData) :
    (step cfg r e).1.bHaveFirst → Heads Sent (step cfg r e).1.nFirstSeq (step cfg r e).1.nFirstTs := by
  cases e with
  | packet nLeg pData now =>
    have hpacket : Heads Sent (rtpSeq pData) (rtpTs pData) := ⟨pData, hsent nLeg pData now rfl, rfl, rfl⟩
    simp only [step, handlePacket]
    split_ifs
    · exact h
    · unfold merge
      split
      · exact h
      · by_cases hfirst : r.bHaveFirst
        · simp only [noteArrival, hfirst, if_true]
          exact fun _ => h hfirst
        · simp only [noteArrival, hfirst]
          exact fun _ => hpacket
    · exact h
    · exact h
  | age now => exact h
  | setMonitor nLeft nRight => exact h
  | playout nDelay nDrift => exact playoutStep_first nDelay nDrift h

/-- A thread in front of its start was there before, or has just found its first packet. -/
theorem preroll_after {e : Event} (h : (step cfg r e).1.playout = .preroll) :
    (r.playout = .preroll ∧ ¬ e.isPlayout) ∨
      (r.playout = .awaitFirst ∧ r.bHaveFirst ∧ (step cfg r e).1 = { r with playout := .preroll }) := by
  by_cases he : e.isPlayout
  · cases e with
    | playout nDelay nDrift =>
      refine Or.inr ?_
      simp only [step] at h ⊢
      cases hpc : r.playout with
      | awaitFirst =>
        by_cases hfirst : r.bHaveFirst
        · simp [playoutStep, hpc, hfirst]
        · simp [playoutStep, hpc, hfirst] at h
      | preroll => simp [playoutStep, hpc, anchor] at h
      | loop => exact absurd h (playoutStep_running (Or.inl hpc) nDelay nDrift)
      | napping => exact absurd h (playoutStep_running (Or.inr hpc) nDelay nDrift)
      | parked =>
        by_cases hfirst : r.bHaveFirst
        · simp [playoutStep, hpc, hfirst, steer_playout, anchor] at h
        · simp [playoutStep, hpc, hfirst] at h
    | _ => cases he
  · rw [(step_not_playout cfg r he).1] at h
    exact Or.inl ⟨h, he⟩

end Steps

section Runs
variable {cfg : RxConfig} {O D M : ℚ} {σ : Nat} {Sent : Bytes → Prop} {starts : List Start} {d : Device}

theorem Device.Behaves.sent {nRealtimeNs : Nat} {e : Event} (h : d.Behaves O D σ Sent (.rx nRealtimeNs e)) (nLeg : Leg)
    (pData : Bytes) (now : Time) (he : e = .packet nLeg pData now) : Sent pData := by
  subst he
  exact h

theorem Device.Behaves.slept {nRealtimeNs : Nat} {e : Event} (h : d.Behaves O D σ Sent (.rx nRealtimeNs e))
    (he : e.isPlayout) (hpre : d.rx.playout = .preroll) : d.nWakeNs ≤ nRealtimeNs ∧ nRealtimeNs ≤ d.nWakeNs + σ := by
  cases e with
  | playout nDelay nDrift => exact h hpre
  | _ => cases he

/-- A message to the clock, from a true master. -/
theorem Device.Sound.ptp (h : d.Sound cfg O D M σ Sent starts) (hM : M ≤ D) (hpath : D ≤ Ptp.longestPath)
    {e : Ptp.ClockEvent} (hsteady : Ptp.Steady O D d.clock e) :
    (Device.step cfg d (.ptp e)).1.Sound cfg O D M σ Sent (starts ++ (Device.step cfg d (.ptp e)).2) := by
  simp only [Device.step, List.append_nil]
  exact ⟨h.tracks.steady hM hpath hsteady, h.first, h.asleep, h.starts⟩

theorem Device.Sound.rx (h : d.Sound cfg O D M σ Sent starts) {nRealtimeNs : Nat} {e : Event}
    (hbehaves : d.Behaves O D σ Sent (.rx nRealtimeNs e)) :
    (Device.step cfg d (.rx nRealtimeNs e)).1.Sound cfg O D M σ Sent
      (starts ++ (Device.step cfg d (.rx nRealtimeNs e)).2) := by
  have hfirst := step_first cfg h.first hbehaves.sent
  simp only [Device.step]
  split_ifs with hfound hbegins
  · rw [List.append_nil]
    refine ⟨h.tracks, hfirst, fun _ => ?_, h.starts⟩
    rcases preroll_after hfound.2 with ⟨hpre, -⟩ | ⟨-, hhave, hstep⟩
    · rw [hfound.1] at hpre
      cases hpre
    · rw [hstep]
      exact ⟨hhave, d.clock, h.tracks, rfl, rfl⟩
  · obtain ⟨hhave, hsleeps⟩ := h.asleep hbegins.1
    have hplayout : e.isPlayout := by
      by_contra hno
      rw [(step_not_playout cfg d.rx hno).1, hbegins.1] at hbegins
      cases hbegins.2
    refine ⟨h.tracks, hfirst, fun hpre => ?_, fun x hx => ?_⟩
    · have hpre' : (Rtp.step cfg d.rx e).1.playout = .preroll := hpre
      rw [hbegins.2] at hpre'
      cases hpre'
    · rcases List.mem_append.mp hx with hx | hx
      · exact h.starts x hx
      · rw [List.mem_singleton.mp hx]
        exact ⟨h.first hhave, d.nWakeNs, hsleeps, hbehaves.slept hplayout hbegins.1⟩
  · rw [List.append_nil]
    refine ⟨h.tracks, hfirst, fun hpre => ?_, h.starts⟩
    rcases preroll_after hpre with ⟨hbefore, hquiet⟩ | ⟨hawait, -, -⟩
    · obtain ⟨hhave, hsleeps⟩ := h.asleep hbefore
      obtain ⟨hhave', hts⟩ := (step_not_playout cfg d.rx hquiet).2.2 hhave
      refine ⟨hhave', ?_⟩
      rw [hts]
      exact hsleeps
    · exact absurd ⟨hawait, hpre⟩ hfound

theorem sound_runDevice {c : Ptp.PtpClock} (hclock : Ptp.Tracks O D M c) (hM : M ≤ D) (hpath : D ≤ Ptp.longestPath)
    (r : RtpReceiver) {es : List DeviceEvent} (hes : BehavedRun cfg O D σ Sent c r es) :
    (runDevice cfg c r es).1.Sound cfg O D M σ Sent (runDevice cfg c r es).2 := by
  refine runReport_history ?_ ?_ es hes
  · exact ⟨hclock, fun hfirst => absurd hfirst Bool.false_ne_true, fun hpre => (by cases hpre), by simp⟩
  · intro pre e hbehaves hsound
    cases e with
    | ptp e => exact hsound.ptp hM hpath hbehaves
    | rx nRealtimeNs e => exact hsound.rx hbehaves

/-- A start is as late as its sleep was wrong, and the scheduler slow. -/
theorem Start.Sound.on_time {x : Start} (h : x.Sound cfg O D M σ Sent) (hdelay : cfg.nPlayoutDelayMs ≤ 500)
    (hM : M ≤ Ptp.longestPath) {nMediaNs : Nat} (hts : x.nTs = BitVec.ofNat 32 (ptpSamples nMediaNs))
    (hfound : FoundInTime cfg O M nMediaNs x) :
    |x.nStartNs + O - (nMediaNs + cfg.delayNs)| ≤ startError M + σ := by
  obtain ⟨nWakeNs, ⟨c, hclock, hsynced, hwake⟩, hleast, hmost⟩ := h.slept
  have hsync : c.bSynced := hsynced.trans hfound.synced
  have hread := ptpTimeNs_near hclock hsync hfound.begun hfound.ends
  have hsmall : M + 1 ≤ 1000000000 := by
    unfold Ptp.longestPath Ptp.offsetJump at hM
    linarith
  have hsleep := sleep_until_due hdelay hsmall hread hfound.early hfound.due
  rw [readClock, if_pos hsync, hts] at hwake
  have hwake' : (nWakeNs : ℚ) = x.nFoundNs + startSleepNs cfg (BitVec.ofNat 32 (ptpSamples nMediaNs))
      (.synced (Ptp.ptpTimeNs c (BitVec.ofNat 64 x.nFoundNs)).toNat) := by exact_mod_cast hwake
  have hleast' : (nWakeNs : ℚ) ≤ x.nStartNs := by exact_mod_cast hleast
  have hmost' : (x.nStartNs : ℚ) ≤ nWakeNs + σ := by exact_mod_cast hmost
  obtain ⟨hlow, hhigh⟩ := abs_le.mp hsleep
  have hslow : (0 : ℚ) ≤ σ := Nat.cast_nonneg σ
  unfold startError
  rw [abs_le]
  constructor <;> linarith

end Runs

end PiAudioNode.Rtp
