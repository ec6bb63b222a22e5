import PiAudioNode.Lib.Position
import PiAudioNode.Rtp.Capacity

/-! When playout starts on an anchor: the engine against the PTP media clock, with
the sleep that the first anchor computes and the restart that computes none. -/
namespace PiAudioNode.Rtp
open Lib

/-- The media clock, in samples of PTP time. -/
def ptpSamples (nPtpNs : Nat) : Nat :=
  nPtpNs / 1000000000 * sampleRate + nPtpNs % 1000000000 * sampleRate / 1000000000

/-- How old a timestamp is, as the 32-bit difference has it. -/
def ageAt (nPtpNs : Nat) (nTs : BitVec 32) : Int := (BitVec.ofNat 32 (ptpSamples nPtpNs) - nTs).toInt

/-- The sleep of the first anchor, in whole microseconds. -/
def anchorSleepNs (cfg : RxConfig) (nPtpNs : Nat) (nTs : BitVec 32) : Nat :=
  prerollFrames cfg nTs (.synced nPtpNs) * 1000000 / sampleRate * 1000

/-- The engine on the media clock. The playout thread sleeps until `nWakeNs`. -/
structure Clocked where
  rx : RtpReceiver
  nPtpNs : Nat := 0
  nWakeNs : Nat := 0

/-- An event of the engine at a time of the media clock. -/
structure ClockedEvent where
  nPtpNs : Nat
  event : Event

inductive Mark where
  | adopted (nPtpNs : Nat) (nAge : Int)
  | wrote (nPtpNs : Nat)
  deriving DecidableEq

def Outcome.isWritten (o : Outcome) : Bool := o.isPlayed || o.isConcealed

/-- The playout thread takes the first packet it waited for. -/
def Adopts (before after : Playout) : Prop := (before = .awaitFirst ∨ before = .parked) ∧ after ≠ before

instance (before after : Playout) : Decidable (Adopts before after) := inferInstanceAs (Decidable (_ ∧ _))

def Clocked.step (cfg : RxConfig) (s : Clocked) (e : ClockedEvent) : Clocked × List Mark :=
  let x := Rtp.step cfg s.rx e.event
  let adopted := if Adopts s.rx.playout x.1.playout then [.adopted e.nPtpNs (ageAt e.nPtpNs s.rx.nFirstTs)] else []
  ({ rx := x.1
     nPtpNs := e.nPtpNs
     nWakeNs :=
       if s.rx.playout = .awaitFirst ∧ x.1.playout = .preroll then
         e.nPtpNs + anchorSleepNs cfg e.nPtpNs s.rx.nFirstTs
       else s.nWakeNs },
    adopted ++ (x.2.filter Outcome.isWritten).map fun _ => .wrote e.nPtpNs)

def Event.isPlayout : Event → Bool
  | .playout .. => true
  | _ => false

/-- Time goes forward, and the thread sleeps as long as it said before the start. -/
def Clocked.May (s : Clocked) (e : ClockedEvent) : Prop :=
  s.nPtpNs ≤ e.nPtpNs ∧ (s.rx.playout = .preroll → e.event.isPlayout → s.nWakeNs ≤ e.nPtpNs)

instance (s : Clocked) (e : ClockedEvent) : Decidable (s.May e) := inferInstanceAs (Decidable (_ ∧ (_ → _ → _)))

def runClocked (cfg : RxConfig) (r : RtpReceiver) (es : List ClockedEvent) : Clocked × List Mark :=
  runReport (Clocked.step cfg) ⟨configure cfg r, 0, 0⟩ es

/-- The anchor that playout is on, with the age of its timestamp when it was adopted. -/
def noteMark (last : Option (Nat × Int)) : Mark → Option (Nat × Int)
  | .adopted nPtpNs nAge => some (nPtpNs, nAge)
  | .wrote _ => last

def lastAdopted (marks : List Mark) : Option (Nat × Int) := marks.foldl noteMark none

/-- One playout delay has passed since the timestamp of the anchor, to within one
sample, if that was between zero and the playout delay old. -/
def Due (cfg : RxConfig) (marks : List Mark) (nPtpNs : Nat) : Prop :=
  ∀ t nAge, lastAdopted marks = some (t, nAge) → 0 ≤ nAge → nAge ≤ cfg.nTargetDelayFrames →
    cfg.nTargetDelayFrames - 1 ≤ nAge + (ptpSamples nPtpNs - ptpSamples t)

/-- No write comes before its anchor is due. -/
def HonoursDelay (cfg : RxConfig) (marks : List Mark) : Prop :=
  Admits (fun pre m => ∀ t, m = .wrote t → Due cfg pre t) marks

/-- A first packet after a silence is found when its timestamp is as old as the
playout delay, or out of range. -/
def FoundLate (cfg : RxConfig) (s : Clocked) (e : ClockedEvent) : Prop :=
  s.rx.playout = .parked → s.rx.bHaveFirst → e.event.isPlayout → 0 ≤ ageAt e.nPtpNs s.rx.nFirstTs →
    cfg.nTargetDelayFrames - 1 ≤ ageAt e.nPtpNs s.rx.nFirstTs

instance (cfg : RxConfig) (s : Clocked) (e : ClockedEvent) : Decidable (FoundLate cfg s e) :=
  inferInstanceAs (Decidable (_ → _ → _ → _ → _))

theorem ptpSamples_eq (nPtpNs : Nat) : ptpSamples nPtpNs = nPtpNs * 48000 / 1000000000 := by
  unfold ptpSamples sampleRate
  omega

/-- The sleep is short of the wait by less than a sample. -/
theorem ptpSamples_after_sleep {t t' w : Nat} (h : t + w * 1000000 / sampleRate * 1000 ≤ t') :
    (w : Int) - 1 ≤ ptpSamples t' - ptpSamples t := by
  rw [ptpSamples_eq, ptpSamples_eq]
  unfold sampleRate at h
  omega

theorem ptpSamples_mono {t t' : Nat} (h : t ≤ t') : ptpSamples t ≤ ptpSamples t' := by
  rw [ptpSamples_eq, ptpSamples_eq]
  omega

section Marks
variable {cfg : RxConfig} {marks : List Mark}

theorem Due.mono {t t' : Nat} (h : Due cfg marks t) (ht : t ≤ t') : Due cfg marks t' := by
  intro t₀ nAge hlast hlow hhigh
  have := h t₀ nAge hlast hlow hhigh
  have := ptpSamples_mono ht
  omega

@[simp] theorem lastAdopted_wrote (t : Nat) : lastAdopted (marks ++ [.wrote t]) = lastAdopted marks := by
  simp [lastAdopted, noteMark]

@[simp] theorem lastAdopted_adopted (t : Nat) (nAge : Int) :
    lastAdopted (marks ++ [.adopted t nAge]) = some (t, nAge) := by
  simp [lastAdopted, noteMark]

/-- Writes at a time when their anchor is due. -/
theorem HonoursDelay.wrote {t : Nat} (h : HonoursDelay cfg marks) (hdue : Due cfg marks t) (outs : List Outcome) :
    HonoursDelay cfg (marks ++ outs.map fun _ => .wrote t) ∧ Due cfg (marks ++ outs.map fun _ => .wrote t) t := by
  induction outs using List.reverseRecOn with
  | nil => simpa using And.intro h hdue
  | append_singleton outs o ih =>
    rw [List.map_append, ← List.append_assoc, List.map_singleton]
    refine ⟨ih.1.snoc fun t' ht' => ?_, fun t₀ nAge hlast => ?_⟩
    · obtain rfl := Mark.wrote.inj ht'
      exact ih.2
    · rw [lastAdopted_wrote] at hlast
      exact ih.2 t₀ nAge hlast

theorem HonoursDelay.adopted {t : Nat} {nAge : Int} (h : HonoursDelay cfg marks) :
    HonoursDelay cfg (marks ++ [.adopted t nAge]) := h.snoc fun _ ht => nomatch ht

end Marks

/-- Every anchor of the run so far is honoured, and the one playout is on will be. -/
structure OnAnchor (cfg : RxConfig) (marks : List Mark) (s : Clocked) : Prop where
  honours : HonoursDelay cfg marks
  preroll : s.rx.playout = .preroll → s.rx.bHaveFirst ∧
    ∃ t, lastAdopted marks = some (t, ageAt t s.rx.nFirstTs) ∧ s.nWakeNs = t + anchorSleepNs cfg t s.rx.nFirstTs
  running : s.rx.playout = .loop ∨ s.rx.playout = .napping → Due cfg marks s.nPtpNs

section Step
variable {cfg : RxConfig} {marks : List Mark} {s : Clocked}

theorem merged (r : RtpReceiver) (nLeg : Leg) (nSeq : BitVec 16) (nTs : BitVec 32) (v : List Frame) :
    (merge r nLeg nSeq nTs v).1.playout = r.playout ∧ (∀ o ∈ (merge r nLeg nSeq nTs v).2, ¬ o.isWritten) ∧
      (r.bHaveFirst → (merge r nLeg nSeq nTs v).1.bHaveFirst ∧ (merge r nLeg nSeq nTs v).1.nFirstTs = r.nFirstTs) := by
  by_cases hheld : Holds r nSeq
  · rw [merge, if_pos hheld]
    exact ⟨rfl, by simp [Outcome.isWritten, Outcome.isPlayed, Outcome.isConcealed], fun h => ⟨h, rfl⟩⟩
  · rw [merge, if_neg hheld]
    exact ⟨rfl, by simp [Outcome.isWritten, Outcome.isPlayed, Outcome.isConcealed], fun h => ⟨rfl, if_pos h⟩⟩

/-- Events of the receiving side leave the playout thread where it is. -/
theorem step_not_playout (cfg : RxConfig) (r : RtpReceiver) {e : Event} (he : ¬ e.isPlayout) :
    (step cfg r e).1.playout = r.playout ∧ (∀ o ∈ (step cfg r e).2, ¬ o.isWritten) ∧
      (r.bHaveFirst → (step cfg r e).1.bHaveFirst ∧ (step cfg r e).1.nFirstTs = r.nFirstTs) := by
  cases e with
  | packet nLeg pData now =>
    simp only [step, handlePacket]
    split_ifs with hlen hrtp hframes
    · exact ⟨rfl, by simp, fun h => ⟨h, rfl⟩⟩
    · exact merged (noteArrival r nLeg (rtpSeq pData) now) nLeg _ _ _
    · exact ⟨rfl, by simp, fun h => ⟨h, rfl⟩⟩
    · exact ⟨rfl, by simp, fun h => ⟨h, rfl⟩⟩
  | age now => exact ⟨rfl, by simp [step], fun h => ⟨h, rfl⟩⟩
  | setMonitor nLeft nRight => exact ⟨rfl, by simp [step], fun h => ⟨h, rfl⟩⟩
  | playout nDelay nDrift => exact absurd rfl he

/-- The first anchor is due when its sleep is over. -/
theorem due_after_sleep {t t' : Nat} {nTs : BitVec 32} (hdelay : cfg.nTargetDelayFrames < sampleRate)
    (hlast : lastAdopted marks = some (t, ageAt t nTs)) (h : t + anchorSleepNs cfg t nTs ≤ t') : Due cfg marks t' := by
  intro t₀ nAge hlast' hlow hhigh
  rw [hlast] at hlast'
  obtain ⟨rfl, rfl⟩ := Prod.mk.inj (Option.some.inj hlast')
  have hsleep := ptpSamples_after_sleep h
  have hrange : cfg.nTargetDelayFrames - ageAt t nTs < sampleRate := by omega
  have hwait : prerollFrames cfg nTs (.synced t) =
      if 0 < cfg.nTargetDelayFrames - ageAt t nTs ∧ cfg.nTargetDelayFrames - ageAt t nTs < sampleRate then
        (cfg.nTargetDelayFrames - ageAt t nTs).toNat else 0 := rfl
  by_cases hpos : 0 < cfg.nTargetDelayFrames - ageAt t nTs
  · rw [if_pos ⟨hpos, hrange⟩] at hwait
    omega
  · have hpassed := ptpSamples_mono (show t ≤ t' by omega)
    omega

/-- Writes of one event, when its anchor is due. -/
theorem OnAnchor.wrote {s' : Clocked} {t : Nat} (h : HonoursDelay cfg marks) (hdue : Due cfg marks t)
    (outs : List Outcome) (ht : s'.nPtpNs = t) (hpre : s'.rx.playout ≠ .preroll) :
    OnAnchor cfg (marks ++ outs.map fun _ => .wrote t) s' := by
  obtain ⟨hhonours, hdue'⟩ := h.wrote hdue outs
  exact ⟨hhonours, fun hp => absurd hp hpre, fun _ => ht ▸ hdue'⟩

theorem steer_playout (nDrift : Int) (r : RtpReceiver) : (steer cfg nDrift r).1.playout = r.playout := by
  unfold steer
  split_ifs <;> rfl

theorem not_written_steer (nDrift : Int) (r : RtpReceiver) : ∀ o ∈ (steer cfg nDrift r).2, ¬ o.isWritten := by
  unfold steer
  split_ifs <;> simp [Outcome.isWritten, Outcome.isPlayed, Outcome.isConcealed]

/-- An iteration stays in the loop, goes to sleep in it, or parks. -/
theorem playoutStep_running {r : RtpReceiver} (h : r.playout = .loop ∨ r.playout = .napping) (nDelay nDrift : Int) :
    (playoutStep cfg nDelay nDrift r).1.playout ≠ .preroll := by
  rcases h with h | h <;> simp only [playoutStep, h]
  · split_ifs
    · rw [andThen_fst, steer_playout]
      simp [play, release, h]
    · simp
    · rw [andThen_fst, steer_playout]
      simp [conceal, h]
    · simp
  · split_ifs
    · rw [andThen_fst, andThen_fst, steer_playout]
      simp [conceal, wake]
    · rw [andThen_fst, steer_playout]
      simp [wake]

theorem step_stays {e : ClockedEvent} (h : ¬ Adopts s.rx.playout (Rtp.step cfg s.rx e.event).1.playout) :
    (Clocked.step cfg s e).2 =
      ((Rtp.step cfg s.rx e.event).2.filter Outcome.isWritten).map fun _ => .wrote e.nPtpNs := by
  simp only [Clocked.step, if_neg h, List.nil_append]

theorem step_adopts {e : ClockedEvent} (h : Adopts s.rx.playout (Rtp.step cfg s.rx e.event).1.playout)
    (hsilent : ∀ o ∈ (Rtp.step cfg s.rx e.event).2, ¬ o.isWritten) :
    (Clocked.step cfg s e).2 = [.adopted e.nPtpNs (ageAt e.nPtpNs s.rx.nFirstTs)] := by
  have hnone : (Rtp.step cfg s.rx e.event).2.filter Outcome.isWritten = [] := List.filter_eq_nil_iff.mpr hsilent
  simp only [Clocked.step, if_pos h, hnone, List.map_nil, List.append_nil]

/-- The receiving side changes nothing about the anchors. -/
theorem OnAnchor.received (h : OnAnchor cfg marks s) {e : ClockedEvent} (hmay : s.May e) (he : ¬ e.event.isPlayout) :
    OnAnchor cfg (marks ++ (Clocked.step cfg s e).2) (Clocked.step cfg s e).1 := by
  obtain ⟨hplayout, hsilent, hfirst⟩ := step_not_playout cfg s.rx he
  have hstays : ¬ Adopts s.rx.playout (Rtp.step cfg s.rx e.event).1.playout := fun ha => ha.2 hplayout
  have hnone : (Rtp.step cfg s.rx e.event).2.filter Outcome.isWritten = [] := List.filter_eq_nil_iff.mpr hsilent
  rw [step_stays hstays, hnone, List.map_nil, List.append_nil]
  refine ⟨h.honours, fun hp => ?_, fun hrun => ?_⟩
  · have hpre : s.rx.playout = .preroll := hplayout.symm.trans hp
    obtain ⟨hhave, t, hlast, hwake⟩ := h.preroll hpre
    obtain ⟨hhave', hts⟩ := hfirst hhave
    have hnot : ¬ (s.rx.playout = .awaitFirst ∧ (Rtp.step cfg s.rx e.event).1.playout = .preroll) := by
      rw [hpre]
      exact fun hc => nomatch hc.1
    refine ⟨hhave', t, ?_, ?_⟩
    · rw [hlast]
      exact congrArg (fun ts => some (t, ageAt t ts)) hts.symm
    · simp only [Clocked.step, if_neg hnot, hts]
      exact hwake
  · have hbefore : s.rx.playout = .loop ∨ s.rx.playout = .napping := by
      rw [← hplayout]
      exact hrun
    exact (h.running hbefore).mono hmay.1

/-- A look that finds nothing. -/
theorem OnAnchor.idle (h : OnAnchor cfg marks s) {e : ClockedEvent} (hsame : Rtp.step cfg s.rx e.event = (s.rx, []))
    (hrun : s.rx.playout = .awaitFirst ∨ s.rx.playout = .parked) :
    OnAnchor cfg (marks ++ (Clocked.step cfg s e).2) (Clocked.step cfg s e).1 := by
  rw [step_stays fun ha => ha.2 (by rw [hsame]), hsame, List.filter_nil, List.map_nil, List.append_nil]
  have hrx : (Clocked.step cfg s e).1.rx = s.rx := congrArg Prod.fst hsame
  refine ⟨h.honours, fun hp => ?_, fun hp => ?_⟩ <;> rw [hrx] at hp <;> rcases hrun with hr | hr <;> rw [hr] at hp
  · cases hp
  · cases hp
  · rcases hp with hp | hp <;> cases hp
  · rcases hp with hp | hp <;> cases hp

/-- The first packet is found: the thread sleeps until its anchor is due. -/
theorem OnAnchor.found (h : OnAnchor cfg marks s) {e : ClockedEvent} (hawait : s.rx.playout = .awaitFirst)
    (hfirst : s.rx.bHaveFirst) (hstep : Rtp.step cfg s.rx e.event = ({ s.rx with playout := .preroll }, [])) :
    OnAnchor cfg (marks ++ (Clocked.step cfg s e).2) (Clocked.step cfg s e).1 := by
  have hadopts : Adopts s.rx.playout (Rtp.step cfg s.rx e.event).1.playout := by
    rw [hstep, hawait]
    exact ⟨Or.inl rfl, fun hp => (by cases hp)⟩
  rw [step_adopts hadopts (by rw [hstep]; simp)]
  have hrx : (Clocked.step cfg s e).1.rx = { s.rx with playout := .preroll } := congrArg Prod.fst hstep
  refine ⟨h.honours.adopted, fun _ => ⟨by rw [hrx]; exact hfirst, e.nPtpNs, ?_, ?_⟩, fun hrun => ?_⟩
  · rw [lastAdopted_adopted, hrx]
  · simp only [Clocked.step, hstep, hawait, and_self, if_true]
  · rw [hrx] at hrun
    rcases hrun with hr | hr <;> cases hr

/-- A restart is found: nothing sleeps until its anchor is due, so it has to come late. -/
theorem OnAnchor.restarts (h : OnAnchor cfg marks s) {e : ClockedEvent} (nDrift : Int)
    (hpark : s.rx.playout = .parked)
    (hstep : Rtp.step cfg s.rx e.event = andThen (anchor s.rx) (steer cfg nDrift))
    (hlate : 0 ≤ ageAt e.nPtpNs s.rx.nFirstTs → cfg.nTargetDelayFrames - 1 ≤ ageAt e.nPtpNs s.rx.nFirstTs) :
    OnAnchor cfg (marks ++ (Clocked.step cfg s e).2) (Clocked.step cfg s e).1 := by
  have hloop : (Rtp.step cfg s.rx e.event).1.playout = .loop := by
    rw [hstep, andThen_fst, steer_playout]
    rfl
  have hadopts : Adopts s.rx.playout (Rtp.step cfg s.rx e.event).1.playout := by
    rw [hloop, hpark]
    decide
  have hsilent : ∀ o ∈ (Rtp.step cfg s.rx e.event).2, ¬ o.isWritten := by
    rw [hstep, andThen_snd]
    intro o ho
    rcases List.mem_append.mp ho with ho | ho
    · obtain rfl := List.mem_singleton.mp ho
      simp [Outcome.isWritten, Outcome.isPlayed, Outcome.isConcealed]
    · exact not_written_steer nDrift _ o ho
  rw [step_adopts hadopts hsilent]
  refine ⟨h.honours.adopted, fun hp => ?_, fun _ => ?_⟩
  · have hrunning : (Clocked.step cfg s e).1.rx.playout = .loop := hloop
    rw [hrunning] at hp
    cases hp
  · intro t nAge hlast hlow hhigh
    rw [lastAdopted_adopted] at hlast
    obtain ⟨rfl, rfl⟩ := Prod.mk.inj (Option.some.inj hlast)
    have hfound := hlate hlow
    have hnow : (Clocked.step cfg s e).1.nPtpNs = e.nPtpNs := rfl
    rw [hnow]
    omega

/-- What the playout thread does keeps to the anchors, if the restarts come late. -/
theorem OnAnchor.played (hdelay : cfg.nTargetDelayFrames < sampleRate) (h : OnAnchor cfg marks s) {e : ClockedEvent}
    (hmay : s.May e) (hlate : FoundLate cfg s e) {nDelay nDrift : Int} (he : e.event = .playout nDelay nDrift) :
    OnAnchor cfg (marks ++ (Clocked.step cfg s e).2) (Clocked.step cfg s e).1 := by
  have hx : Rtp.step cfg s.rx e.event = playoutStep cfg nDelay nDrift s.rx := by rw [he]; rfl
  have hplayout : e.event.isPlayout := by rw [he]; rfl
  -- an iteration of the loop, or the end of the first sleep
  have stays (hpc : s.rx.playout ≠ .awaitFirst ∧ s.rx.playout ≠ .parked) (hdue : Due cfg marks e.nPtpNs)
      (hnot : (Rtp.step cfg s.rx e.event).1.playout ≠ .preroll) :
      OnAnchor cfg (marks ++ (Clocked.step cfg s e).2) (Clocked.step cfg s e).1 := by
    rw [step_stays fun ha => ha.1.elim hpc.1 hpc.2]
    exact OnAnchor.wrote h.honours hdue _ rfl hnot
  cases hpc : s.rx.playout with
  | awaitFirst =>
    by_cases hfirst : s.rx.bHaveFirst
    · refine h.found hpc hfirst ?_
      rw [hx]
      simp only [playoutStep, hpc, if_pos hfirst]
    · refine h.idle ?_ (Or.inl hpc)
      rw [hx]
      simp only [playoutStep, hpc, if_neg hfirst]
  | preroll =>
    obtain ⟨-, t, hlast, hwake⟩ := h.preroll hpc
    refine stays (by rw [hpc]; decide) (due_after_sleep hdelay hlast ?_) ?_
    · rw [← hwake]
      exact hmay.2 hpc hplayout
    · rw [hx]
      simp [playoutStep, hpc, anchor]
  | loop =>
    refine stays (by rw [hpc]; decide) ((h.running (Or.inl hpc)).mono hmay.1) ?_
    rw [hx]
    exact playoutStep_running (Or.inl hpc) nDelay nDrift
  | napping =>
    refine stays (by rw [hpc]; decide) ((h.running (Or.inr hpc)).mono hmay.1) ?_
    rw [hx]
    exact playoutStep_running (Or.inr hpc) nDelay nDrift
  | parked =>
    by_cases hfirst : s.rx.bHaveFirst
    · refine h.restarts nDrift hpc ?_ (hlate hpc hfirst hplayout)
      rw [hx]
      simp only [playoutStep, hpc, if_pos hfirst]
    · refine h.idle ?_ (Or.inr hpc)
      rw [hx]
      simp only [playoutStep, hpc, if_neg hfirst]

end Step

section Restart

/-- One frame of silence under a number and the low octets of a timestamp. -/
def framePacket (nSeq nTsHigh nTsLow : Byte) : Bytes :=
  [0x80, 96, 0, nSeq, 0, 0, nTsHigh, nTsLow, 0, 0, 0, 0] ++ List.replicate 6 0

def ms : Nat := 1000000

/-- A packet 1 ms old starts the playout of a 500 ms delay, and the stream stops. -/
def stopped : List ClockedEvent :=
  [⟨ms, .packet .primary (framePacket 0 0 0) ms⟩, ⟨ms, .playout 0 0⟩, ⟨501 * ms, .age (501 * ms)⟩,
    ⟨502 * ms, .playout 0 0⟩, ⟨502 * ms, .playout 0 1⟩, ⟨502 * ms, .playout 1 1⟩]

/-- It starts again at packet 100, with a timestamp 1 ms old. -/
def restarted : List ClockedEvent :=
  stopped ++ [⟨600 * ms, .packet .primary (framePacket 100 0x70 0x50) (600 * ms)⟩, ⟨610 * ms, .playout 0 0⟩,
    ⟨610 * ms, .playout 0 1⟩]

end Restart

end PiAudioNode.Rtp
