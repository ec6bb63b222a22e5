import PiAudioNode.Rtp.Relock

/-! A line whose ALSA device runs fast: what a drift of the crystal costs. -/
namespace PiAudioNode.Rtp
open Lib

/-- The engine and the frames queued in ALSA, of which a fast device may have
played a part. -/
structure DriftLine where
  rx : RtpReceiver
  dQueued : ℚ

/-- What `DelayFrames` reads: whole frames. -/
def DriftLine.line (d : DriftLine) : Line := ⟨d.rx, ⌊d.dQueued⌋₊⟩

/-- The packet of a period has arrived, and the device has taken `1 + e` packets'
worth of frames. -/
def drained (cfg : RxConfig) (e : ℚ) (a : Arrival) (d : DriftLine) : DriftLine :=
  ⟨(deliver cfg a d.line).1.rx, max 0 (d.dQueued - (1 + e) * cfg.nFramesPerPacket)⟩

/-- The playout thread runs until it waits. -/
def driftPeriod (cfg : RxConfig) (e : ℚ) (a : Arrival) (d : DriftLine) : DriftLine × List Outcome :=
  let y := andThen (turn cfg (drained cfg e a d).line) (runToWait cfg periodTurns)
  (⟨y.1.rx, (drained cfg e a d).dQueued + written y.2⟩, (deliver cfg a d.line).2 ++ y.2)

def driftAt (cfg : RxConfig) (e : ℚ) (d : DriftLine) (stream : Nat → Arrival) : Nat → DriftLine × List Outcome
  | 0 => (d, [])
  | n + 1 => andThen (driftAt cfg e d stream n) (driftPeriod cfg e (stream n))

def concealedBy (cfg : RxConfig) (e : ℚ) (d : DriftLine) (stream : Nat → Arrival) (n : Nat) : Nat :=
  (driftAt cfg e d stream n).2.countP Outcome.isConcealed

/-- The packet received last was just played, and the queue is at its target. -/
structure PlayoutLocked (cfg : RxConfig) (b : BitVec 16) (d : DriftLine) : Prop extends Track cfg b 1 d.line where
  playout : d.rx.playout = .loop ∨ d.rx.playout = .napping
  target : d.dQueued = cfg.nTargetDelayFrames
  deep : 3 * (cfg.nFramesPerPacket : Int) < cfg.nTargetDelayFrames

section Queue
variable {cfg : RxConfig} {b : BitVec 16} {y : Int} {l : Line}

theorem written_steered (x : RtpReceiver × List Outcome) (nDrift : Int) :
    written (andThen x (steer cfg nDrift)).2 = written x.2 := by
  rw [andThen_snd, written_append, written_steer, Nat.add_zero]

/-- What an iteration writes does not hang on the level that drift steering reads. -/
theorem written_playoutStep (cfg : RxConfig) (nDelay nDrift nDrift' : Int) (r : RtpReceiver) :
    written (playoutStep cfg nDelay nDrift r).2 = written (playoutStep cfg nDelay nDrift' r).2 := by
  unfold playoutStep
  split
  · rfl
  · rfl
  · split_ifs <;> first | rfl | rw [written_steered, written_steered]
  · split_ifs
    · simp only [andThen_snd, written_append, written_steer]
    · rw [written_steered, written_steered]
  · split_ifs
    · rw [written_steered, written_steered]
    · rfl

/-- The queue grows by what an iteration writes. -/
theorem turn_queued (cfg : RxConfig) (l : Line) : (turn cfg l).1.nQueued = l.nQueued + written (turn cfg l).2 := by
  simp only [turn]
  congr 1
  exact written_playoutStep ..

theorem runToWait_queued (cfg : RxConfig) (n : Nat) (l : Line) :
    (runToWait cfg n l).1.nQueued = l.nQueued + written (runToWait cfg n l).2 := by
  induction n generalizing l with
  | zero => simp [runToWait, written]
  | succ n ih =>
    rw [runToWait]
    split_ifs
    · simp [written]
    · rw [andThen_fst, andThen_snd, ih, turn_queued, written_append]
      omega

/-- Ahead of the stream the loop conceals until the queue lasts for a sleep. -/
theorem Track.drips (k : Nat) {n : Nat} (hn : k < n) (h : Track cfg b y l) (hloop : l.rx.playout = .loop) (hy : 1 ≤ y)
    (hy' : y + k < 60000) (hlow : ∀ j < k, l.nQueued + j * cfg.nFramesPerPacket ≤ 2 * cfg.nFramesPerPacket)
    (hfed : 2 * cfg.nFramesPerPacket < l.nQueued + k * cfg.nFramesPerPacket) :
    Track cfg b (y + k) (runToWait cfg n l).1 ∧ (runToWait cfg n l).1.rx.playout = .napping ∧
      (runToWait cfg n l).1.nQueued = l.nQueued + k * cfg.nFramesPerPacket ∧
      (runToWait cfg n l).2.countP Outcome.isConcealed = k := by
  induction k generalizing n l y with
  | zero =>
    rw [runToWait_nap hn hloop (h.free hy (by omega)) h.receiving (by omega)]
    refine ⟨?_, rfl, ?_, rfl⟩
    · rw [Nat.cast_zero, add_zero]
      exact h.requeue _ _
    · simp [napLine]
  | succ k ih =>
    obtain ⟨n, rfl⟩ := Nat.exists_eq_succ_of_ne_zero (by omega : n ≠ 0)
    have hlevel : (concealLine cfg l).1.nQueued = l.nQueued + cfg.nFramesPerPacket := rfl
    have hmul (j : Nat) : (j + 1) * cfg.nFramesPerPacket = j * cfg.nFramesPerPacket + cfg.nFramesPerPacket := by ring
    have hlow' : ∀ j < k, (concealLine cfg l).1.nQueued + j * cfg.nFramesPerPacket ≤ 2 * cfg.nFramesPerPacket := by
      intro j hj
      have := hlow (j + 1) (by omega)
      rw [hmul j] at this
      omega
    have hfed' : 2 * cfg.nFramesPerPacket < (concealLine cfg l).1.nQueued + k * cfg.nFramesPerPacket := by
      rw [hmul k] at hfed
      omega
    have hrest := ih (l := (concealLine cfg l).1) (by omega : k < n) h.concealed hloop (by omega)
      (by push_cast at hy' ⊢; omega) hlow' hfed'
    rw [runToWait_loop hloop, h.turn_conceal hloop hy (by omega) (by have := hlow 0 (by omega); omega), andThen_fst,
      andThen_snd, List.countP_append]
    obtain ⟨htrack, hnap, hq, hcount⟩ := hrest
    refine ⟨?_, hnap, ?_, ?_⟩
    · have heq : y + (k + 1 : Nat) = y + 1 + k := by push_cast; ring
      rw [heq]
      exact htrack
    · rw [hq, hlevel, hmul k]
      omega
    · rw [hcount]
      simp [Outcome.isConcealed]
      omega

/-- The packet just received is played next, from the loop or from its short sleep. -/
theorem Track.turn_play (h : Track cfg b 0 l) (hheld : Holds l.rx l.rx.nNextSeq)
    (hpl : l.rx.playout = .loop ∨ l.rx.playout = .napping)
    (hlow : (l.nQueued : Int) ≤ cfg.nTargetDelayFrames) (n : Nat) :
    ∃ m outs, n ≤ m ∧ andThen (turn cfg l) (runToWait cfg (n + 1)) =
      ((runToWait cfg m (playLine (wakeLine l)).1).1, outs ++ (runToWait cfg m (playLine (wakeLine l)).1).2) ∧
      Quiet outs := by
  have hplay : turn cfg (wakeLine l) = ((playLine (wakeLine l)).1, (playLine (wakeLine l)).2) := by
    have hq : (playLine (wakeLine l)).1.nQueued = l.nQueued + cfg.nFramesPerPacket :=
      playLine_queued (h.requeue .loop l.nQueued) hheld
    rw [turn_held (l := wakeLine l) rfl hheld, andThen, steerLine_low (by omega), List.append_nil]
  rcases hpl with hloop | hnap
  · have hwake : wakeLine l = l := by
      rw [wakeLine, ← hloop]
    rw [hwake] at hplay ⊢
    exact ⟨n + 1, _, by omega, by rw [hplay]; rfl, quiet_playLine l⟩
  · have hturn : turn cfg l = (wakeLine l, []) := by
      have hq : (wakeLine l).nQueued = l.nQueued := rfl
      rw [turn_wake hnap fun hn => h.not_newer le_rfl (by omega) hn.1, steerLine_low (by omega)]
    refine ⟨n, (playLine (wakeLine l)).2, le_rfl, ?_, quiet_playLine _⟩
    rw [hturn, andThen, runToWait_loop rfl, hplay]
    rfl

end Queue

section Period
variable {cfg : RxConfig} {e : ℚ} {b : BitVec 16} {d : DriftLine}

/-- Playout stands at the head of the stream with its queue between dry and full. -/
structure Aligned (cfg : RxConfig) (b : BitVec 16) (d : DriftLine) : Prop extends Track cfg b 1 d.line where
  playout : d.rx.playout = .loop ∨ d.rx.playout = .napping
  fed : 2 * (cfg.nFramesPerPacket : ℚ) + 1 ≤ d.dQueued
  low : d.dQueued ≤ cfg.nTargetDelayFrames

/-- Playout has run ahead of the stream, with less than a packet above dry. -/
structure Ahead (cfg : RxConfig) (b : BitVec 16) (z : Int) (d : DriftLine) : Prop extends Track cfg b z d.line where
  napping : d.rx.playout = .napping
  lead : 2 ≤ z
  fed : 2 * (cfg.nFramesPerPacket : ℚ) + 1 ≤ d.dQueued
  dry : d.dQueued < 3 * cfg.nFramesPerPacket + 1

/-- A queue that lasts for the period. -/
theorem drained_dQueued {a : Arrival} (he : e < 1 / 10) (hfed : 2 * (cfg.nFramesPerPacket : ℚ) + 1 ≤ d.dQueued) :
    (drained cfg e a d).dQueued = d.dQueued - (1 + e) * cfg.nFramesPerPacket ∧
      1 ≤ d.dQueued - (1 + e) * cfg.nFramesPerPacket := by
  have hF : (0 : ℚ) ≤ cfg.nFramesPerPacket := Nat.cast_nonneg _
  have hle : 1 ≤ d.dQueued - (1 + e) * cfg.nFramesPerPacket := by nlinarith
  exact ⟨max_eq_right (by linarith), hle⟩

/-- The period ends as the playout thread leaves the queue. -/
theorem driftPeriod_settles {a : Arrival} {y : Line × List Outcome}
    (h : andThen (turn cfg (drained cfg e a d).line) (runToWait cfg periodTurns) = y) :
    (driftPeriod cfg e a d).1.rx = y.1.rx ∧
      (driftPeriod cfg e a d).1.dQueued =
        (drained cfg e a d).dQueued + (y.1.nQueued - (drained cfg e a d).line.nQueued : ℚ) ∧
      (driftPeriod cfg e a d).2 = (deliver cfg a d.line).2 ++ y.2 := by
  have hq : y.1.nQueued = (drained cfg e a d).line.nQueued + written y.2 := by
    rw [← h, andThen_fst, andThen_snd, runToWait_queued, turn_queued, written_append]
    omega
  refine ⟨by rw [driftPeriod, h], ?_, by rw [driftPeriod, h]⟩
  rw [driftPeriod, h, hq]
  push_cast
  ring

theorem Track.of_rx {y : Int} {l l' : Line} (h : Track cfg b y l) (hrx : l'.rx = l.rx) : Track cfg b y l' := by
  obtain ⟨rx, nQueued⟩ := l'
  obtain rfl : rx = l.rx := hrx
  exact ⟨h.receiving, h.window, h.sized, h.next⟩

/-- Whole frames and the part of one. -/
theorem line_queued {d : DriftLine} (h : 0 ≤ d.dQueued) :
    (d.line.nQueued : ℚ) ≤ d.dQueued ∧ d.dQueued < d.line.nQueued + 1 :=
  ⟨Nat.floor_le h, Nat.lt_floor_add_one _⟩

/-- One packet of silence fills a queue that is not empty, or two do. -/
theorem exists_drips {nQueued nFrames : Nat} (hsome : 1 ≤ nQueued) (hdry : nQueued ≤ 2 * nFrames) :
    ∃ k, 1 ≤ k ∧ k ≤ 2 ∧ (∀ j < k, nQueued + j * nFrames ≤ 2 * nFrames) ∧ 2 * nFrames < nQueued + k * nFrames := by
  rcases lt_or_ge (2 * nFrames) (nQueued + nFrames) with hone | hone
  · refine ⟨1, le_rfl, by omega, fun j hj => ?_, by omega⟩
    obtain rfl : j = 0 := by omega
    omega
  · refine ⟨2, by omega, le_rfl, fun j hj => ?_, by omega⟩
    interval_cases j <;> omega

/-- Once ahead, playout conceals in every period: the packets that arrive are
those it has already given up. -/
theorem Ahead.period {z : Int} (h : Ahead cfg b z d) (he₀ : 0 ≤ e) (he : e < 1 / 10) (hz : z < 50000) {a : Arrival}
    (ha : Carries cfg cfg.nFramesPerPacket (shift b 1) a) :
    ∃ z' ≤ z + 1, Ahead cfg (shift b 1) z' (driftPeriod cfg e a d).1 ∧
      1 ≤ (driftPeriod cfg e a d).2.countP Outcome.isConcealed := by
  have hlead := h.lead
  have hd := h.toTrack.delivered ha
  obtain ⟨hq, hleft⟩ := drained_dQueued (a := a) he h.fed
  have htrack : Track cfg (shift b 1) (z - 1) (wakeLine (drained cfg e a d).line) :=
    (hd.track.requeue .loop _).of_rx rfl
  have hturn : turn cfg (drained cfg e a d).line = (wakeLine (drained cfg e a d).line, []) := by
    have hnap : (drained cfg e a d).line.rx.playout = .napping := hd.playout.trans h.napping
    rw [turn_wake hnap fun hn => htrack.not_newer (by omega) (by omega) hn.1,
      steerLine_free (htrack.free (by omega) (by omega))]
  have hF : (0 : ℚ) ≤ e * cfg.nFramesPerPacket := mul_nonneg he₀ (Nat.cast_nonneg _)
  have hle : e * cfg.nFramesPerPacket ≤ 1 / 10 * cfg.nFramesPerPacket :=
    mul_le_mul_of_nonneg_right he.le (Nat.cast_nonneg _)
  obtain ⟨hfloor, hceil⟩ := line_queued (d := drained cfg e a d) (by rw [hq]; linarith)
  rw [hq] at hfloor hceil
  have hfed := h.fed
  have hdry := h.dry
  -- one packet of silence, or two where the device took more than one gives back
  have hdry' : (drained cfg e a d).line.nQueued ≤ 2 * cfg.nFramesPerPacket := by
    have : ((drained cfg e a d).line.nQueued : ℚ) < 2 * cfg.nFramesPerPacket + 1 := by linarith
    exact_mod_cast Nat.lt_succ_iff.mp (by exact_mod_cast this)
  have hsome : 1 ≤ (drained cfg e a d).line.nQueued := by
    have : (0 : ℚ) < (drained cfg e a d).line.nQueued := by linarith
    exact_mod_cast this
  obtain ⟨k, hk₁, hk₂, hlow, hhigh⟩ := exists_drips hsome hdry'
  have hturns : k < periodTurns := hk₂.trans_lt (by decide)
  obtain ⟨htrack', hnap', hqueued', hcount⟩ := htrack.drips k hturns rfl (by omega) (by omega) hlow hhigh
  have hrun : andThen (turn cfg (drained cfg e a d).line) (runToWait cfg periodTurns) =
      runToWait cfg periodTurns (wakeLine (drained cfg e a d).line) := by
    rw [hturn, andThen_nil]
  obtain ⟨hrx, hlevel, houts⟩ := driftPeriod_settles hrun
  have hqueued : (driftPeriod cfg e a d).1.dQueued =
      d.dQueued - (1 + e) * cfg.nFramesPerPacket + k * cfg.nFramesPerPacket := by
    rw [hlevel, hqueued', hq]
    push_cast
    simp only [wakeLine]
    ring
  have hlow' : (drained cfg e a d).line.nQueued + (k - 1 : ℚ) * cfg.nFramesPerPacket ≤ 2 * cfg.nFramesPerPacket := by
    have := hlow (k - 1) (by omega)
    have hcast : ((k - 1 : Nat) : ℚ) = k - 1 := by push_cast [hk₁]; rfl
    rw [← hcast]
    exact_mod_cast this
  have hhigh' : 2 * (cfg.nFramesPerPacket : ℚ) + 1 ≤ (drained cfg e a d).line.nQueued + k * cfg.nFramesPerPacket := by
    exact_mod_cast hhigh
  refine ⟨z - 1 + k, by omega, ⟨htrack'.of_rx hrx, ?_, by omega, ?_, ?_⟩, ?_⟩
  · rw [hrx]
    exact hnap'
  · rw [hqueued]
    linarith
  · rw [hqueued]
    linarith
  · rw [houts, List.countP_append, hcount]
    omega

/-- At the head of the stream the packet of the period is the first thing played. -/
theorem Aligned.plays (h : Aligned cfg b d) (he₀ : 0 ≤ e) (he : e < 1 / 10) {a : Arrival}
    (ha : Carries cfg cfg.nFramesPerPacket (shift b 1) a) :
    ∃ m outs, 2047 ≤ m ∧ Quiet outs ∧
      andThen (turn cfg (drained cfg e a d).line) (runToWait cfg periodTurns) =
        ((runToWait cfg m (playLine (wakeLine (drained cfg e a d).line)).1).1,
          outs ++ (runToWait cfg m (playLine (wakeLine (drained cfg e a d).line)).1).2) ∧
      Track cfg (shift b 1) 1 (playLine (wakeLine (drained cfg e a d).line)).1 ∧
      (playLine (wakeLine (drained cfg e a d).line)).1.nQueued =
        (drained cfg e a d).line.nQueued + cfg.nFramesPerPacket := by
  have hd := h.toTrack.delivered ha
  obtain ⟨hq, hleft⟩ := drained_dQueued (a := a) he h.fed
  have htrack : Track cfg (shift b 1) 0 (drained cfg e a d).line := by
    have := hd.track
    rw [sub_self] at this
    exact this.of_rx rfl
  have hheld : Holds (drained cfg e a d).line.rx (drained cfg e a d).line.rx.nNextSeq := by
    rw [htrack.next, shift_zero]
    exact (hd.held _).mpr (Or.inl rfl)
  have hplayout : (drained cfg e a d).line.rx.playout = .loop ∨ (drained cfg e a d).line.rx.playout = .napping := by
    have : (drained cfg e a d).line.rx.playout = d.rx.playout := hd.playout
    rw [this]
    exact h.playout
  have htarget : ((drained cfg e a d).line.nQueued : Int) ≤ cfg.nTargetDelayFrames := by
    have hF : (0 : ℚ) ≤ (1 + e) * cfg.nFramesPerPacket := mul_nonneg (by linarith) (Nat.cast_nonneg _)
    have hfloor := (line_queued (d := drained cfg e a d) (by rw [hq]; linarith)).1
    have hlow := h.low
    rw [hq] at hfloor
    have : ((drained cfg e a d).line.nQueued : ℚ) ≤ (cfg.nTargetDelayFrames : ℚ) := by linarith
    exact_mod_cast this
  obtain ⟨m, outs, hm, hrun, hquiet⟩ := htrack.turn_play hheld hplayout htarget 2047
  exact ⟨m, outs, hm, hquiet, hrun, (htrack.requeue .loop (drained cfg e a d).line.nQueued).played,
    playLine_queued (htrack.requeue .loop (drained cfg e a d).line.nQueued) hheld⟩

/-- At the head of the stream the packet of the period is played and the queue
shrinks by the drift, until it runs dry and playout gets ahead. -/
theorem Aligned.period (h : Aligned cfg b d) (he₀ : 0 ≤ e) (he : e < 1 / 10) {a : Arrival}
    (ha : Carries cfg cfg.nFramesPerPacket (shift b 1) a) :
    (Aligned cfg (shift b 1) (driftPeriod cfg e a d).1 ∧
      (driftPeriod cfg e a d).1.dQueued = d.dQueued - e * cfg.nFramesPerPacket ∧
      (driftPeriod cfg e a d).2.countP Outcome.isConcealed = 0) ∨
    (d.dQueued - e * cfg.nFramesPerPacket < 2 * cfg.nFramesPerPacket + 1 ∧
      Ahead cfg (shift b 1) 2 (driftPeriod cfg e a d).1) := by
  have hd := h.toTrack.delivered ha
  obtain ⟨hq, hleft⟩ := drained_dQueued (a := a) he h.fed
  have hF : (0 : ℚ) ≤ e * cfg.nFramesPerPacket := mul_nonneg he₀ (Nat.cast_nonneg _)
  have hle : e * cfg.nFramesPerPacket ≤ 1 / 10 * cfg.nFramesPerPacket :=
    mul_le_mul_of_nonneg_right he.le (Nat.cast_nonneg _)
  have hpos : (0 : ℚ) ≤ cfg.nFramesPerPacket := Nat.cast_nonneg _
  obtain ⟨hfloor, hceil⟩ := line_queued (d := drained cfg e a d) (by rw [hq]; linarith)
  rw [hq] at hfloor hceil
  have hfed := h.fed
  have hlow := h.low
  obtain ⟨m, outs, hm, hquiet, hrun, hplayed, hlevel⟩ := h.plays he₀ he ha
  obtain ⟨hrx, hqueued, houts⟩ := driftPeriod_settles (a := a) hrun
  have houts_quiet : ∀ k, (runToWait cfg m (playLine (wakeLine (drained cfg e a d).line)).1).2.countP
      Outcome.isConcealed = k → (driftPeriod cfg e a d).2.countP Outcome.isConcealed = k := by
    intro k hk
    rw [houts, List.countP_append, List.countP_append, List.countP_eq_zero.mpr hd.report.1,
      List.countP_eq_zero.mpr hquiet, hk]
    omega
  by_cases hwet : 2 * cfg.nFramesPerPacket < (drained cfg e a d).line.nQueued + cfg.nFramesPerPacket
  · left
    obtain ⟨htrack', hnap', hqueued', hcount⟩ := hplayed.drips 0 (n := m) (by omega) rfl le_rfl (by omega)
      (fun j hj => absurd hj (Nat.not_lt_zero j)) (by omega)
    have hresult : (driftPeriod cfg e a d).1.dQueued = d.dQueued - e * cfg.nFramesPerPacket := by
      rw [hqueued, hqueued', hlevel, hq]
      push_cast
      ring
    have hwet' : 2 * (cfg.nFramesPerPacket : ℚ) + 1 ≤ (drained cfg e a d).line.nQueued + cfg.nFramesPerPacket := by
      exact_mod_cast hwet
    refine ⟨⟨htrack'.of_rx hrx, ?_, ?_, ?_⟩, hresult, houts_quiet 0 hcount⟩
    · rw [hrx]
      exact Or.inr hnap'
    · rw [hresult]
      linarith
    · rw [hresult]
      linarith
  · right
    have hdry : ((drained cfg e a d).line.nQueued : ℚ) ≤ cfg.nFramesPerPacket := by
      exact_mod_cast (by omega : (drained cfg e a d).line.nQueued ≤ cfg.nFramesPerPacket)
    have hsome : 1 ≤ (drained cfg e a d).line.nQueued := by
      have : (0 : ℚ) < (drained cfg e a d).line.nQueued := by linarith
      exact_mod_cast this
    obtain ⟨htrack', hnap', hqueued', hcount⟩ := hplayed.drips 1 (n := m) (by omega) rfl le_rfl (by omega)
      (fun j hj => by obtain rfl : j = 0 := by omega
                      omega) (by omega)
    have hresult : (driftPeriod cfg e a d).1.dQueued = d.dQueued - e * cfg.nFramesPerPacket + cfg.nFramesPerPacket := by
      rw [hqueued, hqueued', hlevel, hq]
      push_cast
      ring
    refine ⟨by linarith, htrack'.of_rx hrx, ?_, le_rfl, ?_, ?_⟩
    · rw [hrx]
      exact hnap'
    · rw [hresult]
      linarith
    · rw [hresult]
      linarith

end Period

section Runs
variable {cfg : RxConfig} {e : ℚ} {b : BitVec 16} {d : DriftLine} {stream : Nat → Arrival}

theorem driftAt_succ (cfg : RxConfig) (e : ℚ) (d : DriftLine) (stream : Nat → Arrival) (n : Nat) :
    (driftAt cfg e d stream (n + 1)).1 = (driftPeriod cfg e (stream n) (driftAt cfg e d stream n).1).1 := by
  rw [driftAt, andThen_fst]

theorem concealedBy_succ (cfg : RxConfig) (e : ℚ) (d : DriftLine) (stream : Nat → Arrival) (n : Nat) :
    concealedBy cfg e d stream (n + 1) = concealedBy cfg e d stream n +
      (driftPeriod cfg e (stream n) (driftAt cfg e d stream n).1).2.countP Outcome.isConcealed := by
  rw [concealedBy, driftAt, andThen_snd, List.countP_append]
  rfl

theorem PlayoutLocked.aligned (h : PlayoutLocked cfg b d) : Aligned cfg b d := by
  have hdeep : 3 * cfg.nFramesPerPacket + 1 ≤ (cfg.nTargetDelayFrames : ℚ) := by exact_mod_cast h.deep
  have hpos : (0 : ℚ) ≤ cfg.nFramesPerPacket := Nat.cast_nonneg _
  have htarget := h.target
  exact ⟨h.toTrack, h.playout, by linarith, htarget.le⟩

/-- The queue falls by the drift while playout keeps to the stream. -/
theorem PlayoutLocked.falls (h : PlayoutLocked cfg b d) (hs : InOrder cfg b stream) (he₀ : 0 ≤ e) (he : e < 1 / 10)
    (n : Nat) (hwet : ∀ k < n, 2 * (cfg.nFramesPerPacket : ℚ) + 1 ≤
      cfg.nTargetDelayFrames - (k + 1) * (e * cfg.nFramesPerPacket)) :
    Aligned cfg (shift b n) (driftAt cfg e d stream n).1 ∧
      (driftAt cfg e d stream n).1.dQueued = cfg.nTargetDelayFrames - n * (e * cfg.nFramesPerPacket) ∧
      concealedBy cfg e d stream n = 0 := by
  induction n with
  | zero =>
    rw [Nat.cast_zero, shift_zero]
    exact ⟨h.aligned, by simpa [driftAt] using h.target, rfl⟩
  | succ n ih =>
    obtain ⟨haligned, hq, hcount⟩ := ih fun k hk => hwet k (by omega)
    rw [driftAt_succ, concealedBy_succ, hcount, ← shift_succ]
    rcases haligned.period he₀ he (hs.carries n) with ⟨hnext, hqueued, hnone⟩ | ⟨hdry, -⟩
    · refine ⟨hnext, ?_, by rw [hnone]⟩
      rw [hqueued, hq]
      push_cast
      ring
    · have := hwet n (by omega)
      rw [hq] at hdry
      linarith

/-- Every further period costs a packet. -/
theorem Ahead.conceals {k : Nat} (h : Ahead cfg (shift b k) 2 (driftAt cfg e d stream k).1) (hs : InOrder cfg b stream)
    (he₀ : 0 ≤ e) (he : e < 1 / 10) (m : Nat) (hm : m ≤ 40000) : m ≤ concealedBy cfg e d stream (k + m) ∧
      ∃ z ≤ (m + 2 : Int), Ahead cfg (shift b (k + m : Nat)) z (driftAt cfg e d stream (k + m)).1 := by
  induction m with
  | zero => exact ⟨Nat.zero_le _, 2, le_rfl, h⟩
  | succ m ih =>
    obtain ⟨hcount, z, hz, hahead⟩ := ih (by omega)
    obtain ⟨z', hz', hnext, hone⟩ := hahead.period he₀ he (by omega) (hs.carries (k + m))
    refine ⟨?_, z', by omega, ?_⟩
    · rw [← Nat.add_assoc, concealedBy_succ]
      omega
    · rw [← Nat.add_assoc, driftAt_succ, ← shift_succ]
      exact hnext

/-- Any drift dries the queue up in the end. -/
theorem exists_dry (hF : 0 < cfg.nFramesPerPacket) (he : 0 < e) : ∃ n : Nat,
    (cfg.nTargetDelayFrames : ℚ) - (n + 1) * (e * cfg.nFramesPerPacket) < 2 * cfg.nFramesPerPacket + 1 := by
  have hpos : (0 : ℚ) < e * cfg.nFramesPerPacket := mul_pos he (Nat.cast_pos.mpr hF)
  obtain ⟨n, hn⟩ := exists_nat_gt ((cfg.nTargetDelayFrames : ℚ) / (e * cfg.nFramesPerPacket))
  rw [div_lt_iff₀ hpos] at hn
  have : (0 : ℚ) ≤ cfg.nFramesPerPacket := Nat.cast_nonneg _
  exact ⟨n, by linarith⟩

theorem PlayoutLocked.exceeds (h : PlayoutLocked cfg b d) (hs : InOrder cfg b stream) (hF : 0 < cfg.nFramesPerPacket)
    (htarget : cfg.nTargetDelayFrames ≤ 24000) (he₀ : 0 < e) (he : e < 1 / 10) :
    ∃ n : Nat, e * n + 2 < concealedBy cfg e d stream n := by
  classical
  have hdry := exists_dry hF he₀
  have hwet (k : Nat) (hk : k < Nat.find hdry) := not_lt.mp (Nat.find_min hdry hk)
  obtain ⟨haligned, hq, -⟩ := h.falls hs he₀.le he (Nat.find hdry) hwet
  have hend := Nat.find_spec hdry
  generalize Nat.find hdry = k at *
  have hFq : (1 : ℚ) ≤ cfg.nFramesPerPacket := by exact_mod_cast hF
  rcases haligned.period he₀.le he (hs.carries k) with ⟨hnext, hqueued, -⟩ | ⟨-, hahead⟩
  · have := hnext.fed
    rw [hqueued, hq] at this
    linarith
  · rw [← driftAt_succ, shift_succ] at hahead
    obtain ⟨hcount, -⟩ := hahead.conceals hs he₀.le he 30000 (by omega)
    refine ⟨k + 1 + 30000, ?_⟩
    have hfed := haligned.fed
    have hcount' : (30000 : ℚ) ≤ concealedBy cfg e d stream (k + 1 + 30000) := by exact_mod_cast hcount
    have htarget' : (cfg.nTargetDelayFrames : ℚ) ≤ 24000 := by exact_mod_cast htarget
    have hke : (k : ℚ) * e ≤ k * (e * cfg.nFramesPerPacket) := by
      rw [← mul_assoc]
      exact le_mul_of_one_le_right (mul_nonneg (Nat.cast_nonneg _) he₀.le) hFq
    rw [hq] at hfed
    push_cast at hcount' ⊢
    linarith

/-- Without drift the stream is played as it comes. -/
theorem PlayoutLocked.steady (h : PlayoutLocked cfg b d) (hs : InOrder cfg b stream) (n : Nat) :
    concealedBy cfg 0 d stream n = 0 := by
  have haligned := h.aligned
  have htarget := h.target
  refine (h.falls hs le_rfl (by norm_num) n fun k _ => ?_).2.2
  have := haligned.fed
  linarith

end Runs

theorem nFramesPerPacket_ofSession_pos (session : SdpSession) (nPlayoutDelayMs : Int) :
    0 < (RxConfig.ofSession session nPlayoutDelayMs).nFramesPerPacket := by
  simp only [RxConfig.ofSession, framesPerPacket]
  split_ifs <;> omega

theorem nTargetDelayFrames_ofSession_le (session : SdpSession) (nPlayoutDelayMs : Int) :
    (RxConfig.ofSession session nPlayoutDelayMs).nTargetDelayFrames ≤ 24000 := by
  simp only [RxConfig.nTargetDelayFrames, RxConfig.ofSession, sampleRate]
  omega

/-- The cost of a drift stays with the drift exactly where there is none. -/
theorem drift_costs_iff (session : SdpSession) (nPlayoutDelayMs : Int) (e : ℚ) (b : BitVec 16) (d : DriftLine)
    (stream : Nat → Arrival) (he₀ : 0 ≤ e) (he : e < 1 / 10)
    (h : PlayoutLocked (.ofSession session nPlayoutDelayMs) b d)
    (hs : InOrder (.ofSession session nPlayoutDelayMs) b stream) :
    (∀ n : Nat, (concealedBy (.ofSession session nPlayoutDelayMs) e d stream n : ℚ) ≤ e * n + 2) ↔ e = 0 := by
  constructor
  · intro hcost
    by_contra hne
    obtain ⟨n, hn⟩ := h.exceeds hs (nFramesPerPacket_ofSession_pos ..) (nTargetDelayFrames_ofSession_le ..)
      (lt_of_le_of_ne he₀ (Ne.symm hne)) he
    exact absurd (hcost n) (not_le.mpr hn)
  · rintro rfl n
    rw [h.steady hs n]
    simp

def tenMs : RxConfig := .ofSession {} 10

/-- Packet 0 was just played, and 10 ms are queued. -/
def tenMsLocked : DriftLine := ⟨{ bReceiving := true, nNextSeq := 1, playout := .napping }, 480⟩

def tenMsStream (n : Nat) : Arrival := ⟨.primary, silentPacket (0 + BitVec.ofNat 16 (n + 1)) 48, 0⟩

theorem nFramesPerPacket_tenMs : tenMs.nFramesPerPacket = 48 := by
  decide +kernel

theorem inOrder_tenMsStream : InOrder tenMs 0 tenMsStream := by
  intro n
  rw [nFramesPerPacket_tenMs]
  exact carries_silentPacket rfl rfl (by decide) .primary _ 0

theorem playoutLocked_tenMs : PlayoutLocked tenMs 0 tenMsLocked := by
  have hempty (n : BitVec 16) : ¬ Holds tenMsLocked.line.rx n := by
    simp [Holds, tenMsLocked, DriftLine.line]
  refine ⟨⟨rfl, fun n hn => absurd hn (hempty n), fun n hn => absurd hn (hempty n), by decide⟩, Or.inr rfl, ?_, ?_⟩
  · have : tenMs.nTargetDelayFrames = 480 := by decide +kernel
    rw [this]
    rfl
  · decide +kernel

theorem drift_costs_tenMs :
    (∀ n : Nat, (concealedBy tenMs 0 tenMsLocked tenMsStream n : ℚ) ≤ 0 * n + 2) ↔ (0 : ℚ) = 0 :=
  drift_costs_iff {} 10 0 0 tenMsLocked tenMsStream le_rfl (by norm_num) playoutLocked_tenMs inOrder_tenMsStream

/-- A device 5 % fast locks playout out of the stream. -/
theorem fastDevice_locks_out : PlayoutLocked tenMs 0 tenMsLocked ∧ InOrder tenMs 0 tenMsStream ∧
    ∃ n : Nat, 1 / 20 * (n : ℚ) + 2 < concealedBy tenMs (1 / 20) tenMsLocked tenMsStream n :=
  ⟨playoutLocked_tenMs, inOrder_tenMsStream,
    playoutLocked_tenMs.exceeds inOrder_tenMsStream (nFramesPerPacket_ofSession_pos ..)
      (nTargetDelayFrames_ofSession_le ..) (by norm_num) (by norm_num)⟩

end PiAudioNode.Rtp
