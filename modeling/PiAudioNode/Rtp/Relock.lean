import PiAudioNode.Rtp.Period

/-! When playout finds a lossless stream again. The frames queued plus the packets
between playout and the stream are a latency that no iteration changes but drift
steering; whether playout meets the stream depends on it alone. -/
namespace PiAudioNode.Rtp
open Lib

/-- A line placed against a stream whose last number was `b`: playout stands `y`
numbers after it, and no slot holds anything but the last 1024 numbers. -/
structure Track (cfg : RxConfig) (b : BitVec 16) (y : Int) (l : Line) : Prop where
  receiving : l.rx.bReceiving = true
  window : ∀ n, Holds l.rx n → ∃ j : Int, -jitterSlots < j ∧ j ≤ 0 ∧ n = shift b j
  sized : ∀ n, Holds l.rx n → (l.rx.vJitter (slotOf n)).vSamples.length = cfg.nFramesPerPacket
  next : l.rx.nNextSeq = shift b y

variable {cfg : RxConfig} {b : BitVec 16} {y : Int} {l : Line}

/-- Nothing ahead of the stream is held. -/
theorem Track.ahead (h : Track cfg b y l) {k : Int} (hk : 1 ≤ k) (hk' : k ≤ 60000) : ¬ Holds l.rx (shift b k) := by
  intro hheld
  obtain ⟨j, hj, hj', hn⟩ := h.window _ hheld
  rw [shift_inj] at hn
  have : (jitterSlots : Int) = 1024 := rfl
  omega

theorem Track.free (h : Track cfg b y l) (hy : 1 ≤ y) (hy' : y ≤ 60000) : ¬ Holds l.rx l.rx.nNextSeq := by
  rw [h.next]
  exact h.ahead hy hy'

/-- No packet after the next one waits while playout is ahead of the stream. -/
theorem Track.not_newer (h : Track cfg b y l) (hy : 0 ≤ y) (hy' : y ≤ 50000) : ¬ Newer l.rx := by
  rintro ⟨a, ha, hheld⟩
  rw [List.mem_range'_1] at ha
  rw [h.next, add_ofNat_eq_shift, shift_shift] at hheld
  exact h.ahead (by omega) (by omega) hheld

theorem Track.step_next (h : Track cfg b y l) : l.rx.nNextSeq + 1 = shift b (y + 1) := by
  rw [h.next, add_one_eq_shift, shift_shift]

theorem Track.played (h : Track cfg b y l) : Track cfg b (y + 1) (playLine l).1 := by
  refine ⟨h.receiving, fun n hn => ?_, fun n hn => ?_, h.step_next⟩
  · exact h.window n ((holds_release l.rx _ n).mp hn).1
  · rw [← h.sized n ((holds_release l.rx _ n).mp hn).1]
    exact congrArg List.length (release_samples l.rx _ _)

theorem Track.dropped (h : Track cfg b y l) : Track cfg b (y + 1) (dropLine l) := by
  refine ⟨h.receiving, fun n hn => ?_, fun n hn => ?_, h.step_next⟩
  · exact h.window n ((holds_release l.rx _ n).mp hn).1
  · rw [← h.sized n ((holds_release l.rx _ n).mp hn).1]
    exact congrArg List.length (release_samples l.rx _ _)

theorem Track.concealed (h : Track cfg b y l) : Track cfg b (y + 1) (concealLine cfg l).1 :=
  ⟨h.receiving, h.window, h.sized, h.step_next⟩

/-- Concealing at the head of the loop moves on and fills the queue. -/
theorem Track.turn_conceal (h : Track cfg b y l) (hloop : l.rx.playout = .loop) (hy : 1 ≤ y) (hy' : y < 60000)
    (hq : l.nQueued ≤ 2 * cfg.nFramesPerPacket) :
    turn cfg l = ((concealLine cfg l).1, [.concealed l.rx.nNextSeq cfg.vSilence]) := by
  have hfree := h.concealed.free (by omega) (by omega)
  rw [Rtp.turn_conceal hloop (h.free hy (by omega)) h.receiving hq, andThen, steerLine_free hfree]
  rfl

theorem playLine_queued (h : Track cfg b y l) (hheld : Holds l.rx l.rx.nNextSeq) :
    (playLine l).1.nQueued = l.nQueued + cfg.nFramesPerPacket := by
  rw [← h.sized _ hheld]
  rfl

/-- What another number's slot holds stays when the next number leaves its own. -/
theorem holds_after_release {r : RtpReceiver} {n : BitVec 16} (hheld : Holds r r.nNextSeq) (hn : Holds r n)
    (hne : r.nNextSeq ≠ n) : Holds (release r r.nNextSeq) n :=
  (holds_release r _ n).mpr ⟨hn, fun hslot => hne (holds_unique hheld hn hslot)⟩

/-- Nothing concealed. -/
def Quiet (outs : List Outcome) : Prop := ∀ o ∈ outs, ¬ o.isConcealed

/-- At most one concealed, and nothing after something played. -/
def Tame (outs : List Outcome) : Prop :=
  ∃ hd tl, outs = hd ++ tl ∧ hd.countP Outcome.isConcealed ≤ 1 ∧ (∀ o ∈ hd, ¬ o.isPlayed) ∧ Quiet tl

def Silent (outs : List Outcome) : Prop := ∀ o ∈ outs, ¬ o.isPlayed

theorem Quiet.append {outs more : List Outcome} (h : Quiet outs) (hmore : Quiet more) : Quiet (outs ++ more) := by
  intro o ho
  rcases List.mem_append.mp ho with ho | ho
  · exact h o ho
  · exact hmore o ho

theorem Quiet.tame {outs : List Outcome} (h : Quiet outs) : Tame outs := ⟨[], outs, rfl, by simp, by simp, h⟩

/-- The line at rest between periods, in the short sleep of an iteration. The
latency is high enough to meet a stream behind playout and low enough that the
packets of a stream before it are still in their slots. -/
structure AtRest (cfg : RxConfig) (b : BitVec 16) (z : Int) (l : Line) : Prop extends Track cfg b z l where
  napping : l.rx.playout = .napping
  free : ¬ Holds l.rx l.rx.nNextSeq
  fed : 2 * cfg.nFramesPerPacket < l.nQueued
  lead : 0 < z → z ≤ jitterSlots ∧ (z + 1) * cfg.nFramesPerPacket < l.nQueued ∧
    (l.nQueued : Int) ≤ cfg.nTargetDelayFrames + 1028 * cfg.nFramesPerPacket
  lag : z ≤ 0 → l.nQueued - z * cfg.nFramesPerPacket ≤ 1026 * cfg.nFramesPerPacket

/-- The line at the head of the loop after the period's packet `b` arrived. -/
structure Looping (cfg : RxConfig) (b : BitVec 16) (y : Int) (l : Line) : Prop extends Track cfg b y l where
  loop : l.rx.playout = .loop
  head : y ≤ 0 → Holds l.rx b
  upper : y ≤ 1
  fed : cfg.nFramesPerPacket < l.nQueued
  full : y = 1 → 2 * cfg.nFramesPerPacket < l.nQueued
  lag : y < 0 → l.nQueued - y * cfg.nFramesPerPacket ≤ 1026 * cfg.nFramesPerPacket
  bound : l.nQueued - y * cfg.nFramesPerPacket ≤ cfg.nTargetDelayFrames + 1027 * cfg.nFramesPerPacket

theorem runToWait_waiting {n : Nat} (h : Waiting l.rx) : runToWait cfg n l = (l, []) := by
  cases n with
  | zero => rfl
  | succ n => rw [runToWait, if_pos h]

theorem runToWait_loop {n : Nat} (h : l.rx.playout = .loop) :
    runToWait cfg (n + 1) l = andThen (turn cfg l) (runToWait cfg n) := by
  rw [runToWait, if_neg (by simp [Waiting, h])]

/-- The short sleep ends the period. -/
theorem runToWait_nap {n : Nat} (hn : 0 < n) (hloop : l.rx.playout = .loop) (hfree : ¬ Holds l.rx l.rx.nNextSeq)
    (hrx : l.rx.bReceiving = true) (hq : 2 * cfg.nFramesPerPacket < l.nQueued) :
    runToWait cfg n l = (napLine l, []) := by
  have hwait : Waiting (napLine l).rx := trivial
  obtain ⟨n, rfl⟩ := Nat.exists_eq_succ_of_ne_zero hn.ne'
  rw [runToWait_loop hloop, turn_nap hloop hfree hrx hq, andThen, runToWait_waiting hwait]
  rfl

theorem Looping.held_iff (h : Looping cfg b y l) (hheld : Holds l.rx l.rx.nNextSeq) : y ≤ 0 := by
  by_contra hy
  exact h.free (by omega) (by have := h.upper; omega) hheld

theorem Looping.zero_held (h : Looping cfg b 0 l) : Holds l.rx l.rx.nNextSeq := by
  rw [h.next, shift_zero]
  exact h.head le_rfl

theorem Looping.above (h : Looping cfg b y l) : -1025 < y := by
  by_contra hy
  have hlag := h.lag (by omega)
  have hfed : (cfg.nFramesPerPacket : Int) < l.nQueued := by exact_mod_cast h.fed
  nlinarith

theorem Looping.next_ne (h : Looping cfg b y l) (hy : y < 0) : l.rx.nNextSeq ≠ b := by
  intro he
  have hzero : shift b y = shift b 0 := by rw [← h.next, he, shift_zero]
  rw [shift_inj] at hzero
  have := h.above
  omega

theorem target_nonneg (cfg : RxConfig) : 0 ≤ cfg.nTargetDelayFrames := Int.natCast_nonneg _

theorem Looping.played (h : Looping cfg b y l) (hheld : Holds l.rx l.rx.nNextSeq) :
    Looping cfg b (y + 1) (playLine l).1 := by
  have hy := h.held_iff hheld
  have hq := playLine_queued h.toTrack hheld
  have hfed := h.fed
  have hmul : (y + 1) * (cfg.nFramesPerPacket : Int) = y * cfg.nFramesPerPacket + cfg.nFramesPerPacket := by ring
  refine ⟨h.toTrack.played, h.loop, fun hy1 => ?_, by omega, by omega, fun _ => by omega, fun hy1 => ?_, ?_⟩
  · exact holds_after_release hheld (h.head hy) (h.next_ne (by omega))
  · have := h.lag (by omega)
    rw [hq, hmul]
    push_cast
    omega
  · have := h.bound
    rw [hq, hmul]
    push_cast
    omega

theorem Looping.dropped (h : Looping cfg b y l) (hheld : Holds l.rx l.rx.nNextSeq)
    (hq : 2 * cfg.nFramesPerPacket < l.nQueued) : Looping cfg b (y + 1) (dropLine l) := by
  have hy := h.held_iff hheld
  have hmul : (y + 1) * (cfg.nFramesPerPacket : Int) = y * cfg.nFramesPerPacket + cfg.nFramesPerPacket := by ring
  refine ⟨h.toTrack.dropped, h.loop, fun hy1 => ?_, by omega, h.fed, fun _ => hq, fun hy1 => ?_, ?_⟩
  · exact holds_after_release hheld (h.head hy) (h.next_ne (by omega))
  · have := h.lag (by omega)
    simp only [hmul, dropLine]
    omega
  · have := h.bound
    simp only [hmul, dropLine]
    omega

theorem quiet_playLine (l : Line) : Quiet (playLine l).2 := by
  simp [Quiet, playLine, play, Outcome.isConcealed]

theorem quiet_steerLine (cfg : RxConfig) (l : Line) : Quiet (steerLine cfg l).2 := by
  rcases steerLine_cases cfg l with h | ⟨_, _, h⟩ <;> simp [h, Quiet, Outcome.isConcealed]

/-- An iteration that plays moves on and leaves the queue filled. -/
theorem Looping.turn_play (h : Looping cfg b y l) (hheld : Holds l.rx l.rx.nNextSeq) :
    ∃ y' l' outs, turn cfg l = (l', outs) ∧ Looping cfg b y' l' ∧ y < y' ∧
      2 * cfg.nFramesPerPacket < l'.nQueued ∧ Quiet outs ∧ ¬ Silent outs := by
  have hplayed := h.played hheld
  have hfed : 2 * cfg.nFramesPerPacket < (playLine l).1.nQueued := by
    rw [playLine_queued h.toTrack hheld]
    have := h.fed
    omega
  have heard : ∀ outs, ¬ Silent ((playLine l).2 ++ outs) := fun outs hs =>
    hs _ (List.mem_append_left _ List.mem_cons_self) rfl
  have quiet := (quiet_playLine l).append (quiet_steerLine cfg (playLine l).1)
  rw [turn_held h.loop hheld, andThen]
  rcases steerLine_cases cfg (playLine l).1 with hsteer | ⟨_, hheld', hsteer⟩
  · exact ⟨y + 1, _, _, rfl, by rwa [hsteer], by omega, by rwa [hsteer], quiet, heard _⟩
  · refine ⟨y + 1 + 1, _, _, rfl, ?_, by omega, ?_, quiet, heard _⟩
    · rw [hsteer]
      exact hplayed.dropped hheld' hfed
    · rw [hsteer]
      exact hfed

/-- A nearly dry queue conceals one packet, which fills it. -/
theorem Looping.turn_dry (h : Looping cfg b y l) (hfree : ¬ Holds l.rx l.rx.nNextSeq)
    (hq : l.nQueued ≤ 2 * cfg.nFramesPerPacket) :
    turn cfg l = ((concealLine cfg l).1, [.concealed l.rx.nNextSeq cfg.vSilence]) ∧ y < 0 ∧
      Looping cfg b (y + 1) (concealLine cfg l).1 ∧ 2 * cfg.nFramesPerPacket < (concealLine cfg l).1.nQueued := by
  have hy : y < 0 := by
    have hzero : y ≠ 0 := by
      rintro rfl
      exact hfree h.zero_held
    have hone : y ≠ 1 := fun he => by
      have := h.full he
      omega
    have := h.upper
    omega
  have hfed := h.fed
  have hmul : (y + 1) * (cfg.nFramesPerPacket : Int) = y * cfg.nFramesPerPacket + cfg.nFramesPerPacket := by ring
  have hlevel : (concealLine cfg l).1.nQueued = l.nQueued + cfg.nFramesPerPacket := rfl
  refine ⟨?_, hy, ⟨h.toTrack.concealed, h.loop, fun _ => h.head (by omega), by omega, by omega, fun _ => by omega,
    fun _ => ?_, ?_⟩, by omega⟩
  · have htarget := target_nonneg cfg
    rw [turn_conceal h.loop hfree h.receiving hq, andThen, steerLine_low (by omega)]
    rfl
  · have := h.lag hy
    rw [hlevel, hmul]
    push_cast
    omega
  · have := h.bound
    rw [hlevel, hmul]
    push_cast
    omega

theorem Looping.asleep (h : Looping cfg b y l) (hfree : ¬ Holds l.rx l.rx.nNextSeq)
    (hq : 2 * cfg.nFramesPerPacket < l.nQueued) : AtRest cfg b y (napLine l) := by
  refine ⟨⟨h.receiving, h.window, h.sized, h.next⟩, rfl, hfree, hq, fun hy => ?_, fun hy => ?_⟩
  · obtain rfl : y = 1 := by
      have := h.upper
      omega
    have := h.bound
    refine ⟨by decide, ?_, ?_⟩
    · simp only [napLine]
      omega
    · simp only [napLine]
      omega
  · have hne : y ≠ 0 := by
      rintro rfl
      exact hfree h.zero_held
    exact h.lag (by omega)

/-- What the iterations of a period leave when the playout thread sleeps again. -/
structure Slept (cfg : RxConfig) (b : BitVec 16) (y : Int) (l : Line) (x : Line × List Outcome) : Prop where
  rest : ∃ z, AtRest cfg b z x.1 ∧ (Silent x.2 → y < 0 → z ≤ 0 ∧ x.1.rx.vJitter = l.rx.vJitter)
  tame : Tame x.2
  quiet : 2 * cfg.nFramesPerPacket < l.nQueued → Quiet x.2
  plays : y = 0 → ¬ Silent x.2

theorem Silent.left {outs more : List Outcome} (h : Silent (outs ++ more)) : Silent outs :=
  fun o ho => h o (List.mem_append_left _ ho)

theorem Silent.right {outs more : List Outcome} (h : Silent (outs ++ more)) : Silent more :=
  fun o ho => h o (List.mem_append_right _ ho)

/-- From the head of the loop with the period's packet in its slot, the playout
thread catches up with the stream or goes to sleep. -/
theorem Looping.slept {n : Nat} (h : Looping cfg b y l) (hn : 2 - y ≤ n) : Slept cfg b y l (runToWait cfg n l) := by
  induction n generalizing l y with
  | zero =>
    have := h.upper
    omega
  | succ n ih =>
    by_cases hheld : Holds l.rx l.rx.nNextSeq
    · obtain ⟨y', l', outs, hturn, h', hy', hq', hquiet, hheard⟩ := h.turn_play hheld
      have hrest := ih h' (by omega)
      rw [runToWait_loop h.loop, hturn, andThen]
      have hall : Quiet (outs ++ (runToWait cfg n l').2) := hquiet.append (hrest.quiet hq')
      obtain ⟨z, hz, _⟩ := hrest.rest
      exact ⟨⟨z, hz, fun hs _ => absurd hs.left hheard⟩, hall.tame, fun _ => hall, fun _ hs => hheard hs.left⟩
    · by_cases hq : 2 * cfg.nFramesPerPacket < l.nQueued
      · rw [runToWait_nap n.succ_pos h.loop hheld h.receiving hq]
        refine ⟨⟨y, h.asleep hheld hq, fun _ hy => ⟨by omega, rfl⟩⟩, ?_, fun _ => ?_, ?_⟩
        · exact Quiet.tame (by simp [Quiet])
        · simp [Quiet]
        · rintro rfl
          exact absurd h.zero_held hheld
      · obtain ⟨hturn, hy, h', hq'⟩ := h.turn_dry hheld (by omega)
        have hrest := ih h' (by omega)
        rw [runToWait_loop h.loop, hturn, andThen]
        obtain ⟨z, hz, hsilent⟩ := hrest.rest
        refine ⟨⟨z, hz, fun hs _ => ?_⟩, ?_, fun hq2 => absurd hq2 hq, by omega⟩
        · have hy1 : y + 1 < 0 := by
            have hne : y + 1 ≠ 0 := fun he => hrest.plays he hs.right
            omega
          exact hsilent hs.right hy1
        · exact ⟨[.concealed l.rx.nNextSeq cfg.vSilence], _, rfl, by simp [Outcome.isConcealed],
            by simp [Outcome.isPlayed], hrest.quiet hq'⟩

/-- The next packet of the stream, taken into its slot. -/
structure Delivered (cfg : RxConfig) (b : BitVec 16) (z : Int) (l : Line) (x : Line × List Outcome) : Prop where
  track : Track cfg (shift b 1) (z - 1) x.1
  held : ∀ n, Holds x.1.rx n ↔ n = shift b 1 ∨ Holds l.rx n ∧ slotOf n ≠ slotOf (shift b 1)
  playout : x.1.rx.playout = l.rx.playout
  queued : x.1.nQueued = l.nQueued
  report : Quiet x.2 ∧ Silent x.2

theorem Track.delivered {z : Int} (h : Track cfg b z l) {a : Arrival}
    (ha : Carries cfg cfg.nFramesPerPacket (shift b 1) a) : Delivered cfg b z l (deliver cfg a l) := by
  have hfree : ¬ Holds (noteArrival l.rx a.nLeg (shift b 1) a.now) (shift b 1) := h.ahead le_rfl (by omega)
  have hdeliver : deliver cfg a l = (⟨(merge (noteArrival l.rx a.nLeg (shift b 1) a.now) a.nLeg (shift b 1)
      (rtpTs a.pData) (decodeFrames cfg.session l.rx.monitor a.pData)).1, l.nQueued⟩,
      [.accepted a.nLeg (shift b 1) (decodeFrames cfg.session l.rx.monitor a.pData)]) := by
    rw [ha.deliver, merge, if_neg hfree]
  have hheld := holds_merge hfree a.nLeg (rtpTs a.pData) (decodeFrames cfg.session l.rx.monitor a.pData)
  rw [hdeliver]
  refine ⟨⟨?_, fun n hn => ?_, fun n hn => ?_, ?_⟩, hheld, ?_, rfl, ?_, ?_⟩
  · rw [merge, if_neg hfree]
    rfl
  · obtain rfl | ⟨hold, hslot⟩ := (hheld n).mp hn
    · exact ⟨0, by decide, le_rfl, (shift_zero _).symm⟩
    · obtain ⟨j, hj, hj', rfl⟩ := h.window n hold
      have hslots : (jitterSlots : Int) = 1024 := rfl
      rw [ne_eq, slotOf_shift, hslots] at hslot
      rw [hslots] at hj ⊢
      refine ⟨j - 1, by omega, by omega, ?_⟩
      rw [shift_shift]
      congr 1
      omega
  · rw [merge_samples hfree]
    obtain rfl | ⟨hold, hslot⟩ := (hheld n).mp hn
    · rw [if_pos rfl, ha.length]
    · rw [if_neg hslot]
      exact h.sized n hold
  · rw [merge, if_neg hfree, shift_shift]
    have : 1 + (z - 1) = z := by omega
    rw [this]
    exact h.next
  · rw [merge, if_neg hfree]
    rfl
  · simp [Quiet, Outcome.isConcealed]
  · simp [Silent, Outcome.isPlayed]

/-- What one period of the stream does to a line at rest. Without a play the
stream comes nearer, or an overfull queue falls, or slots are left alone. -/
structure PeriodDone (cfg : RxConfig) (b : BitVec 16) (z : Int) (l : Line) (x : Line × List Outcome) : Prop where
  rest : ∃ z', AtRest cfg (shift b 1) z' x.1 ∧ (Silent x.2 →
    (z ≤ 0 → z' ≤ 0 ∧ ∀ n, Holds x.1.rx n ↔ n = shift b 1 ∨ Holds l.rx n ∧ slotOf n ≠ slotOf (shift b 1)) ∧
    (z = 1 → z' = 1 ∧ x.1.nQueued + cfg.nFramesPerPacket = l.nQueued ∧
      cfg.nTargetDelayFrames + 5 * cfg.nFramesPerPacket < l.nQueued) ∧
    (1 < z → z' = z - 1 ∧ x.1.nQueued + cfg.nFramesPerPacket = l.nQueued))
  tame : Tame x.2

theorem Tame.after {outs more : List Outcome} (hquiet : Quiet outs) (hsilent : Silent outs) (h : Tame more) :
    Tame (outs ++ more) := by
  obtain ⟨hd, tl, rfl, hcount, hsil, htl⟩ := h
  refine ⟨outs ++ hd, tl, by simp, ?_, fun o ho => ?_, htl⟩
  · rw [List.countP_append, List.countP_eq_zero.mpr hquiet]
    omega
  · rcases List.mem_append.mp ho with ho | ho
    · exact hsilent o ho
    · exact hsil o ho

theorem Track.requeue (h : Track cfg b y l) (p : Playout) (q : Nat) :
    Track cfg b y ⟨{ l.rx with playout := p }, q⟩ := ⟨h.receiving, h.window, h.sized, h.next⟩

/-- The line when the period's packet has arrived and ALSA has taken its frames. -/
def consumed (cfg : RxConfig) (a : Arrival) (l : Line) : Line := consume cfg (deliver cfg a l).1

theorem Delivered.nQueued_consumed {z : Int} {a : Arrival} (h : Delivered cfg b z l (deliver cfg a l)) :
    (consumed cfg a l).nQueued = l.nQueued - cfg.nFramesPerPacket := by
  rw [consumed, consume, h.queued]

theorem Delivered.track_woken {z : Int} {a : Arrival} (h : Delivered cfg b z l (deliver cfg a l)) :
    Track cfg (shift b 1) (z - 1) (wakeLine (consumed cfg a l)) := h.track.requeue _ _

/-- Where the next slot is empty and no newer packet calls for a loss, the line wakes to wait. -/
theorem Delivered.turn_idle {z : Int} {a : Arrival} (h : Delivered cfg b z l (deliver cfg a l))
    (hplayout : l.rx.playout = .napping) (hnewer : ¬ Newer (consumed cfg a l).rx)
    (hfree : ¬ Holds (wakeLine (consumed cfg a l)).rx (wakeLine (consumed cfg a l)).rx.nNextSeq) :
    turn cfg (consumed cfg a l) = (wakeLine (consumed cfg a l), []) := by
  have hnap : (consumed cfg a l).rx.playout = .napping := h.playout.trans hplayout
  rw [turn_wake hnap fun hn => hnewer hn.1, steerLine_free hfree]

theorem period_of_turn {a : Arrival} {l' : Line} {outs : List Outcome} (h : turn cfg (consumed cfg a l) = (l', outs)) :
    period cfg a l = ((runToWait cfg periodTurns l').1,
      (deliver cfg a l).2 ++ (outs ++ (runToWait cfg periodTurns l').2)) := by
  rw [period, andThen, andThen, ← consumed, h]

/-- A stream behind playout is awaited. -/
theorem AtRest.period_lead {z : Int} (h : AtRest cfg b z l) (hz : 1 < z) {a : Arrival}
    (ha : Carries cfg cfg.nFramesPerPacket (shift b 1) a) : PeriodDone cfg b z l (period cfg a l) := by
  have hd := h.toTrack.delivered ha
  obtain ⟨hz1024, hlead, hfull⟩ := h.lead (by omega)
  have hslots : (jitterSlots : Int) = 1024 := rfl
  rw [hslots] at hz1024
  have hq := hd.nQueued_consumed
  have htrack := hd.track_woken
  have hfree : ¬ Holds (wakeLine (consumed cfg a l)).rx (wakeLine (consumed cfg a l)).rx.nNextSeq :=
    htrack.free (by omega) (by omega)
  have hfed : 2 * cfg.nFramesPerPacket < (wakeLine (consumed cfg a l)).nQueued := by
    have : 2 * (cfg.nFramesPerPacket : Int) ≤ z * cfg.nFramesPerPacket :=
      mul_le_mul_of_nonneg_right (by omega) (by omega)
    have hmul : (z + 1) * (cfg.nFramesPerPacket : Int) = z * cfg.nFramesPerPacket + cfg.nFramesPerPacket := by ring
    simp only [wakeLine, hq]
    omega
  have hturn := hd.turn_idle h.napping (htrack.not_newer (by omega) (by omega)) hfree
  rw [period_of_turn hturn, runToWait_nap (by decide) rfl hfree htrack.receiving hfed]
  have hlevel : (napLine (wakeLine (consumed cfg a l))).nQueued + cfg.nFramesPerPacket = l.nQueued := by
    simp only [napLine, wakeLine, hq]
    have := h.fed
    omega
  have hmul : (z + 1) * (cfg.nFramesPerPacket : Int) = (z - 1 + 1) * cfg.nFramesPerPacket + cfg.nFramesPerPacket := by
    ring
  have hlead' : (z - 1 + 1) * (cfg.nFramesPerPacket : Int) < (napLine (wakeLine (consumed cfg a l))).nQueued := by
    omega
  have hfull' : ((napLine (wakeLine (consumed cfg a l))).nQueued : Int) ≤
      cfg.nTargetDelayFrames + 1028 * cfg.nFramesPerPacket := by
    omega
  refine ⟨⟨z - 1, ⟨htrack.requeue _ _, rfl, hfree, hfed, fun _ => ⟨by omega, hlead', hfull'⟩,
    fun hz' => absurd hz' (by omega)⟩, fun _ => ⟨by omega, by omega, fun _ => ⟨rfl, hlevel⟩⟩⟩, ?_⟩
  exact Tame.after hd.report.1 hd.report.2 (Quiet.tame (by simp [Quiet]))

/-- Playout at the head of the stream plays the packet of the period, or drops it
from an overfull queue. -/
theorem AtRest.period_aligned (h : AtRest cfg b 1 l) {a : Arrival}
    (ha : Carries cfg cfg.nFramesPerPacket (shift b 1) a) : PeriodDone cfg b 1 l (period cfg a l) := by
  have hd := h.toTrack.delivered ha
  obtain ⟨_, _, hfull⟩ := h.lead (by omega)
  have hfed := h.fed
  have hq := hd.nQueued_consumed
  have hqw : (wakeLine (consumed cfg a l)).nQueued = l.nQueued - cfg.nFramesPerPacket := hq
  have htrack : Track cfg (shift b 1) 0 (wakeLine (consumed cfg a l)) := hd.track_woken
  have hhead : Holds (wakeLine (consumed cfg a l)).rx (shift b 1) := (hd.held _).mpr (Or.inl rfl)
  have hturn : turn cfg (consumed cfg a l) = steerLine cfg (wakeLine (consumed cfg a l)) := by
    have hnap : (consumed cfg a l).rx.playout = .napping := hd.playout.trans h.napping
    exact turn_wake hnap fun hn => htrack.not_newer le_rfl (by omega) hn.1
  have hquiet := hd.report.1
  rcases steerLine_cases cfg (wakeLine (consumed cfg a l)) with hs | ⟨hover, hheld, hs⟩
  · have hloop : Looping cfg (shift b 1) 0 (wakeLine (consumed cfg a l)) :=
      ⟨htrack, rfl, fun _ => hhead, by omega, by omega, by omega, by omega, by omega⟩
    have hslept : Slept cfg (shift b 1) 0 (wakeLine (consumed cfg a l))
        (runToWait cfg periodTurns (wakeLine (consumed cfg a l))) := hloop.slept (by decide)
    rw [period_of_turn (hturn.trans hs)]
    generalize runToWait cfg periodTurns (wakeLine (consumed cfg a l)) = x at hslept ⊢
    obtain ⟨z, hz, _⟩ := hslept.rest
    rw [List.nil_append]
    exact ⟨⟨z, hz, fun hsilent => absurd hsilent.right (hslept.plays rfl)⟩, Tame.after hquiet hd.report.2 hslept.tame⟩
  · have hdropped : Track cfg (shift b 1) 1 (dropLine (wakeLine (consumed cfg a l))) := htrack.dropped
    have hlevel : (dropLine (wakeLine (consumed cfg a l))).nQueued = l.nQueued - cfg.nFramesPerPacket := hqw
    have htarget := target_nonneg cfg
    rw [hqw] at hover
    rw [period_of_turn (hturn.trans hs),
      runToWait_nap (by decide) rfl (hdropped.free le_rfl (by omega)) hdropped.receiving (by omega)]
    refine ⟨⟨1, ⟨hdropped.requeue _ _, rfl, hdropped.free le_rfl (by omega), ?_, fun _ => ⟨by decide, ?_, ?_⟩,
      fun hz => absurd hz (by omega)⟩, fun _ => ⟨by omega, fun _ => ⟨rfl, ?_, by omega⟩, by omega⟩⟩, ?_⟩
    · simp only [napLine]
      omega
    · simp only [napLine]
      omega
    · simp only [napLine]
      omega
    · simp only [napLine]
      omega
    · exact Quiet.tame (hquiet.append (by simp [Quiet, Outcome.isConcealed]))

/-- A stream ahead of playout is approached by concealing, or its slots are left alone. -/
theorem AtRest.period_lag {z : Int} (h : AtRest cfg b z l) (hz : z ≤ 0) {a : Arrival}
    (ha : Carries cfg cfg.nFramesPerPacket (shift b 1) a) : PeriodDone cfg b z l (period cfg a l) := by
  have hd := h.toTrack.delivered ha
  have hlag := h.lag hz
  have hfed := h.fed
  have hq := hd.nQueued_consumed
  have hqw : (wakeLine (consumed cfg a l)).nQueued = l.nQueued - cfg.nFramesPerPacket := hq
  have htrack := hd.track_woken
  have hhead : Holds (wakeLine (consumed cfg a l)).rx (shift b 1) := (hd.held _).mpr (Or.inl rfl)
  have hnap : (consumed cfg a l).rx.playout = .napping := hd.playout.trans h.napping
  have htarget := target_nonneg cfg
  have hmul : (z - 1) * (cfg.nFramesPerPacket : Int) = z * cfg.nFramesPerPacket - cfg.nFramesPerPacket := by ring
  have hfar : -1025 < z := by
    by_contra hz'
    nlinarith
  have hfree : ¬ Holds (wakeLine (consumed cfg a l)).rx (wakeLine (consumed cfg a l)).rx.nNextSeq := by
    intro hheld
    have hnext : (wakeLine (consumed cfg a l)).rx.nNextSeq = l.rx.nNextSeq := by
      rw [htrack.next, h.next, shift_shift]
      congr 1
      omega
    rcases (hd.held _).mp hheld with he | ⟨hold, _⟩
    · have hzero : shift (shift b 1) (z - 1) = shift (shift b 1) 0 := by rw [← htrack.next, shift_zero, he]
      rw [shift_inj] at hzero
      omega
    · exact h.free (hnext ▸ hold)
  -- the slots of the new state are those the delivery left
  have kept {x : Line × List Outcome} (hx : x.1.rx.vJitter = (wakeLine (consumed cfg a l)).rx.vJitter)
      (n : BitVec 16) : Holds x.1.rx n ↔ n = shift b 1 ∨ Holds l.rx n ∧ slotOf n ≠ slotOf (shift b 1) := by
    rw [← hd.held, Holds, hx]
    rfl
  by_cases hlost : Newer (consumed cfg a l).rx ∧ ((consumed cfg a l).nQueued : Int) < cfg.nTargetDelayFrames / 2
  · have hlevel : (concealLine cfg (wakeLine (consumed cfg a l))).1.nQueued = l.nQueued := by
      simp only [concealLine, hqw]
      omega
    have hturn : turn cfg (consumed cfg a l) = ((concealLine cfg (wakeLine (consumed cfg a l))).1,
        [.concealed (wakeLine (consumed cfg a l)).rx.nNextSeq cfg.vSilence]) := by
      have hlow := hlost.2
      rw [turn_wake_conceal hnap hlost, andThen, steerLine_low (by omega)]
      rfl
    have hloop : Looping cfg (shift b 1) z (concealLine cfg (wakeLine (consumed cfg a l))).1 := by
      refine ⟨?_, rfl, fun _ => hhead, by omega, by omega, by omega, fun _ => by omega, by omega⟩
      have := htrack.concealed
      rwa [sub_add_cancel] at this
    have hslept := hloop.slept (n := periodTurns) (by simp only [periodTurns, jitterSlots]; omega)
    rw [period_of_turn hturn]
    generalize runToWait cfg periodTurns (concealLine cfg (wakeLine (consumed cfg a l))).1 = x at hslept ⊢
    obtain ⟨z', hz', hsilent⟩ := hslept.rest
    refine ⟨⟨z', hz', fun hs => ⟨fun _ => ?_, by omega, by omega⟩⟩, ?_⟩
    · have hne : z ≠ 0 := fun he => hslept.plays he hs.right.right
      obtain ⟨hle, hslots⟩ := hsilent hs.right.right (by omega)
      exact ⟨hle, kept hslots⟩
    · refine Tame.after hd.report.1 hd.report.2 ⟨_, _, rfl, ?_, ?_, hslept.quiet (by omega)⟩
      · simp [Outcome.isConcealed]
      · simp [Outcome.isPlayed]
  · have hturn : turn cfg (consumed cfg a l) = (wakeLine (consumed cfg a l), []) := by
      rw [turn_wake hnap hlost, steerLine_free hfree]
    have hloop : Looping cfg (shift b 1) (z - 1) (wakeLine (consumed cfg a l)) := by
      refine ⟨htrack, rfl, fun _ => hhead, by omega, by omega, by omega, fun _ => by omega, by omega⟩
    have hslept := hloop.slept (n := periodTurns) (by simp only [periodTurns, jitterSlots]; omega)
    rw [period_of_turn hturn]
    generalize runToWait cfg periodTurns (wakeLine (consumed cfg a l)) = x at hslept ⊢
    obtain ⟨z', hz', hsilent⟩ := hslept.rest
    refine ⟨⟨z', hz', fun hs => ⟨fun _ => ?_, by omega, by omega⟩⟩, ?_⟩
    · obtain ⟨hle, hslots⟩ := hsilent hs.right (by omega)
      exact ⟨hle, kept hslots⟩
    · exact Tame.after hd.report.1 hd.report.2 hslept.tame

theorem AtRest.period {z : Int} (h : AtRest cfg b z l) {a : Arrival}
    (ha : Carries cfg cfg.nFramesPerPacket (shift b 1) a) : PeriodDone cfg b z l (Rtp.period cfg a l) := by
  rcases lt_trichotomy z 1 with hz | rfl | hz
  · exact h.period_lag (by omega) ha
  · exact h.period_aligned ha
  · exact h.period_lead hz ha

theorem plays_or_silent (cfg : RxConfig) (l : Line) (stream : Nat → Arrival) (n : Nat) :
    PlaysIn cfg l stream n ∨ Silent (Rtp.period cfg (stream n) (lineAt cfg l stream n).1).2 := by
  by_cases h : PlaysIn cfg l stream n
  · exact Or.inl h
  · exact Or.inr fun o ho hp => h ⟨o, ho, hp⟩

variable {stream : Nat → Arrival}

theorem InOrder.carries (h : InOrder cfg b stream) (n : Nat) :
    Carries cfg cfg.nFramesPerPacket (shift (shift b n) 1) (stream n) := by
  have := h n
  rwa [add_ofNat_eq_shift, Nat.cast_succ, ← shift_shift] at this

theorem shift_succ (b : BitVec 16) (n : Nat) : shift (shift b n) 1 = shift b (n + 1 : Nat) := by
  rw [shift_shift]
  rfl

/-- The line after some periods, and what the next one does to it. -/
theorem AtRest.done {z : Int} {n : Nat} (hs : InOrder cfg b stream)
    (h : AtRest cfg (shift b n) z (lineAt cfg l stream n).1) :
    PeriodDone cfg (shift b n) z (lineAt cfg l stream n).1 (Rtp.period cfg (stream n) (lineAt cfg l stream n).1) :=
  h.period (hs.carries n)

/-- Ahead of the stream: the lead, or the excess of the queue, falls with every
period that plays nothing. -/
theorem plays_of_lead (hs : InOrder cfg b stream) (m : Nat) {n : Nat} {z : Int}
    (h : AtRest cfg (shift b n) z (lineAt cfg l stream n).1) (hz : 1 ≤ z) (hm : z ≤ m + 1)
    (hq : ((lineAt cfg l stream n).1.nQueued : Int) ≤ cfg.nTargetDelayFrames + (m + 5) * cfg.nFramesPerPacket) :
    ∃ i ≤ m, PlaysIn cfg l stream (n + i) := by
  induction m generalizing n z with
  | zero =>
    rcases plays_or_silent cfg l stream n with hp | hsilent
    · exact ⟨0, le_rfl, hp⟩
    · obtain ⟨z', _, hidle⟩ := (h.done hs).rest
      have := ((hidle hsilent).2.1 (by omega)).2.2
      push_cast at hq
      omega
  | succ m ih =>
    rcases plays_or_silent cfg l stream n with hp | hsilent
    · exact ⟨0, by omega, hp⟩
    · obtain ⟨z', hz', hidle⟩ := (h.done hs).rest
      obtain ⟨_, hone, hmore⟩ := hidle hsilent
      have hstep : 1 ≤ z' ∧ z' ≤ m + 1 ∧
          (Rtp.period cfg (stream n) (lineAt cfg l stream n).1).1.nQueued + cfg.nFramesPerPacket =
            (lineAt cfg l stream n).1.nQueued := by
        rcases eq_or_lt_of_le hz with hz1 | hz1
        · obtain ⟨h1, h2, _⟩ := hone hz1.symm
          exact ⟨by omega, by omega, h2⟩
        · obtain ⟨h1, h2⟩ := hmore hz1
          push_cast at hm
          exact ⟨by omega, by omega, h2⟩
      rw [shift_succ, ← lineAt_succ_fst] at hz'
      rw [← lineAt_succ_fst] at hstep
      have hmul : ((m + 1 : Nat) + 5 : Int) * cfg.nFramesPerPacket =
          (m + 5) * cfg.nFramesPerPacket + cfg.nFramesPerPacket := by
        push_cast
        ring
      rw [hmul] at hq
      have hlevel := hstep.2.2
      obtain ⟨i, hi, hp⟩ := ih hz' hstep.1 hstep.2.1 (by omega)
      exact ⟨i + 1, by omega, by rwa [Nat.add_comm i 1, ← Nat.add_assoc]⟩

/-- Behind the stream: its numbers pile up in their slots until playout, which is
never 1024 behind, stands on one of them. -/
theorem plays_of_lag (hs : InOrder cfg b stream) (k : Nat) {n i : Nat} {z : Int}
    (h : AtRest cfg (shift b n) z (lineAt cfg l stream n).1) (hz : z ≤ 0) (hk : i + k = jitterSlots)
    (hrecent : ∀ m : Int, -i < m → m ≤ 0 → Holds (lineAt cfg l stream n).1.rx (shift (shift b n) m)) :
    ∃ j < k, PlaysIn cfg l stream (n + j) := by
  have hslots : jitterSlots = 1024 := rfl
  induction k generalizing n i z with
  | zero =>
    have hlag := h.lag hz
    have hfed : 2 * (cfg.nFramesPerPacket : Int) < (lineAt cfg l stream n).1.nQueued := by exact_mod_cast h.fed
    have hfar : -1024 < z := by
      by_contra hz'
      nlinarith
    refine absurd (hrecent z (by omega) hz) ?_
    rw [← h.toTrack.next]
    exact h.free
  | succ k ih =>
    rcases plays_or_silent cfg l stream n with hp | hsilent
    · exact ⟨0, by omega, hp⟩
    · obtain ⟨z', hz', hidle⟩ := (h.done hs).rest
      obtain ⟨hle, hkept⟩ := (hidle hsilent).1 hz
      rw [← lineAt_succ_fst] at hz' hkept
      have hmore : ∀ m : Int, -(i + 1 : Nat) < m → m ≤ 0 →
          Holds (lineAt cfg l stream (n + 1)).1.rx (shift (shift b (n + 1 : Nat)) m) := by
        intro m hm hm'
        refine (hkept _).mpr ?_
        rw [← shift_succ]
        rcases eq_or_lt_of_le hm' with rfl | hneg
        · exact Or.inl (shift_zero _)
        · refine Or.inr ⟨?_, ?_⟩
          · rw [shift_shift]
            exact hrecent (1 + m) (by omega) (by omega)
          · have hback : shift (shift b n) 1 = shift (shift (shift b n) 1) 0 := (shift_zero _).symm
            rw [hback, shift_shift _ 0 m, ne_eq, slotOf_shift, hslots]
            omega
      rw [shift_succ] at hz'
      obtain ⟨j, hj, hp⟩ := ih hz' hle (by omega) hmore
      exact ⟨j + 1, by omega, by rwa [Nat.add_comm j 1, ← Nat.add_assoc]⟩

theorem AtRest.plays {z : Int} {n : Nat} (hs : InOrder cfg b stream)
    (h : AtRest cfg (shift b n) z (lineAt cfg l stream n).1) : ∃ i < jitterSlots, PlaysIn cfg l stream (n + i) := by
  have hslots : jitterSlots = 1024 := rfl
  rcases le_or_gt z 0 with hz | hz
  · exact plays_of_lag hs jitterSlots h hz (Nat.zero_add _) fun m hm hm' => absurd hm (by push_cast; omega)
  · obtain ⟨hfar, _, hfull⟩ := h.lead hz
    rw [hslots] at hfar ⊢
    obtain ⟨i, hi, hp⟩ := plays_of_lead hs 1023 h (by omega) (by omega) (by push_cast; omega)
    exact ⟨i, by omega, hp⟩

/-- Concealed in a row, so far. -/
def gap (n : Nat) (o : Outcome) : Nat := if o.isPlayed then 0 else if o.isConcealed then n + 1 else n

def streak (outs : List Outcome) : Nat := outs.foldl gap 0

theorem foldl_gap_le (outs : List Outcome) (n : Nat) : outs.foldl gap n ≤ n + outs.countP Outcome.isConcealed := by
  induction outs generalizing n with
  | nil => simp
  | cons o outs ih =>
    rw [List.foldl_cons, List.countP_cons]
    have := ih (gap n o)
    unfold gap at this ⊢
    split at this
    · simp_all
      omega
    · split at this
      · simp_all
        omega
      · simp_all

theorem foldl_gap_heard {outs : List Outcome} (hquiet : Quiet outs) (hheard : ¬ Silent outs) (n : Nat) :
    outs.foldl gap n = 0 := by
  induction outs generalizing n with
  | nil => exact absurd (by simp [Silent]) hheard
  | cons o outs ih =>
    have hrest : Quiet outs := fun p hp => hquiet p (List.mem_cons_of_mem _ hp)
    rw [List.foldl_cons]
    by_cases hs : Silent outs
    · have ho : o.isPlayed := by
        by_contra ho
        refine hheard fun p hp => ?_
        rcases List.mem_cons.mp hp with rfl | hp
        · exact ho
        · exact hs p hp
      have := foldl_gap_le outs (gap n o)
      rw [List.countP_eq_zero.mpr hrest] at this
      simp only [gap, ho, if_true] at this ⊢
      omega
    · exact ih hrest hs _

theorem Tame.count_le {outs : List Outcome} (h : Tame outs) : outs.countP Outcome.isConcealed ≤ 1 := by
  obtain ⟨hd, tl, rfl, hcount, _, htl⟩ := h
  rw [List.countP_append, List.countP_eq_zero.mpr htl]
  exact hcount

theorem Tame.streak_reset {outs : List Outcome} (h : Tame outs) (hheard : ¬ Silent outs) (n : Nat) :
    outs.foldl gap n = 0 := by
  obtain ⟨hd, tl, rfl, _, hsil, htl⟩ := h
  rw [List.foldl_append]
  refine foldl_gap_heard htl (fun hs => hheard fun o ho => ?_) _
  rcases List.mem_append.mp ho with ho | ho
  · exact hsil o ho
  · exact hs o ho

/-- Playout meets the stream: from any period on it plays within the next 1024,
and no more than 1024 numbers in a row are ever concealed. -/
structure Relocks (cfg : RxConfig) (l : Line) (stream : Nat → Arrival) : Prop where
  waits : ∀ n, Waiting (lineAt cfg l stream n).1.rx
  plays : ∀ n, ∃ i < jitterSlots, PlaysIn cfg l stream (n + i)
  conceals : ∀ n pre, pre <+: (lineAt cfg l stream n).2 → streak pre ≤ jitterSlots

theorem AtRest.lineAt {z : Int} (h : AtRest cfg b z l) (hs : InOrder cfg b stream) (n : Nat) :
    ∃ z', AtRest cfg (shift b n) z' (Rtp.lineAt cfg l stream n).1 := by
  induction n with
  | zero => exact ⟨z, by rwa [Nat.cast_zero, shift_zero]⟩
  | succ n ih =>
    obtain ⟨z', hz'⟩ := ih
    obtain ⟨z'', hz'', _⟩ := (hz'.done hs).rest
    rw [shift_succ, ← lineAt_succ_fst] at hz''
    exact ⟨z'', hz''⟩

/-- Since the last period that played, every period concealed one packet at most. -/
theorem AtRest.streak_le {z : Int} (h : AtRest cfg b z l) (hs : InOrder cfg b stream) (n : Nat) :
    ∃ n₀ ≤ n, (∀ j, n₀ ≤ j → j < n → ¬ PlaysIn cfg l stream j) ∧ n₀ + streak (Rtp.lineAt cfg l stream n).2 ≤ n := by
  induction n with
  | zero => exact ⟨0, le_rfl, fun j _ hj => absurd hj (by omega), by simp [Rtp.lineAt, streak]⟩
  | succ n ih =>
    obtain ⟨n₀, hn₀, hidle, hcount⟩ := ih
    obtain ⟨z', hz'⟩ := h.lineAt hs n
    have htame := (hz'.done hs).tame
    have hreport : streak (Rtp.lineAt cfg l stream (n + 1)).2 =
        (Rtp.period cfg (stream n) (Rtp.lineAt cfg l stream n).1).2.foldl gap
          (streak (Rtp.lineAt cfg l stream n).2) := by
      rw [lineAt_succ_snd, streak, List.foldl_append, streak]
    rcases plays_or_silent cfg l stream n with ⟨o, ho, hp⟩ | hsilent
    · refine ⟨n + 1, le_rfl, fun j _ hj => absurd hj (by omega), ?_⟩
      rw [hreport, htame.streak_reset fun hsil => hsil o ho hp]
    · refine ⟨n₀, by omega, fun j hj hj' => ?_, ?_⟩
      · rcases Nat.lt_succ_iff_lt_or_eq.mp hj' with hlt | rfl
        · exact hidle j hj hlt
        · rintro ⟨o, ho, hp⟩
          exact hsilent o ho hp
      · have := foldl_gap_le (Rtp.period cfg (stream n) (Rtp.lineAt cfg l stream n).1).2
          (streak (Rtp.lineAt cfg l stream n).2)
        have := htame.count_le
        omega

theorem AtRest.conceals {z : Int} (h : AtRest cfg b z l) (hs : InOrder cfg b stream) (n : Nat) (pre : List Outcome)
    (hpre : pre <+: (Rtp.lineAt cfg l stream n).2) : streak pre ≤ jitterSlots := by
  induction n with
  | zero =>
    obtain rfl := List.prefix_nil.mp hpre
    simp [streak]
  | succ n ih =>
    rw [lineAt_succ_snd] at hpre
    rcases List.prefix_or_prefix_of_prefix hpre (List.prefix_append _ _) with hold | ⟨more, rfl⟩
    · exact ih hold
    · have hmore := (List.prefix_append_right_inj _).mp hpre
      obtain ⟨n₀, hn₀, hidle, hcount⟩ := h.streak_le hs n
      obtain ⟨z₀, hz₀⟩ := h.lineAt hs n₀
      obtain ⟨i, hi, hplays⟩ := hz₀.plays hs
      have hnear : n < n₀ + jitterSlots := by
        by_contra hfar
        exact hidle (n₀ + i) (by omega) (by omega) hplays
      obtain ⟨z', hz'⟩ := h.lineAt hs n
      have hle := foldl_gap_le more (streak (Rtp.lineAt cfg l stream n).2)
      have hone := hmore.sublist.countP_le (p := Outcome.isConcealed)
      have htame := (hz'.done hs).tame.count_le
      rw [streak, List.foldl_append]
      change more.foldl gap (streak (Rtp.lineAt cfg l stream n).2) ≤ jitterSlots
      omega

def twoMs : RxConfig := { session := {}, nPlayoutDelayMs := 2, nFramesPerPacket := 48, bTwoLegs := false }

def startUp : List Event :=
  [.packet .primary (silentPacket 0 48) 0, .playout 0 0, .packet .primary (silentPacket 1 48) 0,
    .packet .primary (silentPacket 2 48) 0, .playout 0 0, .playout 0 48, .playout 0 96, .playout 0 144, .playout 144 144]

/-- The engine after a start with a playout delay of 2 ms: three packets arrived
during the first sleep and were played, and playout waits for the fourth. -/
def started : Line := ⟨(runEngine twoMs {} startUp).1, written (runEngine twoMs {} startUp).2⟩

/-- The stream numbered on from a number, each packet filling one period. -/
def silentStream (nBefore : BitVec 16) (n : Nat) : Arrival :=
  ⟨.primary, silentPacket (nBefore + BitVec.ofNat 16 (n + 1)) 48, 0⟩

theorem inOrder_silentStream (nBefore : BitVec 16) : InOrder twoMs nBefore (silentStream nBefore) :=
  fun _ => carries_silentPacket rfl rfl (by decide) .primary _ 0

theorem started_facts : started.rx.bReceiving = true ∧ started.rx.playout = .napping ∧ started.rx.nNextSeq = 3 ∧
    started.nQueued = 144 ∧ ∀ i, (started.rx.vJitter i).nGeneration = 0 := by
  decide +kernel

theorem started_empty (n : BitVec 16) : ¬ Holds started.rx n := by
  rw [Holds, started_facts.2.2.2.2]
  omega

theorem started_track {b : BitVec 16} {z : Int} (h : 3 = shift b z) : Track twoMs b z started :=
  ⟨started_facts.1, fun n hn => absurd hn (started_empty n), fun n hn => absurd hn (started_empty n),
    started_facts.2.2.1.trans h⟩

/-- The line at rest with too little latency for a stream behind playout. -/
structure Locked (cfg : RxConfig) (b : BitVec 16) (z : Int) (l : Line) : Prop extends Track cfg b z l where
  napping : l.rx.playout = .napping
  fed : 2 * cfg.nFramesPerPacket < l.nQueued
  near : z ≤ 40000
  dry : (l.nQueued : Int) ≤ (z + 1) * cfg.nFramesPerPacket

/-- The stream comes no nearer than playout runs away from it, concealing. -/
theorem Locked.period {z : Int} (h : Locked cfg b z l) {a : Arrival}
    (ha : Carries cfg cfg.nFramesPerPacket (shift b 1) a) :
    (∃ z', Locked cfg (shift b 1) z' (Rtp.period cfg a l).1) ∧ Silent (Rtp.period cfg a l).2 := by
  have hd := h.toTrack.delivered ha
  have hfed := h.fed
  have hdry := h.dry
  have hnear := h.near
  have htarget := target_nonneg cfg
  have hz : 1 < z := by
    by_contra hz
    have : (z + 1) * (cfg.nFramesPerPacket : Int) ≤ 2 * cfg.nFramesPerPacket :=
      mul_le_mul_of_nonneg_right (by omega) (by omega)
    omega
  have hq := hd.nQueued_consumed
  have hqw : (wakeLine (consumed cfg a l)).nQueued = l.nQueued - cfg.nFramesPerPacket := hq
  have htrack := hd.track_woken
  have hfree : ¬ Holds (wakeLine (consumed cfg a l)).rx (wakeLine (consumed cfg a l)).rx.nNextSeq :=
    htrack.free (by omega) (by omega)
  have hturn := hd.turn_idle h.napping (htrack.not_newer (by omega) (by omega)) hfree
  rw [period_of_turn hturn]
  by_cases hlow : 2 * cfg.nFramesPerPacket < (wakeLine (consumed cfg a l)).nQueued
  · rw [runToWait_nap (by decide) rfl hfree htrack.receiving hlow]
    have hmul : (z + 1) * (cfg.nFramesPerPacket : Int) = (z - 1 + 1) * cfg.nFramesPerPacket + cfg.nFramesPerPacket := by
      ring
    refine ⟨⟨z - 1, htrack.requeue _ _, rfl, hlow, by omega, ?_⟩, ?_⟩
    · simp only [napLine]
      omega
    · simpa using hd.report.2
  · have hconceal : Track cfg (shift b 1) z (concealLine cfg (wakeLine (consumed cfg a l))).1 := by
      have := htrack.concealed
      rwa [sub_add_cancel] at this
    have hlevel : (concealLine cfg (wakeLine (consumed cfg a l))).1.nQueued = l.nQueued := by
      simp only [concealLine, hqw]
      omega
    have hfree' := hconceal.free (by omega) (by omega)
    have hdrip : turn cfg (wakeLine (consumed cfg a l)) = ((concealLine cfg (wakeLine (consumed cfg a l))).1,
        [.concealed (wakeLine (consumed cfg a l)).rx.nNextSeq cfg.vSilence]) :=
      htrack.turn_conceal rfl (by omega) (by omega) (by omega)
    have hrun : runToWait cfg periodTurns (wakeLine (consumed cfg a l)) =
        (napLine (concealLine cfg (wakeLine (consumed cfg a l))).1,
          [.concealed (wakeLine (consumed cfg a l)).rx.nNextSeq cfg.vSilence]) := by
      rw [show periodTurns = 2047 + 1 from rfl, runToWait_loop rfl, hdrip, andThen,
        runToWait_nap (by decide) rfl hfree' hconceal.receiving (by omega), List.append_nil]
    rw [hrun]
    refine ⟨⟨z, hconceal.requeue _ _, rfl, ?_, hnear, ?_⟩, ?_⟩
    · simp only [napLine]
      omega
    · simp only [napLine]
      omega
    · intro o ho
      rcases List.mem_append.mp ho with ho | ho
      · exact hd.report.2 o ho
      · obtain rfl := List.mem_singleton.mp ho
        simp [Outcome.isPlayed]

/-- A locked line never plays again, however long the stream goes on. -/
theorem Locked.silent {z : Int} (h : Locked cfg b z l) (hs : InOrder cfg b stream) (n : Nat) :
    ¬ PlaysIn cfg l stream n := by
  have hlocked : ∃ z', Locked cfg (shift b n) z' (Rtp.lineAt cfg l stream n).1 := by
    induction n with
    | zero => exact ⟨z, by rwa [Nat.cast_zero, shift_zero]⟩
    | succ n ih =>
      obtain ⟨z', hz'⟩ := ih
      obtain ⟨z'', hz''⟩ := (hz'.period (hs.carries n)).1
      rw [shift_succ, ← lineAt_succ_fst] at hz''
      exact ⟨z'', hz''⟩
  obtain ⟨z', hz'⟩ := hlocked
  rintro ⟨o, ho, hp⟩
  exact (hz'.period (hs.carries n)).2 o ho hp

end PiAudioNode.Rtp
