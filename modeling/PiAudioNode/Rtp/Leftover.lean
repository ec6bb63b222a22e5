import PiAudioNode.Rtp.Accounting
import PiAudioNode.Rtp.Anchor
import PiAudioNode.Rtp.Merge

/-! What a slot still holds when the stream falls silent and playout parks, and
whether the stream that comes after it meets any of that. -/
namespace PiAudioNode.Rtp
open Lib

instance (nSlot : SlotIndex) : DecidablePred (Outcome.Touches nSlot)
  | .accepted _ nSeq _ => inferInstanceAs (Decidable (slotOf nSeq = nSlot))
  | .played nSeq _ => inferInstanceAs (Decidable (slotOf nSeq = nSlot))
  | .dropped nSeq => inferInstanceAs (Decidable (slotOf nSeq = nSlot))
  | .duplicate .. => inferInstanceAs (Decidable False)
  | .anchored _ => inferInstanceAs (Decidable False)
  | .concealed .. => inferInstanceAs (Decidable False)

section Definitions
variable (cfg : RxConfig) (r : RtpReceiver) (cut : List Event → Event → Prop)

/-- The engine after some events, from the start of its threads. -/
def engineAfter (es : List Event) : RtpReceiver := (runEngine cfg r es).1

/-- What one event does after those before it. -/
def reports (pre : List Event) (e : Event) : List Outcome := (step cfg (engineAfter cfg r pre) e).2

/-- A copy of the number is decoded. -/
def Accepts (pre : List Event) (e : Event) (nSeq : BitVec 16) : Prop :=
  ∃ nLeg vSamples, Outcome.accepted nLeg nSeq vSamples ∈ reports cfg r pre e

/-- No packet came for 500 ms. -/
def FallsSilent (pre : List Event) (e : Event) : Prop :=
  (engineAfter cfg r pre).bReceiving ∧ ¬ (step cfg (engineAfter cfg r pre) e).1.bReceiving

/-- Playout finds the stream silent, and waits for the packet it anchors on next. -/
def Parks (pre : List Event) (e : Event) : Prop :=
  (engineAfter cfg r pre).playout ≠ .parked ∧ (step cfg (engineAfter cfg r pre) e).1.playout = .parked

/-- Nothing is stored into the slot or taken out of it. -/
def Untouched (nSlot : SlotIndex) (pre es : List Event) : Prop :=
  ∀ p e q, es = p ++ e :: q → ∀ o ∈ reports cfg r (pre ++ p) e, ¬ o.Touches nSlot

/-- A copy of the number was decoded since the last cut. -/
def DecodedSince (pre : List Event) (nSeq : BitVec 16) : Prop :=
  ∃ p e q, pre = p ++ e :: q ∧ Accepts cfg r p e nSeq ∧ ∀ q₁ f q₂, q = q₁ ++ f :: q₂ → ¬ cut (p ++ e :: q₁) f

/-- What is played was received since playout parked last, and no copy is discarded
for one received before the last silence. -/
def NothingSurvives (es : List Event) : Prop :=
  Admits (fun pre e => ∀ o ∈ reports cfg r pre e, match o with
    | .played nSeq _ => DecodedSince cfg r (Parks cfg r) pre nSeq
    | .duplicate _ nSeq => DecodedSince cfg r (FallsSilent cfg r) pre nSeq
    | _ => True) es

/-- The number was in its slot at a cut, and the slot was left alone since. -/
def Leftover (pre : List Event) (nSeq : BitVec 16) : Prop :=
  ∃ p e q, pre = p ++ e :: q ∧ cut p e ∧ Holds (engineAfter cfg r (p ++ [e])) nSeq ∧
    Untouched cfg r (slotOf nSeq) (p ++ [e]) q

/-- A packet with audio. -/
def CarriesAudio (pData : Bytes) : Prop := 12 < pData.length ∧ isRtp pData ∧ 0 < payloadFrames cfg.session pData

/-- Playout does not come to a number left over from before it parked, and no packet
bears one left over from before a silence. -/
def Apart (es : List Event) : Prop :=
  Admits (fun pre e => match e with
    | .playout _ _ => (engineAfter cfg r pre).playout = .loop →
        ¬ Leftover cfg r (Parks cfg r) pre (engineAfter cfg r pre).nNextSeq
    | .packet _ pData _ => CarriesAudio cfg pData → ¬ Leftover cfg r (FallsSilent cfg r) pre (rtpSeq pData)
    | _ => True) es

end Definitions

variable {cfg : RxConfig} {r s : RtpReceiver} {nSeq : BitVec 16}

theorem runEngine_report (es : List Event) (e : Event) :
    (runEngine cfg r (es ++ [e])).2 = (runEngine cfg r es).2 ++ reports cfg r es e := by
  rw [runEngine, runReport_snoc]
  rfl

/-- A report goes on: a number accepted in the new part, or one that the new part leaves. -/
theorem undisturbed_append (outs more : List Outcome) : Undisturbed nSeq (outs ++ more) ↔
    Undisturbed nSeq more ∨ Undisturbed nSeq outs ∧ ∀ o ∈ more, ¬ o.Touches (slotOf nSeq) := by
  induction more using List.reverseRecOn with
  | nil => simp [undisturbed_nil]
  | append_singleton more o ih =>
    rw [← List.append_assoc, undisturbed_snoc, undisturbed_snoc, ih]
    simp only [List.mem_append, List.mem_singleton, or_imp, forall_and, forall_eq]
    rw [or_and_right, or_assoc, and_assoc]

/-- One event: the slot holds a number that was decoded, or that was left alone. -/
theorem holds_engineAfter_snoc (es : List Event) (e : Event) : Holds (engineAfter cfg r (es ++ [e])) nSeq ↔
    Undisturbed nSeq (reports cfg r es e) ∨
      Holds (engineAfter cfg r es) nSeq ∧ ∀ o ∈ reports cfg r es e, ¬ o.Touches (slotOf nSeq) := by
  rw [engineAfter, (books_runEngine cfg r (es ++ [e])).slots, runEngine_report, undisturbed_append, engineAfter,
    (books_runEngine cfg r es).slots]

theorem untouched_nil {nSlot : SlotIndex} {pre : List Event} : Untouched cfg r nSlot pre [] :=
  fun p e q hnil => by simp at hnil

theorem untouched_snoc {nSlot : SlotIndex} {pre es : List Event} {e : Event} :
    Untouched cfg r nSlot pre (es ++ [e]) ↔
      Untouched cfg r nSlot pre es ∧ ∀ o ∈ reports cfg r (pre ++ es) e, ¬ o.Touches nSlot := by
  constructor
  · intro h
    exact ⟨fun p f q hsplit => h p f (q ++ [e]) (by rw [hsplit]; simp), h es e [] rfl⟩
  · rintro ⟨h, hlast⟩ p f q hsplit
    rcases snoc_eq_append_cons hsplit with ⟨rfl, rfl, -⟩ | ⟨rest, -, hes⟩
    · exact hlast
    · exact h p f rest hes

theorem Untouched.of_append {nSlot : SlotIndex} {pre es fs : List Event} (h : Untouched cfg r nSlot pre (es ++ fs)) :
    Untouched cfg r nSlot pre es :=
  fun p e q hsplit => h p e (q ++ fs) (by rw [hsplit, List.append_assoc, List.cons_append])

theorem Untouched.later {nSlot : SlotIndex} {pre es fs : List Event} (h : Untouched cfg r nSlot pre (es ++ fs)) :
    Untouched cfg r nSlot (pre ++ es) fs := by
  intro p e q hsplit
  rw [List.append_assoc]
  exact h (es ++ p) e q (by rw [hsplit, List.append_assoc])

/-- What is left alone stays. -/
theorem holds_of_untouched {pre es : List Event} (h : Holds (engineAfter cfg r pre) nSeq)
    (hun : Untouched cfg r (slotOf nSeq) pre es) : Holds (engineAfter cfg r (pre ++ es)) nSeq := by
  induction es using List.reverseRecOn with
  | nil => rwa [List.append_nil]
  | append_singleton es e ih =>
    obtain ⟨hes, hlast⟩ := untouched_snoc.mp hun
    rw [← List.append_assoc, holds_engineAfter_snoc]
    exact Or.inr ⟨ih hes, hlast⟩

/-- What a slot holds was decoded, and left alone since. -/
theorem accepted_of_holds {es : List Event} (h : Holds (engineAfter cfg r es) nSeq) :
    ∃ p e q, es = p ++ e :: q ∧ Accepts cfg r p e nSeq ∧ Holds (engineAfter cfg r (p ++ [e])) nSeq ∧
      Untouched cfg r (slotOf nSeq) (p ++ [e]) q := by
  induction es using List.reverseRecOn with
  | nil =>
    have hempty : ¬ Holds (engineAfter cfg r []) nSeq := by simp [engineAfter, runEngine, configure, Holds]
    exact absurd h hempty
  | append_singleton es e ih =>
    rcases (holds_engineAfter_snoc es e).mp h with ⟨pre, nLeg, vSamples, mid, hsplit, -⟩ | ⟨hheld, hleft⟩
    · exact ⟨es, e, [], rfl, ⟨nLeg, vSamples, by simp [hsplit]⟩, h, untouched_nil⟩
    · obtain ⟨p, f, q, rfl, haccepts, hstored, hun⟩ := ih hheld
      refine ⟨p, f, q ++ [e], by simp, haccepts, hstored, untouched_snoc.mpr ⟨hun, ?_⟩⟩
      rw [List.append_assoc]
      exact hleft

/-- What a slot holds is either new since the last cut or left over from before it. -/
theorem decodedSince_iff {cut : List Event → Event → Prop} (haccept : ∀ p e, Accepts cfg r p e nSeq → ¬ cut p e)
    {pre : List Event} (h : Holds (engineAfter cfg r pre) nSeq) :
    DecodedSince cfg r cut pre nSeq ↔ ¬ Leftover cfg r cut pre nSeq := by
  constructor
  · rintro ⟨p, e, q, rfl, haccepts, hnocut⟩ ⟨p', e', q', hsplit, hcut, -, hun⟩
    rcases append_cons_cases hsplit with ⟨rfl, rfl, -⟩ | ⟨m, rfl, hq⟩ | ⟨m, rfl, rfl⟩
    · exact haccept p e haccepts hcut
    · exact hnocut m e' q' hq hcut
    · obtain ⟨nLeg, vSamples, hmem⟩ := haccepts
      refine hun m e q rfl (.accepted nLeg nSeq vSamples) ?_ rfl
      rwa [List.append_assoc]
  · intro hleft
    obtain ⟨p, e, q, rfl, haccepts, hstored, hun⟩ := accepted_of_holds h
    refine ⟨p, e, q, rfl, haccepts, ?_⟩
    rintro q₁ f q₂ rfl hcut
    have hsplit : q₁ ++ f :: q₂ = (q₁ ++ [f]) ++ q₂ := by simp
    rw [hsplit] at hun
    have hthere := holds_of_untouched hstored hun.of_append
    have hpre : (p ++ [e]) ++ (q₁ ++ [f]) = (p ++ e :: q₁) ++ [f] := by simp
    refine hleft ⟨p ++ e :: q₁, f, q₂, by simp, hcut, ?_, ?_⟩
    · rwa [hpre] at hthere
    · rw [← hpre]
      exact hun.later

theorem Leftover.holds {cut : List Event → Event → Prop} {pre : List Event} (h : Leftover cfg r cut pre nSeq) :
    Holds (engineAfter cfg r pre) nSeq := by
  obtain ⟨p, e, q, rfl, -, hheld, hun⟩ := h
  have hlater := holds_of_untouched hheld hun
  rwa [List.append_assoc, List.singleton_append] at hlater

/-- A packet with audio is merged. -/
theorem step_audio {pData : Bytes} (h : CarriesAudio cfg pData) (nLeg : Leg) (now : Time) :
    step cfg s (.packet nLeg pData now) = merge (noteArrival s nLeg (rtpSeq pData) now) nLeg (rtpSeq pData)
      (rtpTs pData) (decodeFrames cfg.session s.monitor pData) := by
  obtain ⟨hlong, hrtp, hframes⟩ := h
  have hsome : decodeFrames cfg.session s.monitor pData ≠ [] := by
    rw [← List.length_pos_iff, decodeFrames_length]
    exact hframes
  simp only [step, handlePacket, if_pos hlong, hrtp, not_true, if_false, if_neg hsome]

/-- Any other is counted at most. -/
theorem step_no_audio {pData : Bytes} (h : ¬ CarriesAudio cfg pData) (nLeg : Leg) (now : Time) :
    step cfg s (.packet nLeg pData now) = (s, []) ∨
      step cfg s (.packet nLeg pData now) = (noteArrival s nLeg (rtpSeq pData) now, []) := by
  by_cases hlong : 12 < pData.length
  · by_cases hrtp : isRtp pData
    · have hnone : decodeFrames cfg.session s.monitor pData = [] := by
        refine List.eq_nil_of_length_eq_zero ?_
        rw [decodeFrames_length]
        exact Nat.eq_zero_of_not_pos fun hframes => h ⟨hlong, hrtp, hframes⟩
      right
      simp only [step, handlePacket, if_pos hlong, hrtp, not_true, if_false, if_pos hnone]
    · left
      simp only [step, handlePacket, if_pos hlong, if_pos hrtp]
  · left
    simp only [step, if_neg hlong]

/-- A stream that is heard goes on being heard by its packets. -/
theorem packet_heard (h : s.bReceiving) (nLeg : Leg) (pData : Bytes) (now : Time) :
    (step cfg s (.packet nLeg pData now)).1.bReceiving := by
  by_cases haudio : CarriesAudio cfg pData
  · rw [step_audio haudio, merge]
    split <;> rfl
  · rcases step_no_audio haudio nLeg now with hstep | hstep
    · rwa [hstep]
    · rw [hstep]
      rfl

theorem not_parks_of_accepts (p : List Event) (e : Event) (h : Accepts cfg r p e nSeq) : ¬ Parks cfg r p e := by
  obtain ⟨nLeg, vSamples, hmem⟩ := h
  obtain ⟨pData, now, rfl, -, -⟩ := accepted_step hmem
  rintro ⟨hrunning, hparked⟩
  have hstays := (step_not_playout cfg (engineAfter cfg r p) (e := .packet nLeg pData now) Bool.false_ne_true).1
  exact hrunning (hstays ▸ hparked)

theorem not_fallsSilent_of_accepts (p : List Event) (e : Event) (h : Accepts cfg r p e nSeq) :
    ¬ FallsSilent cfg r p e := by
  obtain ⟨nLeg, vSamples, hmem⟩ := h
  obtain ⟨pData, now, rfl, -, -⟩ := accepted_step hmem
  rintro ⟨hheard, hsilent⟩
  exact hsilent (packet_heard hheard nLeg pData now)

/-- A copy is discarded for the number its slot holds, and for no other reason. -/
theorem duplicate_packet {pData : Bytes} {nLeg nDup : Leg} {now : Time} :
    .duplicate nDup nSeq ∈ (step cfg s (.packet nLeg pData now)).2 ↔
      nDup = nLeg ∧ nSeq = rtpSeq pData ∧ CarriesAudio cfg pData ∧ Holds s (rtpSeq pData) := by
  by_cases haudio : CarriesAudio cfg pData
  · have hheld : Holds (noteArrival s nLeg (rtpSeq pData) now) (rtpSeq pData) ↔ Holds s (rtpSeq pData) := Iff.rfl
    rw [step_audio haudio, merge]
    by_cases h : Holds s (rtpSeq pData)
    · simp [hheld, h, haudio]
    · simp [hheld, h]
  · rcases step_no_audio (s := s) haudio nLeg now with h | h <;> simp [h, haudio]

/-- What playout does once its number is in: it is played, and steered after. -/
theorem playout_held (hloop : s.playout = .loop) (h : Holds s s.nNextSeq) (nDelay nDrift : Int) :
    (step cfg s (.playout nDelay nDrift)).2 =
      .played s.nNextSeq (s.vJitter (slotOf s.nNextSeq)).vSamples :: (steer cfg nDrift (play s).1).2 := by
  simp only [step, playoutStep, hloop, if_pos h]
  rfl

/-- The number is taken from its slot to be heard, or a copy is discarded for it. -/
def Outcome.Reads (nSeq : BitVec 16) : Outcome → Prop
  | .played n _ | .duplicate _ n => n = nSeq
  | _ => False

theorem not_reads_steer (nDrift : Int) : ∀ o ∈ (steer cfg nDrift s).2, ¬ o.Reads nSeq := by
  unfold steer
  split <;> simp [Outcome.Reads]

/-- Playout reads the slot of the next number, at the head of its loop. -/
theorem reads_playout {nDelay nDrift : Int} {o : Outcome} (ho : o ∈ (step cfg s (.playout nDelay nDrift)).2)
    (hreads : o.Reads nSeq) : o.isPlayed ∧ s.playout = .loop ∧ s.nNextSeq = nSeq ∧ Holds s nSeq := by
  have hsteer (x : RtpReceiver) (h : o ∈ (steer cfg nDrift x).2) : False := not_reads_steer nDrift o h hreads
  simp only [step, playoutStep] at ho
  split at ho
  · simp at ho
  · obtain rfl := List.mem_singleton.mp ho
    exact hreads.elim
  · rename_i hloop
    split at ho
    · rename_i hheld
      rcases List.mem_cons.mp ho with rfl | ho
      · obtain rfl : s.nNextSeq = nSeq := hreads
        exact ⟨rfl, hloop, rfl, hheld⟩
      · exact (hsteer _ ho).elim
    · split at ho
      · split at ho
        · simp at ho
        · rcases List.mem_cons.mp ho with rfl | ho
          · exact hreads.elim
          · exact (hsteer _ ho).elim
      · simp at ho
  · split at ho
    · rcases List.mem_cons.mp ho with rfl | ho
      · exact hreads.elim
      · exact (hsteer _ ho).elim
    · exact (hsteer _ ho).elim
  · split at ho
    · rcases List.mem_cons.mp ho with rfl | ho
      · exact hreads.elim
      · exact (hsteer _ ho).elim
    · simp at ho

/-- Nothing survives a re-anchor in just those runs in which neither the new stream
nor playout meets a number left over. -/
theorem nothingSurvives_iff_apart (cfg : RxConfig) (r : RtpReceiver) (es : List Event) :
    NothingSurvives cfg r es ↔ Apart cfg r es := by
  refine admits_congr (fun pre e _ => ?_) es
  cases e with
  | packet nLeg pData now =>
    have hfate (hheld : Holds (engineAfter cfg r pre) (rtpSeq pData)) :
        DecodedSince cfg r (FallsSilent cfg r) pre (rtpSeq pData) ↔
          ¬ Leftover cfg r (FallsSilent cfg r) pre (rtpSeq pData) :=
      decodedSince_iff not_fallsSilent_of_accepts hheld
    constructor
    · intro h haudio hleft
      have hheld := hleft.holds
      exact (hfate hheld).mp (h (.duplicate nLeg (rtpSeq pData)) (duplicate_packet.mpr ⟨rfl, rfl, haudio, hheld⟩)) hleft
    · intro h o ho
      cases o with
      | duplicate nDup n =>
        obtain ⟨rfl, rfl, haudio, hheld⟩ := duplicate_packet.mp ho
        exact (hfate hheld).mpr (h haudio)
      | played n v =>
        have hsilent := (step_not_playout cfg _ (e := .packet nLeg pData now) Bool.false_ne_true).2.1 _ ho
        simp [Outcome.isWritten, Outcome.isPlayed] at hsilent
      | _ => trivial
  | age now => simp [reports, step]
  | setMonitor nLeft nRight => simp [reports, step]
  | playout nDelay nDrift =>
    have hfate (n : BitVec 16) (hheld : Holds (engineAfter cfg r pre) n) :
        DecodedSince cfg r (Parks cfg r) pre n ↔ ¬ Leftover cfg r (Parks cfg r) pre n :=
      decodedSince_iff not_parks_of_accepts hheld
    constructor
    · intro h hloop hleft
      have hheld := hleft.holds
      obtain ⟨vSamples, hplayed⟩ : ∃ v, Outcome.played (engineAfter cfg r pre).nNextSeq v ∈
          reports cfg r pre (.playout nDelay nDrift) := by
        rw [reports, playout_held hloop hheld]
        exact ⟨_, List.mem_cons_self⟩
      exact (hfate _ hheld).mp (h _ hplayed) hleft
    · intro h o ho
      cases o with
      | duplicate nDup n => exact absurd (reads_playout ho rfl).1 (by simp [Outcome.isPlayed])
      | played n v =>
        obtain ⟨-, hloop, rfl, hheld⟩ := reads_playout ho rfl
        exact (hfate _ hheld).mpr (h hloop)
      | _ => trivial

/-- Packet 6 is lost, so 7 stays in its slot while the stream is silent; the stream
starts again with 6, and playout goes on to 7. -/
def restartedBelow : List Event :=
  [.packet .primary (silentPacket 5 1) 0, .packet .primary (silentPacket 7 1) 0, .playout 0 0, .playout 0 0,
    .playout 0 0, .age 600000000, .playout 0 0, .packet .primary (silentPacket 6 1) 900000000, .playout 0 0,
    .playout 0 0, .playout 0 0]

/-- The stream starts again with 7. -/
def restartedOn : List Event :=
  restartedBelow.take 7 ++ [.packet .primary (silentPacket 7 1) 900000000, .playout 0 0]

theorem restartedBelow_leftover : Leftover stereo {} (Parks stereo {}) (restartedBelow.take 10) 7 := by
  refine ⟨restartedBelow.take 6, .playout 0 0, (restartedBelow.take 10).drop 7, rfl, ?_, by decide +kernel, ?_⟩
  · exact ⟨by decide +kernel, by decide +kernel⟩
  · exact untouched_snoc.mpr ⟨untouched_snoc.mpr ⟨untouched_snoc.mpr ⟨untouched_nil, by decide +kernel⟩,
      by decide +kernel⟩, by decide +kernel⟩

theorem restartedOn_leftover : Leftover stereo {} (FallsSilent stereo {}) (restartedOn.take 7) 7 := by
  refine ⟨restartedOn.take 5, .age 600000000, (restartedOn.take 7).drop 6, rfl, ?_, by decide +kernel, ?_⟩
  · exact ⟨by decide +kernel, by decide +kernel⟩
  · exact untouched_snoc.mpr ⟨untouched_nil, by decide +kernel⟩

theorem leftover_heard_and_discarded :
    ¬ NothingSurvives stereo {} restartedBelow ∧ ¬ NothingSurvives stereo {} restartedOn := by
  constructor
  · intro h
    have hplayed : Outcome.played 7 [⟨0, 0⟩] ∈ reports stereo {} (restartedBelow.take 10) (.playout 0 0) := by
      decide +kernel
    have hsince := h (restartedBelow.take 10) (.playout 0 0) [] rfl _ hplayed
    exact (decodedSince_iff not_parks_of_accepts (by decide +kernel)).mp hsince restartedBelow_leftover
  · intro h
    have hdiscarded : Outcome.duplicate .primary 7 ∈
        reports stereo {} (restartedOn.take 7) (.packet .primary (silentPacket 7 1) 900000000) := by decide +kernel
    have hsince := h (restartedOn.take 7) (.packet .primary (silentPacket 7 1) 900000000) [.playout 0 0] rfl _
      hdiscarded
    exact (decodedSince_iff not_fallsSilent_of_accepts (by decide +kernel)).mp hsince restartedOn_leftover

end PiAudioNode.Rtp
