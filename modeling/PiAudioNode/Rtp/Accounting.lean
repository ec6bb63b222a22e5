import PiAudioNode.Rtp.Receiver

/-! Every sequence number between two anchors is accounted for once, in order. -/
namespace PiAudioNode.Rtp
open Lib

/-- The number an outcome settles for playout. -/
def Outcome.account : Outcome → Option (BitVec 16)
  | .played nSeq _ | .concealed nSeq _ | .dropped nSeq => some nSeq
  | .accepted .. | .duplicate .. | .anchored _ => none

/-- The numbers settled by a report, oldest first. -/
def accounts (outs : List Outcome) : List (BitVec 16) := outs.filterMap Outcome.account

def consecutive (nSeq : BitVec 16) (n : Nat) : List (BitVec 16) :=
  (List.range n).map fun k => nSeq + BitVec.ofNat 16 k

/-- The number playout turns to after an outcome. -/
def advance (next : BitVec 16) : Outcome → BitVec 16
  | .anchored nSeq => nSeq
  | .played .. | .concealed .. | .dropped _ => next + 1
  | .accepted .. | .duplicate .. => next

/-- An outcome settles the number whose turn it is, if it settles one; what is
played was accepted under that number, what is concealed is silence. -/
def Proper (cfg : RxConfig) (start : BitVec 16) (outs : List Outcome) (o : Outcome) : Prop :=
  (∀ nSeq ∈ o.account, nSeq = outs.foldl advance start) ∧
    match o with
    | .played nSeq vSamples => ∃ nLeg, .accepted nLeg nSeq vSamples ∈ outs
    | .concealed _ vSamples => vSamples = cfg.vSilence
    | _ => True

theorem consecutive_succ (nSeq : BitVec 16) (n : Nat) :
    consecutive nSeq (n + 1) = consecutive nSeq n ++ [nSeq + BitVec.ofNat 16 n] := by
  simp [consecutive, List.range_succ]

/-- Between anchors the settled numbers are consecutive. -/
theorem accounts_eq {cfg : RxConfig} {start : BitVec 16} {outs more : List Outcome}
    (h : Admits (Proper cfg start) (outs ++ more)) (hno : ∀ o ∈ more, ¬ o.isAnchor) :
    accounts more = consecutive (outs.foldl advance start) (accounts more).length ∧
      (outs ++ more).foldl advance start =
        outs.foldl advance start + BitVec.ofNat 16 (accounts more).length := by
  induction more using List.reverseRecOn with
  | nil => simp [accounts, consecutive]
  | append_singleton more o ih =>
    rw [← List.append_assoc] at h
    obtain ⟨hacc, hnext⟩ := ih h.of_append fun o ho => hno o (List.mem_append_left _ ho)
    have hdue := h.last.1
    rw [← List.append_assoc, List.foldl_append, List.foldl_cons, List.foldl_nil, hnext]
    have quiet (ho : o.account = none) (hadv : ∀ next, advance next o = next) :
        accounts (more ++ [o]) = consecutive (outs.foldl advance start) (accounts (more ++ [o])).length ∧
          advance (outs.foldl advance start + BitVec.ofNat 16 (accounts more).length) o =
            outs.foldl advance start + BitVec.ofNat 16 (accounts (more ++ [o])).length := by
      have hsame : accounts (more ++ [o]) = accounts more := by simp [accounts, ho]
      rw [hsame, hadv]
      exact ⟨hacc, rfl⟩
    have settles (nSeq : BitVec 16) (ho : o.account = some nSeq) (hadv : ∀ next, advance next o = next + 1) :
        accounts (more ++ [o]) = consecutive (outs.foldl advance start) (accounts (more ++ [o])).length ∧
          advance (outs.foldl advance start + BitVec.ofNat 16 (accounts more).length) o =
            outs.foldl advance start + BitVec.ofNat 16 (accounts (more ++ [o])).length := by
      have hseq := hdue nSeq ho
      rw [hnext] at hseq
      have hsnoc : accounts (more ++ [o]) = accounts more ++ [nSeq] := by simp [accounts, ho]
      rw [hsnoc, List.length_append, List.length_singleton, consecutive_succ, ← hacc, ← hseq, hadv, hseq,
        add_ofNat_add_one]
      exact ⟨rfl, rfl⟩
    cases o with
    | accepted => exact quiet rfl fun _ => rfl
    | duplicate => exact quiet rfl fun _ => rfl
    | anchored => exact absurd rfl (hno _ (List.mem_append_right _ List.mem_cons_self))
    | played nSeq => exact settles nSeq rfl fun _ => rfl
    | concealed nSeq => exact settles nSeq rfl fun _ => rfl
    | dropped nSeq => exact settles nSeq rfl fun _ => rfl

/-- The books of the engine: the report is proper, the counters count it, and
what a slot holds was accepted. -/
structure Ledger (cfg : RxConfig) (start : BitVec 16) (outs : List Outcome) (r : RtpReceiver) : Prop where
  proper : Admits (Proper cfg start) outs
  next : r.nNextSeq = outs.foldl advance start
  played : r.nPlayed = outs.countP Outcome.isPlayed
  concealed : r.nConcealed = outs.countP Outcome.isConcealed
  stored : ∀ i, (r.vJitter i).nGeneration ≠ 0 → (r.vJitter i).nGeneration = (r.vJitter i).nSeq.toNat + 1 ∧
    ∃ nLeg, .accepted nLeg (r.vJitter i).nSeq (r.vJitter i).vSamples ∈ outs

variable {cfg : RxConfig} {start : BitVec 16} {outs : List Outcome} {r r' : RtpReceiver}

/-- A slot of the new state is one of the old state, or empty. -/
def SlotsFrom (r r' : RtpReceiver) : Prop := ∀ i, r'.vJitter i = r.vJitter i ∨ (r'.vJitter i).nGeneration = 0

theorem slotsFrom_refl : SlotsFrom r r := fun _ => Or.inl rfl

theorem slotsFrom_release (nSeq : BitVec 16) : SlotsFrom r (release r nSeq) := by
  intro i
  by_cases h : i = slotOf nSeq
  · subst h
    exact Or.inr (by simp [release])
  · exact Or.inl (by simp [release, h])

theorem Ledger.silent (h : Ledger cfg start outs r) (hslots : SlotsFrom r r') (hnext : r'.nNextSeq = r.nNextSeq)
    (hplayed : r'.nPlayed = r.nPlayed) (hconcealed : r'.nConcealed = r.nConcealed) : Ledger cfg start outs r' := by
  refine ⟨h.proper, hnext.trans h.next, hplayed.trans h.played, hconcealed.trans h.concealed, fun i hi => ?_⟩
  rcases hslots i with hs | hs
  · rw [hs] at hi ⊢
    exact h.stored i hi
  · exact absurd hs hi

theorem Ledger.emit (h : Ledger cfg start outs r) {o : Outcome} (ho : Proper cfg start outs o)
    (hslots : SlotsFrom r r') (hnext : r'.nNextSeq = advance r.nNextSeq o)
    (hplayed : r'.nPlayed = r.nPlayed + [o].countP Outcome.isPlayed)
    (hconcealed : r'.nConcealed = r.nConcealed + [o].countP Outcome.isConcealed) :
    Ledger cfg start (outs ++ [o]) r' := by
  refine ⟨h.proper.snoc ho, ?_, ?_, ?_, fun i hi => ?_⟩
  · rw [hnext, h.next, List.foldl_append, List.foldl_cons, List.foldl_nil]
  · rw [hplayed, h.played, List.countP_append]
  · rw [hconcealed, h.concealed, List.countP_append]
  · rcases hslots i with hs | hs
    · rw [hs] at hi ⊢
      obtain ⟨hgen, nLeg, hmem⟩ := h.stored i hi
      exact ⟨hgen, nLeg, List.mem_append_left _ hmem⟩
    · exact absurd hs hi

/-- A slot that holds a number holds frames accepted under it. -/
theorem Ledger.source (h : Ledger cfg start outs r) {nSeq : BitVec 16} (hheld : Holds r nSeq) :
    ∃ nLeg, .accepted nLeg nSeq (r.vJitter (slotOf nSeq)).vSamples ∈ outs := by
  obtain ⟨hgen, nLeg, hmem⟩ := h.stored (slotOf nSeq) (by unfold Holds at hheld; omega)
  have hseq : (r.vJitter (slotOf nSeq)).nSeq = nSeq := by
    apply BitVec.eq_of_toNat_eq
    unfold Holds at hheld
    omega
  rw [hseq] at hmem
  exact ⟨nLeg, hmem⟩

theorem keeps_play (hheld : Holds r r.nNextSeq) (h : Ledger cfg start outs r) :
    Ledger cfg start (outs ++ (play r).2) (play r).1 := by
  refine h.emit ⟨?_, h.source hheld⟩ (slotsFrom_release r.nNextSeq) rfl rfl rfl
  rintro nSeq ⟨⟩
  exact h.next

theorem keeps_conceal : Keeps (Ledger cfg start) (conceal cfg) := by
  intro outs r h
  refine h.emit ⟨?_, rfl⟩ slotsFrom_refl rfl rfl rfl
  rintro nSeq ⟨⟩
  exact h.next

theorem keeps_steer (nDrift : Int) : Keeps (Ledger cfg start) (steer cfg nDrift) := by
  intro outs r h
  unfold steer
  split
  · refine h.emit ⟨?_, trivial⟩ (slotsFrom_release r.nNextSeq) rfl rfl rfl
    rintro nSeq ⟨⟩
    exact h.next
  · rwa [List.append_nil]

theorem keeps_anchor : Keeps (Ledger cfg start) anchor := by
  intro outs r h
  exact h.emit ⟨by simp [Outcome.account], trivial⟩ slotsFrom_refl rfl rfl rfl

theorem keeps_merge (nLeg : Leg) (nSeq : BitVec 16) (nTs : BitVec 32) (vSamples : List Frame) :
    Keeps (Ledger cfg start) fun r => merge r nLeg nSeq nTs vSamples := by
  intro outs r h
  dsimp only [merge]
  split
  · exact h.emit ⟨by simp [Outcome.account], trivial⟩ slotsFrom_refl rfl rfl rfl
  · refine ⟨h.proper.snoc ⟨by simp [Outcome.account], trivial⟩, ?_, ?_, ?_, fun i hi => ?_⟩
    · rw [List.foldl_append]
      exact h.next
    · rw [List.countP_append]
      exact h.played
    · rw [List.countP_append]
      exact h.concealed
    · by_cases hslot : i = slotOf nSeq
      · subst hslot
        exact ⟨by simp, nLeg, by simp⟩
      · simp only [Function.update_of_ne hslot] at hi ⊢
        obtain ⟨hgen, nLeg', hmem⟩ := h.stored i hi
        exact ⟨hgen, nLeg', List.mem_append_left _ hmem⟩

theorem engineKeeps_ledger : EngineKeeps cfg (Ledger cfg start) where
  phase _ _ _ _ h := h.silent slotsFrom_refl rfl rfl rfl
  play _ _ hheld h := keeps_play hheld h
  conceal := keeps_conceal
  steer := keeps_steer
  anchor := keeps_anchor
  arrival _ _ _ _ _ h := h.silent slotsFrom_refl rfl rfl rfl
  merge := keeps_merge
  age _ _ _ h := h.silent slotsFrom_refl rfl rfl rfl
  monitor _ _ _ h := h.silent slotsFrom_refl rfl rfl rfl

theorem ledger_runEngine (cfg : RxConfig) (r : RtpReceiver) (es : List Event) :
    Ledger cfg r.nNextSeq (runEngine cfg r es).2 (runEngine cfg r es).1 := by
  refine engineKeeps_ledger.run ⟨admits_nil, rfl, rfl, rfl, fun i hi => ?_⟩ es
  exact absurd rfl hi

theorem not_accepted_steer {nDrift : Int} {nLeg : Leg} {nSeq : BitVec 16} {vSamples : List Frame} :
    .accepted nLeg nSeq vSamples ∉ (steer cfg nDrift r).2 := by
  unfold steer
  split <;> simp

theorem not_accepted_playoutStep {nDelay nDrift : Int} {nLeg : Leg} {nSeq : BitVec 16} {vSamples : List Frame} :
    .accepted nLeg nSeq vSamples ∉ (playoutStep cfg nDelay nDrift r).2 := by
  have kept : PlayoutKeeps cfg fun outs _ => .accepted nLeg nSeq vSamples ∉ outs :=
    { phase := fun _ _ _ _ h => h
      play := fun _ _ _ h => by simpa [play] using h
      conceal := fun _ _ h => by simpa [conceal] using h
      steer := fun nDrift _ _ h => by simpa [not_accepted_steer] using h
      anchor := fun _ _ h => by simpa [anchor] using h }
  exact kept.playoutStep nDelay nDrift [] r List.not_mem_nil

/-- Only a packet of that leg, number and content is reported as accepted. -/
theorem accepted_step {e : Event} {nLeg : Leg} {nSeq : BitVec 16} {vSamples : List Frame}
    (h : .accepted nLeg nSeq vSamples ∈ (step cfg r e).2) : ∃ pData now, e = .packet nLeg pData now ∧
      rtpSeq pData = nSeq ∧ decodeFrames cfg.session r.monitor pData = vSamples := by
  cases e with
  | packet nLeg' pData now =>
    simp only [step, handlePacket] at h
    split at h
    · split at h
      · simp at h
      · split at h
        · simp at h
        · unfold merge at h
          split at h
          · simp at h
          · simp only [List.mem_singleton, Outcome.accepted.injEq] at h
            obtain ⟨rfl, rfl, rfl⟩ := h
            exact ⟨pData, now, rfl, rfl, rfl⟩
    · simp at h
  | age now => simp [step] at h
  | setMonitor nLeft nRight => simp [step] at h
  | playout nDelay nDrift => exact absurd h not_accepted_playoutStep

theorem accepted_runEngine {es : List Event} {nLeg : Leg} {nSeq : BitVec 16} {vSamples : List Frame}
    (h : .accepted nLeg nSeq vSamples ∈ (runEngine cfg r es).2) : ∃ before pData now later,
      es = before ++ .packet nLeg pData now :: later ∧ rtpSeq pData = nSeq ∧
        decodeFrames cfg.session (runEngine cfg r before).1.monitor pData = vSamples := by
  induction es using List.reverseRecOn with
  | nil => simp [runEngine] at h
  | append_singleton es e ih =>
    rw [runEngine, runReport_snoc] at h
    rcases List.mem_append.mp h with h | h
    · obtain ⟨before, pData, now, later, rfl, hseq, hdec⟩ := ih h
      exact ⟨before, pData, now, later ++ [e], by simp, hseq, hdec⟩
    · obtain ⟨pData, now, rfl, hseq, hdec⟩ := accepted_step h
      exact ⟨es, pData, now, [], rfl, hseq, hdec⟩

/-- What playout owes for a run: between anchors every number in order and once,
played only from packets that arrived under it, concealed only with silence, and
the counters true. -/
structure Accounted (cfg : RxConfig) (r : RtpReceiver) (es : List Event) : Prop where
  inOrder : ∀ pre a mid post, (runEngine cfg r es).2 = pre ++ .anchored a :: (mid ++ post) →
    (∀ o ∈ mid, ¬ o.isAnchor) → accounts mid = consecutive a (accounts mid).length
  upToNext : ∀ pre a mid, (runEngine cfg r es).2 = pre ++ .anchored a :: mid → (∀ o ∈ mid, ¬ o.isAnchor) →
    (runEngine cfg r es).1.nNextSeq = a + BitVec.ofNat 16 (accounts mid).length
  genuine : ∀ pre nSeq vSamples post, (runEngine cfg r es).2 = pre ++ .played nSeq vSamples :: post →
    ∃ nLeg, .accepted nLeg nSeq vSamples ∈ pre
  received : ∀ nLeg nSeq vSamples, .accepted nLeg nSeq vSamples ∈ (runEngine cfg r es).2 →
    ∃ before pData now later, es = before ++ .packet nLeg pData now :: later ∧ rtpSeq pData = nSeq ∧
      decodeFrames cfg.session (runEngine cfg r before).1.monitor pData = vSamples
  silence : ∀ nSeq vSamples, .concealed nSeq vSamples ∈ (runEngine cfg r es).2 → vSamples = cfg.vSilence
  played : (runEngine cfg r es).1.nPlayed = (runEngine cfg r es).2.countP Outcome.isPlayed
  concealed : (runEngine cfg r es).1.nConcealed = (runEngine cfg r es).2.countP Outcome.isConcealed

/-- For every order of arrivals, ageing and playout steps. -/
theorem playout_accounts (cfg : RxConfig) (r : RtpReceiver) (es : List Event) : Accounted cfg r es := by
  have h := ledger_runEngine cfg r es
  refine ⟨?_, ?_, ?_, fun _ _ _ => accepted_runEngine, ?_, h.played, h.concealed⟩
  · intro pre a mid post houts hno
    have hprop := h.proper
    rw [houts, ← List.cons_append, ← List.append_assoc] at hprop
    have hmid := hprop.of_append
    rw [List.append_cons] at hmid
    simpa [advance] using (accounts_eq hmid hno).1
  · intro pre a mid houts hno
    have hprop := h.proper
    rw [houts, List.append_cons] at hprop
    have hnext := h.next
    rw [houts, List.append_cons, (accounts_eq hprop hno).2] at hnext
    simpa [advance] using hnext
  · intro pre nSeq vSamples post houts
    exact (h.proper pre _ post houts).2
  · intro nSeq vSamples hmem
    obtain ⟨pre, post, houts⟩ := List.append_of_mem hmem
    exact (h.proper pre _ post houts).2

end PiAudioNode.Rtp
