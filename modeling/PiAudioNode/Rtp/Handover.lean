import Mathlib
import PiAudioNode.Lib.Run

/-! The anchor on its way from reception to playout: three atomics that one thread
sets and the other waits for, with every access a step of its own. -/
namespace PiAudioNode.Rtp
open Lib

/-- What a packet anchors the playout to. -/
structure FirstPacket where
  nSeq : BitVec 16
  nTs : BitVec 32
  deriving DecidableEq

/-- Where `HandlePacket` is, by its next access. -/
inductive RxPc where
  | idle
  | exchange (p : FirstPacket)
  | storeSeq (p : FirstPacket)
  | storeTs (p : FirstPacket)
  deriving DecidableEq

/-- Where `PlayoutLoop` is, by its next access. -/
inductive PlayPc where
  | start
  | readTs
  | readSeq
  | play
  | clear
  | park
  | readSeqAgain
  deriving DecidableEq

structure Handover where
  bHaveFirst : Bool := false
  nFirstSeq : BitVec 16
  nFirstTs : BitVec 32
  bReceiving : Bool := false
  rx : RxPc := .idle
  player : PlayPc := .start
  /-- The packet whose exchange set `bHaveFirst` last. -/
  setBy : Option FirstPacket := none

/-- One access. A packet that is dropped before the exchange, and a playout that is
not synced, skip theirs. -/
inductive Access where
  | arrive (p : FirstPacket)
  | drop
  | exchange
  | storeSeq
  | storeTs
  | silence
  | loadHaveFirst
  | readTs
  | skipTs
  | readSeq
  | loadReceiving
  | clearHaveFirst

/-- The first packet publishes the flag before the values the flag stands for. -/
def exchangeFirst (s : Handover) : Handover :=
  match s.rx with
  | .exchange p =>
    if s.bHaveFirst then { s with rx := .idle }
    else { s with bHaveFirst := true, setBy := some p, rx := .storeSeq p }
  | _ => s

/-- Either wait, left once the flag is seen. -/
def loadHaveFirst (s : Handover) : Handover :=
  if ¬ s.bHaveFirst then s
  else
    match s.player with
    | .start => { s with player := .readTs }
    | .park => { s with player := .readSeqAgain }
    | _ => s

/-- An access out of turn does not happen. -/
def Handover.step (s : Handover) : Access → Handover
  | .arrive p => if s.rx = .idle then { s with bReceiving := true, rx := .exchange p } else s
  | .drop => match s.rx with
    | .exchange _ => { s with rx := .idle }
    | _ => s
  | .exchange => exchangeFirst s
  | .storeSeq => match s.rx with
    | .storeSeq p => { s with nFirstSeq := p.nSeq, rx := .storeTs p }
    | _ => s
  | .storeTs => match s.rx with
    | .storeTs p => { s with nFirstTs := p.nTs, rx := .idle }
    | _ => s
  | .silence => if s.rx = .idle then { s with bReceiving := false } else s
  | .loadHaveFirst => loadHaveFirst s
  | .readTs => if s.player = .readTs then { s with player := .readSeq } else s
  | .skipTs => if s.player = .readTs then { s with player := .readSeq } else s
  | .readSeq => if s.player = .readSeq ∨ s.player = .readSeqAgain then { s with player := .play } else s
  | .loadReceiving => if s.player = .play ∧ ¬ s.bReceiving then { s with player := .clear } else s
  | .clearHaveFirst => if s.player = .clear then { s with bHaveFirst := false, player := .park } else s

/-- What reception and playout have left behind, whatever the interleaving: the
values are those of the packet that set the flag, but for the stores still to come. -/
structure Handed (s : Handover) : Prop where
  seen : s.bHaveFirst ∨ s.player ≠ .start → s.setBy.isSome
  first : ∀ p, s.rx = .storeSeq p ∨ s.rx = .storeTs p → s.setBy = some p
  seq : ∀ p, s.setBy = some p → (∀ q, s.rx ≠ .storeSeq q) → s.nFirstSeq = p.nSeq
  ts : ∀ p, s.setBy = some p → (∀ q, s.rx ≠ .storeSeq q) → (∀ q, s.rx ≠ .storeTs q) →
    s.nFirstTs = p.nTs

/-- No store is the next access. -/
def RxPc.Settled (rx : RxPc) : Prop := (∀ p, rx ≠ .storeSeq p) ∧ ∀ p, rx ≠ .storeTs p

theorem settled_idle : RxPc.Settled .idle := by simp [RxPc.Settled]

theorem settled_exchange (p : FirstPacket) : RxPc.Settled (.exchange p) := by simp [RxPc.Settled]

section Step
variable {s : Handover}

/-- Reception that stores nothing leaves the values as they are. -/
theorem Handed.received (h : Handed s) {rx : RxPc} (hfrom : s.rx.Settled) (hto : rx.Settled) (bReceiving : Bool) :
    Handed { s with bReceiving, rx } where
  seen := h.seen
  first p hp := by
    rcases hp with hp | hp
    · exact absurd hp (hto.1 p)
    · exact absurd hp (hto.2 p)
  seq p hp _ := h.seq p hp hfrom.1
  ts p hp _ _ := h.ts p hp hfrom.1 hfrom.2

/-- And so does playout, once there was a packet. -/
theorem Handed.played (h : Handed s) (hset : s.setBy.isSome) (bHaveFirst : Bool) (player : PlayPc) :
    Handed { s with bHaveFirst, player } :=
  ⟨fun _ => hset, h.first, h.seq, h.ts⟩

theorem Handed.published (p : FirstPacket) (s : Handover) :
    Handed { s with bHaveFirst := true, setBy := some p, rx := .storeSeq p } where
  seen _ := rfl
  first q hq := by
    rcases hq with hq | hq
    · rw [RxPc.storeSeq.inj hq]
    · cases hq
  seq q _ hno := absurd rfl (hno p)
  ts q _ hno := absurd rfl (hno p)

theorem Handed.storedSeq (h : Handed s) {p : FirstPacket} (hat : s.rx = .storeSeq p) :
    Handed { s with nFirstSeq := p.nSeq, rx := .storeTs p } := by
  have hset : s.setBy = some p := h.first p (Or.inl hat)
  refine ⟨h.seen, fun q hq => ?_, fun q hq _ => ?_, fun q _ _ hno => absurd rfl (hno p)⟩
  · rcases hq with hq | hq
    · cases hq
    · rw [← RxPc.storeTs.inj hq]
      exact hset
  · obtain rfl := Option.some.inj (hset.symm.trans hq)
    rfl

theorem Handed.storedTs (h : Handed s) {p : FirstPacket} (hat : s.rx = .storeTs p) :
    Handed { s with nFirstTs := p.nTs, rx := .idle } := by
  have hset : s.setBy = some p := h.first p (Or.inr hat)
  refine ⟨h.seen, fun q hq => ?_, fun q hq _ => h.seq q hq (by simp [hat]), fun q hq _ _ => ?_⟩
  · rcases hq with hq | hq <;> cases hq
  · obtain rfl := Option.some.inj (hset.symm.trans hq)
    rfl

theorem handed_step (h : Handed s) (a : Access) : Handed (s.step a) := by
  cases a with
  | arrive p =>
    simp only [Handover.step]
    split
    · next hidle => exact h.received (hidle ▸ settled_idle) (settled_exchange p) true
    · exact h
  | drop =>
    simp only [Handover.step]
    split
    · next p hat => exact h.received (hat ▸ settled_exchange p) settled_idle s.bReceiving
    · exact h
  | exchange =>
    simp only [Handover.step, exchangeFirst]
    split
    · next p hat =>
      split
      · exact h.received (hat ▸ settled_exchange p) settled_idle s.bReceiving
      · exact .published p s
    · exact h
  | storeSeq =>
    simp only [Handover.step]
    split
    · next p hat => exact h.storedSeq hat
    · exact h
  | storeTs =>
    simp only [Handover.step]
    split
    · next p hat => exact h.storedTs hat
    · exact h
  | silence =>
    simp only [Handover.step]
    split
    · next hidle => exact h.received (hidle ▸ settled_idle) (hidle ▸ settled_idle) false
    · exact h
  | loadHaveFirst =>
    simp only [Handover.step, loadHaveFirst]
    split
    · exact h
    · next hhave =>
      have hset := h.seen (Or.inl (not_not.mp hhave))
      split
      · exact h.played hset s.bHaveFirst .readTs
      · exact h.played hset s.bHaveFirst .readSeqAgain
      · exact h
  | readTs | skipTs | readSeq | loadReceiving | clearHaveFirst =>
    simp only [Handover.step]
    split
    · next hat =>
      have hstarted : s.player ≠ .start := by
        rintro hstart
        simp [hstart] at hat
      exact h.played (h.seen (Or.inr hstarted)) _ _
    · exact h

end Step

section
variable (nFirstSeq : BitVec 16) (nFirstTs : BitVec 32)

/-- The accesses so far, from the values an earlier session left. -/
def handedOver (as : List Access) : Handover := run Handover.step { nFirstSeq, nFirstTs } as

theorem handed_handedOver (as : List Access) : Handed (handedOver nFirstSeq nFirstTs as) := by
  rw [handedOver]
  refine invariant (I := Handed) ⟨?_, ?_, ?_, ?_⟩ (fun _ a h => handed_step h a) as
  all_goals simp

/-- What playout reads, once it has left its wait, is what the packet that set the
flag carries. -/
def ReadsAnchor (pre : List Access) (a : Access) : Prop :=
  let s := handedOver nFirstSeq nFirstTs pre
  (a = .readTs → s.player = .readTs → ∃ p, s.setBy = some p ∧ s.nFirstTs = p.nTs) ∧
    (a = .readSeq → s.player = .readSeq ∨ s.player = .readSeqAgain →
      ∃ p, s.setBy = some p ∧ s.nFirstSeq = p.nSeq)

/-- No store into the value about to be read is still to come, or it would store
what is there. -/
def Published (pre : List Access) (a : Access) : Prop :=
  let s := handedOver nFirstSeq nFirstTs pre
  (a = .readTs → s.player = .readTs → ∀ p, s.rx = .storeSeq p ∨ s.rx = .storeTs p → s.nFirstTs = p.nTs) ∧
    (a = .readSeq → s.player = .readSeq ∨ s.player = .readSeqAgain →
      ∀ p, s.rx = .storeSeq p → s.nFirstSeq = p.nSeq)

variable {nFirstSeq nFirstTs}

theorem Handed.reads_ts {s : Handover} (h : Handed s) (hplayer : s.player ≠ .start) :
    (∃ p, s.setBy = some p ∧ s.nFirstTs = p.nTs) ↔
      ∀ p, s.rx = .storeSeq p ∨ s.rx = .storeTs p → s.nFirstTs = p.nTs := by
  constructor
  · rintro ⟨p, hp, hts⟩ q hq
    rw [h.first q hq] at hp
    rw [hts, Option.some.inj hp]
  · intro hstored
    obtain ⟨p, hp⟩ := Option.isSome_iff_exists.mp (h.seen (Or.inr hplayer))
    refine ⟨p, hp, ?_⟩
    by_cases hrx : ∃ q, s.rx = .storeSeq q ∨ s.rx = .storeTs q
    · obtain ⟨q, hq⟩ := hrx
      have hsame := h.first q hq
      rw [hp] at hsame
      rw [hstored q hq, Option.some.inj hsame]
    · exact h.ts p hp (fun q hq => hrx ⟨q, Or.inl hq⟩) fun q hq => hrx ⟨q, Or.inr hq⟩

theorem Handed.reads_seq {s : Handover} (h : Handed s) (hplayer : s.player ≠ .start) :
    (∃ p, s.setBy = some p ∧ s.nFirstSeq = p.nSeq) ↔ ∀ p, s.rx = .storeSeq p → s.nFirstSeq = p.nSeq := by
  constructor
  · rintro ⟨p, hp, hseq⟩ q hq
    rw [h.first q (Or.inl hq)] at hp
    rw [hseq, Option.some.inj hp]
  · intro hstored
    obtain ⟨p, hp⟩ := Option.isSome_iff_exists.mp (h.seen (Or.inr hplayer))
    refine ⟨p, hp, ?_⟩
    by_cases hrx : ∃ q, s.rx = .storeSeq q
    · obtain ⟨q, hq⟩ := hrx
      have hsame := h.first q (Or.inl hq)
      rw [hp] at hsame
      rw [hstored q hq, Option.some.inj hsame]
    · exact h.seq p hp fun q hq => hrx ⟨q, hq⟩

/-- Playout reads the anchor of the packet that set the flag exactly when reception
has stored it by then. -/
theorem readsAnchor_iff (nFirstSeq : BitVec 16) (nFirstTs : BitVec 32) (as : List Access) :
    Admits (ReadsAnchor nFirstSeq nFirstTs) as ↔ Admits (Published nFirstSeq nFirstTs) as := by
  refine admits_congr (fun pre a _ => ?_) as
  have h := handed_handedOver nFirstSeq nFirstTs pre
  refine and_congr (imp_congr_right fun _ => imp_congr_right fun hplayer => h.reads_ts ?_)
    (imp_congr_right fun _ => imp_congr_right fun hplayer => h.reads_seq ?_)
  · rw [hplayer]
    decide
  · rcases hplayer with hplayer | hplayer <;>
    · rw [hplayer]
      decide

end

/-- A synced playout sees the flag between the exchange and the stores. -/
def earlyRead : List Access := [.arrive ⟨5, 960⟩, .exchange, .loadHaveFirst, .readTs]

theorem earlyRead_stale : ¬ Admits (ReadsAnchor 0 0) earlyRead := by
  intro h
  have hlast : ReadsAnchor 0 0 [.arrive ⟨5, 960⟩, .exchange, .loadHaveFirst] .readTs := Admits.last h
  obtain ⟨p, hp, hts⟩ := hlast.1 rfl rfl
  obtain rfl : ⟨5, 960⟩ = p := Option.some.inj hp
  exact absurd hts (by decide)

end PiAudioNode.Rtp
