import PiAudioNode.Lib.Run
import PiAudioNode.Rtp.Receiver

/-! The loss counter of a leg against the packets of one stream: which numbers its units
stand for, and when none of them has arrived. -/
namespace PiAudioNode.Rtp
open Lib

/-- A packet of a stream, by its place in the stream. -/
structure LegArrival where
  nIndex : Int
  now : Time

/-- A leg with the places received on it, and the places its losses stand for. -/
structure LegBooks where
  leg : LegState
  received : List Int := []
  counted : List Int := []

/-- The places that follow one place. -/
def following (last : Int) (n : Nat) : List Int := (List.range n).map fun k : Nat => last + 1 + (k : Int)

namespace LegBooks

def last (b : LegBooks) : Int := b.received.getLastD 0

/-- What the counter gains stands for the places after the last one received. -/
def missed (base : BitVec 16) (b : LegBooks) (e : LegArrival) : List Int :=
  following b.last ((countArrival b.leg (shift base e.nIndex) e.now).nLost - b.leg.nLost)

def step (base : BitVec 16) (b : LegBooks) (e : LegArrival) : LegBooks where
  leg := countArrival b.leg (shift base e.nIndex) e.now
  received := b.received ++ [e.nIndex]
  counted := b.counted ++ b.missed base e

/-- No place is counted that has been received, or counted before. -/
def Sound (base : BitVec 16) (b : LegBooks) (e : LegArrival) : Prop :=
  (b.missed base e).Nodup ∧ ∀ n ∈ b.missed base e, n ∉ b.received ∧ n ∉ b.counted

/-- The difference the counter looks at. -/
def nDiff (base : BitVec 16) (b : LegBooks) (e : LegArrival) : Int := (shift base e.nIndex - b.leg.nLastSeq).toInt

/-- Where a gap is counted, the last packet is the newest of the leg. -/
def GapAfterNewest (base : BitVec 16) (b : LegBooks) (e : LegArrival) : Prop :=
  b.leg.bHaveSeq → 1 < b.nDiff base e → ∀ n ∈ b.received, n ≤ b.last

/-- Reordering and gaps stay below half of the numbers, from the last packet or the newest. -/
def Near (b : LegBooks) (e : LegArrival) : Prop :=
  b.received ≠ [] → |e.nIndex - b.last| < 32768 ∨
    ∃ newest ∈ b.received, (∀ n ∈ b.received, n ≤ newest) ∧ |e.nIndex - newest| < 32768

instance (base : BitVec 16) (b : LegBooks) (e : LegArrival) : Decidable (b.GapAfterNewest base e) :=
  inferInstanceAs (Decidable (_ → _ → _))

instance (b : LegBooks) (e : LegArrival) : Decidable (b.Near e) := inferInstanceAs (Decidable (_ → _ ∨ _))

end LegBooks

def booksAfter (base : BitVec 16) (leg : LegState) (es : List LegArrival) : LegBooks := run (LegBooks.step base) { leg } es

/-- Every unit of the counter stands for a place that was not received when it was
counted, and none is counted twice. -/
structure CountsLosses (base : BitVec 16) (leg : LegState) (es : List LegArrival) : Prop where
  units : (booksAfter base leg es).leg.nLost = leg.nLost + (booksAfter base leg es).counted.length
  sound : Admits (fun pre e => (booksAfter base leg pre).Sound base e) es
  once : (booksAfter base leg es).counted.Nodup

section Units
variable {base : BitVec 16} {b : LegBooks} {e : LegArrival}

theorem length_following (last : Int) (n : Nat) : (following last n).length = n := by
  simp [following]

theorem mem_following {last n : Int} {k : Nat} : n ∈ following last k ↔ last < n ∧ n ≤ last + k := by
  constructor
  · intro h
    obtain ⟨i, hi, rfl⟩ := List.mem_map.mp h
    have hlt := List.mem_range.mp hi
    omega
  · rintro ⟨hlow, hhigh⟩
    refine List.mem_map.mpr ⟨(n - last - 1).toNat, List.mem_range.mpr (by omega), by omega⟩

theorem nodup_following (last : Int) (n : Nat) : (following last n).Nodup := by
  refine List.Nodup.map (fun i j hij => ?_) List.nodup_range
  omega

theorem le_nLost_countArrival (leg : LegState) (nSeq : BitVec 16) (now : Time) :
    leg.nLost ≤ (countArrival leg nSeq now).nLost := by
  simp only [countArrival]
  split_ifs
  · omega
  · exact le_rfl

theorem missed_of_gap (hhave : b.leg.bHaveSeq) (hgap : 1 < b.nDiff base e) :
    b.missed base e = following b.last (b.nDiff base e - 1).toNat := by
  have hlost : (countArrival b.leg (shift base e.nIndex) e.now).nLost =
      b.leg.nLost + (b.nDiff base e - 1).toNat := if_pos ⟨hhave, hgap⟩
  rw [LegBooks.missed, hlost, Nat.add_sub_cancel_left]

theorem missed_of_no_gap (h : ¬ (b.leg.bHaveSeq ∧ 1 < b.nDiff base e)) : b.missed base e = [] := by
  have hlost : (countArrival b.leg (shift base e.nIndex) e.now).nLost = b.leg.nLost := if_neg h
  rw [LegBooks.missed, hlost, Nat.sub_self]
  rfl

end Units

/-- How the leg stands to its books. -/
structure Balanced (base : BitVec 16) (leg : LegState) (b : LegBooks) : Prop where
  haveSeq : b.leg.bHaveSeq ↔ b.received ≠ []
  lastSeq : b.received ≠ [] → b.leg.nLastSeq = shift base b.last
  units : b.leg.nLost = leg.nLost + b.counted.length

/-- What was counted is older than a packet received. -/
def Overtaken (b : LegBooks) : Prop := ∀ n ∈ b.counted, ∃ m ∈ b.received, n < m

/-- Every place from the first to the newest was received or counted. -/
def Filled (first : Int) (b : LegBooks) : Prop :=
  ∀ n, first ≤ n → (∃ m ∈ b.received, n ≤ m) → n ∈ b.received ∨ n ∈ b.counted

section Step
variable {base : BitVec 16} {leg : LegState} {b : LegBooks} {e : LegArrival}

@[simp] theorem last_step (base : BitVec 16) (b : LegBooks) (e : LegArrival) : (b.step base e).last = e.nIndex := by
  simp [LegBooks.last, LegBooks.step]

theorem balanced_start (base : BitVec 16) (h : leg.bHaveSeq = false) : Balanced base leg { leg } :=
  ⟨by simp [h], fun hne => absurd rfl hne, rfl⟩

theorem Balanced.step (h : Balanced base leg b) (e : LegArrival) : Balanced base leg (b.step base e) := by
  refine ⟨by simp [LegBooks.step, countArrival], fun _ => ?_, ?_⟩
  · rw [last_step]
    rfl
  · have hkept := le_nLost_countArrival b.leg (shift base e.nIndex) e.now
    have hunits := h.units
    simp only [LegBooks.step, LegBooks.missed, List.length_append, length_following]
    omega

/-- The difference is the distance from the last packet, cut to 16 bits. -/
theorem Balanced.nDiff_eq (h : Balanced base leg b) (hne : b.received ≠ []) (e : LegArrival) :
    b.nDiff base e = (e.nIndex - b.last).bmod (2 ^ 16) := by
  have hapart : shift base e.nIndex - shift base b.last = BitVec.ofInt 16 (e.nIndex - b.last) := by
    have hfrom : shift base e.nIndex = shift (shift base b.last) (e.nIndex - b.last) := by
      rw [shift_shift, add_sub_cancel]
    rw [hfrom, shift, BitVec.add_comm, BitVec.add_sub_cancel]
  rw [LegBooks.nDiff, h.lastSeq hne, hapart, BitVec.toInt_ofInt]

theorem last_mem (hne : b.received ≠ []) : b.last ∈ b.received := by
  rw [LegBooks.last, List.getLastD_eq_getLast?, List.getLast?_eq_some_getLast hne]
  exact List.getLast_mem hne

/-- Near the last packet the difference is the distance. -/
theorem Balanced.nDiff_of_close (h : Balanced base leg b) (hne : b.received ≠ [])
    (hclose : |e.nIndex - b.last| < 32768) : b.nDiff base e = e.nIndex - b.last := by
  obtain ⟨hlow, hhigh⟩ := abs_lt.mp hclose
  rw [h.nDiff_eq hne]
  exact Int.bmod_eq_of_le (by omega) (by omega)

theorem Balanced.missed_of_close (h : Balanced base leg b) (hne : b.received ≠ [])
    (hclose : |e.nIndex - b.last| < 32768) (hgap : 1 < e.nIndex - b.last) :
    b.missed base e = following b.last (e.nIndex - b.last - 1).toNat := by
  have hdiff := h.nDiff_of_close hne hclose
  rw [missed_of_gap (h.haveSeq.mpr hne) (hdiff ▸ hgap), hdiff]

theorem LegBooks.Near.close_of_newest (hnear : b.Near e) (hne : b.received ≠ []) (hnewest : ∀ n ∈ b.received, n ≤ b.last) :
    |e.nIndex - b.last| < 32768 := by
  rcases hnear hne with hlast | ⟨newest, hmem, hmax, hdist⟩
  · exact hlast
  · obtain rfl : newest = b.last := le_antisymm (hnewest newest hmem) (hmax _ (last_mem hne))
    exact hdist

/-- What a packet adds to the books: nothing, or the places between it and the newest one. -/
theorem Balanced.missed_cases (h : Balanced base leg b) (hnear : b.Near e) (hgap : b.GapAfterNewest base e) :
    b.missed base e = [] ∨
      (∀ n ∈ b.received, n ≤ b.last) ∧ b.missed base e = following b.last (e.nIndex - b.last - 1).toNat := by
  by_cases hcounts : b.leg.bHaveSeq ∧ 1 < b.nDiff base e
  · have hnewest := hgap hcounts.1 hcounts.2
    have hne := h.haveSeq.mp hcounts.1
    refine Or.inr ⟨hnewest, ?_⟩
    rw [missed_of_gap hcounts.1 hcounts.2, h.nDiff_of_close hne (hnear.close_of_newest hne hnewest)]
  · exact Or.inl (missed_of_no_gap hcounts)

theorem Balanced.sound (h : Balanced base leg b) (hold : Overtaken b) (hnear : b.Near e)
    (hgap : b.GapAfterNewest base e) : b.Sound base e := by
  rcases h.missed_cases hnear hgap with hnone | ⟨hnewest, hmissed⟩
  · simp [LegBooks.Sound, hnone]
  · refine ⟨hmissed ▸ nodup_following _ _, fun n hn => ?_⟩
    rw [hmissed, mem_following] at hn
    refine ⟨fun hreceived => ?_, fun hcounted => ?_⟩
    · have hle := hnewest n hreceived
      omega
    · obtain ⟨m, hm, hlt⟩ := hold n hcounted
      have hle := hnewest m hm
      omega

theorem Balanced.overtaken_step (h : Balanced base leg b) (hold : Overtaken b) (hnear : b.Near e)
    (hgap : b.GapAfterNewest base e) : Overtaken (b.step base e) := by
  intro n hn
  rcases List.mem_append.mp hn with hn | hn
  · obtain ⟨m, hm, hlt⟩ := hold n hn
    exact ⟨m, List.mem_append_left _ hm, hlt⟩
  · refine ⟨e.nIndex, List.mem_append_right _ (List.mem_singleton_self _), ?_⟩
    rcases h.missed_cases hnear hgap with hnone | ⟨-, hmissed⟩
    · rw [hnone] at hn
      cases hn
    · rw [hmissed, mem_following] at hn
      omega

theorem nodup_step (hnodup : b.counted.Nodup) (hsound : b.Sound base e) : (b.step base e).counted.Nodup := by
  refine List.Nodup.append hnodup hsound.1 fun n hcounted hmissed => ?_
  exact (hsound.2 n hmissed).2 hcounted

/-- Behind the newest packet no place is left that a sound gap could have. -/
theorem Filled.gapAfterNewest {first : Int} (hfilled : Filled first b) (h : Balanced base leg b)
    (holdest : ∀ n ∈ b.received, first ≤ n) (hclose : b.received ≠ [] → |e.nIndex - b.last| < 32768)
    (hsound : b.Sound base e) : b.GapAfterNewest base e := by
  intro hhave hgap n hn
  have hne := h.haveSeq.mp hhave
  have holdest := holdest b.last (last_mem hne)
  rw [h.nDiff_of_close hne (hclose hne)] at hgap
  by_contra hnewer
  have hnext : b.last + 1 ∈ b.missed base e := by
    rw [h.missed_of_close hne (hclose hne) hgap, mem_following]
    omega
  rcases hfilled (b.last + 1) (by omega) ⟨n, hn, by omega⟩ with hin | hin
  · exact (hsound.2 _ hnext).1 hin
  · exact (hsound.2 _ hnext).2 hin

/-- A packet ahead of all others leaves the places before it received or counted. -/
theorem Filled.step {first : Int} (hfilled : Filled first b) (h : Balanced base leg b) (hne : b.received ≠ [])
    (hclose : |e.nIndex - b.last| < 32768) : Filled first (b.step base e) := by
  rintro n hlow ⟨m, hm, hle⟩
  have hstep : (b.step base e).received = b.received ++ [e.nIndex] := rfl
  rw [hstep, List.mem_append, List.mem_singleton] at hm
  rw [hstep, List.mem_append, List.mem_singleton]
  by_cases hbehind : ∃ m ∈ b.received, n ≤ m
  · rcases hfilled n hlow hbehind with hin | hin
    · exact Or.inl (Or.inl hin)
    · exact Or.inr (List.mem_append_left _ hin)
  · have hlast : b.last < n := by
      by_contra hnot
      exact hbehind ⟨b.last, last_mem hne, by omega⟩
    obtain rfl : m = e.nIndex := by
      rcases hm with hm | hm
      · exact absurd ⟨m, hm, hle⟩ hbehind
      · exact hm
    rcases hle.eq_or_lt with heq | hlt
    · exact Or.inl (Or.inr heq)
    · refine Or.inr (List.mem_append_right _ ?_)
      rw [h.missed_of_close hne hclose (by omega), mem_following]
      omega

end Step

/-- Every packet is near the one before it, and none is older than the first. -/
structure StartsOldest (base : BitVec 16) (leg : LegState) (es : List LegArrival) : Prop where
  oldest : ∀ first ∈ es.head?, ∀ e ∈ es, first.nIndex ≤ e.nIndex
  close : Admits (fun pre e => pre ≠ [] → |e.nIndex - (booksAfter base leg pre).last| < 32768) es

section Runs
variable {base : BitVec 16} {leg : LegState} {es : List LegArrival}

theorem balanced_run (hfresh : leg.bHaveSeq = false) (es : List LegArrival) : Balanced base leg (booksAfter base leg es) :=
  invariant (balanced_start base hfresh) (fun _ e h => h.step e) es

theorem received_booksAfter (base : BitVec 16) (leg : LegState) (es : List LegArrival) :
    (booksAfter base leg es).received = es.map LegArrival.nIndex := by
  induction es using List.reverseRecOn with
  | nil => rfl
  | append_singleton es e ih =>
    rw [booksAfter, run_snoc, List.map_append, ← ih]
    rfl

/-- While gaps are counted after the newest packet only, the books stay right. -/
theorem countsLosses_of_newest (hfresh : leg.bHaveSeq = false)
    (hnear : Admits (fun pre e => (booksAfter base leg pre).Near e) es)
    (hgap : Admits (fun pre e => (booksAfter base leg pre).GapAfterNewest base e) es) :
    CountsLosses base leg es ∧ Overtaken (booksAfter base leg es) := by
  induction es using List.reverseRecOn with
  | nil =>
    have hnone : (booksAfter base leg []).counted = [] := rfl
    exact ⟨⟨(balanced_run hfresh []).units, admits_nil, by simp [hnone]⟩, by simp [Overtaken, hnone]⟩
  | append_singleton es e ih =>
    obtain ⟨hbefore, hold⟩ := ih hnear.of_append hgap.of_append
    have hbalanced : Balanced base leg (booksAfter base leg es) := balanced_run hfresh es
    have hsound := hbalanced.sound hold hnear.last hgap.last
    refine ⟨⟨(balanced_run hfresh _).units, hbefore.sound.snoc hsound, ?_⟩, ?_⟩
    · rw [booksAfter, run_snoc]
      exact nodup_step hbefore.once hsound
    · rw [booksAfter, run_snoc]
      exact hbalanced.overtaken_step hold hnear.last hgap.last

theorem Filled.start {first : Int} {e : LegArrival} (hfirst : first = e.nIndex) :
    Filled first (booksAfter base leg [e]) := by
  rintro n hlow ⟨m, hm, hle⟩
  have hreceived : (booksAfter base leg [e]).received = [e.nIndex] := rfl
  rw [hreceived, List.mem_singleton] at hm ⊢
  exact Or.inl (by omega)

/-- A stream that starts with its oldest packet leaves no hole behind the newest, so a gap
that is counted after another packet has a place in it that is settled. -/
theorem newest_of_sound (hfresh : leg.bHaveSeq = false) {first : Int} (hhead : ∀ f ∈ es.head?, first = f.nIndex)
    (hstart : StartsOldest base leg es) (hsound : Admits (fun pre e => (booksAfter base leg pre).Sound base e) es) :
    Admits (fun pre e => (booksAfter base leg pre).GapAfterNewest base e) es ∧
      (es ≠ [] → Filled first (booksAfter base leg es)) := by
  induction es using List.reverseRecOn with
  | nil => exact ⟨admits_nil, fun hne => absurd rfl hne⟩
  | append_singleton es e ih =>
    rcases List.eq_nil_or_concat es with rfl | ⟨front, back, hes⟩
    · refine ⟨admits_nil.snoc fun hhave => absurd hhave ?_, fun _ => Filled.start (hhead e rfl)⟩
      simp [booksAfter, hfresh]
    · have hne : es ≠ [] := by simp [hes]
      have hsame : (es ++ [e]).head? = es.head? := List.head?_append_of_ne_nil _ hne
      rw [hsame] at hhead
      have hbefore : StartsOldest base leg es :=
        ⟨fun f hf x hx => hstart.oldest f (hsame ▸ hf) x (List.mem_append_left _ hx), hstart.close.of_append⟩
      obtain ⟨hgaps, hfilled⟩ := ih hhead hbefore hsound.of_append
      have hbalanced : Balanced base leg (booksAfter base leg es) := balanced_run hfresh es
      have hreceived := received_booksAfter base leg es
      have hsome : (booksAfter base leg es).received ≠ [] := by simpa [hreceived] using hne
      have holdest : ∀ n ∈ (booksAfter base leg es).received, first ≤ n := by
        intro n hn
        rw [hreceived] at hn
        obtain ⟨x, hx, rfl⟩ := List.mem_map.mp hn
        have hf := List.head?_eq_some_head hne
        rw [hhead _ hf]
        exact hbefore.oldest _ hf x hx
      have hclose := hstart.close.last hne
      refine ⟨hgaps.snoc ((hfilled hne).gapAfterNewest hbalanced holdest (fun _ => hclose) hsound.last), fun _ => ?_⟩
      rw [booksAfter, run_snoc]
      exact (hfilled hne).step hbalanced hsome hclose

/-- On a leg that starts afresh, in a stream whose reordering and gaps stay below 32768:
the counter is right if every gap is counted after the newest packet. Where the stream starts
with its oldest packet, it is right in no other run. -/
theorem countsLosses_iff_newest (hfresh : leg.bHaveSeq = false)
    (hnear : Admits (fun pre e => (booksAfter base leg pre).Near e) es) :
    (Admits (fun pre e => (booksAfter base leg pre).GapAfterNewest base e) es → CountsLosses base leg es) ∧
    (StartsOldest base leg es → CountsLosses base leg es →
      Admits (fun pre e => (booksAfter base leg pre).GapAfterNewest base e) es) := by
  refine ⟨fun hgap => (countsLosses_of_newest hfresh hnear hgap).1, fun hstart hcounts => ?_⟩
  cases es with
  | nil => exact admits_nil
  | cons first rest =>
    have hhead : ∀ f ∈ (first :: rest).head?, first.nIndex = f.nIndex := by
      intro f hf
      rw [Option.some.inj hf]
    exact (newest_of_sound hfresh hhead hstart hcounts.sound).1

end Runs

/-- The packets of a stream at these places, a millisecond apart. -/
def arrivals (places : List Int) : List LegArrival := places.zipIdx.map fun x => ⟨x.1, 1000000 * x.2⟩

/-- Packet 11 comes late; then the gap before 13 is counted as 12, which is here. -/
theorem not_countsLosses_of_late : ¬ ∀ (base : BitVec 16) (leg : LegState) (es : List LegArrival), leg.bHaveSeq = false →
    Admits (fun pre e => (booksAfter base leg pre).Near e) es → CountsLosses base leg es := by
  intro hall
  have hnear : Admits (fun pre e => (booksAfter 0 {} pre).Near e) (arrivals [10, 12, 11, 13]) :=
    (((admits_nil.snoc (by decide)).snoc (by decide)).snoc (by decide)).snoc (by decide)
  have hsound := (hall 0 {} (arrivals [10, 12, 11, 13]) rfl hnear).sound (arrivals [10, 12, 11]) ⟨13, 3000000⟩ [] rfl
  have hmissed : (booksAfter 0 {} (arrivals [10, 12, 11])).missed 0 ⟨13, 3000000⟩ = [12] := by decide
  have hreceived : 12 ∈ (booksAfter 0 {} (arrivals [10, 12, 11])).received := by decide
  exact (hsound.2 12 (by rw [hmissed]; exact List.mem_singleton_self _)).1 hreceived

/-- Packet 11 is lost, 13 comes late and 14 twice. -/
theorem countsLosses_of_swap : CountsLosses 0 {} (arrivals [10, 12, 14, 13, 14, 15]) := by
  have hnear : Admits (fun pre e => (booksAfter 0 {} pre).Near e) (arrivals [10, 12, 14, 13, 14, 15]) :=
    (((((admits_nil.snoc (by decide)).snoc (by decide)).snoc (by decide)).snoc (by decide)).snoc (by decide)).snoc
      (by decide)
  refine (countsLosses_iff_newest rfl hnear).1 ?_
  exact (((((admits_nil.snoc (by decide)).snoc (by decide)).snoc (by decide)).snoc (by decide)).snoc (by decide)).snoc
    (by decide)

end PiAudioNode.Rtp
