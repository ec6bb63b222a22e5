import Mathlib
import PiAudioNode.Lib.Word

/-! Announce datasets and their comparison: the attributes of the grandmaster in
order, or the topology where both name the same grandmaster. -/
namespace PiAudioNode.Ptp
open Lib

/-- Eight octets, ordered as an array of unsigned octets is. -/
abbrev ClockIdentity := {bytes : Bytes // bytes.length = 8}

def hexByte (b : Byte) : String := String.ofList [Nat.digitChar (b.toNat / 16), Nat.digitChar (b.toNat % 16)]

def identityToString (id : ClockIdentity) : String := ":".intercalate (id.val.map hexByte)

/-- What holds of hexadecimal digits and the colon holds throughout a printed identity. -/
theorem forall_identityToString {p : Char → Prop} (hcolon : p ':') (hdigit : ∀ n < 16, p (Nat.digitChar n))
    (id : ClockIdentity) : ∀ c ∈ (identityToString id).toList, p c := by
  have hbytes (bytes : Bytes) : ∀ c ∈ (":".intercalate (bytes.map hexByte)).toList, p c := by
    induction bytes with
    | nil => simp
    | cons b bytes ih =>
      have hbyte : ∀ c ∈ (hexByte b).toList, p c := by
        simp only [hexByte, String.toList_ofList, List.mem_cons, List.not_mem_nil, or_false, forall_eq_or_imp, forall_eq]
        exact ⟨hdigit _ (by omega), hdigit _ (by omega)⟩
      by_cases hlast : bytes = []
      · rwa [hlast, List.map_cons, List.map_nil, String.intercalate_singleton]
      · intro c hc
        rw [List.map_cons, String.intercalate_cons_of_ne_nil (by simpa using hlast), String.toList_append,
          String.toList_append, List.mem_append, List.mem_append] at hc
        rcases hc with (hc | hc) | hc
        · exact hbyte c hc
        · obtain rfl := List.mem_singleton.mp hc
          exact hcolon
        · exact ih c hc
  exact hbytes id.val

theorem identityToString_ne_empty (id : ClockIdentity) : identityToString id ≠ "" := by
  obtain ⟨bytes, hlength⟩ := id
  obtain ⟨b, rest, rfl⟩ := List.exists_cons_of_length_pos (by omega : 0 < bytes.length)
  have hrest : rest.map hexByte ≠ [] := by
    intro hnil
    simp [List.map_eq_nil_iff.mp hnil] at hlength
  intro hempty
  have hchars := congrArg String.toList hempty
  rw [identityToString, List.map_cons, String.intercalate_cons_of_ne_nil hrest] at hchars
  simp [hexByte] at hchars

instance : Inhabited ClockIdentity := ⟨⟨List.replicate 8 0, rfl⟩⟩

structure PortIdentity where
  clockIdentity : ClockIdentity := default
  nPort : BitVec 16 := 0
  deriving DecidableEq, Inhabited

/-- The member-wise order, clock identity first. -/
def PortIdentity.key (p : PortIdentity) : ClockIdentity ×ₗ BitVec 16 := toLex (p.clockIdentity, p.nPort)

theorem PortIdentity.key_injective : Function.Injective PortIdentity.key := by
  rintro ⟨a, m⟩ ⟨b, n⟩ h
  obtain ⟨rfl, rfl⟩ := Prod.mk.inj (toLex.injective h)
  rfl

instance : LinearOrder PortIdentity := LinearOrder.lift' PortIdentity.key PortIdentity.key_injective

instance : Std.LawfulEqOrd PortIdentity := ⟨fun h => compare_eq_iff_eq.mp h⟩

structure AnnounceDataset where
  source : PortIdentity := {}
  nPriority1 : BitVec 8 := 255
  nClockClass : BitVec 8 := 255
  nClockAccuracy : BitVec 8 := 0xFE
  nOffsetScaledLogVariance : BitVec 16 := 0xFFFF
  nPriority2 : BitVec 8 := 255
  grandmasterIdentity : ClockIdentity := default
  nStepsRemoved : BitVec 16 := 0
  nTimeSource : BitVec 8 := 0xA0
  nUtcOffset : Int := 37
  bLeap61 : Bool := false
  bLeap59 : Bool := false
  bUtcValid : Bool := false
  bTimeTraceable : Bool := false
  bFreqTraceable : Bool := false
  deriving DecidableEq

/-- Which of two datasets wins, and the field on which the decision fell. -/
structure Comparison where
  nResult : Int
  sDecidingField : String
  deriving DecidableEq

/-- The verdict of one field known to differ. -/
def decideOn {β : Type} [LinearOrder β] (field : String) (a b : β) : Comparison :=
  ⟨if a < b then -1 else 1, field⟩

def compareDatasets (a b : AnnounceDataset) : Comparison :=
  if a.grandmasterIdentity ≠ b.grandmasterIdentity then
    if a.nPriority1 ≠ b.nPriority1 then decideOn "priority1" a.nPriority1 b.nPriority1
    else if a.nClockClass ≠ b.nClockClass then decideOn "clockClass" a.nClockClass b.nClockClass
    else if a.nClockAccuracy ≠ b.nClockAccuracy then decideOn "clockAccuracy" a.nClockAccuracy b.nClockAccuracy
    else if a.nOffsetScaledLogVariance ≠ b.nOffsetScaledLogVariance then
      decideOn "offsetScaledLogVariance" a.nOffsetScaledLogVariance b.nOffsetScaledLogVariance
    else if a.nPriority2 ≠ b.nPriority2 then decideOn "priority2" a.nPriority2 b.nPriority2
    else decideOn "grandmasterIdentity" a.grandmasterIdentity b.grandmasterIdentity
  else if a.nStepsRemoved ≠ b.nStepsRemoved then decideOn "stepsRemoved" a.nStepsRemoved b.nStepsRemoved
  else if a.source.clockIdentity ≠ b.source.clockIdentity then
    decideOn "senderIdentity" a.source.clockIdentity b.source.clockIdentity
  else if a.source.nPort ≠ b.source.nPort then decideOn "senderPort" a.source.nPort b.source.nPort
  else ⟨0, "identical"⟩

def Beats (a b : AnnounceDataset) : Prop := (compareDatasets a b).nResult < 0

instance : DecidableRel Beats := fun a b => inferInstanceAs (Decidable ((compareDatasets a b).nResult < 0))

@[simp] theorem decideOn_neg {β : Type} [LinearOrder β] {a b : β} {field : String} :
    (decideOn field a b).nResult < 0 ↔ a < b := by
  unfold decideOn
  split <;> simp_all

/-- What a dataset says of its grandmaster. -/
structure AnnounceDataset.Agree (a b : AnnounceDataset) : Prop where
  priority1 : a.nPriority1 = b.nPriority1
  clockClass : a.nClockClass = b.nClockClass
  clockAccuracy : a.nClockAccuracy = b.nClockAccuracy
  variance : a.nOffsetScaledLogVariance = b.nOffsetScaledLogVariance
  priority2 : a.nPriority2 = b.nPriority2

abbrev Rank := BitVec 8 ×ₗ BitVec 8 ×ₗ BitVec 8 ×ₗ BitVec 16 ×ₗ BitVec 8 ×ₗ ClockIdentity ×ₗ BitVec 16 ×ₗ PortIdentity

/-- All ten fields in one lexicographic order, topology last. -/
def AnnounceDataset.rank (a : AnnounceDataset) : Rank :=
  toLex (a.nPriority1, toLex (a.nClockClass, toLex (a.nClockAccuracy, toLex (a.nOffsetScaledLogVariance,
    toLex (a.nPriority2, toLex (a.grandmasterIdentity, toLex (a.nStepsRemoved, a.source)))))))

theorem PortIdentity.lt_iff (p q : PortIdentity) :
    p < q ↔ p.clockIdentity < q.clockIdentity ∨ p.clockIdentity = q.clockIdentity ∧ p.nPort < q.nPort :=
  Prod.Lex.lt_iff (x := p.key) (y := q.key)

/-- Among datasets that agree on a grandmaster they share, the two regimes of the
comparison are one order. -/
theorem beats_iff_rank {a b : AnnounceDataset}
    (h : a.grandmasterIdentity = b.grandmasterIdentity → a.Agree b) : Beats a b ↔ a.rank < b.rank := by
  unfold Beats compareDatasets AnnounceDataset.rank
  simp only [Prod.Lex.toLex_lt_toLex, PortIdentity.lt_iff]
  by_cases hg : a.grandmasterIdentity = b.grandmasterIdentity
  · obtain ⟨h1, h2, h3, h4, h5⟩ := h hg
    by_cases hs : a.nStepsRemoved = b.nStepsRemoved
    · by_cases hc : a.source.clockIdentity = b.source.clockIdentity
      · by_cases hp : a.source.nPort = b.source.nPort <;> simp [h1, h2, h3, h4, h5, hg, hs, hc, hp]
      · simp [h1, h2, h3, h4, h5, hg, hs, hc]
    · simp [h1, h2, h3, h4, h5, hg, hs]
  · by_cases h1 : a.nPriority1 = b.nPriority1
    · by_cases h2 : a.nClockClass = b.nClockClass
      · by_cases h3 : a.nClockAccuracy = b.nClockAccuracy
        · by_cases h4 : a.nOffsetScaledLogVariance = b.nOffsetScaledLogVariance
          · by_cases h5 : a.nPriority2 = b.nPriority2 <;> simp [hg, h1, h2, h3, h4, h5]
          · simp [hg, h1, h2, h3, h4]
        · simp [hg, h1, h2, h3]
      · simp [hg, h1, h2]
    · simp [hg, h1]

theorem AnnounceDataset.source_eq_of_rank {a b : AnnounceDataset} (h : a.rank = b.rank) : a.source = b.source := by
  simp only [AnnounceDataset.rank, EmbeddingLike.apply_eq_iff_eq, Prod.mk.injEq] at h
  exact h.2.2.2.2.2.2.2

/-- The verdict as the other side states it. -/
def Comparison.swap (c : Comparison) : Comparison := { c with nResult := -c.nResult }

theorem decideOn_swap {β : Type} [LinearOrder β] {a b : β} (h : a ≠ b) (field : String) :
    decideOn field a b = (decideOn field b a).swap := by
  rcases lt_or_gt_of_ne h with hlt | hgt
  · simp only [decideOn, Comparison.swap, hlt, hlt.not_gt, if_true, if_false]
  · simp only [decideOn, Comparison.swap, hgt, hgt.not_gt, if_true, if_false, neg_neg]

/-- One level of either regime: it asks of its field only whether it differs. -/
theorem level_swap {β : Type} [LinearOrder β] {x y : β} [Decidable (x = y)] [Decidable (y = x)] {field : String}
    {c d : Comparison} (h : c = d.swap) :
    (if x ≠ y then decideOn field x y else c) = (if y ≠ x then decideOn field y x else d).swap := by
  by_cases heq : x = y
  · rw [if_neg (not_not_intro heq), if_neg (not_not_intro heq.symm), h]
  · rw [if_pos heq, if_pos (Ne.symm heq), decideOn_swap heq]

theorem compareDatasets_swap (a b : AnnounceDataset) : compareDatasets a b = (compareDatasets b a).swap := by
  unfold compareDatasets
  by_cases hgm : a.grandmasterIdentity = b.grandmasterIdentity
  · rw [if_neg (not_not_intro hgm), if_neg (not_not_intro hgm.symm)]
    apply level_swap
    apply level_swap
    apply level_swap
    rfl
  · rw [if_pos hgm, if_pos (Ne.symm hgm)]
    apply level_swap
    apply level_swap
    apply level_swap
    apply level_swap
    apply level_swap
    exact decideOn_swap hgm _

/-- No two datasets beat each other, consistent or not. -/
theorem Beats.asymm {a b : AnnounceDataset} (h : Beats a b) : ¬ Beats b a := by
  intro hback
  have hswap : (compareDatasets a b).nResult = -(compareDatasets b a).nResult := by rw [compareDatasets_swap]; rfl
  have ha : (compareDatasets a b).nResult < 0 := h
  have hb : (compareDatasets b a).nResult < 0 := hback
  omega

/-- Datasets of one grandmaster tell the same of it. -/
def OneDescription (table : Set AnnounceDataset) : Prop :=
  ∀ a ∈ table, ∀ b ∈ table, a.grandmasterIdentity = b.grandmasterIdentity → a.Agree b

theorem AnnounceDataset.topology_eq_of_rank {a b : AnnounceDataset} (h : a.rank = b.rank) :
    (a.grandmasterIdentity, a.nStepsRemoved, a.source) = (b.grandmasterIdentity, b.nStepsRemoved, b.source) := by
  simp only [AnnounceDataset.rank, EmbeddingLike.apply_eq_iff_eq, Prod.mk.injEq] at h
  obtain ⟨-, -, -, -, -, hgm, hsteps, hsource⟩ := h
  rw [hgm, hsteps, hsource]

/-- The comparison is its own mirror image, and an order wherever a grandmaster has one
description. -/
theorem compareDatasets_order :
    (∀ a b : AnnounceDataset, (compareDatasets a b).nResult = -(compareDatasets b a).nResult ∧
      (compareDatasets a b).sDecidingField = (compareDatasets b a).sDecidingField) ∧
    ∀ table : Set AnnounceDataset, OneDescription table →
      (∀ a ∈ table, ∀ b ∈ table, ∀ c ∈ table, Beats a b → Beats b c → Beats a c) ∧
      ∀ a ∈ table, ∀ b ∈ table,
        (a.grandmasterIdentity, a.nStepsRemoved, a.source) ≠ (b.grandmasterIdentity, b.nStepsRemoved, b.source) →
        Beats a b ∧ ¬ Beats b a ∨ Beats b a ∧ ¬ Beats a b := by
  constructor
  · intro a b
    rw [compareDatasets_swap a b]
    exact ⟨rfl, rfl⟩
  intro table hone
  constructor
  · intro a ha b hb c hc hab hbc
    have hab := (beats_iff_rank (hone a ha b hb)).mp hab
    have hbc := (beats_iff_rank (hone b hb c hc)).mp hbc
    exact (beats_iff_rank (hone a ha c hc)).mpr (hab.trans hbc)
  · intro a ha b hb hne
    have hrank : a.rank ≠ b.rank := fun h => hne (AnnounceDataset.topology_eq_of_rank h)
    rcases lt_or_gt_of_ne hrank with hlt | hgt
    · have hbeats := (beats_iff_rank (hone a ha b hb)).mpr hlt
      exact Or.inl ⟨hbeats, hbeats.asymm⟩
    · have hbeats := (beats_iff_rank (hone b hb a ha)).mpr hgt
      exact Or.inr ⟨hbeats, hbeats.asymm⟩

/-- Two paths to one grandmaster. -/
theorem compareDatasets_order_paths :
    Beats { nStepsRemoved := 1 } { nStepsRemoved := 2 } ∧ ¬ Beats { nStepsRemoved := 2 } { nStepsRemoved := 1 } ∨
      Beats { nStepsRemoved := 2 } { nStepsRemoved := 1 } ∧ ¬ Beats { nStepsRemoved := 1 } { nStepsRemoved := 2 } := by
  have hone : OneDescription {{ nStepsRemoved := 1 }, { nStepsRemoved := 2 }} := by
    rintro a (rfl | rfl) b (rfl | rfl) -
    all_goals exact ⟨rfl, rfl, rfl, rfl, rfl⟩
  exact (compareDatasets_order.2 _ hone).2 _ (Or.inl rfl) _ (Or.inr rfl) (by decide)

/-- There is no verdict exactly where the topology is the same. -/
theorem nResult_eq_zero_iff {a b : AnnounceDataset} :
    (compareDatasets a b).nResult = 0 ↔ a.grandmasterIdentity = b.grandmasterIdentity ∧
      a.nStepsRemoved = b.nStepsRemoved ∧ a.source = b.source := by
  have hdecided {β : Type} [LinearOrder β] (x y : β) (field : String) : (decideOn field x y).nResult ≠ 0 := by
    unfold decideOn
    split <;> simp
  have hsource : a.source = b.source ↔
      a.source.clockIdentity = b.source.clockIdentity ∧ a.source.nPort = b.source.nPort := PortIdentity.mk.injEq _ _ _ _ ▸ Iff.rfl
  rw [hsource]
  unfold compareDatasets
  split_ifs with hgm _ _ _ _ _ hsteps hclock hport <;> simp_all

end PiAudioNode.Ptp
