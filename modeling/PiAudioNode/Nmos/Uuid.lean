import Mathlib.Data.List.Basic
import Mathlib.Tactic.IntervalCases
import PiAudioNode.Nmos.Resources

/-! The identifiers of the node: a hash of a name, stamped as a name based identifier. -/
namespace PiAudioNode.Nmos

def hexDigits : List Char := ['0', '1', '2', '3', '4', '5', '6', '7', '8', '9', 'a', 'b', 'c', 'd', 'e', 'f']

/-- A hash as text: 32 digits. -/
structure Md5 where
  hash : String → List Char
  length_hash : ∀ sSeed, (hash sSeed).length = 32
  digits : ∀ sSeed, ∀ c ∈ hash sSeed, c ∈ hexDigits

/-- The variant in the upper two bits of a digit. -/
def variantDigit (c : Char) : Char := hexDigits.getD (hexDigits.idxOf c % 4 ||| 8) '0'

/-- Five groups with dashes between them. -/
def grouped (s : List Char) : List Char :=
  s.take 8 ++ '-' :: ((s.drop 8).take 4 ++ '-' :: ((s.drop 12).take 4 ++ '-' :: ((s.drop 16).take 4 ++ '-' :: s.drop 20)))

/-- The digits with the version and the variant in their places. -/
def stamped (s : List Char) : List Char := (s.set 12 '3').set 16 (variantDigit (s.getD 16 '0'))

def makeUuid (md5 : Md5) (sSeed : String) : List Char := grouped (stamped (md5.hash sSeed))

/-- The text of a version 3 identifier. -/
structure IsUuid3 (s : List Char) : Prop where
  length : s.length = 36
  dashes : ∀ i, s[i]? = some '-' ↔ i ∈ [8, 13, 18, 23]
  digits : ∀ c ∈ s, c = '-' ∨ c ∈ hexDigits
  version : s[14]? = some '3'
  variant : ∃ c ∈ ['8', '9', 'a', 'b'], s[19]? = some c

section Stamps
variable {s t : List Char} {c d : Char}

theorem variantDigit_mem (c : Char) : variantDigit c ∈ ['8', '9', 'a', 'b'] := by
  have hlow : hexDigits.idxOf c % 4 < 4 := Nat.mod_lt _ (by norm_num)
  rw [variantDigit]
  generalize hexDigits.idxOf c % 4 = n at hlow
  interval_cases n <;> decide

theorem variantDigit_inj : variantDigit c = variantDigit d ↔ hexDigits.idxOf c % 4 = hexDigits.idxOf d % 4 := by
  have hc : hexDigits.idxOf c % 4 < 4 := Nat.mod_lt _ (by norm_num)
  have hd : hexDigits.idxOf d % 4 < 4 := Nat.mod_lt _ (by norm_num)
  rw [variantDigit, variantDigit]
  generalize hexDigits.idxOf c % 4 = m at hc
  generalize hexDigits.idxOf d % 4 = n at hd
  interval_cases m <;> interval_cases n <;> decide

theorem length_stamped (s : List Char) : (stamped s).length = s.length := by
  rw [stamped, List.length_set, List.length_set]

theorem stamped_digits (h : ∀ c ∈ s, c ∈ hexDigits) : ∀ c ∈ stamped s, c ∈ hexDigits := by
  intro c hc
  have hvariant : ['8', '9', 'a', 'b'] ⊆ hexDigits := by decide
  rcases List.mem_or_eq_of_mem_set hc with hc | rfl
  · rcases List.mem_or_eq_of_mem_set hc with hc | rfl
    · exact h c hc
    · decide
  · exact hvariant (variantDigit_mem _)

theorem getElem?_stamped (h : s.length = 32) (i : Nat) : (stamped s)[i]? =
    if i = 12 then some '3' else if i = 16 then some (variantDigit (s.getD 16 '0')) else s[i]? := by
  rw [stamped, List.getElem?_set, List.getElem?_set]
  simp only [List.length_set, h]
  by_cases h12 : i = 12
  · subst h12
    simp
  · by_cases h16 : i = 16
    · subst h16
      simp
    · rw [if_neg (Ne.symm h16), if_neg (Ne.symm h12), if_neg h12, if_neg h16]

theorem getElem?_append_cons (front rest : List Char) (c : Char) (i : Nat) : (front ++ c :: rest)[i]? =
    if i < front.length then front[i]? else if i = front.length then some c else rest[i - (front.length + 1)]? := by
  split_ifs with hin hat
  · exact List.getElem?_append_left hin
  · rw [hat, List.getElem?_append_right le_rfl, Nat.sub_self]
    rfl
  · obtain ⟨k, rfl⟩ : ∃ k, i = front.length + 1 + k := ⟨i - (front.length + 1), by omega⟩
    rw [List.getElem?_append_right (by omega), Nat.add_assoc, Nat.add_sub_cancel_left, Nat.add_comm 1 k,
      List.getElem?_cons_succ]
    congr 1
    omega

/-- Where the dashes push the digits. -/
theorem getElem?_grouped (h : s.length = 32) (i : Nat) : (grouped s)[i]? =
    if i < 8 then s[i]? else if i = 8 then some '-' else if i < 13 then s[i - 1]? else if i = 13 then some '-'
    else if i < 18 then s[i - 2]? else if i = 18 then some '-' else if i < 23 then s[i - 3]?
    else if i = 23 then some '-' else s[i - 4]? := by
  have hfirst : (s.take 8).length = 8 := by simp [h]
  have hsecond : ((s.drop 8).take 4).length = 4 := by simp [h]
  have hthird : ((s.drop 12).take 4).length = 4 := by simp [h]
  have hfourth : ((s.drop 16).take 4).length = 4 := by simp [h]
  simp only [grouped, getElem?_append_cons, hfirst, hsecond, hthird, hfourth]
  split_ifs <;> try omega
  all_goals try rfl
  · exact List.getElem?_take_of_lt (by omega)
  all_goals
    simp only [List.getElem?_take, List.getElem?_drop]
    try rw [if_pos (by omega)]
    congr 1
    omega

/-- The digits are read back when the dashes are taken out. -/
theorem filter_grouped (h : '-' ∉ s) : (grouped s).filter (· ≠ '-') = s := by
  have hkeep {part : List Char} (hpart : part ⊆ s) : part.filter (· ≠ '-') = part := by
    apply List.filter_eq_self.mpr
    intro c hc
    exact decide_eq_true fun heq => h (heq ▸ hpart hc)
  have hgroup (n m : Nat) : ((s.drop n).take m).filter (· ≠ '-') = (s.drop n).take m :=
    hkeep (List.Subset.trans (List.take_subset m _) (List.drop_subset n s))
  have hdash (rest : List Char) : ('-' :: rest).filter (· ≠ '-') = rest.filter (· ≠ '-') := by
    rw [List.filter_cons_of_neg (by decide)]
  have hnext (n : Nat) : (s.drop n).take 4 ++ s.drop (n + 4) = s.drop n := by
    rw [← List.drop_drop, List.take_append_drop]
  rw [grouped]
  simp only [List.filter_append, hdash]
  rw [hkeep (List.take_subset 8 s), hgroup, hgroup, hgroup, hkeep (List.drop_subset 20 s), hnext 16, hnext 12, hnext 8,
    List.take_append_drop]

theorem grouped_inj (hs : '-' ∉ s) (ht : '-' ∉ t) : grouped s = grouped t ↔ s = t := by
  constructor
  · intro h
    rw [← filter_grouped hs, ← filter_grouped ht, h]
  · exact congrArg grouped

/-- What the stamps leave of the digits. -/
def SameIdentity (s t : List Char) : Prop :=
  (∀ i, i ≠ 12 → i ≠ 16 → s[i]? = t[i]?) ∧ hexDigits.idxOf (s.getD 16 '0') % 4 = hexDigits.idxOf (t.getD 16 '0') % 4

theorem stamped_eq_iff (hs : s.length = 32) (ht : t.length = 32) : stamped s = stamped t ↔ SameIdentity s t := by
  have hext : stamped s = stamped t ↔ ∀ i, (stamped s)[i]? = (stamped t)[i]? :=
    ⟨fun h i => by rw [h], List.ext_getElem?⟩
  rw [hext]
  simp only [getElem?_stamped hs, getElem?_stamped ht]
  constructor
  · intro h
    constructor
    · intro i h12 h16
      have hi := h i
      rwa [if_neg h12, if_neg h16, if_neg h12, if_neg h16] at hi
    · have hvariant := h 16
      rw [if_neg (by decide), if_pos rfl, if_neg (by decide), if_pos rfl] at hvariant
      exact variantDigit_inj.mp (Option.some.inj hvariant)
  · rintro ⟨hrest, hvariant⟩ i
    by_cases h12 : i = 12
    · rw [if_pos h12, if_pos h12]
    · by_cases h16 : i = 16
      · rw [if_neg h12, if_pos h16, if_neg h12, if_pos h16, variantDigit_inj.mpr hvariant]
      · rw [if_neg h12, if_neg h16, if_neg h12, if_neg h16, hrest i h12 h16]

theorem not_mem_of_digits (h : ∀ c ∈ s, c ∈ hexDigits) : '-' ∉ s := by
  intro hdash
  exact absurd (h '-' hdash) (by decide)

end Stamps

section Identifiers
variable {s : List Char}

theorem getElem?_ne_dash (h : ∀ c ∈ s, c ∈ hexDigits) (i : Nat) : s[i]? ≠ some '-' := by
  intro hdash
  exact not_mem_of_digits h (List.mem_of_getElem? hdash)

theorem isUuid3_grouped (hlength : s.length = 32) (h : ∀ c ∈ s, c ∈ hexDigits) (hversion : s[12]? = some '3')
    (hvariant : ∃ c ∈ ['8', '9', 'a', 'b'], s[16]? = some c) : IsUuid3 (grouped s) where
  length := by
    simp [grouped, hlength]
  dashes i := by
    rw [getElem?_grouped hlength]
    have hne := getElem?_ne_dash h
    split_ifs <;> simp [hne] <;> omega
  digits c hc := by
    by_cases hdash : c = '-'
    · exact Or.inl hdash
    · have hmem : c ∈ (grouped s).filter (· ≠ '-') := List.mem_filter.mpr ⟨hc, decide_eq_true hdash⟩
      rw [filter_grouped (not_mem_of_digits h)] at hmem
      exact Or.inr (h c hmem)
  version := by
    rw [getElem?_grouped hlength]
    exact hversion
  variant := by
    rw [getElem?_grouped hlength]
    exact hvariant

end Identifiers

end PiAudioNode.Nmos
