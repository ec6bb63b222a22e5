import PiAudioNode.Lib.Format
import PiAudioNode.Web.Network

/-! Which texts pass for an address. The format that checks them takes more than the
addresses that it is written for: blanks, signs, and numbers that wrap into their range. -/
namespace PiAudioNode.Web
open Lib Rtp

/-- A decimal number within bounds, and nothing but its digits. Zeros may come first. -/
structure IsNumber (nLow nHigh : Nat) (sNumber : List Char) : Prop where
  ne_nil : sNumber ≠ []
  isDigit : ∀ c ∈ sNumber, c.isDigit
  low : nLow ≤ Nat.ofDigitChars 10 sNumber 0
  high : Nat.ofDigitChars 10 sNumber 0 ≤ nHigh

/-- `a.b.c.d` -/
def IsAddress (s : List Char) : Prop :=
  ∃ sA sB sC sD, IsNumber 0 255 sA ∧ IsNumber 0 255 sB ∧ IsNumber 0 255 sC ∧ IsNumber 0 255 sD ∧
    s = sA ++ '.' :: (sB ++ '.' :: (sC ++ '.' :: sD))

/-- `a.b.c.d/prefix` -/
def IsAddressWithPrefix (s : List Char) : Prop :=
  ∃ sAddress sPrefix, IsAddress sAddress ∧ IsNumber 1 32 sPrefix ∧ s = sAddress ++ '/' :: sPrefix

def Grammar (bWithPrefix : Bool) (s : List Char) : Prop :=
  if bWithPrefix then IsAddressWithPrefix s else IsAddress s

def separators (bWithPrefix : Bool) : List Char := if bWithPrefix then ['.', '.', '.', '/'] else ['.', '.', '.']

/-- What the numbers between the separators may be. -/
def ranges (bWithPrefix : Bool) : List (Nat × Nat) :=
  if bWithPrefix then [(0, 255), (0, 255), (0, 255), (0, 255), (1, 32)]
  else [(0, 255), (0, 255), (0, 255), (0, 255)]

/-- Each number in its range, and as many as there are ranges. -/
def InRanges (vRanges : List (Nat × Nat)) (ns : List Int) : Prop :=
  List.Forall₂ (fun r n => (r.1 : Int) ≤ n ∧ n ≤ r.2) vRanges ns

/-- Numbers in the form of the format, in range as they are read, and yet no address: a
terminator ends the text early, or a number has a blank or a sign before it, or has wrapped. -/
def Misread (s : String) (bWithPrefix : Bool) : Prop :=
  ∃ xs : List Spelling, Spelled (separators bWithPrefix) xs (cString s.toList) ∧
    InRanges (ranges bWithPrefix) (xs.map fun x => held x.value) ∧
    ('\x00' ∈ s.toList ∨ ∃ x ∈ xs, ¬ x.Bare ∨ 2 ^ 32 ≤ x.value)

section Check
variable {s : String} {cs : List Char} {bWithPrefix : Bool} {xs : List Spelling}

theorem not_isDigit_separators {c : Char} (hc : c ∈ separators bWithPrefix) : ¬ c.isDigit := by
  have hall : (separators bWithPrefix).all fun d => ¬ d.isDigit := by
    cases bWithPrefix with
    | false => rfl
    | true => rfl
  exact of_decide_eq_true (List.all_eq_true.mp hall c hc)

theorem inRanges_bare {ns : List Int} :
    InRanges (ranges false) ns ↔ ∃ nA nB nC nD, ns = [nA, nB, nC, nD] ∧
      (isOctet nA && isOctet nB && isOctet nC && isOctet nD) := by
  simp only [InRanges, ranges, Bool.false_eq_true, if_false, List.forall₂_cons_left_iff, List.forall₂_nil_left_iff, isOctet, Bool.and_eq_true, decide_eq_true_eq]
  constructor
  · rintro ⟨nA, _, hA, ⟨nB, _, hB, ⟨nC, _, hC, ⟨nD, _, hD, rfl, rfl⟩, rfl⟩, rfl⟩, rfl⟩
    exact ⟨nA, nB, nC, nD, rfl, ⟨⟨hA, hB⟩, hC⟩, hD⟩
  · rintro ⟨nA, nB, nC, nD, rfl, ⟨⟨hA, hB⟩, hC⟩, hD⟩
    exact ⟨nA, _, hA, ⟨nB, _, hB, ⟨nC, _, hC, ⟨nD, _, hD, rfl, rfl⟩, rfl⟩, rfl⟩, rfl⟩

theorem inRanges_withPrefix {ns : List Int} :
    InRanges (ranges true) ns ↔ ∃ nA nB nC nD nP, ns = [nA, nB, nC, nD, nP] ∧
      ((1 ≤ nP && nP ≤ 32) && (isOctet nA && isOctet nB && isOctet nC && isOctet nD)) := by
  simp only [InRanges, ranges, if_true, List.forall₂_cons_left_iff, List.forall₂_nil_left_iff, isOctet, Bool.and_eq_true, decide_eq_true_eq]
  constructor
  · rintro ⟨nA, _, hA, ⟨nB, _, hB, ⟨nC, _, hC, ⟨nD, _, hD, ⟨nP, _, hP, rfl, rfl⟩, rfl⟩, rfl⟩, rfl⟩, rfl⟩
    exact ⟨nA, nB, nC, nD, nP, rfl, hP, ⟨⟨hA, hB⟩, hC⟩, hD⟩
  · rintro ⟨nA, nB, nC, nD, nP, rfl, hP, ⟨⟨hA, hB⟩, hC⟩, hD⟩
    exact ⟨nA, _, hA, ⟨nB, _, hB, ⟨nC, _, hC, ⟨nD, _, hD, ⟨nP, _, hP, rfl, rfl⟩, rfl⟩, rfl⟩, rfl⟩, rfl⟩

/-- The check is the format, and a range for each number. -/
theorem validIp4_iff_scanfAll : validIp4 s bWithPrefix ↔
    ∃ ns, scanfAll (integerFormat (separators bWithPrefix)) (cString s.toList) = some (ns, []) ∧
      InRanges (ranges bWithPrefix) ns := by
  cases bWithPrefix with
  | false =>
    have hformat : ip4Format = integerFormat (separators false) := rfl
    simp only [validIp4, Bool.false_eq_true, if_false, hformat, inRanges_bare]
    constructor
    · intro h
      split at h
      next hscan => exact ⟨_, hscan, _, _, _, _, rfl, h⟩
      · cases h
    · rintro ⟨ns, hscan, nA, nB, nC, nD, rfl, h⟩
      rw [hscan]
      exact h
  | true =>
    have hformat : ip4Format ++ [.text ['/'], .decimal] = integerFormat (separators true) := rfl
    simp only [validIp4, if_true, hformat, inRanges_withPrefix]
    constructor
    · intro h
      split at h
      next hscan => exact ⟨_, hscan, _, _, _, _, _, rfl, h⟩
      · cases h
    · rintro ⟨ns, hscan, nA, nB, nC, nD, nP, rfl, h⟩
      rw [hscan]
      exact h

theorem validIp4_iff : validIp4 s bWithPrefix ↔
    ∃ xs, Spelled (separators bWithPrefix) xs (cString s.toList) ∧ InRanges (ranges bWithPrefix) (xs.map fun x => held x.value) := by
  have hseps : ∀ c ∈ separators bWithPrefix, ¬ c.isDigit := fun c hc => not_isDigit_separators hc
  rw [validIp4_iff_scanfAll]
  constructor
  · rintro ⟨ns, hscan, hranges⟩
    obtain ⟨xs, hxs, rfl⟩ := (scanfAll_integerFormat_iff hseps).mp hscan
    exact ⟨xs, hxs, hranges⟩
  · rintro ⟨xs, hxs, hranges⟩
    exact ⟨_, (scanfAll_integerFormat_iff hseps).mpr ⟨xs, hxs, rfl⟩, hranges⟩

theorem isNumber_iff {nLow nHigh : Nat} : IsNumber nLow nHigh cs ↔
    ∃ x : Spelling, x.Bare ∧ ((nLow : Int) ≤ x.value ∧ x.value ≤ nHigh) ∧ cs = x.text := by
  constructor
  · intro h
    have hbare : (Spelling.ofDigits cs h.ne_nil h.isDigit).Bare := ⟨rfl, rfl⟩
    refine ⟨_, hbare, ?_, hbare.text_eq.symm⟩
    rw [hbare.value_eq]
    exact ⟨Int.ofNat_le.mpr h.low, Int.ofNat_le.mpr h.high⟩
  · rintro ⟨x, hbare, ⟨hlow, hhigh⟩, rfl⟩
    rw [hbare.value_eq] at hlow hhigh
    rw [hbare.text_eq]
    exact ⟨x.digits_ne_nil, x.isDigit_digits, Int.ofNat_le.mp hlow, Int.ofNat_le.mp hhigh⟩

/-- Integers within their ranges, spelled as digits alone between the separators. -/
def Exact (seps : List Char) (vRanges : List (Nat × Nat)) (cs : List Char) : Prop :=
  ∃ xs, Spelled seps xs cs ∧ InRanges vRanges (xs.map Spelling.value) ∧ ∀ x ∈ xs, x.Bare

theorem exact_nil_iff {r : Nat × Nat} : Exact [] [r] cs ↔ IsNumber r.1 r.2 cs := by
  rw [isNumber_iff]
  constructor
  · rintro ⟨xs, hxs, hranges, hbare⟩
    obtain ⟨x, rfl, rfl⟩ := spelled_nil_iff.mp hxs
    cases hranges with
    | cons hrange _ => exact ⟨x, hbare x List.mem_cons_self, hrange, rfl⟩
  · rintro ⟨x, hbare, hrange, rfl⟩
    refine ⟨[x], .last x, .cons hrange .nil, ?_⟩
    simpa using hbare

theorem exact_cons_iff {c : Char} {seps : List Char} {r : Nat × Nat} {vRanges : List (Nat × Nat)} :
    Exact (c :: seps) (r :: vRanges) cs ↔
      ∃ s rest, IsNumber r.1 r.2 s ∧ cs = s ++ c :: rest ∧ Exact seps vRanges rest := by
  constructor
  · rintro ⟨xs, hxs, hranges, hbare⟩
    obtain ⟨x, ys, rest, rfl, rfl, hys⟩ := spelled_cons_iff.mp hxs
    obtain ⟨hbare, hrest⟩ := List.forall_mem_cons.mp hbare
    cases hranges with
    | cons hrange hranges =>
      exact ⟨x.text, rest, isNumber_iff.mpr ⟨x, hbare, hrange, rfl⟩, rfl, ys, hys, hranges, hrest⟩
  · rintro ⟨s, rest, hs, rfl, ys, hys, hranges, hrest⟩
    obtain ⟨x, hbare, hrange, rfl⟩ := isNumber_iff.mp hs
    exact ⟨x :: ys, .cons x c hys, .cons hrange hranges, List.forall_mem_cons.mpr ⟨hbare, hrest⟩⟩

/-- An address is digits alone between the separators. -/
theorem grammar_iff : Grammar bWithPrefix cs ↔ Exact (separators bWithPrefix) (ranges bWithPrefix) cs := by
  cases bWithPrefix with
  | false =>
    simp only [Grammar, separators, ranges, Bool.false_eq_true, if_false, exact_cons_iff, exact_nil_iff]
    constructor
    · rintro ⟨sA, sB, sC, sD, hA, hB, hC, hD, rfl⟩
      exact ⟨sA, _, hA, rfl, sB, _, hB, rfl, sC, _, hC, rfl, hD⟩
    · rintro ⟨sA, _, hA, rfl, sB, _, hB, rfl, sC, sD, hC, rfl, hD⟩
      exact ⟨sA, sB, sC, sD, hA, hB, hC, hD, rfl⟩
  | true =>
    simp only [Grammar, separators, ranges, if_true, exact_cons_iff, exact_nil_iff]
    constructor
    · rintro ⟨_, sPrefix, ⟨sA, sB, sC, sD, hA, hB, hC, hD, rfl⟩, hP, rfl⟩
      simp only [List.append_assoc, List.cons_append]
      exact ⟨sA, _, hA, rfl, sB, _, hB, rfl, sC, _, hC, rfl, sD, sPrefix, hD, rfl, hP⟩
    · rintro ⟨sA, _, hA, rfl, sB, _, hB, rfl, sC, _, hC, rfl, sD, sPrefix, hD, rfl, hP⟩
      refine ⟨_, sPrefix, ⟨sA, sB, sC, sD, hA, hB, hC, hD, rfl⟩, hP, ?_⟩
      simp only [List.append_assoc, List.cons_append]

theorem InRanges.exists_mem {vRanges : List (Nat × Nat)} {ns : List Int} (h : InRanges vRanges ns) :
    ∀ n ∈ ns, ∃ r ∈ vRanges, (r.1 : Int) ≤ n ∧ n ≤ r.2 := by
  induction h with
  | nil =>
    intro n hn
    cases hn
  | cons hrange _ ih =>
    intro n hn
    rcases List.mem_cons.mp hn with rfl | hn
    · exact ⟨_, List.mem_cons_self, hrange⟩
    · obtain ⟨r, hr, hrange⟩ := ih n hn
      exact ⟨r, List.mem_cons_of_mem _ hr, hrange⟩

theorem le_of_mem_ranges {r : Nat × Nat} (h : r ∈ ranges bWithPrefix) : r.2 ≤ 255 := by
  revert r
  cases bWithPrefix with
  | false => decide
  | true => decide

/-- A value that is in range, or is read as one in range, is of a byte. -/
theorem byte_of_inRanges {f : Spelling → Int} (h : InRanges (ranges bWithPrefix) (xs.map f)) :
    ∀ x ∈ xs, 0 ≤ f x ∧ f x ≤ 255 := by
  intro x hx
  obtain ⟨r, hr, hlow, hhigh⟩ := h.exists_mem (f x) (List.mem_map_of_mem hx)
  have hle := le_of_mem_ranges hr
  omega

theorem characters_of_grammar (h : Grammar bWithPrefix cs) : ∀ c ∈ cs, c.isDigit ∨ c ∈ separators bWithPrefix := by
  obtain ⟨xs, hxs, -, hbare⟩ := grammar_iff.mp h
  exact hxs.characters hbare

theorem not_mem_of_grammar (h : Grammar bWithPrefix cs) : '\x00' ∉ cs := by
  intro hmem
  rcases characters_of_grammar h _ hmem with hdigit | hsep
  · exact absurd hdigit (by decide)
  · revert hsep
    cases bWithPrefix with
    | false => decide
    | true => decide

/-- Every address passes. -/
theorem validIp4_of_grammar (h : Grammar bWithPrefix s.toList) : validIp4 s bWithPrefix := by
  obtain ⟨xs, hxs, hranges, hbare⟩ := grammar_iff.mp h
  have hheld : (xs.map fun x => held x.value) = xs.map Spelling.value := by
    refine List.map_congr_left fun x hx => ?_
    obtain ⟨hlow, hhigh⟩ := byte_of_inRanges hranges x hx
    have hmid : max (-2 ^ 63) (min x.value (2 ^ 63 - 1)) = x.value := by omega
    rw [held, hmid]
    exact Int.bmod_eq_of_le (by omega) (by omega)
  rw [validIp4_iff, cString_of_not_mem (not_mem_of_grammar h)]
  refine ⟨xs, hxs, ?_⟩
  rw [hheld]
  exact hranges

/-- What passes without being misread is an address. -/
theorem grammar_of_validIp4 (hvalid : validIp4 s bWithPrefix) (h : ¬ Misread s bWithPrefix) :
    Grammar bWithPrefix s.toList := by
  obtain ⟨xs, hxs, hranges⟩ := validIp4_iff.mp hvalid
  have hnul : '\x00' ∉ s.toList := fun hnul => h ⟨xs, hxs, hranges, .inl hnul⟩
  have hspelled : ∀ x ∈ xs, x.Bare ∧ x.value < 2 ^ 32 := by
    intro x hx
    by_contra hx'
    rw [not_and_or, not_lt] at hx'
    exact h ⟨xs, hxs, hranges, .inr ⟨x, hx, hx'⟩⟩
  have hheld : (xs.map fun x => held x.value) = xs.map Spelling.value := by
    refine List.map_congr_left fun x hx => ?_
    obtain ⟨hbare, hhigh⟩ := hspelled x hx
    exact held_eq_self hbare.value_nonneg hhigh (byte_of_inRanges hranges x hx).1
  rw [cString_of_not_mem hnul] at hxs
  rw [hheld] at hranges
  exact grammar_iff.mpr ⟨xs, hxs, hranges, fun x hx => (hspelled x hx).1⟩

theorem not_grammar_of_misread (h : Misread s bWithPrefix) : ¬ Grammar bWithPrefix s.toList := by
  obtain ⟨xs, hxs, hranges, hwrong⟩ := h
  intro hgrammar
  have hnul := not_mem_of_grammar hgrammar
  obtain ⟨ys, hys, hvalues, hbare⟩ := grammar_iff.mp hgrammar
  rw [cString_of_not_mem hnul] at hxs
  obtain rfl := hxs.unique (fun c hc => not_isDigit_separators hc) hys
  rcases hwrong with hmem | ⟨x, hx, hnot | hwrapped⟩
  · exact hnul hmem
  · exact hnot (hbare x hx)
  · have hbyte := (byte_of_inRanges hvalues x hx).2
    omega

/-- The check takes the addresses and nothing else, but for what it misreads. -/
theorem validIp4_exact (s : String) (bWithPrefix : Bool) :
    (validIp4 s bWithPrefix ↔ Grammar bWithPrefix s.toList) ↔ ¬ Misread s bWithPrefix := by
  constructor
  · intro hiff hmisread
    obtain ⟨xs, hxs, hranges, -⟩ := id hmisread
    exact not_grammar_of_misread hmisread (hiff.mp (validIp4_iff.mpr ⟨xs, hxs, hranges⟩))
  · intro h
    exact ⟨fun hvalid => grammar_of_validIp4 hvalid h, validIp4_of_grammar⟩

/-- A blank before the address, and it passes all the same. -/
theorem blank_passes : ¬ ∀ s bWithPrefix, validIp4 s bWithPrefix ↔ Grammar bWithPrefix s.toList := by
  intro h
  have hvalid : validIp4 " 192.168.1.20/24" true := by decide
  have hblank := characters_of_grammar ((h _ _).mp hvalid) ' ' (by decide)
  exact absurd hblank (by decide)

/-- What a request that is accepted sets is an address, with a gateway or none, unless
one of the two was misread. -/
theorem grammar_of_checkRequest {c : Config} {r : NetworkRequest} {nRole : Nat} (h : checkRequest c r = .ok nRole)
    (hstatic : r.sMethod = "static") (haddress : ¬ Misread r.sAddress true) (hgateway : ¬ Misread r.sGateway false) :
    IsAddressWithPrefix r.sAddress.toList ∧ (r.sGateway = "" ∨ IsAddress r.sGateway.toList) := by
  obtain ⟨-, -, hvalid, hvalidGateway⟩ := passed_of_checkRequest h
  refine ⟨grammar_of_validIp4 (hvalid hstatic) haddress, ?_⟩
  by_cases hempty : r.sGateway = ""
  · exact .inl hempty
  · exact .inr (grammar_of_validIp4 (hvalidGateway hempty) hgateway)

end Check
end PiAudioNode.Web
