import PiAudioNode.Lib.Scan

/-! Positive numbers printed in six significant digits, and read back. -/
namespace PiAudioNode.Lib

/-- The number that the six digits stand for. -/
def sixSignificant (x : ℚ) : ℚ := (sixDigits x).1 * 10 ^ ((sixDigits x).2 - 5)

section SixDigits
variable {x : ℚ}

theorem roundEven_bounds {m n : Int} (hm : (m : ℚ) ≤ x) (hn : x < n) : m ≤ roundEven x ∧ roundEven x ≤ n := by
  have hlow : m ≤ ⌊x⌋ := Int.le_floor.mpr hm
  have hhigh : ⌊x⌋ < n := Int.floor_lt.mpr hn
  unfold roundEven
  dsimp only
  split_ifs <;> constructor <;> omega

/-- There are six of them. -/
theorem sixDigits_bounds (h : 0 < x) : 100000 ≤ (sixDigits x).1 ∧ (sixDigits x).1 < 1000000 := by
  have hscale : (0 : ℚ) < 10 ^ (Int.log 10 x - 5) := by positivity
  have hlow : ((100000 : Int) : ℚ) ≤ x / 10 ^ (Int.log 10 x - 5) := by
    rw [le_div_iff₀ hscale]
    calc ((100000 : Int) : ℚ) * 10 ^ (Int.log 10 x - 5) = 10 ^ (5 : Int) * 10 ^ (Int.log 10 x - 5) := by norm_num
      _ = 10 ^ Int.log 10 x := by rw [← zpow_add₀ (by norm_num)]; congr 1; ring
      _ ≤ x := Int.zpow_log_le_self (by norm_num) h
  have hhigh : x / 10 ^ (Int.log 10 x - 5) < ((1000000 : Int) : ℚ) := by
    rw [div_lt_iff₀ hscale]
    calc x < 10 ^ (Int.log 10 x + 1) := Int.lt_zpow_succ_log_self (by norm_num) x
      _ = 10 ^ (6 : Int) * 10 ^ (Int.log 10 x - 5) := by rw [← zpow_add₀ (by norm_num)]; congr 1; ring
      _ = ((1000000 : Int) : ℚ) * 10 ^ (Int.log 10 x - 5) := by norm_num
  have hbounds := roundEven_bounds hlow hhigh
  unfold sixDigits
  dsimp only
  split_ifs with hround
  · norm_num
  · dsimp only
    omega

theorem length_sixDigits (h : 0 < x) : (Nat.toDigits 10 (sixDigits x).1).length = 6 := by
  obtain ⟨hlow, hhigh⟩ := sixDigits_bounds h
  have hsix := (Nat.length_toDigits_le_iff (b := 10) (k := 6) (n := (sixDigits x).1) (by norm_num) (by norm_num)).mpr
    (by omega)
  have hfive := (Nat.length_toDigits_le_iff (b := 10) (k := 5) (n := (sixDigits x).1) (by norm_num)
    (by norm_num)).not.mpr (by omega)
  omega

theorem roundEven_intCast (n : Int) : roundEven n = n := by
  unfold roundEven
  simp

/-- A number with few binary digits is a double. -/
theorem toDouble_of_dyadic {m q : Int} {x : ℚ} (hx : x = m * 2 ^ q) (hq : max (Int.log 2 |x| - 52) (-1074) ≤ q)
    (hsmall : |x| < 2 ^ 1024) : toDouble x = x := by
  by_cases h : x = 0
  · rw [toDouble, if_pos h, h]
  · obtain ⟨n, hn⟩ := Int.eq_ofNat_of_zero_le (sub_nonneg.mpr hq)
    have hquotient : x / 2 ^ max (Int.log 2 |x| - 52) (-1074) = ((m * 2 ^ n : Int) : ℚ) := by
      rw [div_eq_iff (by positivity)]
      push_cast
      rw [mul_assoc, ← zpow_natCast, ← zpow_add₀ (by norm_num), ← hn, sub_add_cancel]
      exact hx
    have hback : ((m * 2 ^ n : Int) : ℚ) * 2 ^ max (Int.log 2 |x| - 52) (-1074) = x := by
      rw [← hquotient, div_mul_cancel₀ _ (by positivity)]
    unfold toDouble
    dsimp only
    rw [if_neg h, hquotient, roundEven_intCast, hback, if_neg hsmall.not_ge]

theorem toDouble_pos {x : ℚ} (h : 2 ^ (-1022 : Int) ≤ x) : 0 < toDouble x := by
  have hpos : 0 < x := lt_of_lt_of_le (by positivity) h
  have hlog : -1022 ≤ Int.log 2 x := (Int.zpow_le_iff_le_log (by norm_num) hpos).mp h
  have hexp : max (Int.log 2 |x| - 52) (-1074) = Int.log 2 x - 52 := by
    rw [abs_of_pos hpos]
    omega
  have hround : (1 : Int) ≤ roundEven (x / 2 ^ (Int.log 2 x - 52)) := by
    have hlarge : ((1 : Int) : ℚ) ≤ x / 2 ^ (Int.log 2 x - 52) := by
      rw [le_div_iff₀ (by positivity), Int.cast_one, one_mul]
      calc (2 : ℚ) ^ (Int.log 2 x - 52) ≤ 2 ^ Int.log 2 x := zpow_le_zpow_right₀ (by norm_num) (by omega)
        _ ≤ x := Int.zpow_log_le_self (by norm_num) hpos
    have hfloor : x / 2 ^ (Int.log 2 x - 52) < ((⌊x / 2 ^ (Int.log 2 x - 52)⌋ + 1 : Int) : ℚ) := by
      push_cast
      exact Int.lt_floor_add_one _
    exact (roundEven_bounds hlarge hfloor).1
  unfold toDouble
  dsimp only
  rw [if_neg hpos.ne', hexp]
  split_ifs
  · rw [sign_pos hpos]
    norm_num
  · have : (0 : ℚ) < roundEven (x / 2 ^ (Int.log 2 x - 52)) := by exact_mod_cast hround
    positivity

theorem roundEven_error (x : ℚ) : |roundEven x - x| ≤ 1 / 2 := by
  have hlow := Int.floor_le x
  have hhigh := Int.lt_floor_add_one x
  unfold roundEven
  dsimp only
  split_ifs <;> rw [abs_le] <;> push_cast <;> constructor <;> linarith

/-- What is nearer to an integer than to any other is rounded to it. -/
theorem roundEven_of_near {x : ℚ} {n : Int} (h : |x - n| < 1 / 2) : roundEven x = n := by
  have herror := roundEven_error x
  have hbetween : |((roundEven x - n : Int) : ℚ)| < 1 := by
    push_cast
    calc |(roundEven x : ℚ) - n| = |(roundEven x - x) + (x - n)| := by ring_nf
      _ ≤ |roundEven x - x| + |x - n| := abs_add_le _ _
      _ < 1 := by linarith
  have hzero : |roundEven x - n| < 1 := by exact_mod_cast hbetween
  exact sub_eq_zero.mp (Int.abs_lt_one_iff.mp hzero)

/-- A multiple of the unit is at most half a unit away. -/
theorem roundEven_unit_error (x : ℚ) {u : ℚ} (hu : 0 < u) : |roundEven (x / u) * u - x| ≤ 1 / 2 * u := by
  have hback : x / u * u = x := div_mul_cancel₀ _ hu.ne'
  calc |roundEven (x / u) * u - x| = |(roundEven (x / u) - x / u) * u| := by rw [sub_mul, hback]
    _ = |roundEven (x / u) - x / u| * u := by rw [abs_mul, abs_of_pos hu]
    _ ≤ 1 / 2 * u := mul_le_mul_of_nonneg_right (roundEven_error _) hu.le

/-- Half of the last of 53 places. -/
theorem half_place_le {x : ℚ} (h : 0 < x) : (1 / 2 : ℚ) * 2 ^ (Int.log 2 x - 52) ≤ x / 2 ^ 53 := by
  rw [le_div_iff₀ (by positivity)]
  calc (1 / 2 : ℚ) * 2 ^ (Int.log 2 x - 52) * 2 ^ 53 = 2 ^ (Int.log 2 x - 52) * 2 ^ (52 : Int) := by ring
    _ = 2 ^ Int.log 2 x := by rw [← zpow_add₀ (by norm_num), sub_add_cancel]
    _ ≤ x := Int.zpow_log_le_self (by norm_num) h

/-- A double is nearer to a number than one part in 2 ^ 53 of it. -/
theorem toDouble_error {x : ℚ} (hlow : 2 ^ (-1022 : Int) ≤ x) (hhigh : x < 2 ^ 1000) :
    |toDouble x - x| ≤ x / 2 ^ 53 := by
  have hpos : 0 < x := lt_of_lt_of_le (by positivity) hlow
  have hlog : -1022 ≤ Int.log 2 x := (Int.zpow_le_iff_le_log (by norm_num) hpos).mp hlow
  have hexp : max (Int.log 2 |x| - 52) (-1074) = Int.log 2 x - 52 := by
    rw [abs_of_pos hpos]
    omega
  have hplace : (0 : ℚ) < 2 ^ (Int.log 2 x - 52) := by positivity
  have herror : |roundEven (x / 2 ^ (Int.log 2 x - 52)) * (2 : ℚ) ^ (Int.log 2 x - 52) - x| ≤ x / 2 ^ 53 :=
    (roundEven_unit_error x hplace).trans (half_place_le hpos)
  unfold toDouble
  dsimp only
  rw [if_neg hpos.ne', hexp, if_neg]
  · exact herror
  · -- no overflow so far below it
    rw [not_le]
    calc |roundEven (x / 2 ^ (Int.log 2 x - 52)) * (2 : ℚ) ^ (Int.log 2 x - 52)|
        = |(roundEven (x / 2 ^ (Int.log 2 x - 52)) * (2 : ℚ) ^ (Int.log 2 x - 52) - x) + x| := by
          rw [sub_add_cancel]
      _ ≤ |roundEven (x / 2 ^ (Int.log 2 x - 52)) * (2 : ℚ) ^ (Int.log 2 x - 52) - x| + |x| := abs_add_le _ _
      _ ≤ x / 2 ^ 53 + x := by
        rw [abs_of_pos hpos]
        linarith
      _ ≤ x + x := by
        have : x / 2 ^ 53 ≤ x := div_le_self hpos.le (one_le_pow₀ (by norm_num))
        linarith
      _ < 2 ^ 1000 * 2 := by
        rw [← two_mul, mul_comm]
        exact mul_lt_mul_of_pos_right hhigh two_pos
      _ ≤ 2 ^ 1024 := by
        rw [← pow_succ]
        exact pow_le_pow_right₀ (by norm_num) (by norm_num)

theorem log_of_between {y : ℚ} {e : Int} (hlow : (10 : ℚ) ^ e ≤ y) (hhigh : y < 10 ^ (e + 1)) : Int.log 10 y = e := by
  have hy : 0 < y := lt_of_lt_of_le (by positivity) hlow
  have hge := (Int.zpow_le_iff_le_log (b := 10) (by norm_num) hy).mp (by exact_mod_cast hlow)
  have hlt := (Int.lt_zpow_iff_log_lt (b := 10) (by norm_num) hy).mp (by exact_mod_cast hhigh)
  omega

/-- A power of ten in units of the sixth digit. -/
theorem units_of_power (e : Int) : (10 : ℚ) ^ e = 100000 * 10 ^ (e - 5) := by
  rw [show (100000 : ℚ) = 10 ^ (5 : Int) by norm_num, ← zpow_add₀ (by norm_num), add_sub_cancel]

section Units
variable {z : ℚ} {e n : Int}

/-- Six digits from a number in units of the last of them. -/
theorem sixDigits_of_units (hn : 100000 ≤ n ∧ n ≤ 999999) (hz : 100000 ≤ z) (hnear : |z - n| ≤ 1 / 40) :
    sixDigits (z * 10 ^ (e - 5)) = (n.toNat, e) := by
  have hscale : (0 : ℚ) < 10 ^ (e - 5) := by positivity
  have hcast : (n : ℚ) ≤ 999999 := by exact_mod_cast hn.2
  have hlog : Int.log 10 (z * 10 ^ (e - 5)) = e := by
    apply log_of_between
    · rw [units_of_power]
      exact mul_le_mul_of_nonneg_right hz hscale.le
    · rw [zpow_add_one₀ (by norm_num), units_of_power e, mul_right_comm]
      apply mul_lt_mul_of_pos_right _ hscale
      linarith [(abs_le.mp hnear).2]
  have hround : roundEven (z * 10 ^ (e - 5) / 10 ^ (e - 5)) = n := by
    apply roundEven_of_near
    rw [mul_div_cancel_right₀ _ hscale.ne']
    exact hnear.trans_lt (by norm_num)
  unfold sixDigits
  dsimp only
  rw [hlog, hround, if_neg (by omega)]

/-- Just below a power of ten the six digits are those of the power. -/
theorem sixDigits_below_power (hz : z < 100000) (hnear : |z - 100000| ≤ 1 / 40) :
    sixDigits (z * 10 ^ (e - 5)) = (100000, e) := by
  have hscale : (0 : ℚ) < 10 ^ (e - 5) := by positivity
  have hten : (10 : ℚ) ^ (e - 5) = 10 * 10 ^ (e - 1 - 5) := by
    rw [mul_comm, ← zpow_add_one₀ (by norm_num)]
    congr 1
    ring
  obtain ⟨hlow, hhigh⟩ := abs_le.mp hnear
  have hlog : Int.log 10 (z * 10 ^ (e - 5)) = e - 1 := by
    apply log_of_between
    · rw [units_of_power, hten, ← mul_assoc]
      apply mul_le_mul_of_nonneg_right _ (by positivity)
      linarith
    · rw [sub_add_cancel, units_of_power e]
      exact mul_lt_mul_of_pos_right hz hscale
  have hround : roundEven (z * 10 ^ (e - 5) / 10 ^ (e - 1 - 5)) = 1000000 := by
    apply roundEven_of_near
    rw [hten, ← mul_assoc, mul_div_cancel_right₀ _ (by positivity), abs_lt]
    push_cast
    constructor <;> linarith
  unfold sixDigits
  dsimp only
  rw [hlog, hround, if_pos (by rfl), sub_add_cancel]

end Units

/-- A number of six digits lies between the first and the last of their kind. -/
theorem short_bounds {x : ℚ} {n : Int} (h : 0 < x) (hx : x = n * 10 ^ (Int.log 10 x - 5)) :
    100000 ≤ n ∧ n ≤ 999999 := by
  have hscale : (0 : ℚ) < 10 ^ (Int.log 10 x - 5) := by positivity
  have hlow : (100000 : ℚ) ≤ n := by
    have hle : (10 : ℚ) ^ Int.log 10 x ≤ x := Int.zpow_log_le_self (by norm_num) h
    rw [units_of_power] at hle
    exact le_of_mul_le_mul_right (hle.trans_eq hx) hscale
  have hhigh : (n : ℚ) < 100000 * 10 := by
    have hlt : x < (10 : ℚ) ^ (Int.log 10 x + 1) := Int.lt_zpow_succ_log_self (by norm_num) x
    rw [zpow_add_one₀ (by norm_num), units_of_power, mul_right_comm] at hlt
    exact lt_of_mul_lt_mul_right (hx.symm.trans_lt hlt) hscale.le
  have hbelow : n < 100000 * 10 := by exact_mod_cast hhigh
  exact ⟨by exact_mod_cast hlow, by omega⟩

/-- A number that is hardly off one of six digits is printed as that one, also where it
is below a power of ten and that one is not. -/
theorem sixSignificant_of_near {x y : ℚ} {n : Int} (h : 0 < x) (hx : x = n * 10 ^ (Int.log 10 x - 5))
    (hnear : |y - x| * 40 ≤ 10 ^ (Int.log 10 x - 5)) : sixSignificant y = x := by
  have hscale : (0 : ℚ) < 10 ^ (Int.log 10 x - 5) := by positivity
  have hn := short_bounds h hx
  obtain ⟨z, hz⟩ : ∃ z, y = z * 10 ^ (Int.log 10 x - 5) :=
    ⟨y / 10 ^ (Int.log 10 x - 5), (div_mul_cancel₀ _ hscale.ne').symm⟩
  have hunits : |z - n| ≤ 1 / 40 := by
    have hdiff : |y - x| = |z - n| * 10 ^ (Int.log 10 x - 5) := by
      calc |y - x| = |z * 10 ^ (Int.log 10 x - 5) - n * 10 ^ (Int.log 10 x - 5)| := by rw [← hz, ← hx]
        _ = |z - n| * 10 ^ (Int.log 10 x - 5) := by rw [← sub_mul, abs_mul, abs_of_pos hscale]
    rw [hdiff] at hnear
    rw [le_div_iff₀ (by norm_num)]
    exact le_of_mul_le_mul_right (by linarith) hscale
  by_cases hpower : 100000 ≤ z
  · have hcast : ((n.toNat : Nat) : ℚ) = n := by exact_mod_cast Int.toNat_of_nonneg (by omega)
    rw [sixSignificant, hz, sixDigits_of_units hn hpower hunits, hcast]
    exact hx.symm
  · have hfirst : n = 100000 := by
      have hbelow : (n : ℚ) < 100001 := by linarith [(abs_le.mp hunits).1, not_le.mp hpower]
      have : n < 100001 := by exact_mod_cast hbelow
      omega
    rw [hfirst] at hunits hx
    rw [sixSignificant, hz, sixDigits_below_power (not_le.mp hpower) (by exact_mod_cast hunits)]
    exact hx.symm

/-- A number of at most six significant digits is printed as it is. -/
theorem sixSignificant_of_short {x : ℚ} {n : Int} (h : 0 < x) (hx : x = n * 10 ^ (Int.log 10 x - 5)) :
    sixSignificant x = x := by
  apply sixSignificant_of_near h hx
  rw [sub_self, abs_zero, zero_mul]
  positivity

/-- Eighths below a thousand are doubles of at most six digits. -/
theorem eighths_kept {k : Nat} (h : 0 < k) (hk : k < 8000) :
    toDouble (k / 8) = k / 8 ∧ sixSignificant (k / 8) = k / 8 := by
  have hpos : (0 : ℚ) < k / 8 := by positivity
  have hbelow : (k / 8 : ℚ) < 1000 := by
    rw [div_lt_iff₀ (by norm_num)]
    exact_mod_cast (by omega : k < 1000 * 8)
  constructor
  · refine toDouble_of_dyadic (m := k) (q := -3) (by rw [zpow_neg]; norm_num; ring) ?_ ?_
    · rw [abs_of_pos hpos]
      have hlog : Int.log 2 (k / 8 : ℚ) < 10 := (Int.lt_zpow_iff_log_lt (by norm_num) hpos).mp (by norm_num; linarith)
      omega
    · rw [abs_of_pos hpos]
      calc (k / 8 : ℚ) < 1000 := hbelow
        _ ≤ 2 ^ 10 := by norm_num
        _ ≤ 2 ^ 1024 := pow_le_pow_right₀ (by norm_num) (by norm_num)
  · have hlog : Int.log 10 (k / 8 : ℚ) < 3 := (Int.lt_zpow_iff_log_lt (by norm_num) hpos).mp (by norm_num; linarith)
    obtain ⟨m, hm⟩ := Int.eq_ofNat_of_zero_le (show 0 ≤ 2 - Int.log 10 (k / 8 : ℚ) by omega)
    refine sixSignificant_of_short (n := k * 125 * 10 ^ m) hpos ?_
    have hexp : Int.log 10 (k / 8 : ℚ) - 5 = -(3 + m : Int) := by omega
    rw [hexp, zpow_neg, zpow_add₀ (by norm_num), zpow_natCast]
    push_cast
    field_simp
    norm_num

/-- Thousandths below a thousand keep all their digits as doubles. -/
theorem thousandths_kept {k : Nat} (h : 0 < k) (hk : k < 1000000) :
    sixSignificant (toDouble (k / 1000)) = k / 1000 := by
  have hpos : (0 : ℚ) < k / 1000 := by positivity
  have hbelow : (k / 1000 : ℚ) < 1000 := by
    rw [div_lt_iff₀ (by norm_num)]
    exact_mod_cast (by omega : k < 1000 * 1000)
  have habove : (1 / 1000 : ℚ) ≤ k / 1000 := by
    apply div_le_div_of_nonneg_right _ (by norm_num)
    exact_mod_cast h
  have hlog : Int.log 10 (k / 1000 : ℚ) < 3 := (Int.lt_zpow_iff_log_lt (by norm_num) hpos).mp (by norm_num; linarith)
  obtain ⟨m, hm⟩ := Int.eq_ofNat_of_zero_le (show 0 ≤ 2 - Int.log 10 (k / 1000 : ℚ) by omega)
  apply sixSignificant_of_near (n := k * 10 ^ m) hpos
  · have hexp : Int.log 10 (k / 1000 : ℚ) - 5 = -(3 + m : Int) := by omega
    rw [hexp, zpow_neg, zpow_add₀ (by norm_num), zpow_natCast]
    push_cast
    field_simp
  · have hnormal : (2 : ℚ) ^ (-1022 : Int) ≤ k / 1000 := by
      calc (2 : ℚ) ^ (-1022 : Int) ≤ 2 ^ (-10 : Int) := zpow_le_zpow_right₀ (by norm_num) (by norm_num)
        _ ≤ 1 / 1000 := by norm_num
        _ ≤ k / 1000 := habove
    have hfinite : (k / 1000 : ℚ) < 2 ^ 1000 := by
      calc (k / 1000 : ℚ) < 1000 := hbelow
        _ ≤ 2 ^ 10 := by norm_num
        _ ≤ 2 ^ 1000 := pow_le_pow_right₀ (by norm_num) (by norm_num)
    have herror := toDouble_error hnormal hfinite
    have hlt := Int.lt_zpow_succ_log_self (b := 10) (by norm_num) (k / 1000 : ℚ)
    have hsplit : ((10 : Nat) : ℚ) ^ (Int.log 10 (k / 1000 : ℚ) + 1) =
        1000000 * 10 ^ (Int.log 10 (k / 1000 : ℚ) - 5) := by
      rw [show Int.log 10 (k / 1000 : ℚ) + 1 = 6 + (Int.log 10 (k / 1000 : ℚ) - 5) by ring, zpow_add₀ (by norm_num)]
      norm_num
    rw [hsplit] at hlt
    calc |toDouble (k / 1000) - k / 1000| * 40 ≤ k / 1000 / 2 ^ 53 * 40 := by linarith
      _ ≤ 1000000 * 10 ^ (Int.log 10 (k / 1000 : ℚ) - 5) / 2 ^ 53 * 40 := by linarith
      _ ≤ 10 ^ (Int.log 10 (k / 1000 : ℚ) - 5) := by
        have : (0 : ℚ) < 10 ^ (Int.log 10 (k / 1000 : ℚ) - 5) := by positivity
        linarith

end SixDigits

section Printed
variable {cs ds rest : List Char}

/-- The characters of a printed number. -/
def isNumeral (c : Char) : Bool := c.isDigit || c = '.' || c = 'e' || c = '+' || c = '-'

theorem isNumeral_of_isDigit {c : Char} (h : c.isDigit) : isNumeral c := by simp [isNumeral, h]

theorem stripZeros_append (cs : List Char) : ∃ k, cs = stripZeros cs ++ List.replicate k '0' := by
  refine ⟨(cs.reverse.takeWhile (· = '0')).length, ?_⟩
  have hzeros : cs.reverse.takeWhile (· = '0') = List.replicate (cs.reverse.takeWhile (· = '0')).length '0' := by
    refine List.eq_replicate_of_mem fun c hc => ?_
    simpa using List.mem_takeWhile_imp hc
  have hsplit := congrArg List.reverse (List.takeWhile_append_dropWhile (p := (· = '0')) (l := cs.reverse))
  rw [List.reverse_append, List.reverse_reverse, hzeros, List.reverse_replicate] at hsplit
  exact hsplit.symm

/-- Zeros at the end of the fraction do not count. -/
theorem value_stripZeros (whole cs : List Char) :
    (Nat.ofDigitChars 10 (whole ++ stripZeros cs) 0 : ℚ) * 10 ^ (-(stripZeros cs).length : Int) =
      Nat.ofDigitChars 10 (whole ++ cs) 0 * 10 ^ (-cs.length : Int) := by
  obtain ⟨k, hk⟩ := stripZeros_append cs
  have hvalue : Nat.ofDigitChars 10 (whole ++ cs) 0 = 10 ^ k * Nat.ofDigitChars 10 (whole ++ stripZeros cs) 0 := by
    conv_lhs => rw [hk]
    rw [← List.append_assoc, Nat.ofDigitChars_append, Nat.ofDigitChars_replicate_zero]
  have hlength : cs.length = (stripZeros cs).length + k := by
    conv_lhs => rw [hk]
    simp
  rw [hvalue, hlength]
  push_cast
  rw [neg_add, zpow_add₀ (by norm_num), zpow_neg _ (k : Int), zpow_natCast]
  field_simp

/-- A mantissa with its fraction, up to what follows it. -/
theorem scanMantissa_fraction (hcs : ∀ c ∈ cs, c.isDigit) (hne : cs ≠ []) (hds : ∀ c ∈ ds, c.isDigit)
    (hrest : Stops (fun c => c.isDigit || c = '.') rest) : ∃ n k : Nat,
      scanMantissa Char.isDigit (fun c => c.toNat - 48) 10 (cs ++ (fraction ds ++ rest)) = some (n, k, rest) ∧
        (n : ℚ) * 10 ^ (-k : Int) = Nat.ofDigitChars 10 (cs ++ ds) 0 * 10 ^ (-ds.length : Int) := by
  have hstop : Stops Char.isDigit rest := fun c hc hdigit => hrest c hc (by simp [hdigit])
  have hstripped : ∀ c ∈ stripZeros ds, c.isDigit := by
    intro c hc
    obtain ⟨k, hk⟩ := stripZeros_append ds
    exact hds c (by rw [hk]; exact List.mem_append_left _ hc)
  refine ⟨Nat.ofDigitChars 10 (cs ++ stripZeros ds) 0, (stripZeros ds).length, ?_, value_stripZeros cs ds⟩
  have hwhole : Stops Char.isDigit (fraction ds ++ rest) := by
    rw [fraction]
    split_ifs
    · exact hstop
    · exact stops_cons (by decide) _
  unfold scanMantissa
  dsimp only
  rw [takeWhile_of_stops hcs hwhole, List.drop_left]
  by_cases hnone : stripZeros ds = []
  · have hrest' : fraction ds ++ rest = rest := by rw [fraction, if_pos hnone, List.nil_append]
    rw [hrest', hnone, List.append_nil]
    split
    · exact (hrest '.' rfl rfl).elim
    · simp only [hne, false_and, if_false, List.append_nil]
      rfl
  · have hrest' : fraction ds ++ rest = '.' :: (stripZeros ds ++ rest) := by rw [fraction, if_neg hnone]; rfl
    rw [hrest']
    simp only [takeWhile_of_stops hstripped hstop, hne, false_and, if_false]
    rw [List.dropWhile_append_of_pos hstripped, dropWhile_of_stops hstop]
    rfl

theorem isNumeral_toLower {c : Char} (h : isNumeral c) : c.toLower = c := by
  refine Char.toLower_eq_of_not_isUpper fun hupper => ?_
  simp only [isNumeral, Bool.or_eq_true, decide_eq_true_eq] at h
  rcases h with (((h | rfl) | rfl) | rfl) | rfl
  · simp only [Char.isDigit, Char.isUpper, Bool.and_eq_true, decide_eq_true_eq, UInt32.le_iff_toNat_le] at h hupper
    have h65 : 'A'.val.toNat = 65 := rfl
    have h57 : '9'.val.toNat = 57 := rfl
    omega
  · exact absurd hupper (by decide)
  · exact absurd hupper (by decide)
  · exact absurd hupper (by decide)
  · exact absurd hupper (by decide)

/-- A numeral that starts with a digit is read as a decimal one. -/
theorem atof_of_scanMantissa {c : Char} {n k : Nat} (hc : c.isDigit) (hcs : ∀ d ∈ cs, isNumeral d)
    (h : scanMantissa Char.isDigit (fun c => c.toNat - 48) 10 (c :: cs) = some (n, k, rest)) :
    atof (c :: cs) = toDouble (n * 10 ^ (scanExponent 'e' 'E' rest - k)) := by
  have hlower : lower (c :: cs) = c :: cs := by
    refine List.map_congr_left (g := id) (fun d hd => ?_) |>.trans (List.map_id _)
    rcases List.mem_cons.mp hd with rfl | hd
    · exact isNumeral_toLower (isNumeral_of_isDigit hc)
    · exact isNumeral_toLower (hcs d hd)
  have hblank : skipBlanks (c :: cs) = c :: cs := skipBlanks_of_stops (stops_cons (not_isBlank_of_isDigit hc) _)
  have hsign : scanSign (c :: cs) = (false, c :: cs) := scanSign_of_isDigit fun d hd => by
    obtain rfl := Option.some.inj hd
    exact hc
  have hword (first : Char) (word : List Char) (hfirst : ¬ first.isDigit) :
      (first :: word).isPrefixOf (c :: cs) = false := by
    rw [Bool.eq_false_iff]
    intro hprefix
    have heq : first = c := (List.cons_prefix_cons.mp (List.isPrefixOf_iff_prefix.mp hprefix)).1
    rw [heq] at hfirst
    exact hfirst hc
  have hinf : "inf".toList.isPrefixOf (c :: cs) = false := hword 'i' _ (by decide)
  have hnan : "nan".toList.isPrefixOf (c :: cs) = false := hword 'n' _ (by decide)
  have hhex : stripPrefix "0x".toList (c :: cs) = none := by
    refine if_neg fun hprefix => ?_
    have htail : ['x'] <+: cs := (List.cons_prefix_cons.mp (List.isPrefixOf_iff_prefix.mp hprefix)).2
    have hx : isNumeral 'x' := hcs 'x' (htail.subset List.mem_cons_self)
    cases hx
  simp only [atof, hblank, hsign, hlower, hinf, hnan, hhex, h, Option.bind_none, Bool.false_eq_true, if_false]

/-- The exponent as it is printed: its sign and at least two digits. -/
def printedExponent (e : Int) : List Char :=
  ['e', if e < 0 then '-' else '+'] ++ ((if e.natAbs < 10 then ['0'] else []) ++ Nat.toDigits 10 e.natAbs)

theorem isDigit_padded (e : Int) :
    ∀ c ∈ (if e.natAbs < 10 then ['0'] else []) ++ Nat.toDigits 10 e.natAbs, c.isDigit := by
  intro c hc
  rcases List.mem_append.mp hc with hc | hc
  · split_ifs at hc
    · obtain rfl := List.mem_singleton.mp hc
      rfl
    · simp at hc
  · exact isDigit_toDigits hc

theorem isNumeral_printedExponent (e : Int) : ∀ c ∈ printedExponent e, isNumeral c := by
  intro c hc
  rcases List.mem_append.mp hc with hc | hc
  · split_ifs at hc <;> rcases hc with _ | ⟨_, _ | ⟨_, ⟨⟩⟩⟩ <;> rfl
  · exact isNumeral_of_isDigit (isDigit_padded e c hc)

theorem scanExponent_printedExponent (e : Int) : scanExponent 'e' 'E' (printedExponent e) = e := by
  have htake := List.takeWhile_eq_self_iff.mpr (isDigit_padded e)
  have hvalue :
      Nat.ofDigitChars 10 ((if e.natAbs < 10 then ['0'] else []) ++ Nat.toDigits 10 e.natAbs) 0 = e.natAbs := by
    rw [Nat.ofDigitChars_append]
    split_ifs
    · exact Nat.ofDigitChars_ten_toDigits
    · exact Nat.ofDigitChars_ten_toDigits
  by_cases hneg : e < 0
  · simp only [printedExponent, if_pos hneg, List.cons_append, List.nil_append, scanExponent, true_or, if_true, scanSign,
      htake, hvalue]
    omega
  · simp only [printedExponent, if_neg hneg, List.cons_append, List.nil_append, scanExponent, true_or, if_true, scanSign,
      htake, hvalue, Bool.false_eq_true, if_false]
    omega

theorem isNumeral_fraction (h : ∀ c ∈ ds, c.isDigit) : ∀ c ∈ fraction ds, isNumeral c := by
  intro c hc
  obtain ⟨k, hk⟩ := stripZeros_append ds
  rw [fraction] at hc
  split_ifs at hc
  · cases hc
  · rcases List.mem_cons.mp hc with rfl | hc
    · rfl
    · exact isNumeral_of_isDigit (h c (by rw [hk]; exact List.mem_append_left _ hc))

/-- A text is digits, a fraction and an exponent, and stands for `n * 10 ^ e`. -/
def Numeral (n : Nat) (e : Int) (text : List Char) : Prop :=
  ∃ cs ds rest, text = cs ++ (fraction ds ++ rest) ∧ (∀ c ∈ cs ++ ds, c.isDigit) ∧ cs ≠ [] ∧
    (rest = [] ∨ ∃ e, rest = printedExponent e) ∧ Nat.ofDigitChars 10 (cs ++ ds) 0 = n ∧
      scanExponent 'e' 'E' rest - ds.length = e

theorem Numeral.isNumeral {n : Nat} {e : Int} (h : Numeral n e cs) : ∀ c ∈ cs, isNumeral c := by
  obtain ⟨cs, ds, rest, rfl, hdigits, -, hrest, -, -⟩ := h
  intro c hc
  rcases List.mem_append.mp hc with hc | hc
  · exact isNumeral_of_isDigit (hdigits c (List.mem_append_left _ hc))
  · rcases List.mem_append.mp hc with hc | hc
    · exact isNumeral_fraction (fun d hd => hdigits d (List.mem_append_right _ hd)) c hc
    · rcases hrest with rfl | ⟨e, rfl⟩
      · cases hc
      · exact isNumeral_printedExponent e c hc

theorem Numeral.ne_nil {n : Nat} {e : Int} (h : Numeral n e cs) : cs ≠ [] := by
  obtain ⟨cs, ds, rest, rfl, -, hne, -, -, -⟩ := h
  exact List.append_ne_nil_of_left_ne_nil hne _

theorem Numeral.atof {n : Nat} {e : Int} (h : Numeral n e cs) : atof cs = toDouble (n * 10 ^ e) := by
  have hall := h.isNumeral
  obtain ⟨cs, ds, rest, rfl, hdigits, hne, hrest, rfl, rfl⟩ := h
  have hstop : Stops (fun c => c.isDigit || c = '.') rest := by
    rcases hrest with rfl | ⟨e, rfl⟩
    · exact stops_nil _
    · exact stops_cons (by decide) _
  obtain ⟨n, k, hscan, hvalue⟩ := scanMantissa_fraction (fun c hc => hdigits c (List.mem_append_left _ hc)) hne
    (fun c hc => hdigits c (List.mem_append_right _ hc)) hstop
  cases cs with
  | nil => exact absurd rfl hne
  | cons c cs =>
    have hc := hdigits c List.mem_cons_self
    have htail : ∀ d ∈ cs ++ (fraction ds ++ rest), Lib.isNumeral d := fun d hd => hall d (List.mem_cons_of_mem _ hd)
    rw [List.cons_append, atof_of_scanMantissa hc htail hscan, sub_eq_neg_add, sub_eq_neg_add,
      zpow_add₀ (by norm_num), zpow_add₀ (by norm_num), ← mul_assoc, ← mul_assoc, hvalue]

/-- What is printed for a positive number stands for its six digits. -/
theorem numeral_formatPositive {x : ℚ} (h : 0 < x) :
    Numeral (sixDigits x).1 ((sixDigits x).2 - 5) (formatPositive x) := by
  have hlength := length_sixDigits h
  have hdigits : ∀ c ∈ Nat.toDigits 10 (sixDigits x).1, c.isDigit := fun c hc => isDigit_toDigits hc
  have hvalue := Nat.ofDigitChars_ten_toDigits (n := (sixDigits x).1)
  unfold formatPositive
  dsimp only
  generalize Nat.toDigits 10 (sixDigits x).1 = digits at hlength hdigits hvalue
  generalize (sixDigits x).2 = e
  have htake (n : Nat) : ∀ c ∈ digits.take n ++ digits.drop n, c.isDigit := by rwa [List.take_append_drop]
  by_cases hsmall : -4 ≤ e ∧ e < 0
  · refine ⟨['0'], List.replicate (-e - 1).toNat '0' ++ digits, [], ?_, ?_, by simp, Or.inl rfl, ?_, ?_⟩
    · rw [if_pos hsmall, List.append_nil]
      rfl
    · intro c hc
      rcases List.mem_append.mp hc with hc | hc
      · obtain rfl := List.mem_singleton.mp hc
        rfl
      · rcases List.mem_append.mp hc with hc | hc
        · obtain rfl := List.eq_of_mem_replicate hc
          rfl
        · exact hdigits c hc
    · rw [Nat.ofDigitChars_append, Nat.ofDigitChars_append, Nat.ofDigitChars_replicate_zero]
      exact hvalue
    · rw [List.length_append, List.length_replicate, hlength, scanExponent]
      omega
  · rw [if_neg hsmall]
    by_cases hmiddle : 0 ≤ e ∧ e < 6
    · refine ⟨digits.take (e + 1).toNat, digits.drop (e + 1).toNat, [], ?_, htake _, ?_, Or.inl rfl, ?_, ?_⟩
      · rw [if_pos hmiddle, List.append_nil]
      · rw [← List.length_pos_iff, List.length_take]
        omega
      · rw [List.take_append_drop, hvalue]
      · rw [List.length_drop, hlength, scanExponent]
        omega
    · refine ⟨digits.take 1, digits.drop 1, printedExponent e, ?_, htake _, ?_, Or.inr ⟨e, rfl⟩, ?_, ?_⟩
      · rw [if_neg hmiddle]
        simp only [printedExponent, List.append_assoc]
      · rw [← List.length_pos_iff, List.length_take]
        omega
      · rw [List.take_append_drop, hvalue]
      · rw [scanExponent_printedExponent, List.length_drop, hlength]
        rfl

theorem numeral_formatDouble {x : ℚ} (h : 0 < x) :
    Numeral (sixDigits x).1 ((sixDigits x).2 - 5) (formatDouble x) := by
  rw [formatDouble, if_neg h.ne', if_neg h.le.not_gt]
  exact numeral_formatPositive h

theorem formatDouble_zero : formatDouble 0 = ['0'] := if_pos rfl

theorem isNumeral_formatDouble {x : ℚ} (h : 0 ≤ x) : ∀ c ∈ formatDouble x, isNumeral c := by
  rcases h.eq_or_lt with rfl | hpos
  · rw [formatDouble_zero]
    simp [isNumeral]
  · exact (numeral_formatDouble hpos).isNumeral

theorem formatDouble_ne_nil {x : ℚ} (h : 0 ≤ x) : formatDouble x ≠ [] := by
  rcases h.eq_or_lt with rfl | hpos
  · rw [formatDouble_zero]
    simp
  · exact (numeral_formatDouble hpos).ne_nil

theorem atof_formatDouble {x : ℚ} (h : 0 ≤ x) : atof (formatDouble x) = toDouble (sixSignificant x) := by
  rcases h.eq_or_lt with rfl | hpos
  · have hdigits : sixSignificant 0 = 0 := by simp [sixSignificant, sixDigits, roundEven]
    have hread : scanMantissa Char.isDigit (fun c => c.toNat - 48) 10 ['0'] = some (0, 0, []) := by decide
    rw [formatDouble_zero, hdigits, atof_of_scanMantissa (by decide) (by simp) hread]
    simp
  · exact (numeral_formatDouble hpos).atof

end Printed

end PiAudioNode.Lib
