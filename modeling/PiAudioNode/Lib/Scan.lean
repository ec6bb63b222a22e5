import PiAudioNode.Lib.Double

/-! Reading numbers and words out of text and printing numbers, as formatted input
and output do it. -/
namespace PiAudioNode.Lib

def isBlank (c : Char) : Bool := c = ' ' || ('\t' ≤ c && c ≤ '\r')

def skipBlanks (cs : List Char) : List Char := cs.dropWhile isBlank

/-- The words between blanks. -/
def words (cs : List Char) : List (List Char) := (cs.splitOnP isBlank).filter (· ≠ [])

def stripPrefix (sText : List Char) (cs : List Char) : Option (List Char) :=
  if sText.isPrefixOf cs then some (cs.drop sText.length) else none

def scanSign : List Char → Bool × List Char
  | '-' :: cs => (true, cs)
  | '+' :: cs => (false, cs)
  | cs => (false, cs)

/-- A decimal integer at the front, held to 64 bits and cut to 32. -/
def scanDecimal (cs : List Char) : Option (Int × List Char) :=
  let x := scanSign cs
  let digits := x.2.takeWhile Char.isDigit
  if digits = [] then none
  else
    let n : Int := Nat.ofDigitChars 10 digits 0
    let n := max (-2 ^ 63) (min (if x.1 then -n else n) (2 ^ 63 - 1))
    some (n.bmod (2 ^ 32), x.2.drop digits.length)

/-- The integer at the front, of any size. -/
def integerAt (cs : List Char) : Int :=
  let x := scanSign cs
  let n : Int := Nat.ofDigitChars 10 (x.2.takeWhile Char.isDigit) 0
  if x.1 then -n else n

/-- What an integer is read as. -/
def held (n : Int) : Int := (max (-2 ^ 63) (min n (2 ^ 63 - 1))).bmod (2 ^ 32)

inductive Directive where
  | blank
  | text (cs : List Char)
  | decimal

/-- The integers read until the first directive that does not match. -/
def scanf : List Directive → List Char → List Int
  | [], _ => []
  | .blank :: ds, cs => scanf ds (skipBlanks cs)
  | .text t :: ds, cs => ((stripPrefix t cs).map (scanf ds)).getD []
  | .decimal :: ds, cs =>
    match scanDecimal (skipBlanks cs) with
    | some (n, rest) => n :: scanf ds rest
    | none => []

/-- `strtoull` in base ten: held to 64 bits, and wrapped after a minus sign. -/
def strtoull (cs : List Char) : Fin (2 ^ 64) :=
  let x := scanSign (skipBlanks cs)
  let n := Nat.ofDigitChars 10 (x.2.takeWhile Char.isDigit) 0
  if 2 ^ 64 ≤ n then Fin.ofNat _ (2 ^ 64 - 1)
  else if x.1 then -Fin.ofNat _ n
  else Fin.ofNat _ n

/-- The integers read and the text left, where every directive matches. -/
def scanfAll : List Directive → List Char → Option (List Int × List Char)
  | [], cs => some ([], cs)
  | .blank :: ds, cs => scanfAll ds (skipBlanks cs)
  | .text t :: ds, cs => (stripPrefix t cs).bind (scanfAll ds)
  | .decimal :: ds, cs =>
    (scanDecimal (skipBlanks cs)).bind fun x => (scanfAll ds x.2).map fun y => (x.1 :: y.1, y.2)

def atoi (cs : List Char) : Int := ((scanDecimal (skipBlanks cs)).map Prod.fst).getD 0

/-- The exponent after its letter: nothing of it is read unless a digit follows. -/
def scanExponent (cLower cUpper : Char) : List Char → Int
  | c :: cs =>
    if c = cLower ∨ c = cUpper then
      let x := scanSign cs
      let n : Int := Nat.ofDigitChars 10 (x.2.takeWhile Char.isDigit) 0
      if x.1 then -n else n
    else 0
  | [] => 0

def isHexDigit (c : Char) : Bool := c.isDigit || ('a' ≤ c && c ≤ 'f') || ('A' ≤ c && c ≤ 'F')

def hexDigit (c : Char) : Nat := if c.isDigit then c.toNat - 48 else (c.toNat - 55) % 32

/-- Digits with a point among them: their number without the point, and how many follow it. -/
def scanMantissa (isDigit : Char → Bool) (digit : Char → Nat) (nBase : Nat) (cs : List Char) :
    Option (Nat × Nat × List Char) :=
  let whole := cs.takeWhile isDigit
  let rest := cs.drop whole.length
  let x := match rest with
    | '.' :: after => (after.takeWhile isDigit, after.dropWhile isDigit)
    | _ => ([], rest)
  if whole = [] ∧ x.1 = [] then none
  else some ((whole ++ x.1).foldl (fun n c => nBase * n + digit c) 0, x.1.length, x.2)

def lower (cs : List Char) : List Char := cs.map Char.toLower

/-- A floating point number at the front, 0 if there is none. The word for infinity
reads as what `toDouble` has for it. -/
def atof (cs : List Char) : ℚ :=
  let x := scanSign (skipBlanks cs)
  let sign (y : ℚ) := if x.1 then -y else y
  if "inf".toList.isPrefixOf (lower x.2) then sign (2 ^ 1024)
  else if "nan".toList.isPrefixOf (lower x.2) then notANumber
  else
    let hex := (stripPrefix "0x".toList (lower x.2)).bind (scanMantissa isHexDigit hexDigit 16)
    match hex with
    | some (n, nFraction, rest) => sign (toDouble (n * 2 ^ (scanExponent 'p' 'P' rest - 4 * nFraction)))
    | none =>
      match scanMantissa Char.isDigit (fun c => c.toNat - 48) 10 x.2 with
      | some (n, nFraction, rest) => sign (toDouble (n * 10 ^ (scanExponent 'e' 'E' rest - nFraction)))
      | none => 0

def decimal (n : Int) : List Char := if n < 0 then '-' :: Nat.toDigits 10 n.natAbs else Nat.toDigits 10 n.natAbs

def stripZeros (cs : List Char) : List Char := (cs.reverse.dropWhile (· = '0')).reverse

/-- A fraction is printed with its point, or not at all. -/
def fraction (cs : List Char) : List Char := if stripZeros cs = [] then [] else '.' :: stripZeros cs

/-- A positive number in at most six significant digits. -/
def formatPositive (x : ℚ) : List Char :=
  let digits := Nat.toDigits 10 (sixDigits x).1
  let nExponent := (sixDigits x).2
  if -4 ≤ nExponent ∧ nExponent < 0 then
    '0' :: fraction (List.replicate (-nExponent - 1).toNat '0' ++ digits)
  else if 0 ≤ nExponent ∧ nExponent < 6 then
    digits.take (nExponent + 1).toNat ++ fraction (digits.drop (nExponent + 1).toNat)
  else
    digits.take 1 ++ fraction (digits.drop 1) ++ ['e', if nExponent < 0 then '-' else '+'] ++
      (if nExponent.natAbs < 10 then ['0'] else []) ++ Nat.toDigits 10 nExponent.natAbs

def formatDouble (x : ℚ) : List Char :=
  if x = 0 then ['0'] else if x < 0 then '-' :: formatPositive (-x) else formatPositive x

section Read
variable {cs ds rest : List Char}

/-- Nothing, or a first character that `p` does not hold of. -/
def Stops (p : Char → Bool) (cs : List Char) : Prop := ∀ c ∈ cs.head?, ¬ p c

theorem stops_nil (p : Char → Bool) : Stops p [] := by
  rintro c ⟨⟩

theorem stops_cons {p : Char → Bool} {c : Char} (h : ¬ p c) (cs : List Char) : Stops p (c :: cs) := by
  intro d hd
  obtain rfl := Option.some.inj hd
  exact h

theorem takeWhile_of_stops {p : Char → Bool} (hds : ∀ c ∈ ds, p c) (hrest : Stops p rest) :
    (ds ++ rest).takeWhile p = ds := by
  rw [List.takeWhile_append_of_pos hds]
  cases rest with
  | nil => simp
  | cons c rest => simp [hrest c rfl]

theorem dropWhile_of_stops {p : Char → Bool} (hrest : Stops p rest) : rest.dropWhile p = rest := by
  cases rest with
  | nil => rfl
  | cons c rest => simp [hrest c rfl]

theorem isDigit_toDigits {n : Nat} {c : Char} (hc : c ∈ Nat.toDigits 10 n) : c.isDigit :=
  Nat.isDigit_of_mem_toDigits (by decide) (by decide) hc

theorem skipBlanks_of_stops (h : Stops isBlank cs) : skipBlanks cs = cs := dropWhile_of_stops h

theorem not_isBlank_of_isDigit {c : Char} (h : c.isDigit) : ¬ isBlank c := by
  intro hblank
  simp only [isBlank, Bool.or_eq_true, Bool.and_eq_true, decide_eq_true_eq] at hblank
  rcases hblank with rfl | ⟨-, hle⟩
  · exact absurd h (by decide)
  · simp only [Char.isDigit, Bool.and_eq_true, decide_eq_true_eq] at h
    have hlt : '\r'.val < '0'.val := by decide
    exact absurd (lt_of_lt_of_le hlt h.1) (not_lt.mpr hle)

theorem scanSign_of_isDigit (h : ∀ c ∈ cs.head?, c.isDigit) : scanSign cs = (false, cs) := by
  cases cs with
  | nil => rfl
  | cons c cs =>
    have hc := h c rfl
    unfold scanSign
    split
    · next heq =>
      obtain ⟨rfl, -⟩ := List.cons.inj heq
      cases hc
    · next heq =>
      obtain ⟨rfl, -⟩ := List.cons.inj heq
      cases hc
    · rfl

theorem head_toDigits (n : Nat) : ∀ c ∈ (Nat.toDigits 10 n ++ rest).head?, c.isDigit := by
  intro c hc
  rw [List.head?_append_of_ne_nil _ Nat.toDigits_ne_nil] at hc
  exact isDigit_toDigits (List.mem_of_mem_head? hc)

/-- A printed integer is read back, up to what follows it. -/
theorem scanDecimal_decimal {n : Int} (hlow : -2 ^ 31 ≤ n) (hhigh : n < 2 ^ 31) (hrest : Stops Char.isDigit rest) :
    scanDecimal (decimal n ++ rest) = some (n, rest) := by
  have hbmod : n.bmod (2 ^ 32) = n := Int.bmod_eq_of_le (by omega) (by omega)
  have htake (m : Nat) : (Nat.toDigits 10 m ++ rest).takeWhile Char.isDigit = Nat.toDigits 10 m :=
    takeWhile_of_stops (fun c hc => isDigit_toDigits hc) hrest
  by_cases hneg : n < 0
  · have hdecimal : decimal n = '-' :: Nat.toDigits 10 n.natAbs := by rw [decimal, if_pos hneg]
    have hvalue : max (-2 ^ 63) (min (-(n.natAbs : Int)) (2 ^ 63 - 1)) = n := by omega
    simp only [scanDecimal, hdecimal, List.cons_append, scanSign, htake, Nat.toDigits_ne_nil, if_false,
      Nat.ofDigitChars_ten_toDigits, if_true, hvalue, hbmod, List.drop_left]
  · have hdecimal : decimal n = Nat.toDigits 10 n.natAbs := by rw [decimal, if_neg hneg]
    have hvalue : max (-2 ^ 63) (min (n.natAbs : Int) (2 ^ 63 - 1)) = n := by omega
    simp only [scanDecimal, hdecimal, scanSign_of_isDigit (head_toDigits _), htake, Nat.toDigits_ne_nil, if_false,
      Nat.ofDigitChars_ten_toDigits, Bool.false_eq_true, hvalue, hbmod, List.drop_left]

theorem scanDecimal_held {n : Int} (h : scanDecimal cs = some (n, rest)) : n = held (integerAt cs) := by
  simp only [scanDecimal] at h
  split_ifs at h with hnone hneg
  · obtain ⟨rfl, -⟩ := Prod.mk.inj (Option.some.inj h)
    simp only [held, integerAt, if_pos hneg]
  · obtain ⟨rfl, -⟩ := Prod.mk.inj (Option.some.inj h)
    simp only [held, integerAt, if_neg hneg]

theorem held_bounds (n : Int) : -2 ^ 31 ≤ held n ∧ held n < 2 ^ 31 := by
  rw [held]
  generalize max (-2 ^ 63) (min n (2 ^ 63 - 1)) = m
  exact ⟨le_trans (by norm_num) (Int.le_bmod (by norm_num)), lt_of_lt_of_le (Int.bmod_lt (by norm_num)) (by norm_num)⟩

/-- A word has the integer that was read into it just if it can. -/
theorem toNat_ofInt_held (n : Int) : ((BitVec.ofInt 16 (held n)).toNat : Int) = n ↔ 0 ≤ n ∧ n < 2 ^ 16 := by
  rw [BitVec.toNat_ofInt]
  constructor
  · intro h
    omega
  · rintro ⟨hlow, hhigh⟩
    have hheld : held n = n := by
      have hmid : max (-2 ^ 63) (min n (2 ^ 63 - 1)) = n := by omega
      rw [held, hmid]
      exact Int.bmod_eq_of_le (by omega) (by omega)
    rw [hheld]
    omega

theorem stops_decimal (n : Int) (rest : List Char) : Stops isBlank (decimal n ++ rest) := by
  rw [decimal]
  split_ifs
  · exact stops_cons (by decide) _
  · intro c hc
    exact not_isBlank_of_isDigit (head_toDigits _ c hc)

theorem atoi_decimal {n : Int} (hlow : -2 ^ 31 ≤ n) (hhigh : n < 2 ^ 31) : atoi (decimal n) = n := by
  have hscan := scanDecimal_decimal hlow hhigh (stops_nil Char.isDigit)
  have hblank := skipBlanks_of_stops (stops_decimal n [])
  rw [List.append_nil] at hscan hblank
  rw [atoi, hblank, hscan]
  rfl

/-- Words joined by blanks are taken apart again. -/
theorem words_join (sWord : List Char) (sWords : List (List Char))
    (h : ∀ cs ∈ sWord :: sWords, cs ≠ [] ∧ ∀ c ∈ cs, isBlank c = false) :
    words (sWord ++ sWords.flatMap (' ' :: ·)) = sWord :: sWords := by
  induction sWords generalizing sWord with
  | nil =>
    obtain ⟨hne, hblank⟩ := h sWord List.mem_cons_self
    rw [List.flatMap_nil, List.append_nil, words, List.splitOnP_eq_singleton hblank]
    simp [hne]
  | cons sNext sWords ih =>
    obtain ⟨hne, hblank⟩ := h sWord List.mem_cons_self
    have hrest := ih sNext fun cs hcs => h cs (List.mem_cons_of_mem _ hcs)
    rw [words] at hrest
    rw [List.flatMap_cons, List.cons_append, words, List.splitOnP_append_cons_of_forall_mem hblank ' ' rfl,
      List.filter_cons_of_pos (by simp [hne]), hrest]

theorem stripPrefix_append (sText cs : List Char) : stripPrefix sText (sText ++ cs) = some cs := by
  rw [stripPrefix, if_pos (List.isPrefixOf_iff_prefix.mpr (List.prefix_append ..)), List.drop_left]

/-- Every integer that is read is one of 32 bits. -/
theorem scanf_bounds (directives : List Directive) (cs : List Char) :
    ∀ n ∈ scanf directives cs, -2 ^ 31 ≤ n ∧ n < 2 ^ 31 := by
  induction directives generalizing cs with
  | nil => intro n hn; cases hn
  | cons directive directives ih =>
    intro n hn
    cases directive with
    | blank => exact ih _ n hn
    | text sText =>
      rw [scanf] at hn
      cases hword : stripPrefix sText cs with
      | none =>
        rw [hword] at hn
        cases hn
      | some sRest =>
        rw [hword] at hn
        exact ih _ n hn
    | decimal =>
      rw [scanf] at hn
      cases hnumber : scanDecimal (skipBlanks cs) with
      | none =>
        rw [hnumber] at hn
        cases hn
      | some x =>
        rw [hnumber] at hn
        rcases List.mem_cons.mp hn with rfl | hn
        · rw [scanDecimal_held hnumber]
          exact held_bounds _
        · exact ih _ n hn

theorem scanf_text (sText cs : List Char) (directives : List Directive) :
    scanf (.text sText :: directives) (sText ++ cs) = scanf directives cs := by
  rw [scanf, stripPrefix_append]
  rfl

theorem scanf_blank (h : Stops isBlank cs) (directives : List Directive) :
    scanf (.blank :: directives) (' ' :: cs) = scanf directives cs := by
  have hskip : skipBlanks (' ' :: cs) = skipBlanks cs := rfl
  rw [scanf, hskip, skipBlanks_of_stops h]

theorem scanf_decimal {n : Int} (hlow : -2 ^ 31 ≤ n) (hhigh : n < 2 ^ 31) (hrest : Stops Char.isDigit rest)
    (directives : List Directive) :
    scanf (.decimal :: directives) (decimal n ++ rest) = n :: scanf directives rest := by
  rw [scanf, skipBlanks_of_stops (stops_decimal n rest), scanDecimal_decimal hlow hhigh hrest]

theorem strtoull_toDigits (n : Fin (2 ^ 64)) {rest : List Char} (hrest : Stops Char.isDigit rest) :
    strtoull (Nat.toDigits 10 n ++ rest) = n := by
  have hhead : ∀ c ∈ (Nat.toDigits 10 n ++ rest).head?, c.isDigit := head_toDigits _
  have hblank : skipBlanks (Nat.toDigits 10 n ++ rest) = Nat.toDigits 10 n ++ rest :=
    skipBlanks_of_stops fun c hc => not_isBlank_of_isDigit (hhead c hc)
  have htake : (Nat.toDigits 10 n ++ rest).takeWhile Char.isDigit = Nat.toDigits 10 n :=
    takeWhile_of_stops (fun c hc => isDigit_toDigits hc) hrest
  simp only [strtoull, hblank, scanSign_of_isDigit hhead, htake, Nat.ofDigitChars_ten_toDigits, Bool.false_eq_true,
    if_false]
  rw [if_neg (not_le.mpr n.isLt)]
  exact Fin.ofNat_val_eq_self n

/-- A sign is taken off, or nothing. -/
theorem exists_sign (cs : List Char) : ∃ sign ∈ [[], ['-'], ['+']], cs = sign ++ (scanSign cs).2 := by
  unfold scanSign
  split
  · exact ⟨['-'], by simp, rfl⟩
  · exact ⟨['+'], by simp, rfl⟩
  · exact ⟨[], by simp, rfl⟩

section Consumed
variable {p : Char → Prop} (hblank : ∀ c, isBlank c → p c) (hminus : p '-') (hplus : p '+') (hdigit : ∀ c, c.isDigit → p c)

theorem exists_append_skipBlanks (hblank : ∀ c, isBlank c → p c) (cs : List Char) :
    ∃ front, cs = front ++ skipBlanks cs ∧ ∀ c ∈ front, p c :=
  ⟨cs.takeWhile isBlank, List.takeWhile_append_dropWhile.symm, fun c hc => hblank c (List.mem_takeWhile_imp hc)⟩

include hminus hplus in
theorem exists_append_scanSign (cs : List Char) : ∃ front, cs = front ++ (scanSign cs).2 ∧ ∀ c ∈ front, p c := by
  obtain ⟨sign, hsign, hcs⟩ := exists_sign cs
  refine ⟨sign, hcs, ?_⟩
  simp only [List.mem_cons, List.not_mem_nil, or_false] at hsign
  rcases hsign with rfl | rfl | rfl
  · simp
  · simpa using hminus
  · simpa using hplus

include hminus hplus hdigit in
theorem exists_append_scanDecimal {n : Int} (h : scanDecimal cs = some (n, rest)) :
    ∃ front, cs = front ++ rest ∧ ∀ c ∈ front, p c := by
  obtain ⟨front, hcs, hfront⟩ := exists_append_scanSign hminus hplus cs
  simp only [scanDecimal] at h
  split at h
  · cases h
  · obtain ⟨-, rfl⟩ := Prod.mk.inj (Option.some.inj h)
    refine ⟨front ++ (scanSign cs).2.takeWhile Char.isDigit, ?_, fun c hc => ?_⟩
    · rw [List.append_assoc, List.prefix_iff_eq_append.mp (List.takeWhile_prefix _), ← hcs]
    · rcases List.mem_append.mp hc with hc | hc
      · exact hfront c hc
      · exact hdigit c (List.mem_takeWhile_imp hc)

include hblank hminus hplus hdigit in
/-- What the directives take is blanks, signs, digits and their own texts. -/
theorem scanfAll_consumed : ∀ {ds : List Directive} {cs : List Char} {ns : List Int},
    (∀ t, .text t ∈ ds → ∀ c ∈ t, p c) → scanfAll ds cs = some (ns, rest) → ∃ front, cs = front ++ rest ∧ ∀ c ∈ front, p c
  | [], cs, ns, _, h => by
    obtain ⟨-, rfl⟩ := Prod.mk.inj (Option.some.inj h)
    exact ⟨[], rfl, by simp⟩
  | .blank :: ds, cs, ns, htext, h => by
    obtain ⟨blanks, hcs, hblanks⟩ := exists_append_skipBlanks hblank cs
    obtain ⟨front, hskip, hfront⟩ := scanfAll_consumed (fun t ht => htext t (List.mem_cons_of_mem _ ht)) h
    refine ⟨blanks ++ front, ?_, fun c hc => (List.mem_append.mp hc).elim (hblanks c) (hfront c)⟩
    rw [List.append_assoc, ← hskip, ← hcs]
  | .text t :: ds, cs, ns, htext, h => by
    rw [scanfAll, stripPrefix] at h
    split at h
    · next hprefix =>
      obtain ⟨cs, rfl⟩ := List.isPrefixOf_iff_prefix.mp hprefix
      rw [Option.bind_some, List.drop_left] at h
      obtain ⟨front, rfl, hfront⟩ := scanfAll_consumed (fun t ht => htext t (List.mem_cons_of_mem _ ht)) h
      refine ⟨t ++ front, (List.append_assoc ..).symm, fun c hc => ?_⟩
      exact (List.mem_append.mp hc).elim (htext t List.mem_cons_self c) (hfront c)
    · cases h
  | .decimal :: ds, cs, ns, htext, h => by
    obtain ⟨blanks, hcs, hblanks⟩ := exists_append_skipBlanks hblank cs
    rw [scanfAll] at h
    obtain ⟨x, hx, h⟩ := Option.bind_eq_some_iff.mp h
    obtain ⟨y, hy, heq⟩ := Option.map_eq_some_iff.mp h
    have hy : scanfAll ds x.2 = some (y.1, rest) := by rw [hy, ← (Prod.mk.inj heq).2]
    have hx : scanDecimal (skipBlanks cs) = some (x.1, x.2) := hx
    obtain ⟨number, hskip, hnumber⟩ := exists_append_scanDecimal hminus hplus hdigit hx
    obtain ⟨front, hrest, hfront⟩ := scanfAll_consumed (fun t ht => htext t (List.mem_cons_of_mem _ ht)) hy
    refine ⟨blanks ++ (number ++ front), ?_, fun c hc => ?_⟩
    · rw [List.append_assoc, List.append_assoc, ← hrest, ← hskip, ← hcs]
    · rcases List.mem_append.mp hc with hc | hc
      · exact hblanks c hc
      · exact (List.mem_append.mp hc).elim (hnumber c) (hfront c)

end Consumed

end Read

end PiAudioNode.Lib
