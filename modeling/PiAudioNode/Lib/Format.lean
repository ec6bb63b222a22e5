import PiAudioNode.Lib.Scan

/-! Texts that a format of integers and separators takes as a whole. An integer may be
spelled with blanks and a sign before its digits, so a format takes more texts than it
prints. -/
namespace PiAudioNode.Lib

/-- An integer as a conversion takes it. -/
@[ext]
structure Spelling where
  blanks : List Char
  sign : List Char
  digits : List Char
  isBlank_blanks : ∀ c ∈ blanks, isBlank c
  mem_sign : sign ∈ [[], ['-'], ['+']]
  digits_ne_nil : digits ≠ []
  isDigit_digits : ∀ c ∈ digits, c.isDigit

/-- The directives for integers with these separators between them. -/
def integerFormat : List Char → List Directive
  | [] => [.decimal]
  | c :: seps => .decimal :: .text [c] :: integerFormat seps

theorem stops_dropWhile (p : Char → Bool) (cs : List Char) : Stops p (cs.dropWhile p) := by
  induction cs with
  | nil => exact stops_nil p
  | cons c cs ih =>
    rw [List.dropWhile_cons]
    split
    · exact ih
    next hc => exact stops_cons hc cs

namespace Spelling
variable {x y : Spelling} {cs rest rest' : List Char}

def text (x : Spelling) : List Char := x.blanks ++ (x.sign ++ x.digits)

/-- The integer that is spelled, of any size. -/
def value (x : Spelling) : Int :=
  if x.sign = ['-'] then -(Nat.ofDigitChars 10 x.digits 0 : Int) else Nat.ofDigitChars 10 x.digits 0

/-- Nothing but digits. -/
def Bare (x : Spelling) : Prop := x.blanks = [] ∧ x.sign = []

theorem head_digits (x : Spelling) : ∃ c, x.digits.head? = some c ∧ c.isDigit := by
  obtain ⟨c, ds, hds⟩ := List.exists_cons_of_ne_nil x.digits_ne_nil
  refine ⟨c, by rw [hds, List.head?_cons], x.isDigit_digits c ?_⟩
  rw [hds]
  exact List.mem_cons_self

theorem head_digits_append (x : Spelling) (rest : List Char) : ∀ c ∈ (x.digits ++ rest).head?, c.isDigit := by
  obtain ⟨d, hd, hdigit⟩ := x.head_digits
  intro c hc
  rw [List.head?_append_of_ne_nil _ x.digits_ne_nil, hd] at hc
  obtain rfl := Option.some.inj hc
  exact hdigit

/-- The blanks end at the sign or at the first digit. -/
theorem stops_sign (x : Spelling) (rest : List Char) : Stops isBlank (x.sign ++ (x.digits ++ rest)) := by
  have hsign := x.mem_sign
  simp only [List.mem_cons, List.not_mem_nil, or_false] at hsign
  rcases hsign with h | h | h
  · rw [h, List.nil_append]
    exact fun c hc => not_isBlank_of_isDigit (x.head_digits_append rest c hc)
  · rw [h]
    exact stops_cons (by decide) _
  · rw [h]
    exact stops_cons (by decide) _

theorem skipBlanks_text (x : Spelling) (rest : List Char) :
    skipBlanks (x.text ++ rest) = x.sign ++ (x.digits ++ rest) := by
  rw [text, List.append_assoc, List.append_assoc, skipBlanks, List.dropWhile_append_of_pos x.isBlank_blanks]
  exact dropWhile_of_stops (x.stops_sign rest)

theorem scanSign_text (x : Spelling) (rest : List Char) :
    scanSign (x.sign ++ (x.digits ++ rest)) = (decide (x.sign = ['-']), x.digits ++ rest) := by
  have hsign := x.mem_sign
  simp only [List.mem_cons, List.not_mem_nil, or_false] at hsign
  rcases hsign with h | h | h
  · rw [h, List.nil_append, scanSign_of_isDigit (x.head_digits_append rest)]
    rfl
  · rw [h]
    rfl
  · rw [h]
    rfl

theorem integerAt_text (x : Spelling) (hrest : Stops Char.isDigit rest) :
    integerAt (x.sign ++ (x.digits ++ rest)) = x.value := by
  simp only [integerAt, scanSign_text, takeWhile_of_stops x.isDigit_digits hrest, decide_eq_true_eq, value]

theorem scanDecimal_text (x : Spelling) (hrest : Stops Char.isDigit rest) :
    scanDecimal (skipBlanks (x.text ++ rest)) = some (held x.value, rest) := by
  have htake := takeWhile_of_stops x.isDigit_digits hrest
  rw [skipBlanks_text]
  have hscan : scanDecimal (x.sign ++ (x.digits ++ rest)) =
      some (held (integerAt (x.sign ++ (x.digits ++ rest))), rest) := by
    simp only [scanDecimal, held, integerAt, scanSign_text, htake, x.digits_ne_nil, if_false, List.drop_left]
  rw [hscan, x.integerAt_text hrest]

/-- An integer that is read is the front of the text, as it is spelled. -/
theorem exists_text {n : Int} (h : scanDecimal (skipBlanks cs) = some (n, rest)) :
    ∃ x : Spelling, cs = x.text ++ rest ∧ Stops Char.isDigit rest ∧ n = held x.value := by
  obtain ⟨sign, hsign, hcut⟩ := exists_sign (skipBlanks cs)
  have hscan := h
  simp only [scanDecimal] at hscan
  split at hscan
  · cases hscan
  next hdigits =>
  obtain ⟨-, hrest⟩ := Prod.mk.inj (Option.some.inj hscan)
  have hafter : (scanSign (skipBlanks cs)).2 = (scanSign (skipBlanks cs)).2.takeWhile Char.isDigit ++ rest := by
    rw [← hrest, List.prefix_iff_eq_append.mp (List.takeWhile_prefix _)]
  have hstops : Stops Char.isDigit rest := by
    have hdrop := stops_dropWhile Char.isDigit (scanSign (skipBlanks cs)).2
    rwa [← List.append_cancel_left (List.takeWhile_append_dropWhile.trans hafter)]
  let x : Spelling := ⟨cs.takeWhile isBlank, sign, (scanSign (skipBlanks cs)).2.takeWhile Char.isDigit,
    fun c hc => List.mem_takeWhile_imp hc, hsign, hdigits, fun c hc => List.mem_takeWhile_imp hc⟩
  have hcs : cs = x.text ++ rest := by
    calc cs = cs.takeWhile isBlank ++ skipBlanks cs := List.takeWhile_append_dropWhile.symm
      _ = cs.takeWhile isBlank ++ (sign ++ (scanSign (skipBlanks cs)).2) := by rw [← hcut]
      _ = cs.takeWhile isBlank ++
          (sign ++ ((scanSign (skipBlanks cs)).2.takeWhile Char.isDigit ++ rest)) := by rw [← hafter]
      _ = x.text ++ rest := by simp only [x, text, List.append_assoc]
  refine ⟨x, hcs, hstops, ?_⟩
  rw [hcs, x.scanDecimal_text hstops] at h
  exact (Prod.mk.inj (Option.some.inj h)).1.symm

/-- Blanks, sign and digits are told apart. -/
theorem eq_of_append (h : x.text ++ rest = y.text ++ rest') (hrest : Stops Char.isDigit rest)
    (hrest' : Stops Char.isDigit rest') : x = y ∧ rest = rest' := by
  have hblanks : x.blanks = y.blanks := by
    have htake := congrArg (List.takeWhile isBlank) h
    rw [text, text, List.append_assoc, List.append_assoc, List.append_assoc, List.append_assoc,
      takeWhile_of_stops x.isBlank_blanks (x.stops_sign rest),
      takeWhile_of_stops y.isBlank_blanks (y.stops_sign rest')] at htake
    exact htake
  have hsign := congrArg skipBlanks h
  rw [skipBlanks_text, skipBlanks_text] at hsign
  have hscan := congrArg scanSign hsign
  rw [scanSign_text, scanSign_text] at hscan
  have hafter : x.digits ++ rest = y.digits ++ rest' := (Prod.mk.inj hscan).2
  have hdigits : x.digits = y.digits := by
    have htake := congrArg (List.takeWhile Char.isDigit) hafter
    rwa [takeWhile_of_stops x.isDigit_digits hrest, takeWhile_of_stops y.isDigit_digits hrest'] at htake
  rw [hafter] at hsign
  have hsign : x.sign = y.sign := List.append_cancel_right hsign
  rw [hdigits] at hafter
  exact ⟨Spelling.ext hblanks hsign hdigits, List.append_cancel_left hafter⟩

/-- The digits alone, as an integer is spelled without anything else. -/
def ofDigits (ds : List Char) (hne : ds ≠ []) (hdigit : ∀ c ∈ ds, c.isDigit) : Spelling where
  blanks := []
  sign := []
  digits := ds
  isBlank_blanks := by simp
  mem_sign := by simp
  digits_ne_nil := hne
  isDigit_digits := hdigit

theorem Bare.text_eq (h : x.Bare) : x.text = x.digits := by
  rw [text, h.1, h.2, List.nil_append, List.nil_append]

theorem Bare.value_eq (h : x.Bare) : x.value = Nat.ofDigitChars 10 x.digits 0 := by
  rw [value, h.2, if_neg (by simp)]

theorem Bare.value_nonneg (h : x.Bare) : 0 ≤ x.value := by
  rw [h.value_eq]
  exact Int.natCast_nonneg _

end Spelling

/-- A text of spelled integers with these separators between them. -/
inductive Spelled : List Char → List Spelling → List Char → Prop
  | last (x : Spelling) : Spelled [] [x] x.text
  | cons {seps : List Char} {xs : List Spelling} {cs : List Char} (x : Spelling) (c : Char) :
    Spelled seps xs cs → Spelled (c :: seps) (x :: xs) (x.text ++ c :: cs)

section Spelled
variable {seps cs : List Char} {xs ys : List Spelling}

theorem spelled_nil_iff : Spelled [] xs cs ↔ ∃ x, xs = [x] ∧ cs = x.text := by
  constructor
  · intro h
    cases h with
    | last x => exact ⟨x, rfl, rfl⟩
  · rintro ⟨x, rfl, rfl⟩
    exact .last x

theorem spelled_cons_iff {c : Char} :
    Spelled (c :: seps) xs cs ↔ ∃ x ys ds, xs = x :: ys ∧ cs = x.text ++ c :: ds ∧ Spelled seps ys ds := by
  constructor
  · intro h
    cases h with
    | cons x _ hys => exact ⟨x, _, _, rfl, rfl, hys⟩
  · rintro ⟨x, ys, ds, rfl, rfl, hys⟩
    exact .cons x c hys

/-- An integer is taken just if one is spelled at the front, with no digit after it. -/
theorem scanfAll_decimal_iff {ds : List Directive} {ns : List Int} {rest : List Char} :
    scanfAll (.decimal :: ds) cs = some (ns, rest) ↔ ∃ x : Spelling, ∃ after ms,
      cs = x.text ++ after ∧ Stops Char.isDigit after ∧ scanfAll ds after = some (ms, rest) ∧
        ns = held x.value :: ms := by
  constructor
  · intro h
    rw [scanfAll] at h
    obtain ⟨⟨n, after⟩, hscan, h⟩ := Option.bind_eq_some_iff.mp h
    obtain ⟨⟨ms, rest'⟩, hall, heq⟩ := Option.map_eq_some_iff.mp h
    obtain ⟨rfl, rfl⟩ := Prod.mk.inj heq
    obtain ⟨x, hcs, hstops, hn⟩ := Spelling.exists_text hscan
    exact ⟨x, after, ms, hcs, hstops, hall, congrArg (· :: ms) hn⟩
  · rintro ⟨x, after, ms, rfl, hstops, hall, rfl⟩
    rw [scanfAll, x.scanDecimal_text hstops, Option.bind_some, hall, Option.map_some]

theorem scanfAll_char_iff {ds : List Directive} {c : Char} {y : List Int × List Char} :
    scanfAll (.text [c] :: ds) cs = some y ↔ ∃ after, cs = c :: after ∧ scanfAll ds after = some y := by
  constructor
  · intro h
    rw [scanfAll] at h
    obtain ⟨after, hstrip, hall⟩ := Option.bind_eq_some_iff.mp h
    rw [stripPrefix] at hstrip
    split at hstrip
    next hprefix =>
      obtain ⟨t, rfl⟩ := List.isPrefixOf_iff_prefix.mp hprefix
      obtain rfl := Option.some.inj hstrip
      exact ⟨t, rfl, hall⟩
    · cases hstrip
  · rintro ⟨after, rfl, hall⟩
    have hstrip : stripPrefix [c] (c :: after) = some after := stripPrefix_append [c] after
    rw [scanfAll, hstrip, Option.bind_some, hall]

/-- The format takes the whole text just if integers are spelled in it, with the separators. -/
theorem scanfAll_integerFormat_iff (hseps : ∀ c ∈ seps, ¬ c.isDigit) {ns : List Int} :
    scanfAll (integerFormat seps) cs = some (ns, []) ↔ ∃ xs, Spelled seps xs cs ∧ ns = xs.map fun x => held x.value := by
  induction seps generalizing cs ns with
  | nil =>
    rw [integerFormat, scanfAll_decimal_iff]
    constructor
    · rintro ⟨x, after, ms, rfl, -, hend, rfl⟩
      obtain ⟨rfl, rfl⟩ := Prod.mk.inj (Option.some.inj hend)
      rw [List.append_nil]
      exact ⟨[x], .last x, rfl⟩
    · rintro ⟨xs, hxs, rfl⟩
      obtain ⟨x, rfl, rfl⟩ := spelled_nil_iff.mp hxs
      exact ⟨x, [], [], (List.append_nil _).symm, stops_nil _, rfl, rfl⟩
  | cons c seps ih =>
    have hc : ¬ c.isDigit := hseps c List.mem_cons_self
    have htail : ∀ d ∈ seps, ¬ d.isDigit := fun d hd => hseps d (List.mem_cons_of_mem c hd)
    rw [integerFormat, scanfAll_decimal_iff]
    constructor
    · rintro ⟨x, after, ms, rfl, -, hsep, rfl⟩
      obtain ⟨cs, rfl, hall⟩ := scanfAll_char_iff.mp hsep
      obtain ⟨xs, hxs, rfl⟩ := (ih htail).mp hall
      exact ⟨x :: xs, .cons x c hxs, rfl⟩
    · rintro ⟨xs, hxs, rfl⟩
      obtain ⟨x, ys, ds, rfl, rfl, hys⟩ := spelled_cons_iff.mp hxs
      have hall := (ih htail).mpr ⟨ys, hys, rfl⟩
      exact ⟨x, c :: ds, _, rfl, stops_cons hc ds, scanfAll_char_iff.mpr ⟨ds, rfl, hall⟩, rfl⟩

/-- There is one way to take such a text apart. -/
theorem Spelled.unique (hseps : ∀ c ∈ seps, ¬ c.isDigit) (h : Spelled seps xs cs) (h' : Spelled seps ys cs) : xs = ys := by
  induction h generalizing ys with
  | last x =>
    obtain ⟨y, rfl, htext⟩ := spelled_nil_iff.mp h'
    have htext : x.text ++ [] = y.text ++ [] := by rw [htext]
    rw [(Spelling.eq_of_append htext (stops_nil _) (stops_nil _)).1]
  | @cons seps xs cs x c hxs ih =>
    have hc : ¬ c.isDigit := hseps c List.mem_cons_self
    obtain ⟨y, ys, ds, rfl, htext, hys⟩ := spelled_cons_iff.mp h'
    -- the separator is no digit, so it ends the first integer in both
    obtain ⟨rfl, hrest⟩ := Spelling.eq_of_append htext (stops_cons hc cs) (stops_cons hc ds)
    obtain ⟨-, rfl⟩ := List.cons.inj hrest
    rw [ih (fun d hd => hseps d (List.mem_cons_of_mem c hd)) hys]

/-- Digits alone leave no other characters than the separators. -/
theorem Spelled.characters (h : Spelled seps xs cs) (hbare : ∀ x ∈ xs, x.Bare) : ∀ c ∈ cs, c.isDigit ∨ c ∈ seps := by
  induction h with
  | last x =>
    intro c hc
    rw [(hbare x List.mem_cons_self).text_eq] at hc
    exact .inl (x.isDigit_digits c hc)
  | @cons seps xs cs x sep hxs ih =>
    obtain ⟨hx, hrest⟩ := List.forall_mem_cons.mp hbare
    intro c hc
    rw [hx.text_eq] at hc
    rcases List.mem_append.mp hc with hc | hc
    · exact .inl (x.isDigit_digits c hc)
    rcases List.mem_cons.mp hc with rfl | hc
    · exact .inr List.mem_cons_self
    · exact (ih hrest c hc).imp_right (List.mem_cons_of_mem sep)

end Spelled

/-- A number below `2 ^ 32` that is not read as a negative one is read as itself. -/
theorem held_eq_self {n : Int} (hlow : 0 ≤ n) (hhigh : n < 2 ^ 32) (hheld : 0 ≤ held n) : held n = n := by
  have hmid : max (-2 ^ 63) (min n (2 ^ 63 - 1)) = n := by omega
  rw [held, hmid] at hheld ⊢
  rcases lt_or_ge n (2 ^ 31) with hlt | hge
  · exact Int.bmod_eq_of_le (by omega) (by omega)
  · have hwrapped : n.bmod (2 ^ 32) = n - 2 ^ 32 := by
      rw [Int.bmod_def]
      omega
    omega

end PiAudioNode.Lib
