import PiAudioNode.Lib.Framed
import PiAudioNode.Lib.Loop
import PiAudioNode.Lib.Word

/-! The strings of a registry's TXT records. Each is a length and as many octets, and the
lengths come from the network: one that does not fit what is left of the record ends it. -/
namespace PiAudioNode.Nmos
open Lib

/-- The octets in memory from an address on. -/
def span (memory : Nat → Byte) (pData nLen : Nat) : Bytes := (List.range' pData nLen).map memory

/-- What the loop over a record holds, and the addresses it has read so far. -/
structure TxtLoop where
  pData : Nat
  nRemaining : Nat
  vStrings : List Bytes
  vRead : List Nat

def txtTurn (answer : Nat → Byte) (x : TxtLoop) : Turn TxtLoop :=
  if x.nRemaining = 0 then .ends x
  else
    let nLen := (answer x.pData).toNat
    let vRead := x.vRead ++ [x.pData]
    if nLen + 1 > x.nRemaining then .ends { x with vRead := vRead }
    else .goes
      { pData := x.pData + (nLen + 1)
        nRemaining := x.nRemaining - (nLen + 1)
        vStrings := x.vStrings ++ [span answer (x.pData + 1) nLen]
        vRead := vRead ++ List.range' (x.pData + 1) nLen }

/-- At its data, with the strings of the records before. -/
def TxtLoop.start (pData nLength : Nat) (vStrings : List Bytes) : TxtLoop :=
  { pData := pData, nRemaining := nLength, vStrings := vStrings, vRead := [] }

/-- A parsed record of an answer. -/
structure ResourceRecord where
  nType : BitVec 16
  pData : Nat
  nLength : BitVec 16

def typeTxt : BitVec 16 := 16

/-- One record of the answer: one that does not parse, or of another type, is passed over. -/
def txtRecord (answer : Nat → Byte) (vStrings : List Bytes) : Option ResourceRecord → Option (List Bytes)
  | some rr =>
    if rr.nType = typeTxt then
      (loop (txtTurn answer) (rr.nLength.toNat + 1) (.start rr.pData rr.nLength.toNat vStrings)).map TxtLoop.vStrings
    else some vStrings
  | none => some vStrings

/-- The strings of all records, or none if no answer comes or it does not parse. -/
def queryTxt (answer : Nat → Byte) (msg : Option (List (Option ResourceRecord))) : Option (List Bytes) :=
  (msg.getD []).foldlM (txtRecord answer) []

section Encoding
variable {vStrings vOthers : List Bytes} {sText sOther : Bytes}

def encodeString (sText : Bytes) : Bytes := BitVec.ofNat 8 sText.length :: sText

def encodeTxt (vStrings : List Bytes) : Bytes := (vStrings.map encodeString).flatten

theorem encodeString_injective : Function.Injective encodeString :=
  fun _ _ h => (List.cons.inj h).2

theorem isFrame_encodeString (h : sText.length < 256) : IsFrame BitVec.toNat (encodeString sText) := by
  refine ⟨_, sText, rfl, ?_⟩
  rw [BitVec.toNat_ofNat, Nat.mod_eq_of_lt h]

theorem isFrame_of_mem_map (h : ∀ sText ∈ vStrings, sText.length < 256) :
    ∀ f ∈ vStrings.map encodeString, IsFrame BitVec.toNat f := by
  intro f hf
  obtain ⟨sText, hmem, rfl⟩ := List.mem_map.mp hf
  exact isFrame_encodeString (h sText hmem)

theorem encodeTxt_append (vStrings vOthers : List Bytes) :
    encodeTxt (vStrings ++ vOthers) = encodeTxt vStrings ++ encodeTxt vOthers := by
  rw [encodeTxt, List.map_append, List.flatten_append]
  rfl

theorem encodeTxt_singleton (sText : Bytes) : encodeTxt [sText] = encodeString sText := by
  simp [encodeTxt]

/-- The strings that are whole at the front of the data of a record: encoded again they
are a prefix of it, and no longer one is encoded strings. -/
structure LongestStrings (rdata : Bytes) (vStrings : List Bytes) : Prop where
  short : ∀ sText ∈ vStrings, sText.length < 256
  encoded : encodeTxt vStrings <+: rdata
  longest : ∀ vOthers, (∀ sText ∈ vOthers, sText.length < 256) → encodeTxt vOthers <+: rdata → vOthers <+: vStrings

/-- Strings with a rest behind them that is not one more. -/
theorem longestStrings_of_torn {rdata rest : Bytes} (hshort : ∀ sText ∈ vStrings, sText.length < 256)
    (hdata : rdata = encodeTxt vStrings ++ rest) (hrest : Torn BitVec.toNat rest) : LongestStrings rdata vStrings where
  short := hshort
  encoded := ⟨rest, hdata.symm⟩
  longest := by
    intro vOthers hothers hprefix
    rw [hdata] at hprefix
    have hframes := prefix_of_flatten_prefix (isFrame_of_mem_map hshort) (isFrame_of_mem_map hothers) hrest hprefix
    obtain ⟨vFront, hfront, heq⟩ := List.prefix_map_iff.mp hframes
    rw [List.map_injective_iff.mpr encodeString_injective heq]
    exact hfront

/-- Strings that were encoded, and no others, are what the data of a record holds. -/
theorem longestStrings_encodeTxt_iff (hshort : ∀ sText ∈ vOthers, sText.length < 256) :
    LongestStrings (encodeTxt vOthers) vStrings ↔ vStrings = vOthers := by
  have hall : LongestStrings (encodeTxt vOthers) vOthers :=
    longestStrings_of_torn hshort (List.append_nil _).symm torn_nil
  constructor
  · intro h
    have hfront := hall.longest vStrings h.short h.encoded
    exact hfront.eq_of_length_le (h.longest vOthers hshort hall.encoded).length_le
  · rintro rfl
    exact hall

end Encoding

section Span
variable (memory : Nat → Byte) (pData nLen : Nat)

@[simp] theorem length_span : (span memory pData nLen).length = nLen := by
  simp [span]

theorem span_zero : span memory pData 0 = [] := rfl

theorem span_succ : span memory pData (nLen + 1) = memory pData :: span memory (pData + 1) nLen := by
  rw [span, List.range'_succ, List.map_cons]
  rfl

theorem span_add (nMore : Nat) :
    span memory pData (nLen + nMore) = span memory pData nLen ++ span memory (pData + nLen) nMore := by
  rw [span, span, span, ← List.map_append, List.range'_append_1]

/-- A length and as many octets are the string they hold, encoded. -/
theorem span_eq_encodeString (h : (memory pData).toNat = nLen) :
    span memory pData (nLen + 1) = encodeString (span memory (pData + 1) nLen) := by
  rw [span_succ, encodeString, length_span, ← h, BitVec.ofNat_toNat, BitVec.setWidth_eq]

end Span

section Loop
variable {answer : Nat → Byte} {pData nLength : Nat} {vBefore : List Bytes} {x y : TxtLoop}

theorem txtTurn_goes (h : txtTurn answer x = .goes y) :
    (answer x.pData).toNat + 1 ≤ x.nRemaining ∧ y =
      { pData := x.pData + ((answer x.pData).toNat + 1)
        nRemaining := x.nRemaining - ((answer x.pData).toNat + 1)
        vStrings := x.vStrings ++ [span answer (x.pData + 1) (answer x.pData).toNat]
        vRead := x.vRead ++ [x.pData] ++ List.range' (x.pData + 1) (answer x.pData).toNat } := by
  unfold txtTurn at h
  split at h
  · cases h
  · dsimp only at h
    split at h
    · cases h
    next hfits =>
      cases h
      exact ⟨not_lt.mp hfits, rfl⟩

/-- A turn that ends the loop has read a length, if there was one, and left the strings. -/
theorem txtTurn_ends (h : txtTurn answer x = .ends y) :
    y.vStrings = x.vStrings ∧ (∀ a ∈ y.vRead, a ∈ x.vRead ∨ a = x.pData ∧ 0 < x.nRemaining) ∧
      x.nRemaining < (answer x.pData).toNat + 1 := by
  unfold txtTurn at h
  split at h
  next hzero =>
    cases h
    exact ⟨rfl, fun a ha => .inl ha, by omega⟩
  next hne =>
    dsimp only at h
    split at h
    next hlong =>
      cases h
      refine ⟨rfl, ?_, hlong⟩
      intro a ha
      rcases List.mem_append.mp ha with ha | ha
      · exact .inl ha
      · exact .inr ⟨List.mem_singleton.mp ha, Nat.pos_of_ne_zero hne⟩
    · cases h

/-- The strings so far, encoded, and what remains make up the data of the record. -/
structure Decoded (answer : Nat → Byte) (pData nLength : Nat) (vBefore : List Bytes) (x : TxtLoop) : Prop where
  behind : pData ≤ x.pData
  remaining : x.pData + x.nRemaining = pData + nLength
  read : ∀ a ∈ x.vRead, pData ≤ a ∧ a < pData + nLength
  strings : ∃ v, x.vStrings = vBefore ++ v ∧ (∀ sText ∈ v, sText.length < 256) ∧
    span answer pData nLength = encodeTxt v ++ span answer x.pData x.nRemaining

/-- Nothing outside the data is read, and the strings are as many as it holds. -/
structure Exhausted (answer : Nat → Byte) (pData nLength : Nat) (vBefore : List Bytes) (x : TxtLoop) : Prop where
  read : ∀ a ∈ x.vRead, pData ≤ a ∧ a < pData + nLength
  strings : ∃ v, x.vStrings = vBefore ++ v ∧ LongestStrings (span answer pData nLength) v

theorem Decoded.start (answer : Nat → Byte) (pData nLength : Nat) (vBefore : List Bytes) :
    Decoded answer pData nLength vBefore (.start pData nLength vBefore) where
  behind := le_rfl
  remaining := rfl
  read := by
    intro a ha
    cases ha
  strings := ⟨[], (List.append_nil _).symm, by simp, rfl⟩

theorem Decoded.goes (h : Decoded answer pData nLength vBefore x) (hturn : txtTurn answer x = .goes y) :
    Decoded answer pData nLength vBefore y := by
  obtain ⟨hfits, rfl⟩ := txtTurn_goes hturn
  have hend := h.remaining
  have hbehind := h.behind
  refine ⟨?_, ?_, ?_, ?_⟩
  · dsimp only
    omega
  · dsimp only
    omega
  · intro a ha
    rcases List.mem_append.mp ha with ha | ha
    · rcases List.mem_append.mp ha with ha | ha
      · exact h.read a ha
      · obtain rfl := List.mem_singleton.mp ha
        omega
    · obtain ⟨hlow, hhigh⟩ := List.mem_range'_1.mp ha
      omega
  · obtain ⟨v, hv, hshort, hdata⟩ := h.strings
    refine ⟨v ++ [span answer (x.pData + 1) (answer x.pData).toNat], ?_, ?_, ?_⟩
    · dsimp only
      rw [hv, List.append_assoc]
    · intro sText hmem
      rcases List.mem_append.mp hmem with hmem | hmem
      · exact hshort sText hmem
      · obtain rfl := List.mem_singleton.mp hmem
        rw [length_span]
        exact (answer x.pData).isLt
    · -- the string goes over from what remained to what is decoded
      obtain ⟨nMore, hmore⟩ := Nat.exists_eq_add_of_le hfits
      rw [hdata, encodeTxt_append, encodeTxt_singleton, ← span_eq_encodeString _ _ _ rfl, List.append_assoc, hmore,
        Nat.add_sub_cancel_left, span_add]

/-- What is left when the loop ends holds no whole string: it is empty, or cut short. -/
theorem torn_of_short (h : x.nRemaining < (answer x.pData).toNat + 1) :
    Torn BitVec.toNat (span answer x.pData x.nRemaining) := by
  cases hleft : x.nRemaining with
  | zero =>
    rw [span_zero]
    exact torn_nil
  | succ n =>
    rw [span_succ]
    apply torn_cons
    rw [length_span]
    omega

theorem Decoded.ends (h : Decoded answer pData nLength vBefore x) (hturn : txtTurn answer x = .ends y) :
    Exhausted answer pData nLength vBefore y := by
  obtain ⟨hstrings, hread, hshort⟩ := txtTurn_ends hturn
  obtain ⟨v, hv, hlengths, hdata⟩ := h.strings
  refine ⟨?_, v, hstrings.trans hv, longestStrings_of_torn hlengths hdata (torn_of_short hshort)⟩
  intro a ha
  rcases hread a ha with ha | ⟨rfl, hpos⟩
  · exact h.read a ha
  · have hend := h.remaining
    have hbehind := h.behind
    omega

/-- Every turn takes its string off what remains. -/
theorem txtTurn_progress (answer : Nat → Byte) (pData nLength : Nat) (vBefore : List Bytes) :
    Progress (txtTurn answer) (Decoded answer pData nLength vBefore) (Exhausted answer pData nLength vBefore)
      TxtLoop.nRemaining where
  kept := Decoded.goes
  less := by
    intro x y _ hturn
    obtain ⟨hfits, rfl⟩ := txtTurn_goes hturn
    dsimp only
    omega
  reached := Decoded.ends

theorem exists_txtLoop (answer : Nat → Byte) (pData nLength : Nat) (vBefore : List Bytes) :
    ∃ x, loop (txtTurn answer) (nLength + 1) (.start pData nLength vBefore) = some x ∧
      Exhausted answer pData nLength vBefore x :=
  (txtTurn_progress answer pData nLength vBefore).exists_loop (.start answer pData nLength vBefore)
    (Nat.lt_succ_self nLength)

/-- The loop over a record ends, reads nothing outside its data, and adds the strings that
are whole at the front of it, whatever the data. -/
theorem txtLoop_exact (answer : Nat → Byte) (pData nLength : Nat) (vBefore : List Bytes) :
    ∃ x, (∀ nTurns > nLength, loop (txtTurn answer) nTurns (.start pData nLength vBefore) = some x) ∧
      (∀ a ∈ x.vRead, pData ≤ a ∧ a < pData + nLength) ∧
      ∃ v, x.vStrings = vBefore ++ v ∧ LongestStrings (span answer pData nLength) v := by
  obtain ⟨x, hx, hexhausted⟩ := exists_txtLoop answer pData nLength vBefore
  refine ⟨x, ?_, hexhausted.read, hexhausted.strings⟩
  intro nTurns hn
  exact loop_mono hx hn

end Loop

section Query

/-- The data of a record that the query looks into. -/
def txtData (answer : Nat → Byte) : Option ResourceRecord → Option Bytes
  | some rr => if rr.nType = typeTxt then some (span answer rr.pData rr.nLength.toNat) else none
  | none => none

/-- A record that is passed over adds nothing, any other its strings. -/
theorem txtRecord_exact (answer : Nat → Byte) (vBefore : List Bytes) (rr : Option ResourceRecord) :
    ∃ vRecords : List (List Bytes), txtRecord answer vBefore rr = some (vBefore ++ vRecords.flatten) ∧
      List.Forall₂ LongestStrings (txtData answer rr).toList vRecords := by
  have hpassed : some vBefore = some (vBefore ++ ([] : List (List Bytes)).flatten) := by
    rw [List.flatten_nil, List.append_nil]
  cases rr with
  | none => exact ⟨[], hpassed, .nil⟩
  | some rr =>
    rw [txtRecord, txtData]
    split
    · obtain ⟨x, hx, -, v, hv, hlongest⟩ := exists_txtLoop answer rr.pData rr.nLength.toNat vBefore
      refine ⟨[v], ?_, .cons hlongest .nil⟩
      rw [hx, Option.map_some, hv, List.flatten_singleton]
    · exact ⟨[], hpassed, .nil⟩

theorem foldlM_txtRecord (answer : Nat → Byte) (vAnswers : List (Option ResourceRecord)) (vBefore : List Bytes) :
    ∃ vRecords : List (List Bytes), vAnswers.foldlM (txtRecord answer) vBefore = some (vBefore ++ vRecords.flatten) ∧
      List.Forall₂ LongestStrings (vAnswers.filterMap (txtData answer)) vRecords := by
  induction vAnswers generalizing vBefore with
  | nil => exact ⟨[], by rw [List.flatten_nil, List.append_nil]; rfl, .nil⟩
  | cons rr vAnswers ih =>
    obtain ⟨vFirst, hfirst, hlongest⟩ := txtRecord_exact answer vBefore rr
    obtain ⟨vRest, hrest, hothers⟩ := ih (vBefore ++ vFirst.flatten)
    refine ⟨vFirst ++ vRest, ?_, ?_⟩
    · rw [List.foldlM_cons, hfirst, List.flatten_append, ← List.append_assoc]
      exact hrest
    · have hsplit : (rr :: vAnswers).filterMap (txtData answer) =
          (txtData answer rr).toList ++ vAnswers.filterMap (txtData answer) := by
        cases hdata : txtData answer rr with
        | none => rw [List.filterMap_cons_none hdata]; rfl
        | some rdata => rw [List.filterMap_cons_some hdata]; rfl
      rw [hsplit]
      exact List.rel_append hlongest hothers

/-- The query answers, with the strings of one TXT record after the other. -/
theorem queryTxt_exact (answer : Nat → Byte) (msg : Option (List (Option ResourceRecord))) :
    ∃ vRecords : List (List Bytes), queryTxt answer msg = some vRecords.flatten ∧
      List.Forall₂ LongestStrings ((msg.getD []).filterMap (txtData answer)) vRecords :=
  foldlM_txtRecord answer (msg.getD []) []

end Query

end PiAudioNode.Nmos
