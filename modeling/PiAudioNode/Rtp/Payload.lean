import PiAudioNode.Rtp.Receiver

/-! RTP packets with all that may stand around a payload, and when the samples that the
receiver takes from one are those of its payload. -/
namespace PiAudioNode.Rtp
open Lib

def octets16 (w : BitVec 16) : Bytes := [w.extractLsb' 8 8, w.extractLsb' 0 8]

def octets32 (w : BitVec 32) : Bytes :=
  [w.extractLsb' 24 8, w.extractLsb' 16 8, w.extractLsb' 8 8, w.extractLsb' 0 8]

structure HeaderExtension where
  nProfile : BitVec 16
  vWords : List (BitVec 32)
  words_lt : vWords.length < 2 ^ 16

/-- A well-formed packet of version 2. The padding ends with an octet that counts it. -/
structure RtpPacket where
  bMarker : Bool := false
  nPayloadType : BitVec 7 := 96
  nSeq : BitVec 16 := 0
  nTs : BitVec 32 := 0
  nSsrc : BitVec 32 := 0
  vCsrcs : List (BitVec 32) := []
  csrcs_le : vCsrcs.length ≤ 15 := by decide
  extension : Option HeaderExtension := none
  payload : Bytes
  padding : Option Bytes := none
  padding_lt : ∀ fill ∈ padding, fill.length < 255 := by simp

namespace RtpPacket

def firstOctet (p : RtpPacket) : Byte :=
  2#2 ++ BitVec.ofBool p.padding.isSome ++ BitVec.ofBool p.extension.isSome ++ BitVec.ofNat 4 p.vCsrcs.length

def fixedHeader (p : RtpPacket) : Bytes :=
  [p.firstOctet, BitVec.ofBool p.bMarker ++ p.nPayloadType] ++ octets16 p.nSeq ++ octets32 p.nTs ++ octets32 p.nSsrc

def extensionOctets (p : RtpPacket) : Bytes :=
  match p.extension with
  | none => []
  | some e => octets16 e.nProfile ++ octets16 (BitVec.ofNat 16 e.vWords.length) ++ e.vWords.flatMap octets32

def paddingOctets (p : RtpPacket) : Bytes :=
  match p.padding with
  | none => []
  | some fill => fill ++ [BitVec.ofNat 8 (fill.length + 1)]

def octets (p : RtpPacket) : Bytes :=
  p.fixedHeader ++ p.vCsrcs.flatMap octets32 ++ (p.extensionOctets ++ p.payload ++ p.paddingOctets)

/-- Packets whose parts have the same lengths. -/
structure SameLayout (p q : RtpPacket) : Prop where
  csrcs : q.vCsrcs.length = p.vCsrcs.length
  extension : q.extensionOctets.length = p.extensionOctets.length
  payload : q.payload.length = p.payload.length
  padding : q.paddingOctets.length = p.paddingOctets.length

end RtpPacket

/-- The octets of one frame. -/
def block (session : SdpSession) : Nat := bytesPerSample session * channels session

/-- The frames of a payload. -/
def payloadSamples (session : SdpSession) (monitor : Monitor) (payload : Bytes) : List Frame :=
  (List.range (payload.length / block session)).map fun nFrame =>
    { left := decode (bytesPerSample session) payload (nFrame * channels session + monitor.left (channels session))
      right := decode (bytesPerSample session) payload (nFrame * channels session + monitor.right (channels session)) }

/-- Wherever its slot is free, a packet is stored with the frames of its payload, or not at
all if there are none. -/
def StoresPayload (cfg : RxConfig) (monitor : Monitor) (p : RtpPacket) : Prop :=
  ∀ r nLeg now, r.monitor = monitor → ¬ Holds r p.nSeq →
    (handlePacket cfg r nLeg p.octets now).1.vJitter =
      if payloadSamples cfg.session monitor p.payload = [] then r.vJitter
      else Function.update r.vJitter (slotOf p.nSeq)
        ⟨p.nSeq.toNat + 1, p.nSeq, payloadSamples cfg.session monitor p.payload⟩

/-- What follows the CSRC list is shorter than a frame, or it is the payload and a padding
that does not complete a frame with the octets left over. -/
def OnlyPayload (session : SdpSession) (p : RtpPacket) : Prop :=
  p.extensionOctets.length + p.payload.length + p.paddingOctets.length < block session ∨
    p.extension = none ∧ p.payload.length % block session + p.paddingOctets.length < block session

section Layout
variable (p : RtpPacket)

theorem length_flatMap_octets32 (ws : List (BitVec 32)) : (ws.flatMap octets32).length = 4 * ws.length := by
  induction ws with
  | nil => rfl
  | cons w ws ih =>
    have hword : (octets32 w).length = 4 := rfl
    rw [List.flatMap_cons, List.length_append, ih, hword, List.length_cons]
    ring

theorem version_two (a b : BitVec 1) (n : BitVec 4) : (2#2 ++ a ++ b ++ n : Byte) &&& 0xc0 = 0x80 := by
  decide +revert

theorem low_bits (a b : BitVec 1) (n : BitVec 4) : ((2#2 ++ a ++ b ++ n : Byte) &&& 0x0f).toNat = n.toNat := by
  decide +revert

theorem isRtp_octets : isRtp p.octets = true := by
  have hfirst : byteAt p.octets 0 = p.firstOctet := rfl
  rw [isRtp, hfirst, RtpPacket.firstOctet, version_two]
  rfl

theorem headerSize_octets : headerSize p.octets = 12 + 4 * p.vCsrcs.length := by
  have hfirst : byteAt p.octets 0 = p.firstOctet := rfl
  have hcount := p.csrcs_le
  rw [headerSize, hfirst, RtpPacket.firstOctet, low_bits, BitVec.toNat_ofNat]
  omega

theorem rtpSeq_octets : rtpSeq p.octets = p.nSeq := by
  have hjoin : p.nSeq.extractLsb' 8 8 ++ p.nSeq.extractLsb' 0 8 = p.nSeq := BitVec.extractLsb'_append_extractLsb'
  exact hjoin

/-- What the receiver takes for the payload. -/
theorem drop_octets : p.octets.drop (headerSize p.octets) = p.extensionOctets ++ p.payload ++ p.paddingOctets := by
  have hlength : (p.fixedHeader ++ p.vCsrcs.flatMap octets32).length = 12 + 4 * p.vCsrcs.length := by
    rw [List.length_append, length_flatMap_octets32]
    rfl
  rw [headerSize_octets, ← hlength, RtpPacket.octets, List.drop_left]

theorem decodeFrames_octets (session : SdpSession) (monitor : Monitor) : decodeFrames session monitor p.octets =
    payloadSamples session monitor (p.extensionOctets ++ p.payload ++ p.paddingOctets) := by
  rw [← drop_octets, payloadSamples, List.length_drop]
  rfl

end Layout

section Samples
variable {session : SdpSession} {monitor : Monitor} {payload rest : Bytes}

theorem length_payloadSamples (session : SdpSession) (monitor : Monitor) (payload : Bytes) :
    (payloadSamples session monitor payload).length = payload.length / block session := by
  simp [payloadSamples]

/-- A sample that ends inside a payload is the same with anything behind it. -/
theorem decode_append {nBytes nIndex : Nat} (h : nIndex * nBytes + nBytes ≤ payload.length)
    (hbytes : nBytes = 2 ∨ nBytes = 3) : decode nBytes (payload ++ rest) nIndex = decode nBytes payload nIndex := by
  have hoctet (k : Nat) (hk : k < nBytes) : byteAt (payload ++ rest) (nIndex * nBytes + k) =
      byteAt payload (nIndex * nBytes + k) := List.getD_append _ _ _ _ (by omega)
  rcases hbytes with rfl | rfl
  · simp only [decode, hoctet 0 (by norm_num), hoctet 1 (by norm_num), if_true]
  · have hthree : ¬ 3 = 2 := by norm_num
    simp only [decode, hthree, if_false, hoctet 0 (by norm_num), hoctet 1 (by norm_num), hoctet 2 (by norm_num)]

/-- Two samples of one value have the same first octet. -/
theorem first_octet_of_decode {nBytes nIndex : Nat} {other : Bytes} (hbytes : nBytes = 2 ∨ nBytes = 3)
    (h : decode nBytes payload nIndex = decode nBytes other nIndex) :
    byteAt payload (nIndex * nBytes) = byteAt other (nIndex * nBytes) := by
  rcases hbytes with rfl | rfl
  · have hvalue : byteAt payload (nIndex * 2) ++ byteAt payload (nIndex * 2 + 1) =
        byteAt other (nIndex * 2) ++ byteAt other (nIndex * 2 + 1) := by
      apply BitVec.eq_of_toInt_eq
      have hscaled := (div_left_inj' (by norm_num)).mp h
      exact_mod_cast hscaled
    have hoctet := congrArg (fun w : BitVec (8 + 8) => w.extractLsb' 8 8) hvalue
    rwa [BitVec.extractLsb'_append_eq_left, BitVec.extractLsb'_append_eq_left] at hoctet
  · have hvalue : byteAt payload (nIndex * 3) ++ byteAt payload (nIndex * 3 + 1) ++ byteAt payload (nIndex * 3 + 2) =
        byteAt other (nIndex * 3) ++ byteAt other (nIndex * 3 + 1) ++ byteAt other (nIndex * 3 + 2) := by
      apply BitVec.eq_of_toInt_eq
      have hscaled := (div_left_inj' (by norm_num)).mp h
      exact_mod_cast hscaled
    have htwo := congrArg (fun w : BitVec (8 + 8 + 8) => w.extractLsb' 8 (8 + 8)) hvalue
    rw [BitVec.extractLsb'_append_eq_left, BitVec.extractLsb'_append_eq_left] at htwo
    have hoctet := congrArg (fun w : BitVec (8 + 8) => w.extractLsb' 8 8) htwo
    rwa [BitVec.extractLsb'_append_eq_left, BitVec.extractLsb'_append_eq_left] at hoctet

/-- Octets behind a payload that complete no frame leave its frames. -/
theorem payloadSamples_append (h : payload.length % block session + rest.length < block session) :
    payloadSamples session monitor (payload ++ rest) = payloadSamples session monitor payload := by
  have hblock : 0 < block session := block_pos session
  have hcount : (payload ++ rest).length / block session = payload.length / block session := by
    have hdiv := Nat.div_add_mod' payload.length (block session)
    rw [List.length_append, Nat.div_eq_iff hblock]
    constructor <;> omega
  rw [payloadSamples, payloadSamples, hcount]
  refine List.map_congr_left fun nFrame hmem => ?_
  have hframe : (nFrame + 1) * block session ≤ payload.length :=
    (Nat.le_div_iff_mul_le hblock).mp (List.mem_range.mp hmem)
  have hinside (nChannel : Nat) (hchannel : nChannel < channels session) :
      (nFrame * channels session + nChannel) * bytesPerSample session + bytesPerSample session ≤ payload.length := by
    calc (nFrame * channels session + nChannel) * bytesPerSample session + bytesPerSample session
        = (nFrame * channels session + (nChannel + 1)) * bytesPerSample session := by ring
      _ ≤ (nFrame * channels session + channels session) * bytesPerSample session :=
          Nat.mul_le_mul_right _ (by omega)
      _ = (nFrame + 1) * block session := by rw [block]; ring
      _ ≤ payload.length := hframe
  have hchannels := channels_pos session
  rw [decode_append (hinside _ (left_lt monitor hchannels)) (bytesPerSample_cases session),
    decode_append (hinside _ (right_lt monitor hchannels)) (bytesPerSample_cases session)]

/-- The first octet that is heard of the first frame. -/
def heardOctet (session : SdpSession) (monitor : Monitor) : Nat :=
  monitor.left (channels session) * bytesPerSample session

theorem heardOctet_lt (session : SdpSession) (monitor : Monitor) : heardOctet session monitor < block session := by
  have hlt := left_lt monitor (channels_pos session)
  have hbytes : 0 < bytesPerSample session := by
    rcases bytesPerSample_cases session with h | h <;> omega
  rw [heardOctet, block, Nat.mul_comm]
  exact Nat.mul_lt_mul_of_pos_left hlt hbytes

theorem heard_of_payloadSamples {other : Bytes} (hsome : block session ≤ payload.length)
    (h : payloadSamples session monitor other = payloadSamples session monitor payload) :
    byteAt other (heardOctet session monitor) = byteAt payload (heardOctet session monitor) := by
  have hcount := congrArg List.length h
  rw [length_payloadSamples, length_payloadSamples] at hcount
  have hpos : 0 < payload.length / block session := Nat.div_pos hsome (block_pos session)
  have hfirst := congrArg (fun frames => frames[0]?) h
  simp only [payloadSamples, hcount, List.getElem?_map, List.getElem?_range hpos, Option.map_some, Option.some.injEq,
    Frame.mk.injEq] at hfirst
  rw [zero_mul, zero_add] at hfirst
  exact first_octet_of_decode (bytesPerSample_cases session) hfirst.1

end Samples

section Stored
variable {cfg : RxConfig} {monitor : Monitor} {p : RtpPacket}

/-- A packet is stored with its payload just when its frames are those of the payload. -/
theorem storesPayload_iff : StoresPayload cfg monitor p ↔
    payloadSamples cfg.session monitor (p.extensionOctets ++ p.payload ++ p.paddingOctets) =
      payloadSamples cfg.session monitor p.payload := by
  rw [← decodeFrames_octets]
  constructor
  · intro h
    have hfree : ¬ Holds { monitor : RtpReceiver } p.nSeq := Nat.succ_ne_zero _ ∘ Eq.symm
    have hslots := h { monitor } .primary 0 rfl hfree
    have hslot := congrArg (fun slots => (slots (slotOf p.nSeq)).vSamples) hslots
    rw [vJitter_handlePacket, rtpSeq_octets] at hslot
    dsimp only at hslot
    generalize decodeFrames cfg.session monitor p.octets = stored at hslot ⊢
    generalize payloadSamples cfg.session monitor p.payload = sent at hslot ⊢
    by_cases hstored : stored = []
    · rw [if_neg fun hall => hall.2.1 hstored] at hslot
      by_cases hsent : sent = []
      · rw [hstored, hsent]
      · rw [if_neg hsent, Function.update_self] at hslot
        exact hstored.trans hslot
    · rw [if_pos ⟨isRtp_octets p, hstored, hfree⟩, Function.update_self] at hslot
      by_cases hsent : sent = []
      · rw [if_pos hsent] at hslot
        exact hslot.trans hsent.symm
      · rwa [if_neg hsent, Function.update_self] at hslot
  · intro h r nLeg now hmonitor hfree
    rw [vJitter_handlePacket, rtpSeq_octets, hmonitor, h]
    by_cases hnone : payloadSamples cfg.session monitor p.payload = []
    · rw [if_neg fun hall => hall.2.1 hnone, if_pos hnone]
    · rw [if_pos ⟨isRtp_octets p, hnone, hfree⟩, if_neg hnone]

theorem extensionOctets_eq_nil_iff (p : RtpPacket) : p.extensionOctets = [] ↔ p.extension = none := by
  rw [RtpPacket.extensionOctets]
  cases p.extension with
  | none => simp
  | some e => simp [octets16]

theorem OnlyPayload.stores (h : OnlyPayload cfg.session p) : StoresPayload cfg monitor p := by
  rw [storesPayload_iff]
  rcases h with hshort | ⟨hnone, hpadding⟩
  · have hempty (payload : Bytes) (hlt : payload.length < block cfg.session) :
        payloadSamples cfg.session monitor payload = [] := by
      rw [← List.length_eq_zero_iff, length_payloadSamples, Nat.div_eq_of_lt hlt]
    rw [hempty _ (by simpa [add_assoc] using hshort), hempty _ (by omega)]
  · rw [(extensionOctets_eq_nil_iff p).mpr hnone, List.nil_append, payloadSamples_append hpadding]

theorem OnlyPayload.of_sameLayout {session : SdpSession} {q : RtpPacket} (h : OnlyPayload session p)
    (hsame : p.SameLayout q) : OnlyPayload session q := by
  rw [OnlyPayload, hsame.extension, hsame.payload, hsame.padding]
  refine h.imp_right fun hnone => ⟨?_, hnone.2⟩
  have hlength := hsame.extension
  rw [(extensionOctets_eq_nil_iff p).mpr hnone.1] at hlength
  exact (extensionOctets_eq_nil_iff q).mp (List.length_eq_zero_iff.mp hlength)

/-- With an extension in front, some payload of the layout has an octet where it is heard
that the receiver does not find there. -/
theorem exists_moved (p : RtpPacket) {nOctet : Nat} (hext : p.extensionOctets ≠ []) (hin : nOctet < p.payload.length) :
    ∃ q, p.SameLayout q ∧
      byteAt (q.extensionOctets ++ q.payload ++ q.paddingOctets) nOctet ≠ byteAt q.payload nOctet := by
  generalize hread : byteAt (p.extensionOctets ++ p.payload ++ p.paddingOctets) nOctet = a
  refine ⟨{ p with payload := p.payload.set nOctet (a + 1) }, ⟨rfl, rfl, List.length_set, rfl⟩, ?_⟩
  have hpos := List.length_pos_iff.mpr hext
  have hmoved : p.extensionOctets ++ p.payload.set nOctet (a + 1) ++ p.paddingOctets =
      (p.extensionOctets ++ p.payload ++ p.paddingOctets).set (p.extensionOctets.length + nOctet) (a + 1) := by
    rw [List.append_assoc, List.append_assoc, List.set_append_right _ _ (by omega), Nat.add_sub_cancel_left,
      List.set_append_left _ _ hin]
  have hsame : byteAt (p.extensionOctets ++ p.payload.set nOctet (a + 1) ++ p.paddingOctets) nOctet = a := by
    rw [hmoved, byteAt, List.getD_eq_getElem?_getD, List.getElem?_set_ne (by omega), ← List.getD_eq_getElem?_getD]
    exact hread
  have hset : byteAt (p.payload.set nOctet (a + 1)) nOctet = a + 1 := by
    rw [byteAt, List.getD_eq_getElem?_getD, List.getElem?_set_self hin]
    rfl
  intro heq
  have hnext : ∀ a : Byte, a ≠ a + 1 := by decide
  exact hnext a (hsame.symm.trans (heq.trans hset))

/-- All packets of a layout are stored with the frames of their payload if and only if what
is behind the CSRC list is shorter than a frame, or has no extension in front and no padding
that completes a frame. -/
theorem stores_payload_iff (cfg : RxConfig) (monitor : Monitor) (p : RtpPacket) :
    (∀ q, p.SameLayout q → StoresPayload cfg monitor q) ↔ OnlyPayload cfg.session p := by
  constructor
  · intro h
    have hblock : 0 < block cfg.session := block_pos cfg.session
    have hcount := congrArg List.length (storesPayload_iff.mp (h p ⟨rfl, rfl, rfl, rfl⟩))
    rw [length_payloadSamples, length_payloadSamples, List.length_append, List.length_append] at hcount
    rw [OnlyPayload]
    by_contra hnot
    rw [not_or, not_lt] at hnot
    have hsome : block cfg.session ≤ p.payload.length := by
      have hpos := Nat.div_pos hnot.1 hblock
      rw [hcount] at hpos
      exact (Nat.div_pos_iff.mp hpos).2
    by_cases hext : p.extension = none
    · have hnil := (extensionOctets_eq_nil_iff p).mpr hext
      rw [hnil, List.length_nil, zero_add] at hcount
      have hdiv := Nat.div_add_mod' p.payload.length (block cfg.session)
      have hdiv' := Nat.div_add_mod' (p.payload.length + p.paddingOctets.length) (block cfg.session)
      have hmod := Nat.mod_lt (p.payload.length + p.paddingOctets.length) hblock
      rw [hcount] at hdiv'
      exact hnot.2 ⟨hext, by omega⟩
    · have hheard := heardOctet_lt cfg.session monitor
      obtain ⟨q, hsame, hmoved⟩ := exists_moved p (mt (extensionOctets_eq_nil_iff p).mp hext) (hheard.trans_le hsome)
      exact hmoved (heard_of_payloadSamples (hsame.payload ▸ hsome) (storesPayload_iff.mp (h q hsame)))
  · intro h q hsame
    exact (h.of_sameLayout hsame).stores

/-- One frame of silence behind a header extension of one word: two frames are stored, and
the first is the extension. -/
theorem not_storesPayload_of_extension : ¬ ∀ (cfg : RxConfig) (monitor : Monitor) (p : RtpPacket),
    StoresPayload cfg monitor p := by
  intro hall
  have hstored := hall (RxConfig.ofSession {} 20) {}
    { payload := List.replicate 6 0, extension := some ⟨0xBEDE, [0x51000000], by decide⟩ }
  have hcount := congrArg List.length (storesPayload_iff.mp hstored)
  rw [length_payloadSamples, length_payloadSamples] at hcount
  exact absurd hcount (by decide)

end Stored

end PiAudioNode.Rtp
