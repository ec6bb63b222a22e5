import PiAudioNode.Audio.Sources
import PiAudioNode.Rtp.Receiver

/-! The sender engine: one socket a leg, live switches for the legs, and the same
packet on every leg that is switched on. -/
namespace PiAudioNode.Rtp
open Lib Audio

structure SenderLeg where
  sInterface : String
  sMulticast : String
  bEnabled : Bool := true
  deriving DecidableEq

/-- Where a socket is connected to. -/
structure SocketAddr where
  address : BitVec 32
  nPort : BitVec 16
  deriving DecidableEq, Inhabited

/-- How the calls that set up a leg's socket end. -/
inductive LegSocket where
  | refused
  | unusable
  | unconnected
  | opened
  deriving DecidableEq

/-- What the system answers while a sender is set up. -/
structure SenderSystem where
  legSocket : Nat → LegSocket := fun _ => .opened
  interfaceAddress : String → Option (BitVec 32) := fun _ => none
  nSsrc : BitVec 32 := 0

/-- The dotted decimal text of an address. -/
def inetNtop (address : BitVec 32) : String :=
  let octet (i : Nat) := Nat.toDigits 10 (address.extractLsb' i 8).toNat
  String.ofList (octet 24 ++ '.' :: octet 16 ++ '.' :: octet 8 ++ '.' :: octet 0)

/-- The address of an interface as text, empty if it has none. -/
def SenderSystem.interfaceIp (sys : SenderSystem) (sInterface : String) : String :=
  ((sys.interfaceAddress sInterface).map inetNtop).getD ""

/-- One octet of a dotted address: up to three digits, none to spare in front. -/
def octet (cs : List Char) : Option (BitVec 8) :=
  let n := Nat.ofDigitChars 10 cs 0
  if cs ≠ [] ∧ cs.length ≤ 3 ∧ cs.all Char.isDigit ∧ (1 < cs.length → cs.head? ≠ some '0') ∧ n ≤ 255 then some n
  else none

/-- The address a dotted decimal text stands for. -/
def inetPton (sAddress : String) : Option (BitVec 32) :=
  match (sAddress.toList.splitOn '.').map octet with
  | [some a, some b, some c, some d] => some (a ++ b ++ c ++ d)
  | _ => none

/-- Both legs are sent until one is switched off. -/
def bothEnabled : Vector Bool 2 := #v[true, true]

structure RtpSender where
  vLegs : List SenderLeg := []
  vSockets : List SocketAddr := []
  vSourceIps : List String := []
  nPort : BitVec 16 := 5004
  nPayloadType : Int := 96
  nPacketTimeUs : Int := 1000
  pSource : Option Source := none
  sSourceName : String := ""
  bRun : Bool := false
  abLegEnabled : Vector Bool 2 := bothEnabled
  nSsrc : BitVec 32 := 0

namespace RtpSender

def setLegEnabled (nLeg : Nat) (bEnabled : Bool) (s : RtpSender) : RtpSender :=
  { s with abLegEnabled := s.abLegEnabled.setIfInBounds nLeg bEnabled }

def legEnabled (s : RtpSender) (nLeg : Nat) : Bool := s.abLegEnabled[nLeg]?.getD false

def stop (s : RtpSender) : RtpSender := { s with bRun := false, vSockets := [] }

/-- Where a leg's socket goes: a text that is no address leaves the zero address. -/
def destination (nPort : BitVec 16) (leg : SenderLeg) : SocketAddr := ⟨(inetPton leg.sMulticast).getD 0, nPort⟩

/-- The loop over the legs, which the first failure ends. -/
def openLegs (sys : SenderSystem) : List SenderLeg → RtpSender → Bool × RtpSender
  | [], s => (true, s)
  | leg :: rest, s =>
    match sys.legSocket s.vSockets.length with
    | .opened =>
      openLegs sys rest <| setLegEnabled s.vSockets.length leg.bEnabled
        { s with
          vSockets := s.vSockets ++ [destination s.nPort leg]
          vSourceIps := s.vSourceIps ++ [sys.interfaceIp leg.sInterface] }
    | _ => (false, s)

/-- Start with the given settings. After a failure the engine is stopped. -/
def configure (sys : SenderSystem) (vLegs : List SenderLeg) (nPort : BitVec 16) (nPayloadType nPacketTimeUs : Int)
    (pSource : Option Source) (s : RtpSender) : Bool × RtpSender :=
  match vLegs, pSource with
  | _ :: _, some source =>
    let x := openLegs sys vLegs
      { s.stop with
        vLegs, nPort, nPayloadType
        nPacketTimeUs := max 125 nPacketTimeUs
        pSource := some source
        sSourceName := source.describe
        vSourceIps := [] }
    if x.1 then (true, { x.2 with bRun := true, nSsrc := sys.nSsrc }) else x
  | _, _ => (false, s.stop)

theorem legEnabled_setLegEnabled (nLeg : Nat) (bEnabled : Bool) (s : RtpSender) (i : Nat) :
    (s.setLegEnabled nLeg bEnabled).legEnabled i = if i = nLeg ∧ i < 2 then bEnabled else s.legEnabled i := by
  simp only [legEnabled, setLegEnabled, Vector.getElem?_setIfInBounds]
  split_ifs <;> grind

/-- Every leg opened takes its switch from the settings, the other switches stay. -/
theorem openLegs_legEnabled (sys : SenderSystem) (i : Nat) : ∀ (vLegs : List SenderLeg) (s : RtpSender),
    (openLegs sys vLegs s).2.legEnabled i = s.legEnabled i ∨
      ∃ k leg, vLegs[k]? = some leg ∧ i = s.vSockets.length + k ∧
        (openLegs sys vLegs s).2.legEnabled i = leg.bEnabled
  | [], s => Or.inl rfl
  | leg :: rest, s => by
    rw [openLegs]
    split
    · rcases openLegs_legEnabled sys i rest _ with hsame | ⟨k, other, hk, hi, hother⟩
      · rw [hsame, legEnabled_setLegEnabled]
        split_ifs with hleg
        · exact Or.inr ⟨0, leg, rfl, hleg.1, rfl⟩
        · exact Or.inl rfl
      · refine Or.inr ⟨k + 1, other, hk, ?_, hother⟩
        simp only [setLegEnabled, List.length_append, List.length_singleton] at hi
        omega
    · exact Or.inl rfl

/-- After `Configure` a switch is as it was, or as the settings have it. -/
theorem configure_legEnabled (sys : SenderSystem) (vLegs : List SenderLeg) (nPort : BitVec 16)
    (nPayloadType nPacketTimeUs : Int) (pSource : Option Source) (s : RtpSender) (i : Nat) :
    (configure sys vLegs nPort nPayloadType nPacketTimeUs pSource s).2.legEnabled i = s.legEnabled i ∨
      ∃ leg, vLegs[i]? = some leg ∧
        (configure sys vLegs nPort nPayloadType nPacketTimeUs pSource s).2.legEnabled i = leg.bEnabled := by
  cases vLegs with
  | nil => exact Or.inl rfl
  | cons leg rest =>
    cases pSource with
    | none => exact Or.inl rfl
    | some source =>
      simp only [configure]
      generalize hstart : { s.stop with
        vLegs := leg :: rest, nPort := nPort, nPayloadType := nPayloadType
        nPacketTimeUs := max 125 nPacketTimeUs
        pSource := some source
        sSourceName := source.describe
        vSourceIps := [] } = start
      have hfields : start.legEnabled i = s.legEnabled i ∧ start.vSockets = [] := by
        subst hstart
        exact ⟨rfl, rfl⟩
      have hopen := openLegs_legEnabled sys i (leg :: rest) start
      rw [hfields.1, hfields.2] at hopen
      have hopen : (openLegs sys (leg :: rest) start).2.legEnabled i = s.legEnabled i ∨
          ∃ other, (leg :: rest)[i]? = some other ∧
            (openLegs sys (leg :: rest) start).2.legEnabled i = other.bEnabled := by
        rcases hopen with hsame | ⟨k, other, hk, hi, hother⟩
        · exact Or.inl hsame
        · obtain rfl : i = k := by simpa using hi
          exact Or.inr ⟨other, hk, hother⟩
      split_ifs
      · exact hopen
      · exact hopen

/-- A running engine has a socket for every leg, connected where the leg says. -/
def Opened (s : RtpSender) : Prop := s.bRun → s.vSockets = s.vLegs.map (destination s.nPort)

theorem openLegs_fields (sys : SenderSystem) : ∀ (vLegs : List SenderLeg) (s : RtpSender),
    (openLegs sys vLegs s).2.vLegs = s.vLegs ∧ (openLegs sys vLegs s).2.nPort = s.nPort ∧
      (openLegs sys vLegs s).2.bRun = s.bRun
  | [], s => ⟨rfl, rfl, rfl⟩
  | leg :: rest, s => by
    rw [openLegs]
    split
    · exact openLegs_fields sys rest _
    · exact ⟨rfl, rfl, rfl⟩

theorem openLegs_vSockets (sys : SenderSystem) : ∀ (vLegs : List SenderLeg) (s : RtpSender),
    (openLegs sys vLegs s).1 = true →
      (openLegs sys vLegs s).2.vSockets = s.vSockets ++ vLegs.map (destination s.nPort)
  | [], s, _ => (List.append_nil _).symm
  | leg :: rest, s, h => by
    rw [openLegs] at h ⊢
    split at h
    · rw [openLegs_vSockets sys rest _ h]
      simp [setLegEnabled]
    · cases h

theorem opened_configure (sys : SenderSystem) (vLegs : List SenderLeg) (nPort : BitVec 16)
    (nPayloadType nPacketTimeUs : Int) (pSource : Option Source) (s : RtpSender) :
    (configure sys vLegs nPort nPayloadType nPacketTimeUs pSource s).2.Opened := by
  cases vLegs with
  | nil => exact fun h => absurd h Bool.false_ne_true
  | cons leg rest =>
    cases pSource with
    | none => exact fun h => absurd h Bool.false_ne_true
    | some source =>
      simp only [configure]
      split_ifs with hopen
      · intro _
        rw [openLegs_vSockets sys _ _ hopen]
        obtain ⟨hlegs, hport, -⟩ := openLegs_fields sys (leg :: rest) { s.stop with
          vLegs := leg :: rest, nPort := nPort, nPayloadType := nPayloadType
          nPacketTimeUs := max 125 nPacketTimeUs
          pSource := some source
          sSourceName := source.describe
          vSourceIps := [] }
        rw [hlegs, hport]
        rfl
      · intro hrun
        rw [(openLegs_fields sys (leg :: rest) _).2.2] at hrun
        cases hrun

theorem opened_stop (s : RtpSender) : s.stop.Opened := fun h => absurd h Bool.false_ne_true

theorem Opened.setLegEnabled {s : RtpSender} (h : s.Opened) (nLeg : Nat) (bEnabled : Bool) :
    (s.setLegEnabled nLeg bEnabled).Opened := h

def nFramesPerPacket (s : RtpSender) : Nat := sampleRate * s.nPacketTimeUs.toNat / 1000000

/-- One sample of 24 bits, the high octet first. -/
def encode (nSample : Int) : Bytes :=
  let w := BitVec.ofInt 24 nSample
  [w.extractLsb' 16 8, w.extractLsb' 8 8, w.extractLsb' 0 8]

/-- The packet for a deadline: the header, then left and right of every frame. -/
def buildPacket (s : RtpSender) (nSeq : BitVec 16) (nRtpTs : BitVec 32) (vAudio : List Int) : Bytes :=
  [0x80, BitVec.ofInt 8 s.nPayloadType, nSeq.extractLsb' 8 8, nSeq.extractLsb' 0 8,
    nRtpTs.extractLsb' 24 8, nRtpTs.extractLsb' 16 8, nRtpTs.extractLsb' 8 8, nRtpTs.extractLsb' 0 8,
    s.nSsrc.extractLsb' 24 8, s.nSsrc.extractLsb' 16 8, s.nSsrc.extractLsb' 8 8, s.nSsrc.extractLsb' 0 8] ++
  vAudio.flatMap encode

/-- The running loop sends on the legs that have a socket and are switched on. -/
def SendsOn (s : RtpSender) (nLeg : Nat) : Prop := s.bRun ∧ nLeg < s.vSockets.length ∧ s.legEnabled nLeg

instance (s : RtpSender) (nLeg : Nat) : Decidable (s.SendsOn nLeg) := inferInstanceAs (Decidable (_ ∧ _ ∧ _))

/-- What one round of the loop hands to the network. -/
def sendRound (s : RtpSender) (pPacket : Bytes) : List (SocketAddr × Bytes) :=
  ((List.range s.vSockets.length).filter fun nLeg => s.SendsOn nLeg).map fun nLeg => (s.vSockets[nLeg]!, pPacket)

end RtpSender

end PiAudioNode.Rtp
