import PiAudioNode.Rtp.Receiver

/-! Starting and stopping the receiver engine on a session. -/
namespace PiAudioNode.Rtp

structure RxLeg where
  sInterface : String := ""
  sMulticast : String := ""
  bOpen : Bool := false
  deriving DecidableEq, Inhabited

/-- The receiver as its owner sees it: what it runs on, and the sockets of its two legs. -/
structure RxEngine where
  bRun : Bool := false
  config : RxConfig := .ofSession {} 20
  aLegs : Vector RxLeg 2 := #v[{}, {}]

namespace RxEngine

def stop (r : RxEngine) : RxEngine := { r with bRun := false, aLegs := r.aLegs.map ({ · with bOpen := false }) }

/-- The interface of a leg; the first stands in for one that is missing. -/
def interfaceOf (vInterfaces : List String) (nLeg : Nat) : String :=
  match vInterfaces[nLeg]? with
  | some sInterface => if sInterface = "" then vInterfaces.headD "" else sInterface
  | none => vInterfaces.headD ""

/-- The loop over the legs, which the first socket that cannot be opened ends. -/
def openLegs (bOpens : Nat → Bool) (vInterfaces : List String) : Nat → List SdpLeg → RxEngine → Bool × RxEngine
  | _, [], r => (true, r)
  | nLeg, leg :: rest, r =>
    let rxLeg : RxLeg := ⟨interfaceOf vInterfaces nLeg, leg.sMulticast, bOpens nLeg⟩
    let r := { r with aLegs := r.aLegs.setIfInBounds nLeg rxLeg }
    if bOpens nLeg then openLegs bOpens vInterfaces (nLeg + 1) rest r else (false, r)

/-- After a failure the engine is stopped, with the legs opened so far left open. -/
def configure (bOpens : Nat → Bool) (session : SdpSession) (vInterfaces : List String) (nPlayoutDelayMs : Int)
    (r : RxEngine) : Bool × RxEngine :=
  if session.vLegs = [] ∨ vInterfaces = [] then (false, r.stop)
  else
    let x := openLegs bOpens vInterfaces 0 (session.vLegs.take 2)
      { r.stop with config := .ofSession session nPlayoutDelayMs }
    if x.1 then (true, { x.2 with bRun := true }) else x

section Loop
variable {bOpens : Nat → Bool} {vInterfaces : List String}

/-- The legs before one, counted from the leg the loop is at. -/
theorem opens_succ_iff (nLeg k : Nat) :
    (∀ j < k + 1, bOpens (nLeg + j) = true) ↔ bOpens nLeg = true ∧ ∀ j < k, bOpens (nLeg + 1 + j) = true := by
  simp only [Nat.forall_lt_succ_left, Nat.add_zero, Nat.add_assoc, Nat.add_comm 1]

theorem openLegs_fst (nLeg : Nat) (vLegs : List SdpLeg) (r : RxEngine) :
    (openLegs bOpens vInterfaces nLeg vLegs r).1 = true ↔ ∀ k < vLegs.length, bOpens (nLeg + k) := by
  induction vLegs generalizing nLeg r with
  | nil => simp [openLegs]
  | cons leg rest ih =>
    simp only [openLegs, List.length_cons]
    rw [opens_succ_iff]
    by_cases hopen : bOpens nLeg
    · rw [if_pos hopen, ih]
      exact ⟨fun h => ⟨hopen, h⟩, And.right⟩
    · rw [if_neg hopen]
      exact ⟨nofun, fun h => absurd h.1 hopen⟩

theorem openLegs_kept (nLeg : Nat) (vLegs : List SdpLeg) (r : RxEngine) :
    (openLegs bOpens vInterfaces nLeg vLegs r).2.bRun = r.bRun ∧
      (openLegs bOpens vInterfaces nLeg vLegs r).2.config = r.config := by
  induction vLegs generalizing nLeg r with
  | nil => exact ⟨rfl, rfl⟩
  | cons leg rest ih =>
    simp only [openLegs]
    split
    · exact ih _ _
    · exact ⟨rfl, rfl⟩

/-- The loop goes on from leg to leg and leaves those behind it. -/
theorem openLegs_behind {nLeg k : Nat} (hk : k < nLeg) (vLegs : List SdpLeg) (r : RxEngine) :
    (openLegs bOpens vInterfaces nLeg vLegs r).2.aLegs[k]? = r.aLegs[k]? := by
  induction vLegs generalizing nLeg r with
  | nil => rfl
  | cons leg rest ih =>
    have hset : (r.aLegs.setIfInBounds nLeg ⟨interfaceOf vInterfaces nLeg, leg.sMulticast, bOpens nLeg⟩)[k]? =
        r.aLegs[k]? := by
      rw [Vector.getElem?_setIfInBounds, if_neg (by omega)]
    simp only [openLegs]
    split
    · rw [ih (by omega), hset]
    · exact hset

/-- A leg is set where all before it could be opened, and untouched where one could not. -/
theorem openLegs_leg {nLeg k : Nat} {vLegs : List SdpLeg} {leg : SdpLeg} (hleg : vLegs[k]? = some leg) (hk : nLeg + k < 2)
    (r : RxEngine) : (openLegs bOpens vInterfaces nLeg vLegs r).2.aLegs[nLeg + k]? =
      if ∀ j < k, bOpens (nLeg + j) then
        some ⟨interfaceOf vInterfaces (nLeg + k), leg.sMulticast, bOpens (nLeg + k)⟩
      else r.aLegs[nLeg + k]? := by
  induction vLegs generalizing nLeg k r with
  | nil => cases hleg
  | cons first rest ih =>
    simp only [openLegs]
    cases k with
    | zero =>
      obtain rfl := Option.some.inj hleg
      rw [if_pos fun j hj => absurd hj (Nat.not_lt_zero j), Nat.add_zero]
      have hset : (r.aLegs.setIfInBounds nLeg ⟨interfaceOf vInterfaces nLeg, first.sMulticast, bOpens nLeg⟩)[nLeg]? =
          some ⟨interfaceOf vInterfaces nLeg, first.sMulticast, bOpens nLeg⟩ := by
        rw [Vector.getElem?_setIfInBounds, if_pos rfl, if_pos (by omega)]
      split
      · rw [openLegs_behind (by omega)]
        exact hset
      · exact hset
    | succ k =>
      have hkept (x : RxLeg) : (r.aLegs.setIfInBounds nLeg x)[nLeg + (k + 1)]? = r.aLegs[nLeg + (k + 1)]? :=
        (Vector.getElem?_setIfInBounds ..).trans (if_neg (by omega))
      have hplace : nLeg + 1 + k = nLeg + (k + 1) := by omega
      have hnext := @ih (nLeg + 1) k hleg (by omega)
        { r with aLegs := r.aLegs.setIfInBounds nLeg ⟨interfaceOf vInterfaces nLeg, first.sMulticast, bOpens nLeg⟩ }
      rw [hplace, hkept] at hnext
      by_cases hopen : bOpens nLeg
      · rw [if_pos hopen, hnext]
        apply if_congr _ rfl rfl
        rw [opens_succ_iff]
        exact ⟨fun h => ⟨hopen, h⟩, And.right⟩
      · rw [if_neg hopen, if_neg fun h => hopen ((opens_succ_iff nLeg k).mp h).1]
        exact hkept _

/-- The sockets a session asks for, one by one, on the first two legs. -/
theorem configure_leg {session : SdpSession} {k : Nat} {leg : SdpLeg} (hleg : session.vLegs[k]? = some leg) (hk : k < 2)
    (hinterfaces : vInterfaces ≠ []) (nPlayoutDelayMs : Int) (r : RxEngine) :
    (configure bOpens session vInterfaces nPlayoutDelayMs r).2.aLegs[k]? =
      if ∀ j < k, bOpens j then some ⟨interfaceOf vInterfaces k, leg.sMulticast, bOpens k⟩ else r.stop.aLegs[k]? := by
  have hlegs : session.vLegs ≠ [] := by
    rintro hnil
    rw [hnil] at hleg
    cases hleg
  have htaken : (session.vLegs.take 2)[k]? = some leg := by rw [List.getElem?_take_of_lt hk, hleg]
  have hopened := @openLegs_leg bOpens vInterfaces 0 k _ _ htaken (by omega)
    { r.stop with config := .ofSession session nPlayoutDelayMs }
  simp only [Nat.zero_add] at hopened
  rw [configure, if_neg (by simp [hlegs, hinterfaces])]
  simp only
  split <;> exact hopened

theorem not_open_stop (r : RxEngine) (k : Nat) {leg : RxLeg} (h : r.stop.aLegs[k]? = some leg) : leg.bOpen = false := by
  rw [stop, Vector.getElem?_map, Option.map_eq_some_iff] at h
  obtain ⟨old, -, rfl⟩ := h
  rfl

end Loop

end RxEngine

end PiAudioNode.Rtp
