import Mathlib
import PiAudioNode.Lib.Run

/-! The websocket push: the client set shared between the library's callbacks and
the push thread, which writes to a copy of it. -/
namespace PiAudioNode.Web
open Lib

/-- A connection object of the HTTP library, by its place in memory. -/
abbrev Connection := Nat

/-- Where the push thread is: asleep, or on its way through the copy. -/
inductive PushPc where
  | sleeping
  | next (vClients : List Connection)
  | locked (pConn : Connection) (vClients : List Connection)
  | written (pConn : Connection) (vClients : List Connection)

structure PushServer where
  bStatus : Bool := true
  bMeters : Bool := true
  setClients : List Connection := []
  nTick : Nat := 0
  pc : PushPc := .sleeping
  /-- The connections whose close handler has completed, until the library opens them anew. -/
  closed : List Connection := []

/-- The callbacks, and one step of the push thread. -/
inductive PushEvent where
  | wsReady (pConn : Connection)
  | wsClose (pConn : Connection)
  | push

/-- The status goes out on every fifth tick, the meters on the others. -/
def PushServer.hasProvider (s : PushServer) : Bool := if s.nTick % 5 = 0 then s.bStatus else s.bMeters

/-- A set keeps its elements in order and once each. -/
def insertClient (pConn : Connection) (vClients : List Connection) : List Connection :=
  if pConn ∈ vClients then vClients else vClients.orderedInsert (· ≤ ·) pConn

/-- The tick's copy of the set. -/
def PushServer.wake (s : PushServer) : PushServer :=
  let s := { s with nTick := s.nTick + 1 }
  if s.setClients = [] ∨ ¬ s.hasProvider then s else { s with pc := .next s.setClients }

def pushStep (s : PushServer) : PushServer :=
  match s.pc with
  | .sleeping => s.wake
  | .next [] => { s with pc := .sleeping }
  | .next (pConn :: rest) => { s with pc := .locked pConn rest }
  | .locked pConn rest => { s with pc := .written pConn rest }
  | .written _ rest => { s with pc := .next rest }

def step (s : PushServer) : PushEvent → PushServer
  | .wsReady pConn =>
    { s with setClients := insertClient pConn s.setClients, closed := s.closed.filter (· ≠ pConn) }
  | .wsClose pConn => { s with setClients := s.setClients.filter (· ≠ pConn), closed := pConn :: s.closed }
  | .push => pushStep s

/-- The connection that the thread's next step locks or writes. -/
def PushPc.touches : PushPc → Option Connection
  | .next (pConn :: _) => some pConn
  | .locked pConn _ => some pConn
  | _ => none

/-- The connections the tick still has to lock or write. -/
def PushPc.pending : PushPc → List Connection
  | .sleeping => []
  | .next vClients => vClients
  | .locked pConn vClients => pConn :: vClients
  | .written _ vClients => vClients

section
variable (bStatus bMeters : Bool)

def pushed (es : List PushEvent) : PushServer := run step { bStatus, bMeters } es

/-- The push thread does not lock or write a connection that was closed. -/
def TouchesOpen (pre : List PushEvent) (e : PushEvent) : Prop :=
  e = .push → ∀ pConn ∈ (pushed bStatus bMeters pre).pc.touches, pConn ∉ (pushed bStatus bMeters pre).closed

/-- No close completes on a connection that the current tick is still to lock or write. -/
def ClosesIdle (pre : List PushEvent) (e : PushEvent) : Prop :=
  ∀ pConn, e = .wsClose pConn → pConn ∉ (pushed bStatus bMeters pre).pc.pending

end

/-- Neither the set nor what is left of its copy has a closed connection. -/
structure Live (s : PushServer) : Prop where
  clients : ∀ pConn ∈ s.setClients, pConn ∉ s.closed
  pending : ∀ pConn ∈ s.pc.pending, pConn ∉ s.closed

theorem PushPc.pending_of_touches {pc : PushPc} {pConn : Connection} (h : pConn ∈ pc.touches) :
    pConn ∈ pc.pending := by
  cases pc with
  | sleeping => cases h
  | next vClients =>
    cases vClients with
    | nil => cases h
    | cons c rest =>
      obtain rfl := Option.some.inj h
      exact List.mem_cons_self
  | locked c rest =>
    obtain rfl := Option.some.inj h
    exact List.mem_cons_self
  | written c rest => cases h

theorem mem_insertClient {pConn c : Connection} {vClients : List Connection} :
    c ∈ insertClient pConn vClients ↔ c = pConn ∨ c ∈ vClients := by
  unfold insertClient
  split
  · exact ⟨Or.inr, fun h => h.elim (fun he => he ▸ ‹_›) id⟩
  · exact List.mem_orderedInsert _

theorem live_wake {s : PushServer} (h : Live s) : Live s.wake := by
  unfold PushServer.wake
  dsimp only
  split
  · exact ⟨h.clients, h.pending⟩
  · exact ⟨h.clients, h.clients⟩

/-- A step of the thread never has more pending than the step before it left, or the set has. -/
theorem live_push {s : PushServer} (h : Live s) : Live (pushStep s) := by
  obtain ⟨hclients, hpending⟩ := id h
  unfold pushStep
  split <;> rename_i hpc <;> rw [hpc] at hpending
  · exact live_wake h
  · exact ⟨hclients, by simp [PushPc.pending]⟩
  · exact ⟨hclients, hpending⟩
  · exact ⟨hclients, fun pConn hmem => hpending pConn (List.mem_cons_of_mem _ hmem)⟩
  · exact ⟨hclients, hpending⟩

theorem live_ready {s : PushServer} (h : Live s) (pConn : Connection) : Live (step s (.wsReady pConn)) := by
  refine ⟨fun c hc => ?_, fun c hc => ?_⟩
  · rcases mem_insertClient.mp hc with rfl | hc
    · simp [step]
    · exact fun hclosed => h.clients c hc (List.mem_of_mem_filter hclosed)
  · exact fun hclosed => h.pending c hc (List.mem_of_mem_filter hclosed)

theorem live_close {s : PushServer} (h : Live s) {pConn : Connection} (hidle : pConn ∉ s.pc.pending) :
    Live (step s (.wsClose pConn)) := by
  refine ⟨fun c hc => ?_, fun c hc => ?_⟩
  · obtain ⟨hmem, hne⟩ := List.mem_filter.mp hc
    exact List.not_mem_cons_of_ne_of_not_mem (of_decide_eq_true hne) (h.clients c hmem)
  · exact List.not_mem_cons_of_ne_of_not_mem (fun he => hidle (he ▸ hc)) (h.pending c hc)

theorem live_pushed {bStatus bMeters : Bool} {es : List PushEvent} (h : Admits (ClosesIdle bStatus bMeters) es) :
    Live (pushed bStatus bMeters es) := by
  refine history_invariant (I := fun _ s => Live s) ⟨by simp, by simp [PushPc.pending]⟩ ?_ es h
  intro pre e hidle hlive
  cases e with
  | wsReady pConn => exact live_ready hlive pConn
  | wsClose pConn => exact live_close hlive (hidle pConn rfl)
  | push => exact live_push hlive

/-- In every interleaving without a close inside a tick for a connection the tick
is still to reach, no closed connection is locked or written. -/
theorem no_push_after_close (bStatus bMeters : Bool) (es : List PushEvent)
    (h : Admits (ClosesIdle bStatus bMeters) es) : Admits (TouchesOpen bStatus bMeters) es := by
  rintro pre e post rfl - pConn hmem
  have hlive := live_pushed h.of_append
  exact hlive.pending pConn (PushPc.pending_of_touches hmem)

/-- The thread gets to every connection of its copy, closed or not. -/
theorem reaches_next {pConn : Connection} : ∀ {vClients : List Connection} {s : PushServer},
    s.pc = .next vClients → pConn ∈ vClients →
    ∃ n, pConn ∈ (pushStep^[n] s).pc.touches ∧ (pushStep^[n] s).closed = s.closed
  | [], _, _, h => by cases h
  | c :: rest, s, hpc, h => by
    rcases List.mem_cons.mp h with rfl | hrest
    · exact ⟨0, by simp [hpc, PushPc.touches], rfl⟩
    · have hpassed : (pushStep^[3] s).pc = .next rest ∧ (pushStep^[3] s).closed = s.closed := by
        simp [pushStep, hpc]
      obtain ⟨n, htouch, hclosed⟩ := reaches_next hpassed.1 hrest
      refine ⟨n + 3, ?_, ?_⟩
      · rw [Function.iterate_add_apply]
        exact htouch
      · rw [Function.iterate_add_apply, hclosed, hpassed.2]

theorem reaches_pending {pConn : Connection} {s : PushServer} (h : pConn ∈ s.pc.pending) :
    ∃ n, pConn ∈ (pushStep^[n] s).pc.touches ∧ (pushStep^[n] s).closed = s.closed := by
  -- from inside the loop's body, the steps that take the thread to its next round
  have later {k : Nat} {rest : List Connection} (hpc : (pushStep^[k] s).pc = .next rest)
      (hclosed : (pushStep^[k] s).closed = s.closed) (hmem : pConn ∈ rest) :
      ∃ n, pConn ∈ (pushStep^[n] s).pc.touches ∧ (pushStep^[n] s).closed = s.closed := by
    obtain ⟨n, htouch, hsame⟩ := reaches_next hpc hmem
    refine ⟨n + k, ?_, ?_⟩
    · rw [Function.iterate_add_apply]
      exact htouch
    · rw [Function.iterate_add_apply, hsame, hclosed]
  cases hpc : s.pc with
  | sleeping => simp [hpc, PushPc.pending] at h
  | next vClients => exact reaches_next hpc (by simpa [hpc, PushPc.pending] using h)
  | locked c rest =>
    rcases List.mem_cons.mp (show pConn ∈ c :: rest by simpa [hpc, PushPc.pending] using h) with rfl | hrest
    · exact ⟨0, by simp [hpc, PushPc.touches], rfl⟩
    · exact later (k := 2) (by simp [pushStep, hpc]) (by simp [pushStep, hpc]) hrest
  | written c rest =>
    have hmem : pConn ∈ rest := by simpa [hpc, PushPc.pending] using h
    exact later (k := 1) (by simp [pushStep, hpc]) (by simp [pushStep, hpc]) hmem

theorem run_pushes (n : Nat) (s : PushServer) : run step s (List.replicate n .push) = pushStep^[n] s := by
  induction n generalizing s with
  | zero => rfl
  | succ n ih => exact ih (pushStep s)

/-- A close inside a tick, of a connection it is still to reach, is followed by a
lock or a write of that connection. -/
theorem close_in_tick {bStatus bMeters : Bool} {es : List PushEvent} {pConn : Connection}
    (h : pConn ∈ (pushed bStatus bMeters es).pc.pending) :
    ∃ n, ¬ TouchesOpen bStatus bMeters (es ++ .wsClose pConn :: List.replicate n .push) .push := by
  have hpending : pConn ∈ (step (pushed bStatus bMeters es) (.wsClose pConn)).pc.pending := h
  obtain ⟨n, htouch, hclosed⟩ := reaches_pending hpending
  have hrun : pushed bStatus bMeters (es ++ .wsClose pConn :: List.replicate n .push) =
      pushStep^[n] (step (pushed bStatus bMeters es) (.wsClose pConn)) := by
    rw [pushed, run_append]
    exact run_pushes n _
  refine ⟨n, fun hopen => hopen rfl pConn ?_ ?_⟩
  · rw [hrun]
    exact htouch
  · rw [hrun, hclosed]
    exact List.mem_cons_self

/-- Two clients, one of which leaves after the tick that wrote to both. -/
def quietRun : List PushEvent :=
  [.wsReady 1, .wsReady 2, .push, .push, .push, .push, .push, .push, .push, .push, .wsClose 1]

theorem quietRun_touchesOpen : Admits (TouchesOpen true true) quietRun := by
  refine no_push_after_close true true quietRun ?_
  have other {pre : List PushEvent} {e : PushEvent} (h : ∀ pConn, e ≠ .wsClose pConn) :
      ClosesIdle true true pre e := fun pConn he => absurd he (h pConn)
  simp only [quietRun, admits_cons]
  refine ⟨other ?_, other ?_, other ?_, other ?_, other ?_, other ?_, other ?_, other ?_, other ?_, other ?_, ?_,
    admits_nil⟩
  rotate_right 1
  · rintro _ ⟨⟩
    decide
  all_goals simp

/-- A client leaves between the copy of the set and the write to it. -/
def closeInTick : List PushEvent := [.wsReady 1, .push, .wsClose 1, .push]

theorem closeInTick_touches : ¬ Admits (TouchesOpen true true) closeInTick := by
  intro h
  have hlast : TouchesOpen true true [.wsReady 1, .push, .wsClose 1] .push := Admits.last h
  exact hlast rfl 1 (by decide) (by decide)

end PiAudioNode.Web
