import PiAudioNode.Nmos.Registration

/-! What the registration thread asks of the registries in a turn of its loop, as one
outcome. The turn itself is taken in small steps, between which others change the node. -/
namespace PiAudioNode.Nmos
open Lib
variable {α : Type*}

inductive RegistryRequest where
  | post (sUrl : Url) (res : Resource) (nStatus : Nat)
  | heartbeat (sUrl : Url) (nStatus : Nat)
  | delete (sUrl : Url)

def RegistryRequest.sUrl : RegistryRequest → Url
  | .post sUrl .. | .heartbeat sUrl _ | .delete sUrl => sUrl

/-- The request of a step, with the status that answers it. -/
def requestOf (s : Registration α) (a : Answer) : List RegistryRequest :=
  match s.pc with
  | .post _ sUrl res _ => [.post sUrl res a.nStatus]
  | .heartbeat => [.heartbeat s.sRegistry a.nStatus]
  | _ => []

/-- The text for the user interface is set together with the registry. -/
def registryStatus (s : Registration α) (sStatus : String) : String :=
  match s.pc with
  | .adopt _ => "registered"
  | .tryNext [] => if s.vRegistries = [] then "no registry found" else "registration failed"
  | _ => sStatus

/-- The thread with the text it shows, the turns behind it, each with the registries it
knew and its requests, the requests of the present one, and the registration this one
began with. -/
structure RegistrationTurn (α : Type*) where
  reg : Registration α
  sRegistryStatus : String := ""
  turns : List (List Url × List RegistryRequest) := []
  requests : List RegistryRequest := []
  bWas : Bool := false
  sWas : Url := ""

namespace RegistrationTurn

/-- A turn begins at the head of the loop and ends with its sleep. -/
def thread (w : RegistrationTurn α) (a : Answer) : RegistrationTurn α :=
  match w.reg.pc with
  | .top => { w with reg := registrationStep w.reg a, bWas := w.reg.bRegistered, sWas := w.reg.sRegistry }
  | .sleep =>
    { w with
      reg := registrationStep w.reg a
      turns := w.turns ++ [(w.reg.vRegistries, w.requests)]
      requests := [] }
  | _ =>
    { w with
      reg := registrationStep w.reg a
      sRegistryStatus := registryStatus w.reg w.sRegistryStatus
      requests := w.requests ++ requestOf w.reg a }

def step (w : RegistrationTurn α) : RegistrationEvent α → RegistrationTurn α
  | .thread a => w.thread a
  | e => { w with reg := w.reg.step e }

/-- The loop ends at its head, and the registry shown is asked to forget the node. -/
def shutdown (w : RegistrationTurn α) : List RegistryRequest :=
  if w.reg.sRegistry = "" then [] else [.delete w.reg.sRegistry]

end RegistrationTurn

def Resource.order : List Resource := [.node, .device, .source, .flow, .sender, .receiver]

/-- A registry has taken the first posts of a pass. -/
def Taken (sUrl : Url) (n : Nat) (requests : List RegistryRequest) : Prop :=
  List.Forall₂ (fun res request => ∃ nStatus, accepted nStatus ∧ request = .post sUrl res nStatus)
    (Resource.order.take n) requests

def TakesAll (sUrl : Url) (requests : List RegistryRequest) : Prop := Taken sUrl 6 requests

/-- A registry refuses a post of a pass, which is the last of it. -/
def RefusesPost (sUrl : Url) (requests : List RegistryRequest) : Prop :=
  ∃ (res : Resource) (nStatus : Nat) (front : List RegistryRequest), Taken sUrl res.place front ∧ ¬ accepted nStatus ∧
    requests = front ++ [.post sUrl res nStatus]

/-- Registries that have refused, one after the other. -/
inductive Tried : List Url → List RegistryRequest → Prop
  | none : Tried [] []
  | next {tried : List Url} {requests more : List RegistryRequest} {sUrl : Url} (h : Tried tried requests)
    (hrefused : RefusesPost sUrl more) : Tried (tried ++ [sUrl]) (requests ++ more)

/-- A turn as one outcome, from a registration and the known registries to the requests
made and the registration left. -/
inductive TurnEnds (vRegistries : List Url) (sWas : Url) : Bool → List RegistryRequest → Bool → Url → Prop
  | adopts {tried rest : List Url} {sUrl : Url} {requests more : List RegistryRequest}
    (hsplit : vRegistries = tried ++ sUrl :: rest) (htried : Tried tried requests) (htaken : TakesAll sUrl more) :
    TurnEnds vRegistries sWas false (requests ++ more) true sUrl
  | findsNone {requests : List RegistryRequest} (htried : Tried vRegistries requests) :
    TurnEnds vRegistries sWas false requests false ""
  | stays {nStatus : Nat} {posts : List RegistryRequest} (halive : 200 ≤ nStatus ∧ nStatus < 300)
    (hposts : posts = [] ∨ TakesAll sWas posts ∨ RefusesPost sWas posts) :
    TurnEnds vRegistries sWas true (.heartbeat sWas nStatus :: posts) true sWas
  | restores {posts : List RegistryRequest} (htaken : TakesAll sWas posts) :
    TurnEnds vRegistries sWas true (.heartbeat sWas 404 :: posts) true sWas
  | loses {nStatus : Nat} {posts : List RegistryRequest}
    (hlost : nStatus = 404 ∧ RefusesPost sWas posts ∨ nStatus ≠ 404 ∧ (nStatus < 200 ∨ 300 ≤ nStatus) ∧ posts = []) :
    TurnEnds vRegistries sWas true (.heartbeat sWas nStatus :: posts) false sWas

/-- Turns one after the other, each from the registration that the one before it left. -/
inductive Turns (bFirst : Bool) (sFirst : Url) : List (List Url × List RegistryRequest) → Bool → Url → Prop
  | none : Turns bFirst sFirst [] bFirst sFirst
  | next {turns : List (List Url × List RegistryRequest)} {vRegistries : List Url} {requests : List RegistryRequest}
    {bWas bIs : Bool} {sWas sIs : Url}
    (h : Turns bFirst sFirst turns bWas sWas) (hend : TurnEnds vRegistries sWas bWas requests bIs sIs) :
    Turns bFirst sFirst (turns ++ [(vRegistries, requests)]) bIs sIs

section Posts
variable {sUrl : Url} {res : Resource} {nStatus : Nat} {requests : List RegistryRequest}

theorem order_take_succ (res : Resource) : Resource.order.take (res.place + 1) = Resource.order.take res.place ++ [res] := by
  cases res <;> rfl

theorem place_after_eq {next : Resource} (h : res.after = some next) : next.place = res.place + 1 := by
  cases res <;> cases h <;> rfl

theorem place_last_eq (h : res.after = none) : res.place = 5 := by
  cases res <;> cases h
  rfl

theorem taken_zero (sUrl : Url) : Taken sUrl 0 [] := List.Forall₂.nil

theorem Taken.post (h : Taken sUrl res.place requests) (hstatus : accepted nStatus) :
    Taken sUrl (res.place + 1) (requests ++ [.post sUrl res nStatus]) := by
  rw [Taken, order_take_succ]
  apply List.rel_append h
  exact List.Forall₂.cons ⟨nStatus, hstatus, rfl⟩ List.Forall₂.nil

theorem Taken.refused (h : Taken sUrl res.place requests) (hstatus : ¬ accepted nStatus) :
    RefusesPost sUrl (requests ++ [.post sUrl res nStatus]) := ⟨res, nStatus, requests, h, hstatus, rfl⟩

end Posts

/-- What the requests of the turn have to do with the pass that is under way. -/
def OnPass (w : RegistrationTurn α) (sUrl : Url) (n : Nat) : Pass → Prop
  | .initial vRest => w.bWas = false ∧ w.reg.bRegistered = false ∧ ∃ tried requests more,
    w.reg.vRegistries = tried ++ sUrl :: vRest ∧ Tried tried requests ∧ Taken sUrl n more ∧ w.requests = requests ++ more
  | .update => (w.bWas = true ∧ w.reg.bRegistered = true ∧ sUrl = w.sWas ∧ w.reg.sRegistry = w.sWas) ∧
    ∃ nStatus more, (200 ≤ nStatus ∧ nStatus < 300) ∧ Taken sUrl n more ∧ w.requests = .heartbeat sUrl nStatus :: more
  | .lost => (w.bWas = true ∧ w.reg.bRegistered = true ∧ sUrl = w.sWas ∧ w.reg.sRegistry = w.sWas) ∧
    ∃ more, Taken sUrl n more ∧ w.requests = .heartbeat sUrl 404 :: more

/-- The turn has come to its outcome. -/
def Ended (w : RegistrationTurn α) : Prop :=
  TurnEnds w.reg.vRegistries w.sWas w.bWas w.requests w.reg.bRegistered w.reg.sRegistry

/-- At either end of a turn the thread is where a sequence of outcomes leads. -/
structure AtTurns (bFirst : Bool) (sFirst : Url) (w : RegistrationTurn α) : Prop where
  begins : w.reg.pc = .top → Turns bFirst sFirst w.turns w.reg.bRegistered w.reg.sRegistry
  ends : w.reg.pc = .sleep →
    Turns bFirst sFirst (w.turns ++ [(w.reg.vRegistries, w.requests)]) w.reg.bRegistered w.reg.sRegistry

/-- Where the turn is, step by step. -/
def InTurn (w : RegistrationTurn α) : Prop :=
  match w.reg.pc with
  | .top => w.requests = []
  | .tryNext vRest => w.bWas = false ∧ w.reg.bRegistered = false ∧ ∃ tried,
    w.reg.vRegistries = tried ++ vRest ∧ Tried tried w.requests
  | .build pass sUrl res | .post pass sUrl res _ => OnPass w sUrl res.place pass
  | .adopt sUrl => w.bWas = false ∧ ∃ tried vRest requests more, w.reg.vRegistries = tried ++ sUrl :: vRest ∧
    Tried tried requests ∧ TakesAll sUrl more ∧ w.requests = requests ++ more
  | .heartbeat => w.bWas = true ∧ w.reg.bRegistered = true ∧ w.reg.sRegistry = w.sWas ∧ w.requests = []
  | .readBack | .store _ | .sleep => Ended w

section Turns
variable {w : RegistrationTurn α}

theorem OnPass.posted {pass : Pass} {sUrl : Url} {res : Resource} {nStatus : Nat} (h : OnPass w sUrl res.place pass)
    (hstatus : accepted nStatus) {w' : RegistrationTurn α} (hwas : w'.bWas = w.bWas ∧ w'.sWas = w.sWas)
    (hreg : w'.reg.bRegistered = w.reg.bRegistered ∧ w'.reg.sRegistry = w.reg.sRegistry ∧
      w'.reg.vRegistries = w.reg.vRegistries)
    (hrequests : w'.requests = w.requests ++ [.post sUrl res nStatus]) : OnPass w' sUrl (res.place + 1) pass := by
  obtain ⟨hbWas, hsWas⟩ := hwas
  obtain ⟨hregistered, hregistry, hregistries⟩ := hreg
  cases pass with
  | initial vRest =>
    obtain ⟨hno, hun, tried, requests, more, hsplit, htried, htaken, heq⟩ := h
    refine ⟨hbWas.trans hno, hregistered.trans hun, tried, requests, _, hregistries.trans hsplit, htried,
      htaken.post hstatus, ?_⟩
    rw [hrequests, heq, List.append_assoc]
  | update =>
    obtain ⟨⟨hwas, hon, hurl, hkept⟩, nBeat, more, halive, htaken, heq⟩ := h
    refine ⟨⟨hbWas.trans hwas, hregistered.trans hon, hurl.trans hsWas.symm, hregistry.trans (hkept.trans hsWas.symm)⟩,
      nBeat, _, halive, htaken.post hstatus, ?_⟩
    rw [hrequests, heq, List.cons_append]
  | lost =>
    obtain ⟨⟨hwas, hon, hurl, hkept⟩, more, htaken, heq⟩ := h
    refine ⟨⟨hbWas.trans hwas, hregistered.trans hon, hurl.trans hsWas.symm, hregistry.trans (hkept.trans hsWas.symm)⟩,
      _, htaken.post hstatus, ?_⟩
    rw [hrequests, heq, List.cons_append]

/-- A registry that takes every post ends the pass. -/
theorem OnPass.passed {pass : Pass} {sUrl : Url} (h : OnPass w sUrl 6 pass) :
    InTurn { w with reg := Nmos.passed w.reg sUrl pass } := by
  cases pass with
  | initial vRest =>
    obtain ⟨hno, -, tried, requests, more, hsplit, htried, htaken, heq⟩ := h
    exact ⟨hno, tried, vRest, requests, more, hsplit, htried, htaken, heq⟩
  | update =>
    obtain ⟨⟨hwas, hon, rfl, hkept⟩, nStatus, more, halive, htaken, heq⟩ := h
    have hend : Ended w := by
      rw [Ended, heq, hwas, hon, hkept]
      exact .stays halive (Or.inr (Or.inl htaken))
    exact hend
  | lost =>
    obtain ⟨⟨hwas, hon, rfl, hkept⟩, more, htaken, heq⟩ := h
    have hend : TurnEnds w.reg.vRegistries w.sWas w.bWas w.requests true w.reg.sRegistry := by
      rw [heq, hwas, hkept]
      exact .restores htaken
    exact hend

/-- A refusal ends the pass. -/
theorem OnPass.failed {pass : Pass} {sUrl : Url} {res : Resource} {nStatus : Nat} (h : OnPass w sUrl res.place pass)
    (hstatus : ¬ accepted nStatus) {requests : List RegistryRequest}
    (hrequests : requests = w.requests ++ [.post sUrl res nStatus]) :
    InTurn { w with reg := Nmos.failed w.reg pass, requests } := by
  subst hrequests
  cases pass with
  | initial vRest =>
    obtain ⟨hno, hun, tried, requests, more, hsplit, htried, htaken, heq⟩ := h
    refine ⟨hno, hun, tried ++ [sUrl], ?_, ?_⟩
    · rw [List.append_assoc]
      exact hsplit
    · rw [heq, List.append_assoc]
      exact htried.next (htaken.refused hstatus)
  | update =>
    obtain ⟨⟨hwas, hon, rfl, hkept⟩, nBeat, more, halive, htaken, heq⟩ := h
    have hend : TurnEnds w.reg.vRegistries w.sWas w.bWas (w.requests ++ [.post w.sWas res nStatus]) w.reg.bRegistered
        w.reg.sRegistry := by
      rw [heq, hwas, hon, hkept]
      exact .stays halive (Or.inr (Or.inr (htaken.refused hstatus)))
    exact hend
  | lost =>
    obtain ⟨⟨hwas, hon, rfl, hkept⟩, more, htaken, heq⟩ := h
    have hend : TurnEnds w.reg.vRegistries w.sWas w.bWas (w.requests ++ [.post w.sWas res nStatus]) false
        w.reg.sRegistry := by
      rw [heq, hwas, hkept]
      exact .loses (Or.inl ⟨rfl, htaken.refused hstatus⟩)
    exact hend

theorem inTurn_post {pass : Pass} {sUrl : Url} {res : Resource} {js : α} (hat : w.reg.pc = .post pass sUrl res js)
    (h : OnPass w sUrl res.place pass) (a : Answer) : InTurn (w.thread a) := by
  simp only [RegistrationTurn.thread, registrationStep, registryStatus, requestOf, hat]
  by_cases hstatus : accepted a.nStatus
  · rw [if_pos hstatus]
    cases hafter : res.after with
    | some next =>
      have hplace := place_after_eq hafter
      have hnext : OnPass { w with requests := w.requests ++ [.post sUrl res a.nStatus] } sUrl (res.place + 1) pass :=
        h.posted hstatus ⟨rfl, rfl⟩ ⟨rfl, rfl, rfl⟩ rfl
      rw [← hplace] at hnext
      cases pass <;> exact hnext
    | none =>
      have hlast : OnPass { w with
          reg := { w.reg with stored := put w.reg.stored sUrl res js }
          requests := w.requests ++ [.post sUrl res a.nStatus] } sUrl (res.place + 1) pass :=
        h.posted hstatus ⟨rfl, rfl⟩ ⟨rfl, rfl, rfl⟩ rfl
      rw [place_last_eq hafter] at hlast
      exact hlast.passed
  · rw [if_neg hstatus]
    have hnow : OnPass { w with
        reg := { w.reg with stored := if a.bKept then put w.reg.stored sUrl res js else w.reg.stored } }
        sUrl res.place pass := by
      cases pass <;> exact h
    exact hnow.failed hstatus rfl

/-- One step of the thread, by where it is. -/
theorem inTurn_thread (h : InTurn w) (a : Answer) : InTurn (w.thread a) := by
  unfold InTurn at h
  cases hat : w.reg.pc with
  | top =>
    simp only [hat] at h
    simp only [RegistrationTurn.thread, registrationStep, hat]
    by_cases hon : w.reg.bRegistered = true
    · rw [if_pos hon]
      exact ⟨hon, hon, rfl, h⟩
    · have hun : w.reg.bRegistered = false := by simpa using hon
      have hnone : Tried [] w.requests := by
        rw [h]
        exact .none
      rw [if_neg hon]
      split_ifs
      · exact ⟨hun, hun, [], rfl, hnone⟩
      · exact ⟨hun, hun, [], rfl, hnone⟩
      · exact ⟨hun, hun, [], rfl, hnone⟩
  | tryNext vRest =>
    simp only [hat] at h
    obtain ⟨hno, hun, tried, hsplit, htried⟩ := h
    cases vRest with
    | nil =>
      simp only [RegistrationTurn.thread, registrationStep, requestOf, hat, List.append_nil]
      rw [List.append_nil] at hsplit
      have hend : TurnEnds w.reg.vRegistries w.sWas w.bWas w.requests w.reg.bRegistered "" := by
        rw [hno, hun]
        exact .findsNone (hsplit ▸ htried)
      exact hend
    | cons sUrl vRest =>
      simp only [RegistrationTurn.thread, registrationStep, requestOf, hat, List.append_nil]
      exact ⟨hno, hun, tried, w.requests, [], hsplit, htried, taken_zero sUrl, (List.append_nil _).symm⟩
  | build pass sUrl res =>
    simp only [hat] at h
    simp only [RegistrationTurn.thread, registrationStep, requestOf, hat, List.append_nil]
    cases pass <;> exact h
  | post pass sUrl res js =>
    simp only [hat] at h
    exact inTurn_post hat h a
  | adopt sUrl =>
    simp only [hat] at h
    obtain ⟨hno, tried, vRest, requests, more, hsplit, htried, htaken, heq⟩ := h
    simp only [RegistrationTurn.thread, registrationStep, requestOf, hat, List.append_nil]
    have hend : TurnEnds w.reg.vRegistries w.sWas w.bWas w.requests true sUrl := by
      rw [hno, heq]
      exact .adopts hsplit htried htaken
    exact hend
  | readBack =>
    simp only [hat] at h
    simp only [RegistrationTurn.thread, registrationStep, requestOf, hat, List.append_nil]
    exact h
  | store nVersion =>
    simp only [hat] at h
    simp only [RegistrationTurn.thread, registrationStep, requestOf, hat, List.append_nil]
    exact h
  | heartbeat =>
    simp only [hat] at h
    obtain ⟨hwas, hon, hkept, hnone⟩ := h
    simp only [RegistrationTurn.thread, registrationStep, requestOf, hat, hnone, List.nil_append]
    split_ifs with hlost hdead hbehind
    · refine ⟨⟨hwas, hon, hkept, hkept⟩, [], taken_zero _, ?_⟩
      rw [hlost]
    · have hend : TurnEnds w.reg.vRegistries w.sWas w.bWas [.heartbeat w.reg.sRegistry a.nStatus] false
          w.reg.sRegistry := by
        rw [hwas, hkept]
        exact .loses (Or.inr ⟨hlost, hdead, rfl⟩)
      exact hend
    · exact ⟨⟨hwas, hon, hkept, hkept⟩, a.nStatus, [], by omega, taken_zero _, rfl⟩
    · have hend : TurnEnds w.reg.vRegistries w.sWas w.bWas [.heartbeat w.reg.sRegistry a.nStatus] w.reg.bRegistered
          w.reg.sRegistry := by
        rw [hwas, hon, hkept]
        exact .stays (by omega) (Or.inl rfl)
      exact hend
  | sleep =>
    simp only [RegistrationTurn.thread, registrationStep, hat]
    rfl

/-- Other threads do not touch what the turn is about. -/
theorem inTurn_step (h : InTurn w) (e : RegistrationEvent α) : InTurn (w.step e) := by
  cases e with
  | change value => exact h
  | bump => exact h
  | thread a => exact inTurn_thread h a

theorem reg_step (w : RegistrationTurn α) (e : RegistrationEvent α) : (w.step e).reg = w.reg.step e := by
  cases e with
  | change value => rfl
  | bump => rfl
  | thread a =>
    dsimp only [RegistrationTurn.step, RegistrationTurn.thread, Registration.step]
    split <;> rfl

/-- What the turn began with. -/
def begun (w : RegistrationTurn α) : Bool × Url :=
  match w.reg.pc with
  | .top => (w.reg.bRegistered, w.reg.sRegistry)
  | _ => (w.bWas, w.sWas)

theorem begun_of_ne_top (h : w.reg.pc ≠ .top) : begun w = (w.bWas, w.sWas) := by
  unfold begun
  split
  · exact absurd ‹_› h
  · rfl

/-- Only the sleep leads back to the head of the loop. -/
theorem pc_ne_top {s : Registration α} (h : s.pc ≠ .sleep) (a : Answer) : (registrationStep s a).pc ≠ .top := by
  unfold registrationStep
  intro htop
  cases hat : s.pc with
  | sleep => exact h hat
  | tryNext vRegistries =>
    cases vRegistries <;> simp [hat] at htop
  | post pass sUrl res js =>
    simp only [hat] at htop
    split at htop
    · cases hafter : res.after with
      | some next => simp [hafter] at htop
      | none => cases pass <;> simp [hafter, passed] at htop
    · cases pass <;> simp [failed] at htop
  | top =>
    simp only [hat] at htop
    split_ifs at htop
  | heartbeat =>
    simp only [hat] at htop
    split_ifs at htop
  | build pass sUrl res => simp [hat] at htop
  | adopt sUrl => simp [hat] at htop
  | readBack => simp [hat] at htop
  | store nVersion => simp [hat] at htop

structure Chained (bFirst : Bool) (sFirst : Url) (w : RegistrationTurn α) : Prop where
  inTurn : InTurn w
  turns : Turns bFirst sFirst w.turns (begun w).1 (begun w).2

variable {bFirst : Bool} {sFirst : Url}

theorem Chained.thread (h : Chained bFirst sFirst w) (a : Answer) : Chained bFirst sFirst (w.thread a) := by
  refine ⟨inTurn_thread h.inTurn a, ?_⟩
  have hturns := h.turns
  by_cases hsleep : w.reg.pc = .sleep
  · have hend : Ended w := by
      have hin := h.inTurn
      unfold InTurn at hin
      simpa only [hsleep] using hin
    rw [begun_of_ne_top (by rw [hsleep]; intro heq; cases heq)] at hturns
    simp only [RegistrationTurn.thread, registrationStep, begun, hsleep]
    exact hturns.next hend
  · have hnext : begun (w.thread a) = ((w.thread a).bWas, (w.thread a).sWas) := by
      apply begun_of_ne_top
      have hreg : (w.thread a).reg = registrationStep w.reg a := reg_step w (.thread a)
      rw [hreg]
      exact pc_ne_top hsleep a
    rw [hnext]
    by_cases htop : w.reg.pc = .top
    · simp only [begun, htop] at hturns
      simp only [RegistrationTurn.thread, htop]
      exact hturns
    · rw [begun_of_ne_top htop] at hturns
      unfold RegistrationTurn.thread
      split
      · exact absurd ‹_› htop
      · exact absurd ‹_› hsleep
      · exact hturns

theorem Chained.step (h : Chained bFirst sFirst w) (e : RegistrationEvent α) : Chained bFirst sFirst (w.step e) := by
  cases e with
  | change value => exact ⟨h.inTurn, h.turns⟩
  | bump => exact ⟨h.inTurn, h.turns⟩
  | thread a => exact h.thread a

theorem Chained.atTurns (h : Chained bFirst sFirst w) : AtTurns bFirst sFirst w where
  begins htop := by
    have hturns := h.turns
    simpa only [begun, htop] using hturns
  ends hsleep := by
    have hin := h.inTurn
    have hturns := h.turns
    unfold InTurn at hin
    simp only [hsleep] at hin
    rw [begun_of_ne_top (by rw [hsleep]; intro heq; cases heq)] at hturns
    exact hturns.next hin

end Turns

section Runs
variable {w : RegistrationTurn α} {sUrl : Url}

/-- The thread has just been started. -/
structure RegistrationTurn.Starts (w : RegistrationTurn α) : Prop where
  top : w.reg.pc = .top
  turns : w.turns = []
  requests : w.requests = []

theorem reg_run (w : RegistrationTurn α) (es : List (RegistrationEvent α)) :
    (run RegistrationTurn.step w es).reg = run Registration.step w.reg es := by
  induction es using List.reverseRecOn with
  | nil => rfl
  | append_singleton es e ih => rw [run_snoc, run_snoc, reg_step, ih]

theorem RegistrationTurn.Starts.chained (h : w.Starts) : Chained w.reg.bRegistered w.reg.sRegistry w := by
  constructor
  · unfold InTurn
    rw [h.top]
    exact h.requests
  · unfold begun
    rw [h.top, h.turns]
    exact .none

/-- Whatever the others change meanwhile, the thread's turns have the outcomes of a
failover: registries are tried in their order, the first that takes everything is kept
until it is silent or refuses the node. -/
theorem run_atTurns (hstart : w.Starts) (es : List (RegistrationEvent α)) :
    (run RegistrationTurn.step w es).reg = run Registration.step w.reg es ∧
      AtTurns w.reg.bRegistered w.reg.sRegistry (run RegistrationTurn.step w es) := by
  refine ⟨reg_run w es, Chained.atTurns ?_⟩
  exact invariant hstart.chained (fun _ e h => h.step e) es

theorem run_atTurns_pi :
    (run RegistrationTurn.step { reg := pi } renamedFirst).reg = run Registration.step pi renamedFirst ∧
      AtTurns false "" (run RegistrationTurn.step { reg := pi } renamedFirst) :=
  run_atTurns ⟨rfl, rfl, rfl⟩ renamedFirst

/-- A registry took everything in some turn, and is the only one asked since. -/
def AdoptedLast (turns : List (List Url × List RegistryRequest)) (sUrl : Url) : Prop :=
  ∃ before front posts after, turns.map Prod.snd = before ++ (front ++ posts) :: after ∧ TakesAll sUrl posts ∧
    ∀ requests ∈ after, ∀ request ∈ requests, request.sUrl = sUrl

theorem Taken.sUrl_eq {n : Nat} {requests : List RegistryRequest} (h : Taken sUrl n requests) {request : RegistryRequest}
    (hmem : request ∈ requests) : request.sUrl = sUrl := by
  rw [Taken] at h
  generalize Resource.order.take n = order at h
  induction h with
  | nil => cases hmem
  | cons hfirst _ ih =>
    obtain ⟨nStatus, -, rfl⟩ := hfirst
    rcases List.mem_cons.mp hmem with rfl | hmem
    · rfl
    · exact ih hmem

theorem RefusesPost.sUrl_eq {requests : List RegistryRequest} (h : RefusesPost sUrl requests) {request : RegistryRequest}
    (hmem : request ∈ requests) : request.sUrl = sUrl := by
  obtain ⟨res, nStatus, front, htaken, -, rfl⟩ := h
  rcases List.mem_append.mp hmem with hmem | hmem
  · exact htaken.sUrl_eq hmem
  · rw [List.mem_singleton.mp hmem]
    rfl

/-- A turn on a registration asks its registry only. -/
theorem AdoptedLast.next {turns : List (List Url × List RegistryRequest)} {vRegistries : List Url}
    (h : AdoptedLast turns sUrl) {nStatus : Nat} {posts : List RegistryRequest}
    (hposts : posts = [] ∨ TakesAll sUrl posts ∨ RefusesPost sUrl posts) :
    AdoptedLast (turns ++ [(vRegistries, .heartbeat sUrl nStatus :: posts)]) sUrl := by
  obtain ⟨before, front, taken, after, hsplit, htaken, hafter⟩ := h
  refine ⟨before, front, taken, after ++ [.heartbeat sUrl nStatus :: posts], ?_, htaken, ?_⟩
  · rw [List.map_append, hsplit]
    simp
  intro requests hmem request hrequest
  rcases List.mem_append.mp hmem with hmem | hmem
  · exact hafter requests hmem request hrequest
  · rw [List.mem_singleton.mp hmem] at hrequest
    rcases List.mem_cons.mp hrequest with rfl | hrequest
    · rfl
    · rcases hposts with rfl | htakes | hrefuses
      · cases hrequest
      · exact Taken.sUrl_eq htakes hrequest
      · exact RefusesPost.sUrl_eq hrefuses hrequest

theorem Turns.adoptedLast {turns : List (List Url × List RegistryRequest)} {bIs : Bool} {sIs : Url}
    (h : Turns false "" turns bIs sIs) (hshown : sIs ≠ "") : AdoptedLast turns sIs := by
  induction h with
  | none => exact absurd rfl hshown
  | next h hend ih =>
    cases hend with
    | adopts hsplit htried htaken =>
      rw [AdoptedLast, List.map_append]
      exact ⟨_, _, _, [], rfl, htaken, fun requests hmem => by cases hmem⟩
    | findsNone htried => exact absurd rfl hshown
    | stays halive hposts => exact (ih hshown).next hposts
    | restores htaken => exact (ih hshown).next (Or.inr (Or.inl htaken))
    | loses hlost =>
      apply (ih hshown).next
      rcases hlost with ⟨-, hrefused⟩ | ⟨-, -, hnone⟩
      · exact Or.inr (Or.inr hrefused)
      · exact Or.inl hnone

/-- The user interface shows a registration just while it shows a registry, and the thread
has one only then. -/
structure ShownRegistry (w : RegistrationTurn α) : Prop where
  text : w.sRegistryStatus = "registered" ↔ w.reg.sRegistry ≠ ""
  held : w.reg.bRegistered = true → w.reg.sRegistry ≠ ""
  named : "" ∉ w.reg.vRegistries

/-- A step that leaves the registry as it is, and the text with it. -/
theorem ShownRegistry.kept (h : ShownRegistry w) {w' : RegistrationTurn α} (htext : w'.sRegistryStatus = w.sRegistryStatus)
    (hregistry : w'.reg.sRegistry = w.reg.sRegistry) (hheld : w'.reg.bRegistered = true → w.reg.bRegistered = true)
    (hnamed : "" ∉ w'.reg.vRegistries) : ShownRegistry w' := by
  refine ⟨?_, ?_, hnamed⟩
  · rw [htext, hregistry]
    exact h.text
  · rw [hregistry]
    exact fun hon => h.held (hheld hon)

theorem ShownRegistry.thread (h : ShownRegistry w) (hin : InTurn w) {a : Answer} (hurls : "" ∉ a.vDiscovered) :
    ShownRegistry (w.thread a) := by
  have hnamed := h.named
  unfold InTurn at hin
  cases hat : w.reg.pc with
  | top =>
    simp only [RegistrationTurn.thread, registrationStep, hat]
    split_ifs with hon hoverride hsince
    · exact h.kept rfl rfl id hnamed
    · refine h.kept rfl rfl id ?_
      simpa using hoverride.symm
    · exact h.kept rfl rfl id hurls
    · exact h.kept rfl rfl id hnamed
  | tryNext vRest =>
    simp only [hat] at hin
    obtain ⟨-, hun, -⟩ := hin
    cases vRest with
    | nil =>
      simp only [RegistrationTurn.thread, registrationStep, registryStatus, hat]
      refine ⟨?_, ?_, hnamed⟩
      · split_ifs <;> simp
      · intro hon
        rw [hun] at hon
        cases hon
    | cons sUrl vRest =>
      simp only [RegistrationTurn.thread, registrationStep, registryStatus, hat]
      exact h.kept rfl rfl id hnamed
  | post pass sUrl res js =>
    simp only [hat] at hin
    simp only [RegistrationTurn.thread, registrationStep, registryStatus, hat]
    have hlost (hpass : pass = .lost) : w.reg.bRegistered = true := by
      subst hpass
      exact hin.1.2.1
    split
    · cases hafter : res.after with
      | some next => exact h.kept rfl rfl id hnamed
      | none =>
        cases pass with
        | initial vRest => exact h.kept rfl rfl id hnamed
        | update => exact h.kept rfl rfl id hnamed
        | lost => exact h.kept rfl rfl (fun _ => hlost rfl) hnamed
    · cases pass with
      | initial vRest => exact h.kept rfl rfl id hnamed
      | update => exact h.kept rfl rfl id hnamed
      | lost => exact h.kept rfl rfl (fun hon => by cases hon) hnamed
  | adopt sUrl =>
    simp only [hat] at hin
    obtain ⟨-, tried, vRest, requests, more, hsplit, -⟩ := hin
    simp only [RegistrationTurn.thread, registrationStep, registryStatus, hat]
    have hurl : sUrl ≠ "" := by
      rintro rfl
      rw [hsplit] at hnamed
      exact hnamed (by simp)
    exact ⟨⟨fun _ => hurl, fun _ => rfl⟩, fun _ => hurl, hnamed⟩
  | heartbeat =>
    simp only [RegistrationTurn.thread, registrationStep, registryStatus, hat]
    split_ifs with hlost hdead hbehind
    · exact h.kept rfl rfl id hnamed
    · exact h.kept rfl rfl (fun hon => by cases hon) hnamed
    · exact h.kept rfl rfl id hnamed
    · exact h.kept rfl rfl id hnamed
  | build pass sUrl res =>
    simp only [RegistrationTurn.thread, registrationStep, registryStatus, hat]
    exact h.kept rfl rfl id hnamed
  | readBack =>
    simp only [RegistrationTurn.thread, registrationStep, registryStatus, hat]
    exact h.kept rfl rfl id hnamed
  | store nVersion =>
    simp only [RegistrationTurn.thread, registrationStep, registryStatus, hat]
    exact h.kept rfl rfl id hnamed
  | sleep =>
    simp only [RegistrationTurn.thread, registrationStep, hat]
    exact h.kept rfl rfl id hnamed

/-- The first start of the thread. -/
structure RegistrationTurn.StartsFresh (w : RegistrationTurn α) : Prop extends w.Starts where
  unregistered : w.reg.bRegistered = false
  registry : w.reg.sRegistry = ""
  text : w.sRegistryStatus = ""
  registries : w.reg.vRegistries = []

/-- What is discovered has a name. -/
def NamesRegistries (es : List (RegistrationEvent α)) : Prop := ∀ a, .thread a ∈ es → "" ∉ a.vDiscovered

theorem shown_run (hstart : w.StartsFresh) (es : List (RegistrationEvent α)) (hurls : NamesRegistries es) :
    ShownRegistry (run RegistrationTurn.step w es) := by
  suffices h : ShownRegistry (run RegistrationTurn.step w es) ∧ InTurn (run RegistrationTurn.step w es) from h.1
  induction es using List.reverseRecOn with
  | nil =>
    refine ⟨⟨?_, ?_, ?_⟩, hstart.chained.inTurn⟩
    · rw [run_nil, hstart.text, hstart.registry]
      simp
    · rw [run_nil, hstart.unregistered]
      intro hon
      cases hon
    · rw [run_nil, hstart.registries]
      exact List.not_mem_nil
  | append_singleton es e ih =>
    obtain ⟨hshown, hin⟩ := ih fun a hmem => hurls a (List.mem_append_left _ hmem)
    rw [run_snoc]
    refine ⟨?_, inTurn_step hin e⟩
    cases e with
    | change value => exact ⟨hshown.text, hshown.held, hshown.named⟩
    | bump => exact ⟨hshown.text, hshown.held, hshown.named⟩
    | thread a => exact hshown.thread hin (hurls a (by simp))

/-- At any time the text tells whether a registry is shown. When the loop ends, the one
that is asked to forget the node took it as a whole, and no other was asked since. -/
theorem shutdown_forgets (hstart : w.StartsFresh) (es : List (RegistrationEvent α)) (hurls : NamesRegistries es) :
    ShownRegistry (run RegistrationTurn.step w es) ∧ ((run RegistrationTurn.step w es).reg.pc = .top →
      ∀ request ∈ (run RegistrationTurn.step w es).shutdown,
        AdoptedLast (run RegistrationTurn.step w es).turns request.sUrl) := by
  refine ⟨shown_run hstart es hurls, ?_⟩
  intro htop request hmem
  have hturns : Turns false "" (run RegistrationTurn.step w es).turns (run RegistrationTurn.step w es).reg.bRegistered
      (run RegistrationTurn.step w es).reg.sRegistry := by
    rw [← hstart.unregistered, ← hstart.registry]
    exact (Chained.atTurns (invariant hstart.chained (fun _ e h => h.step e) es)).begins htop
  rw [RegistrationTurn.shutdown] at hmem
  split_ifs at hmem with hnone
  · cases hmem
  · rw [List.mem_singleton.mp hmem]
    exact hturns.adoptedLast hnone

theorem pi_startsFresh : ({ reg := pi } : RegistrationTurn String).StartsFresh where
  top := rfl
  turns := rfl
  requests := rfl
  unregistered := rfl
  registry := rfl
  text := rfl
  registries := rfl

theorem renamedFirst_names : NamesRegistries renamedFirst := by
  intro a hmem
  rcases List.mem_append.mp hmem with hmem | hmem
  · simp [renamed] at hmem
  · obtain ⟨b, hb, heq⟩ := List.mem_map.mp hmem
    cases heq
    rw [(List.mem_replicate.mp hb).2]
    exact List.not_mem_nil

theorem shutdown_forgets_pi :
    ShownRegistry (run RegistrationTurn.step { reg := pi } renamedFirst) ∧
      ((run RegistrationTurn.step { reg := pi } renamedFirst).reg.pc = .top →
        ∀ request ∈ (run RegistrationTurn.step { reg := pi } renamedFirst).shutdown,
          AdoptedLast (run RegistrationTurn.step { reg := pi } renamedFirst).turns request.sUrl) :=
  shutdown_forgets pi_startsFresh renamedFirst renamedFirst_names

end Runs

end PiAudioNode.Nmos
