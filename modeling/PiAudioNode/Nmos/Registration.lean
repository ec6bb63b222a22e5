import PiAudioNode.Lib.Run

/-! The registration thread against changes made by the others. A pass posts the
six resources one by one, each as built at that moment, and only then reads the
version back. Resources are compared without their version stamp. -/
namespace PiAudioNode.Nmos
open Lib
variable {α : Type*}

inductive Resource where
  | node
  | device
  | source
  | flow
  | sender
  | receiver
  deriving DecidableEq

/-- The order of the posts. -/
def Resource.after : Resource → Option Resource
  | .node => some .device
  | .device => some .source
  | .source => some .flow
  | .flow => some .sender
  | .sender => some .receiver
  | .receiver => none

def Resource.place : Resource → Nat
  | .node => 0
  | .device => 1
  | .source => 2
  | .flow => 3
  | .sender => 4
  | .receiver => 5

abbrev Url := String

/-- Why `RegisterAll` runs: on the first registry that takes everything, because
the version moved on, or because the registry lost the node. -/
inductive Pass where
  | initial (vRest : List Url)
  | update
  | lost

/-- The pass ends by reading the version back. -/
def Pass.ReadsBack : Pass → Prop
  | .initial _ | .update => True
  | .lost => False

inductive RegistrationPc (α : Type*) where
  | top
  | tryNext (vRegistries : List Url)
  | build (pass : Pass) (sUrl : Url) (res : Resource)
  | post (pass : Pass) (sUrl : Url) (res : Resource) (js : α)
  | adopt (sUrl : Url)
  | readBack
  | store (nVersion : Nat)
  | heartbeat
  | sleep

/-- The node, its registration thread and the registries, which keep what was
posted last. `since` lists what each resource has been since the last bump. -/
structure Registration (α : Type*) where
  value : Resource → α
  since : Resource → List α
  nVersion : Nat := 0
  nRegisteredVersion : Nat := 0
  sRegistry : Url := ""
  bRegistered : Bool := false
  nSinceDiscovery : Nat := 999
  vRegistries : List Url := []
  stored : Url → Resource → Option α := fun _ _ => none
  pc : RegistrationPc α := .top

/-- What the thread is told from outside at a step: the configured registry, the
registries discovered, the status of a request and whether a registry kept what
it did not acknowledge. -/
structure Answer where
  sOverride : Url := ""
  vDiscovered : List Url := []
  nStatus : Nat := 0
  bKept : Bool := false

def accepted (nStatus : Nat) : Prop := nStatus = 200 ∨ nStatus = 201

instance (nStatus : Nat) : Decidable (accepted nStatus) := inferInstanceAs (Decidable (_ ∨ _))

def put (stored : Url → Resource → Option α) (sUrl : Url) (res : Resource) (js : α) : Url → Resource → Option α :=
  Function.update stored sUrl (Function.update (stored sUrl) res (some js))

/-- `RegisterAll` returned true. -/
def passed (s : Registration α) (sUrl : Url) : Pass → Registration α
  | .initial _ => { s with pc := .adopt sUrl }
  | .update => { s with pc := .readBack }
  | .lost => { s with bRegistered := true, pc := .sleep }

/-- `RegisterAll` returned false. -/
def failed (s : Registration α) : Pass → Registration α
  | .initial vRest => { s with pc := .tryNext vRest }
  | .update => { s with pc := .sleep }
  | .lost => { s with bRegistered := false, pc := .sleep }

def registrationStep (s : Registration α) (a : Answer) : Registration α :=
  match s.pc with
  | .top =>
    if s.bRegistered then { s with pc := .heartbeat }
    else if a.sOverride ≠ "" then { s with vRegistries := [a.sOverride], pc := .tryNext [a.sOverride] }
    else if 5 ≤ s.nSinceDiscovery + 1 then
      { s with vRegistries := a.vDiscovered, nSinceDiscovery := 0, pc := .tryNext a.vDiscovered }
    else { s with nSinceDiscovery := s.nSinceDiscovery + 1, pc := .tryNext s.vRegistries }
  | .tryNext [] => { s with sRegistry := "", pc := .sleep }
  | .tryNext (sUrl :: vRest) => { s with pc := .build (.initial vRest) sUrl .node }
  | .build pass sUrl res => { s with pc := .post pass sUrl res (s.value res) }
  | .post pass sUrl res js =>
    if accepted a.nStatus then
      let s := { s with stored := put s.stored sUrl res js }
      match res.after with
      | some next => { s with pc := .build pass sUrl next }
      | none => passed s sUrl pass
    else failed { s with stored := if a.bKept then put s.stored sUrl res js else s.stored } pass
  | .adopt sUrl => { s with sRegistry := sUrl, bRegistered := true, pc := .readBack }
  | .readBack => { s with pc := .store s.nVersion }
  | .store nVersion => { s with nRegisteredVersion := nVersion, pc := .sleep }
  | .heartbeat =>
    if a.nStatus = 404 then { s with pc := .build .lost s.sRegistry .node }
    else if a.nStatus < 200 ∨ 300 ≤ a.nStatus then
      { s with bRegistered := false, nSinceDiscovery := 999, pc := .sleep }
    else if s.nVersion ≠ s.nRegisteredVersion then { s with pc := .build .update s.sRegistry .node }
    else { s with pc := .sleep }
  | .sleep => { s with pc := .top }

/-- Another thread changes resources, another thread bumps the version after its
change, or the registration thread takes its next step. -/
inductive RegistrationEvent (α : Type*) where
  | change (value : Resource → α)
  | bump
  | thread (a : Answer)

def bump (s : Registration α) : Registration α :=
  { s with nVersion := s.nVersion + 1, since := fun res => [s.value res] }

def Registration.step (s : Registration α) : RegistrationEvent α → Registration α
  | .change value => { s with value := value, since := fun res => s.since res ++ [value res] }
  | .bump => bump s
  | .thread a => registrationStep s a

/-- The thread has just been started and every change has been followed by its
bump. Versions and registries may be left from an earlier thread. -/
structure Registration.Started (s : Registration α) : Prop where
  top : s.pc = .top
  unregistered : s.bRegistered = false
  bumped : ∀ res, s.since res = [s.value res]
  behind : s.nRegisteredVersion ≤ s.nVersion

/-- A registry holds a resource as it has been since the last bump. -/
def Fresh (s : Registration α) (sUrl : Url) (res : Resource) : Prop := ∃ js ∈ s.since res, s.stored sUrl res = some js

/-- Registered and at the present version, the registry has every resource as it
was after the change of that number, or after a change still to be bumped. -/
def UpToDate (s : Registration α) : Prop :=
  s.bRegistered = true → s.nRegisteredVersion = s.nVersion → ∀ res, Fresh s s.sRegistry res

/-- The copies of the resources that a pass which will read the version back has
built so far. -/
def Copied (s : Registration α) (res : Resource) (js : α) : Prop :=
  match s.pc with
  | .build pass sUrl next => pass.ReadsBack ∧ res.place < next.place ∧ s.stored sUrl res = some js
  | .post pass sUrl next jsNext =>
    pass.ReadsBack ∧ (res.place < next.place ∧ s.stored sUrl res = some js ∨ res = next ∧ js = jsNext)
  | .adopt sUrl => s.stored sUrl res = some js
  | .readBack => s.stored s.sRegistry res = some js
  | _ => False

/-- A bump in the middle of a pass finds what the pass has built unchanged. -/
def BumpInTime (s : Registration α) : Prop := ∀ res js, Copied s res js → js = s.value res

/-- What a pass relies on while it runs. -/
def Passing (s : Registration α) (sUrl : Url) : Pass → Prop
  | .initial _ => s.bRegistered = false
  | .update => sUrl = s.sRegistry ∧ s.nRegisteredVersion < s.nVersion
  | .lost => sUrl = s.sRegistry ∧ s.bRegistered = true

/-- The version a pass registers for is still the present one. -/
def Timely (s : Registration α) : Pass → Prop
  | .initial _ | .update => True
  | .lost => s.nRegisteredVersion = s.nVersion

def Posted (s : Registration α) (pass : Pass) (sUrl : Url) (next : Resource) : Prop :=
  Timely s pass → ∀ res : Resource, res.place < next.place → Fresh s sUrl res

def PcSound (s : Registration α) : Prop :=
  match s.pc with
  | .top | .sleep => True
  | .tryNext _ => s.bRegistered = false
  | .build pass sUrl next => Passing s sUrl pass ∧ Posted s pass sUrl next
  | .post pass sUrl next js => Passing s sUrl pass ∧ Posted s pass sUrl next ∧ (Timely s pass → js ∈ s.since next)
  | .adopt sUrl => ∀ res, Fresh s sUrl res
  | .readBack => ∀ res, Fresh s s.sRegistry res
  | .store nVersion => nVersion ≤ s.nVersion ∧ (nVersion = s.nVersion → ∀ res, Fresh s s.sRegistry res)
  | .heartbeat => s.bRegistered = true

structure Sound (s : Registration α) : Prop where
  current : ∀ res, s.value res ∈ s.since res
  behind : s.nRegisteredVersion ≤ s.nVersion
  kept : UpToDate s
  pc : PcSound s

variable {s : Registration α} {sUrl : Url} {pass : Pass} {next : Resource} {js : α}

/-- A resource posted is stored, the others stay as they were. -/
theorem put_fresh (hjs : js ∈ s.since next) {res : Resource} (hres : res = next ∨ Fresh s sUrl res)
    (pc : RegistrationPc α) : Fresh { s with stored := put s.stored sUrl next js, pc := pc } sUrl res := by
  by_cases he : res = next
  · subst he
    exact ⟨js, hjs, by simp [put]⟩
  · obtain ⟨old, hold, hstored⟩ := hres.resolve_left he
    exact ⟨old, hold, by simpa [put, he] using hstored⟩

theorem place_after {res next : Resource} (h : res.after = some next) {r : Resource} (hr : r.place < next.place) :
    r = res ∨ r.place < res.place := by
  cases res <;> cases h <;> revert hr <;> cases r <;> simp [Resource.place]

theorem place_last {res : Resource} (h : res.after = none) (r : Resource) : r = res ∨ r.place < res.place := by
  cases res <;> cases h
  cases r <;> simp [Resource.place]

/-- A pass on the registry in use keeps it up to date, post by post. -/
theorem put_upToDate (hkept : UpToDate s) (hpass : Passing s sUrl pass) (hjs : Timely s pass → js ∈ s.since next)
    (pc : RegistrationPc α) : UpToDate { s with stored := put s.stored sUrl next js, pc := pc } := by
  intro hreg hver res
  cases pass with
  | initial vRest =>
    rw [Passing] at hpass
    rw [hpass] at hreg
    cases hreg
  | update => exact absurd hver hpass.2.ne
  | lost =>
    obtain ⟨rfl, _⟩ := hpass
    exact put_fresh (hjs hver) (Or.inr (hkept hreg hver res)) pc

theorem Sound.accepted (h : Sound s) (hpass : Passing s sUrl pass) (hposted : Posted s pass sUrl next)
    (hjs : Timely s pass → js ∈ s.since next) :
    Sound (match next.after with
      | some res => { s with stored := put s.stored sUrl next js, pc := .build pass sUrl res }
      | none => passed { s with stored := put s.stored sUrl next js } sUrl pass) := by
  cases hafter : next.after with
  | some res =>
    refine ⟨h.current, h.behind, put_upToDate h.kept hpass hjs _, ?_, fun ht r hr => ?_⟩
    · cases pass <;> exact hpass
    · have ht' : Timely s pass := by cases pass <;> exact ht
      refine put_fresh (hjs ht') ?_ _
      rcases place_after hafter hr with rfl | hr
      · exact Or.inl rfl
      · exact Or.inr (hposted ht' r hr)
  | none =>
    have hall (ht : Timely s pass) (pc : RegistrationPc α) (r : Resource) :
        Fresh { s with stored := put s.stored sUrl next js, pc := pc } sUrl r := by
      refine put_fresh (hjs ht) ?_ pc
      rcases place_last hafter r with rfl | hr
      · exact Or.inl rfl
      · exact Or.inr (hposted ht r hr)
    have hkept := put_upToDate h.kept hpass hjs
    cases pass with
    | initial vRest => exact ⟨h.current, h.behind, hkept _, hall trivial _⟩
    | update =>
      obtain ⟨rfl, _⟩ := hpass
      exact ⟨h.current, h.behind, hkept _, hall trivial _⟩
    | lost =>
      refine ⟨h.current, h.behind, fun _ hver r => ?_, trivial⟩
      obtain ⟨rfl, _⟩ := hpass
      exact hall hver .sleep r

/-- A refused post ends the pass, whether or not the registry kept it. -/
theorem Sound.failed (h : Sound s) (hpass : Passing s sUrl pass) (hjs : Timely s pass → js ∈ s.since next)
    (bKept : Bool) :
    Sound (failed { s with stored := if bKept then put s.stored sUrl next js else s.stored } pass) := by
  have hkept (pc : RegistrationPc α) :
      UpToDate { s with stored := if bKept then put s.stored sUrl next js else s.stored, pc := pc } := by
    cases bKept with
    | false => exact h.kept
    | true => exact put_upToDate h.kept hpass hjs pc
  cases pass with
  | initial vRest => exact ⟨h.current, h.behind, hkept _, hpass⟩
  | update => exact ⟨h.current, h.behind, hkept _, trivial⟩
  | lost => exact ⟨h.current, h.behind, fun hreg => Bool.noConfusion hreg, trivial⟩

theorem Sound.thread (h : Sound s) (a : Answer) : Sound (registrationStep s a) := by
  have hpc := h.pc
  cases hat : s.pc with
  | top =>
    simp only [registrationStep, hat]
    by_cases hreg : s.bRegistered = true
    · rw [if_pos hreg]
      exact ⟨h.current, h.behind, h.kept, hreg⟩
    · rw [if_neg hreg]
      have hun : s.bRegistered = false := by simpa using hreg
      split
      · exact ⟨h.current, h.behind, h.kept, hun⟩
      · split
        · exact ⟨h.current, h.behind, h.kept, hun⟩
        · exact ⟨h.current, h.behind, h.kept, hun⟩
  | tryNext vRegistries =>
    rw [PcSound, hat] at hpc
    cases vRegistries with
    | nil =>
      simp only [registrationStep, hat]
      refine ⟨h.current, h.behind, fun hreg => ?_, trivial⟩
      rw [hpc] at hreg
      cases hreg
    | cons sUrl vRest =>
      simp only [registrationStep, hat]
      exact ⟨h.current, h.behind, h.kept, hpc, fun _ r hr => absurd hr (Nat.not_lt_zero _)⟩
  | build pass sUrl next =>
    rw [PcSound, hat] at hpc
    simp only [registrationStep, hat]
    refine ⟨h.current, h.behind, h.kept, ?_, ?_, fun _ => h.current next⟩
    · cases pass <;> exact hpc.1
    · cases pass <;> exact hpc.2
  | post pass sUrl next js =>
    rw [PcSound, hat] at hpc
    obtain ⟨hpass, hposted, hjs⟩ := hpc
    simp only [registrationStep, hat]
    split
    · have := h.accepted hpass hposted hjs
      cases hafter : next.after <;> simpa only [hafter, hat] using this
    · exact h.failed hpass hjs a.bKept
  | adopt sUrl =>
    rw [PcSound, hat] at hpc
    simp only [registrationStep, hat]
    exact ⟨h.current, h.behind, fun _ _ => hpc, hpc⟩
  | readBack =>
    rw [PcSound, hat] at hpc
    simp only [registrationStep, hat]
    exact ⟨h.current, h.behind, h.kept, le_rfl, fun _ => hpc⟩
  | store nVersion =>
    rw [PcSound, hat] at hpc
    simp only [registrationStep, hat]
    exact ⟨h.current, hpc.1, fun _ => hpc.2, trivial⟩
  | heartbeat =>
    rw [PcSound, hat] at hpc
    simp only [registrationStep, hat]
    split
    · exact ⟨h.current, h.behind, h.kept, ⟨rfl, hpc⟩, fun _ r hr => absurd hr (Nat.not_lt_zero _)⟩
    · split
      · exact ⟨h.current, h.behind, fun hreg => Bool.noConfusion hreg, trivial⟩
      · split
        · have hlt := Nat.lt_of_le_of_ne h.behind (Ne.symm ‹_›)
          exact ⟨h.current, h.behind, h.kept, ⟨rfl, hlt⟩, fun _ r hr => absurd hr (Nat.not_lt_zero _)⟩
        · exact ⟨h.current, h.behind, h.kept, trivial⟩
  | sleep =>
    simp only [registrationStep, hat]
    exact ⟨h.current, h.behind, h.kept, trivial⟩

theorem Fresh.change {value : Resource → α} {res : Resource} (h : Fresh s sUrl res) :
    Fresh { s with value := value, since := fun res => s.since res ++ [value res] } sUrl res := by
  obtain ⟨js, hjs, hstored⟩ := h
  exact ⟨js, List.mem_append_left _ hjs, hstored⟩

theorem Sound.change (h : Sound s) (value : Resource → α) : Sound (s.step (.change value)) := by
  refine ⟨fun res => by simp [Registration.step], h.behind, fun hreg hver res => (h.kept hreg hver res).change, ?_⟩
  have hpc := h.pc
  simp only [PcSound, Registration.step] at hpc ⊢
  cases hat : s.pc with
  | top => trivial
  | sleep => trivial
  | tryNext vRegistries => simpa only [hat] using hpc
  | heartbeat => simpa only [hat] using hpc
  | build pass sUrl next =>
    simp only [hat] at hpc
    refine ⟨?_, fun ht r hr => ?_⟩
    · cases pass <;> exact hpc.1
    · exact (hpc.2 (by cases pass <;> exact ht) r hr).change
  | post pass sUrl next js =>
    simp only [hat] at hpc
    refine ⟨?_, fun ht r hr => ?_, fun ht => List.mem_append_left _ (hpc.2.2 ?_)⟩
    · cases pass <;> exact hpc.1
    · exact (hpc.2.1 (by cases pass <;> exact ht) r hr).change
    · cases pass <;> exact ht
  | adopt sUrl =>
    simp only [hat] at hpc
    exact fun r => (hpc r).change
  | readBack =>
    simp only [hat] at hpc
    exact fun r => (hpc r).change
  | store nVersion =>
    simp only [hat] at hpc
    exact ⟨hpc.1, fun he r => (hpc.2 he r).change⟩

theorem Passing.bump (h : Passing s sUrl pass) (hbehind : s.nRegisteredVersion ≤ s.nVersion) :
    Passing (bump s) sUrl pass := by
  cases pass with
  | initial vRest => exact h
  | update => exact ⟨h.1, Nat.lt_succ_of_le hbehind⟩
  | lost => exact h

/-- After a bump only a pass that reads the version back can still be in time. -/
theorem readsBack_of_timely (hbehind : s.nRegisteredVersion ≤ s.nVersion) (h : Timely (bump s) pass) :
    pass.ReadsBack ∧ Timely s pass := by
  cases pass with
  | initial vRest => exact ⟨trivial, trivial⟩
  | update => exact ⟨trivial, trivial⟩
  | lost => exact absurd h (Nat.lt_succ_of_le hbehind).ne

/-- A bump finds every copy of the pass at its present value, or the pass will not
count for the new version. -/
theorem Sound.bump (h : Sound s) (htime : BumpInTime s) : Sound (bump s) := by
  have hlt := Nat.lt_succ_of_le h.behind
  refine ⟨fun res => by simp [Nmos.bump], hlt.le, fun _ he => absurd he hlt.ne, ?_⟩
  have hfresh {sUrl : Url} {r : Resource} (hr : Fresh s sUrl r)
      (hcopy : ∀ js, s.stored sUrl r = some js → Copied s r js) : Fresh (Nmos.bump s) sUrl r := by
    obtain ⟨js, _, hstored⟩ := hr
    exact ⟨js, List.mem_singleton.mpr (htime r js (hcopy js hstored)), hstored⟩
  have hpc := h.pc
  have hsame : (Nmos.bump s).pc = s.pc := rfl
  simp only [PcSound, hsame] at hpc ⊢
  cases hat : s.pc with
  | top => trivial
  | sleep => trivial
  | tryNext vRegistries =>
    simp only [hat] at hpc
    exact hpc
  | heartbeat =>
    simp only [hat] at hpc
    exact hpc
  | build pass sUrl next =>
    simp only [hat] at hpc
    refine ⟨hpc.1.bump h.behind, fun ht r hr => ?_⟩
    obtain ⟨hback, hbefore⟩ := readsBack_of_timely h.behind ht
    refine hfresh (hpc.2 hbefore r hr) fun js hstored => ?_
    rw [Copied, hat]
    exact ⟨hback, hr, hstored⟩
  | post pass sUrl next js =>
    simp only [hat] at hpc
    refine ⟨hpc.1.bump h.behind, fun ht r hr => ?_, fun ht => ?_⟩
    · obtain ⟨hback, hbefore⟩ := readsBack_of_timely h.behind ht
      refine hfresh (hpc.2.1 hbefore r hr) fun js hstored => ?_
      rw [Copied, hat]
      exact ⟨hback, Or.inl ⟨hr, hstored⟩⟩
    · obtain ⟨hback, _⟩ := readsBack_of_timely h.behind ht
      refine List.mem_singleton.mpr (htime next js ?_)
      rw [Copied, hat]
      exact ⟨hback, Or.inr ⟨rfl, rfl⟩⟩
  | adopt sUrl =>
    simp only [hat] at hpc
    refine fun r => hfresh (hpc r) fun js hstored => ?_
    rw [Copied, hat]
    exact hstored
  | readBack =>
    simp only [hat] at hpc
    refine fun r => hfresh (hpc r) fun js hstored => ?_
    rw [Copied, hat]
    exact hstored
  | store nVersion =>
    simp only [hat] at hpc
    exact ⟨hpc.1.trans (Nat.le_succ _), fun he => absurd he (Nat.lt_succ_of_le hpc.1).ne⟩

theorem Registration.Started.sound (h : s.Started) : Sound s := by
  refine ⟨fun res => by simp [h.bumped res], h.behind, fun hreg => ?_, ?_⟩
  · rw [h.unregistered] at hreg
    cases hreg
  · rw [PcSound, h.top]
    trivial

/-- Every bump of the run finds what a pass under way has built unchanged. -/
def BumpsInTime (s : Registration α) : List (RegistrationEvent α) → Prop :=
  Admits fun pre e => match e with
    | .bump => BumpInTime (run Registration.step s pre)
    | .change _ | .thread _ => True

/-- No update is lost in a run whose bumps come in time, whatever the order of
changes, bumps and steps of the thread. -/
theorem upToDate_of_bumpsInTime (hstart : s.Started) (es : List (RegistrationEvent α)) (htime : BumpsInTime s es) :
    UpToDate (run Registration.step s es) := by
  have hsound : Sound (run Registration.step s es) := by
    refine history_invariant (I := fun _ s => Sound s) hstart.sound (fun pre e hok h => ?_) es htime
    cases e with
    | change value => exact h.change value
    | bump => exact h.bump hok
    | thread a => exact h.thread a
  exact hsound.kept

theorem BumpsInTime.threads {es : List (RegistrationEvent α)} (h : BumpsInTime s es) (answers : List Answer) :
    BumpsInTime s (es ++ answers.map .thread) := by
  induction answers generalizing es with
  | nil => simpa using h
  | cons a answers ih =>
    have := ih (Admits.snoc h (e := .thread a) trivial)
    rwa [List.append_assoc] at this

/-- A node named "pi" and a registry that takes every post. -/
def pi : Registration String := { value := fun _ => "pi", since := fun _ => ["pi"] }

def taken : Answer := { sOverride := "http://registry", nStatus := 201 }

def renamed : RegistrationEvent String := .change (Function.update (fun _ => "pi") .device "studio")

theorem pi_started : pi.Started := ⟨rfl, rfl, fun _ => rfl, le_rfl⟩

/-- Renamed and bumped before the first post. -/
def renamedFirst : List (RegistrationEvent String) := [renamed, .bump] ++ (List.replicate 17 taken).map .thread

theorem renamedFirst_bumpsInTime : BumpsInTime pi renamedFirst := by
  refine BumpsInTime.threads (Admits.snoc (Admits.snoc admits_nil ?_) ?_) _
  · trivial
  · exact fun res js hcopied => absurd hcopied id

theorem renamedFirst_stored : ∃ js ∈ ["studio"],
    (run Registration.step pi renamedFirst).stored "http://registry" .device = some js := by
  have hreg : (run Registration.step pi renamedFirst).bRegistered = true := by decide +kernel
  have hver : (run Registration.step pi renamedFirst).nRegisteredVersion =
      (run Registration.step pi renamedFirst).nVersion := by decide +kernel
  have hurl : (run Registration.step pi renamedFirst).sRegistry = "http://registry" := by decide +kernel
  have hsince : (run Registration.step pi renamedFirst).since .device = ["studio"] := by decide +kernel
  have := upToDate_of_bumpsInTime pi_started renamedFirst renamedFirst_bumpsInTime hreg hver .device
  rwa [Fresh, hurl, hsince] at this

/-- Renamed and bumped after the device was posted. -/
def renamedLate : List (RegistrationEvent String) :=
  (List.replicate 6 taken).map .thread ++ [renamed, .bump] ++ (List.replicate 11 taken).map .thread

theorem renamedLate_lost : (run Registration.step pi renamedLate).stored "http://registry" .device = some "pi" ∧
    (run Registration.step pi renamedLate).value .device = "studio" ∧
    ¬ UpToDate (run Registration.step pi renamedLate) := by
  have hend : (run Registration.step pi renamedLate).bRegistered = true ∧
      (run Registration.step pi renamedLate).nRegisteredVersion = (run Registration.step pi renamedLate).nVersion ∧
      (run Registration.step pi renamedLate).sRegistry = "http://registry" ∧
      (run Registration.step pi renamedLate).stored "http://registry" .device = some "pi" ∧
      (run Registration.step pi renamedLate).value .device = "studio" ∧
      (run Registration.step pi renamedLate).since .device = ["studio"] := by
    decide +kernel
  obtain ⟨hreg, hver, hurl, hstored, hvalue, hsince⟩ := hend
  refine ⟨hstored, hvalue, fun h => ?_⟩
  obtain ⟨js, hjs, hheld⟩ := h hreg hver .device
  rw [hurl, hstored, Option.some.injEq] at hheld
  rw [hsince, ← hheld] at hjs
  exact absurd hjs (by decide)

end PiAudioNode.Nmos
