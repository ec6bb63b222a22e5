import PiAudioNode.Nmos.Commands

/-! The monitors under a batch of commands: each is reset, or left as it is, and what
has been reset before a command cannot be read stays reset. -/
namespace PiAudioNode.Nmos
open Lib Lib.Json Lib.Act

variable {m : McMonitor} {s : Is12Server} {cmd : Command}

/-- Nothing is there that a reset would clear. -/
structure Blank (m : McMonitor) : Prop where
  counters1 : m.mCounters1 = []
  counters2 : m.bIsReceiver → m.mCounters2 = []
  domains : ∀ nDomain, (m.aDomains nDomain).nTransitions = 0 ∧ (m.aDomains nDomain).sMessage = ""

theorem resetMonitor_eq_self : resetMonitor m = m ↔ Blank m := by
  constructor
  · intro h
    refine ⟨(congrArg McMonitor.mCounters1 h).symm, fun hkind => ?_, fun nDomain => ?_⟩
    · have hcounters := congrArg McMonitor.mCounters2 h
      simpa [resetMonitor, hkind] using hcounters.symm
    · have hdomain := congrFun (congrArg McMonitor.aDomains h) nDomain
      exact ⟨(congrArg McDomain.nTransitions hdomain).symm, (congrArg McDomain.sMessage hdomain).symm⟩
  · intro h
    have hdomains : (resetMonitor m).aDomains = m.aDomains := by
      funext nDomain
      obtain ⟨htransitions, hmessage⟩ := h.domains nDomain
      simp only [resetMonitor]
      rw [← htransitions, ← hmessage]
    have hcounters : (resetMonitor m).mCounters2 = m.mCounters2 := by
      cases hkind : m.bIsReceiver with
      | false => simp [resetMonitor, hkind]
      | true => simp [resetMonitor, hkind, h.counters2 hkind]
    have hparts : resetMonitor m = { m with mCounters1 := (resetMonitor m).mCounters1,
                                            mCounters2 := (resetMonitor m).mCounters2,
                                            aDomains := (resetMonitor m).aDomains } := rfl
    rw [hdomains, hcounters, show (resetMonitor m).mCounters1 = m.mCounters1 from h.counters1.symm] at hparts
    exact hparts

theorem resetMonitor_resetMonitor (m : McMonitor) : resetMonitor (resetMonitor m) = resetMonitor m := by
  cases hkind : m.bIsReceiver <;> simp [resetMonitor, hkind]

/-- The method that resets a monitor. -/
def resetIndex (m : McMonitor) : Int := if m.bIsReceiver then 3 else 2

theorem invokeMethod_monitor (m : McMonitor) (nIndex : Int) :
    (invokeMethod m nIndex).1 = if nIndex = resetIndex m then resetMonitor m else m := by
  by_cases hreset : nIndex = resetIndex m
  · rw [if_pos hreset, hreset]
    cases hkind : m.bIsReceiver <;> simp [invokeMethod, resetIndex, hkind]
  · rw [if_neg hreset, invokeMethod]
    rw [resetIndex] at hreset
    simp only [hreset, if_false]
    split_ifs <;> rfl

/-- The command resets the monitor with this object id. -/
def resetsMonitor (nOid nIndex : Int) (cmd : Command) : Bool :=
  cmd.nLevel = 4 ∧ cmd.nOid = nOid ∧ cmd.nIndex = nIndex

def resetsRx (s : Is12Server) : Command → Bool := resetsMonitor s.rxMonitor.nOid (resetIndex s.rxMonitor)

/-- An object id of both monitors is the receiver's. -/
def resetsTx (s : Is12Server) (cmd : Command) : Bool :=
  cmd.nOid ≠ s.rxMonitor.nOid ∧ resetsMonitor s.txMonitor.nOid (resetIndex s.txMonitor) cmd

/-- A monitor after some commands of which one resets it, or none. -/
def afterReset (bReset : Bool) (m : McMonitor) : McMonitor := if bReset then resetMonitor m else m

@[simp] theorem afterReset_nOid (bReset : Bool) (m : McMonitor) : (afterReset bReset m).nOid = m.nOid := by
  cases bReset <;> rfl

@[simp] theorem resetIndex_afterReset (bReset : Bool) (m : McMonitor) :
    resetIndex (afterReset bReset m) = resetIndex m := by
  cases bReset <;> rfl

theorem afterReset_afterReset (bFirst bSecond : Bool) (m : McMonitor) :
    afterReset bSecond (afterReset bFirst m) = afterReset (bFirst || bSecond) m := by
  cases bFirst with
  | false => rfl
  | true => cases bSecond <;> simp [afterReset, resetMonitor_resetMonitor]

theorem afterReset_eq_self {bReset : Bool} : afterReset bReset m = m ↔ (bReset = true → Blank m) := by
  cases bReset <;> simp [afterReset, resetMonitor_eq_self]

/-- A method of a monitor. -/
theorem invoke_monitor (hlevel : cmd.nLevel = 4) (h : s.findMonitor cmd.nOid = some m) :
    (s.invoke cmd).1 = s.setMonitor (afterReset (cmd.nIndex = resetIndex m) m) := by
  simp [Is12Server.invoke, hlevel, h, invokeMethod_monitor, afterReset]

theorem setMonitor_of_nOid_eq (h : m.nOid = s.rxMonitor.nOid) : s.setMonitor m = { s with rxMonitor := m } := if_pos h

theorem setMonitor_of_nOid_ne (h : m.nOid ≠ s.rxMonitor.nOid) : s.setMonitor m = { s with txMonitor := m } := if_neg h

/-- What a command does to the two monitors, and that it does nothing else. -/
theorem invoke_server (s : Is12Server) (cmd : Command) :
    (s.invoke cmd).1 = { s with rxMonitor := afterReset (resetsRx s cmd) s.rxMonitor,
                                txMonitor := afterReset (resetsTx s cmd) s.txMonitor } := by
  by_cases hlevel : cmd.nLevel = 4
  · by_cases hrx : cmd.nOid = s.rxMonitor.nOid
    · have htx : resetsTx s cmd = false := by simp [resetsTx, hrx]
      have hresets : resetsRx s cmd = decide (cmd.nIndex = resetIndex s.rxMonitor) := by
        simp [resetsRx, resetsMonitor, hlevel, hrx]
      rw [invoke_monitor hlevel (if_pos hrx), setMonitor_of_nOid_eq (afterReset_nOid _ _), hresets, htx]
      rfl
    · have hnot : resetsRx s cmd = false := by simp [resetsRx, resetsMonitor, hrx]
      by_cases htx : cmd.nOid = s.txMonitor.nOid
      · have hne : s.txMonitor.nOid ≠ s.rxMonitor.nOid := fun h => hrx (htx.trans h)
        have hresets : resetsTx s cmd = decide (cmd.nIndex = resetIndex s.txMonitor) := by
          simp [resetsTx, resetsMonitor, hlevel, htx, hne]
        have hfind : s.findMonitor cmd.nOid = some s.txMonitor := (if_neg hrx).trans (if_pos htx)
        rw [invoke_monitor hlevel hfind, setMonitor_of_nOid_ne (by rwa [afterReset_nOid]), hresets, hnot]
        rfl
      · have hneither : resetsTx s cmd = false := by simp [resetsTx, resetsMonitor, htx]
        have hfind : s.findMonitor cmd.nOid = none := (if_neg hrx).trans (if_neg htx)
        simp [Is12Server.invoke, hlevel, hfind, afterReset, hnot, hneither]
  · have hrx : resetsRx s cmd = false := by simp [resetsRx, resetsMonitor, hlevel]
    have htx : resetsTx s cmd = false := by simp [resetsTx, resetsMonitor, hlevel]
    simp only [Is12Server.invoke, hlevel, if_false, hrx, htx]
    split_ifs <;> first | rfl | (split <;> rfl)

/-- Which commands reset which monitor does not change from one command to the next. -/
theorem resets_invoke (s : Is12Server) (first : Command) :
    resetsRx (s.invoke first).1 = resetsRx s ∧ resetsTx (s.invoke first).1 = resetsTx s := by
  rw [invoke_server]
  constructor
  · simp [resetsRx]
  · funext cmd
    simp [resetsTx]

/-- A batch resets a monitor when one of its commands does. -/
theorem executed_eq (s : Is12Server) (cmds : List Command) :
    executed s cmds = { s with rxMonitor := afterReset (cmds.any (resetsRx s)) s.rxMonitor,
                               txMonitor := afterReset (cmds.any (resetsTx s)) s.txMonitor } := by
  induction cmds generalizing s with
  | nil => rfl
  | cons cmd cmds ih =>
    have hrest := ih (s.invoke cmd).1
    obtain ⟨hrx, htx⟩ := resets_invoke s cmd
    rw [hrx, htx, invoke_server] at hrest
    simp only [afterReset_afterReset] at hrest
    rw [executed, List.foldl_cons, ← executed, invoke_server, hrest]
    rfl

/-- The command clears something of a monitor. -/
def Clears (s : Is12Server) (cmd : Command) : Prop :=
  resetsRx s cmd ∧ ¬ Blank s.rxMonitor ∨ resetsTx s cmd ∧ ¬ Blank s.txMonitor

def SameMonitors (s s' : Is12Server) : Prop := s'.rxMonitor = s.rxMonitor ∧ s'.txMonitor = s.txMonitor

theorem sameMonitors_executed (s : Is12Server) (cmds : List Command) :
    SameMonitors s (executed s cmds) ↔ ∀ cmd ∈ cmds, ¬ Clears s cmd := by
  rw [executed_eq, SameMonitors, afterReset_eq_self, afterReset_eq_self]
  simp only [List.any_eq_true, Clears]
  constructor
  · rintro ⟨hrx, htx⟩ cmd hmem (⟨hresets, hrecords⟩ | ⟨hresets, hrecords⟩)
    · exact hrecords (hrx ⟨cmd, hmem, hresets⟩)
    · exact hrecords (htx ⟨cmd, hmem, hresets⟩)
  · intro h
    constructor
    · rintro ⟨cmd, hmem, hresets⟩
      by_contra hrecords
      exact h cmd hmem (Or.inl ⟨hresets, hrecords⟩)
    · rintro ⟨cmd, hmem, hresets⟩
      by_contra hrecords
      exact h cmd hmem (Or.inr ⟨hresets, hrecords⟩)

/-- A reset that clears something is reached. -/
def ReachesClearing (s : Is12Server) : List Json → Prop :=
  Reaches fun jsCommand => ∃ cmd, readCommand jsCommand = .ok cmd ∧ Clears s cmd

/-- The handle of a command has no part in what it clears. -/
theorem exists_ran_clears {items : List Json} :
    (∃ cmd ∈ ran items, Clears s cmd) ↔ ReachesClearing s items := by
  induction items with
  | nil => exact iff_of_false (by simp [ran]) not_reaches_nil
  | cons jsCommand rest ih =>
    rw [ReachesClearing, reaches_cons, ← ReachesClearing, ran, ← ih, Answerable]
    cases hcmd : readCommand jsCommand with
    | error e => simp
    | ok cmd =>
      cases hhandle : readHandle jsCommand with
      | error e => simp
      | ok nHandle =>
        have hsame : Clears s { cmd with nHandle } ↔ Clears s cmd := Iff.rfl
        simp [hsame]

/-- What a command asks for, with its handle. -/
def IsRead (jsCommand : Json) (cmd : Command) : Prop :=
  ∃ read, readCommand jsCommand = .ok read ∧ readHandle jsCommand = .ok cmd.nHandle ∧
    cmd = { read with nHandle := cmd.nHandle }

theorem ran_of_answerable {items : List Json} (h : ∀ js ∈ items, Answerable js) :
    List.Forall₂ IsRead items (ran items) := by
  induction items with
  | nil => exact .nil
  | cons jsCommand rest ih =>
    rw [List.forall_mem_cons] at h
    obtain ⟨⟨cmd, hcmd⟩, nHandle, hhandle⟩ := h.1
    simp only [ran, hcmd, hhandle]
    exact .cons ⟨cmd, hcmd, hhandle, rfl⟩ (ih h.2)

theorem answerable_of_isRead {items : List Json} {cmds : List Command} (h : List.Forall₂ IsRead items cmds) :
    ∀ js ∈ items, Answerable js := by
  induction h with
  | nil => simp
  | cons hread _ ih =>
    obtain ⟨read, hcmd, hhandle, -⟩ := hread
    exact List.forall_mem_cons.mpr ⟨⟨⟨read, hcmd⟩, _, hhandle⟩, ih⟩

/-- One response for each command, in their order. -/
def AnsweredInFull (items : List Json) (pConn : Connection) (s s' : ControlState) : Prop :=
  ∃ cmds, List.Forall₂ IsRead items cmds ∧
    s' = { server := executed s.server cmds, sent := s.sent ++ [(pConn, .commandResponse (answers s.server cmds))] }

/-- An error for all of the message, and both monitors as they were. -/
def Refused (pConn : Connection) (s s' : ControlState) : Prop :=
  (∃ what, s'.sent = s.sent ++ [(pConn, .error what)]) ∧ SameMonitors s.server s'.server

/-- Every command can be read, or none that is reached clears anything, and none reads
a property without saying which. -/
structure Undisturbed (s : Is12Server) (items : List Json) : Prop where
  identified : ¬ ReachesLacking items
  kept : (∀ js ∈ items, Answerable js) ∨ ¬ ReachesClearing s items

/-- A command message ends in full or is refused exactly when nothing is cleared
before a command that cannot be read. -/
theorem answered_or_refused_iff {parse : Bytes → Except Bytes Json} {pData : Bytes} {jsMessage : Json}
    (hparse : parse pData = .ok jsMessage) (hcommand : IsCommand jsMessage) (pConn : Connection) (s : ControlState) :
    ((wsData parse pConn pData s).1 = .ok () ∧
        (AnsweredInFull (commandsOf jsMessage) pConn s (wsData parse pConn pData s).2 ∨
          Refused pConn s (wsData parse pConn pData s).2)) ↔
      Undisturbed s.server (commandsOf jsMessage) := by
  rcases wsData_command pConn s hparse hcommand with ⟨hstop, hrun⟩ | ⟨hlacking, hstop, what, hrun⟩ |
    ⟨hlacking, e, s', hrun⟩
  · have hread := stopsAt_none.mp hstop
    rw [hrun]
    exact iff_of_true ⟨rfl, Or.inl ⟨_, ran_of_answerable hread, rfl⟩⟩
      ⟨not_reachesLacking_of_answerable hread, Or.inl hread⟩
  · have hread : ¬ ∀ js ∈ commandsOf jsMessage, Answerable js := fun h => hstop (stopsAt_none.mpr h)
    have hsame := sameMonitors_executed s.server (ran (commandsOf jsMessage))
    have hclears : (∀ cmd ∈ ran (commandsOf jsMessage), ¬ Clears s.server cmd) ↔
        ¬ ReachesClearing s.server (commandsOf jsMessage) := by
      rw [← exists_ran_clears]
      push Not
      rfl
    rw [hrun]
    constructor
    · rintro ⟨-, ⟨cmds, hcmds, -⟩ | ⟨-, hkept⟩⟩
      · exact absurd (answerable_of_isRead hcmds) hread
      · exact ⟨hlacking, Or.inr (hclears.mp (hsame.mp hkept))⟩
    · intro h
      have hkept := hsame.mpr (hclears.mpr (h.kept.resolve_left hread))
      exact ⟨rfl, Or.inr ⟨⟨what, rfl⟩, hkept⟩⟩
  · rw [hrun]
    refine iff_of_false ?_ fun h => h.identified hlacking
    rintro ⟨hok, -⟩
    cases hok

section Inputs

/-- Packets of a leg have been lost. -/
def lossyState : ControlState := { server := (someServer.server.step (.addReceiverLost "primary" 3)).1 }

def resetCommand : Json :=
  .obj [("handle", .int 7), ("methodId", .obj [("index", .int 3), ("level", .int 4)]), ("oid", .int 10)]

def batchOf (items : List Json) : Json := .obj [("commands", .arr items), ("messageType", .int 0)]

def resetText : Bytes :=
  ascii ("\x7b\"messageType\":0,\"commands\":[\x7b\"oid\":10,\"handle\":7," ++
    "\"methodId\":\x7b\"level\":4,\"index\":3\x7d\x7d]\x7d")

/-- A batch that is only a reset is answered in full. -/
theorem reset_answered :
    (wsData (parsing resetText (.ok (batchOf [resetCommand]))) 0 resetText lossyState).1 = .ok () ∧
      (AnsweredInFull (commandsOf (batchOf [resetCommand])) 0 lossyState
          (wsData (parsing resetText (.ok (batchOf [resetCommand]))) 0 resetText lossyState).2 ∨
        Refused 0 lossyState (wsData (parsing resetText (.ok (batchOf [resetCommand]))) 0 resetText lossyState).2) := by
  have hread : Answerable resetCommand := ⟨⟨_, rfl⟩, _, rfl⟩
  have hall : ∀ js ∈ commandsOf (batchOf [resetCommand]), Answerable js := by
    intro js hjs
    obtain rfl := List.mem_singleton.mp hjs
    exact hread
  have hcommand : IsCommand (batchOf [resetCommand]) := rfl
  exact (answered_or_refused_iff (if_pos rfl) hcommand 0 lossyState).mpr
    ⟨not_reachesLacking_of_answerable hall, Or.inl hall⟩

def resetThenNumberText : Bytes :=
  ascii ("\x7b\"messageType\":0,\"commands\":[\x7b\"oid\":10,\"handle\":7," ++
    "\"methodId\":\x7b\"level\":4,\"index\":3\x7d\x7d,5]\x7d")

/-- The reset is executed, the number after it is no command, and the error that is
sent says nothing of the reset. -/
theorem resetThenNumber_disturbed :
    IsCommand (batchOf [resetCommand, .int 5]) ∧
      (wsData (parsing resetThenNumberText (.ok (batchOf [resetCommand, .int 5]))) 0 resetThenNumberText
        lossyState).1 = .ok () ∧
      ¬ (AnsweredInFull (commandsOf (batchOf [resetCommand, .int 5])) 0 lossyState
            (wsData (parsing resetThenNumberText (.ok (batchOf [resetCommand, .int 5]))) 0 resetThenNumberText
              lossyState).2 ∨
          Refused 0 lossyState
            (wsData (parsing resetThenNumberText (.ok (batchOf [resetCommand, .int 5]))) 0 resetThenNumberText
              lossyState).2) := by
  have hparse : parsing resetThenNumberText (.ok (batchOf [resetCommand, .int 5])) resetThenNumberText =
      .ok (batchOf [resetCommand, .int 5]) := if_pos rfl
  simp only [wsData, hparse]
  refine ⟨rfl, rfl, ?_⟩
  rintro (⟨cmds, hcmds, -⟩ | ⟨-, hrx, -⟩)
  · obtain ⟨⟨cmd, hcmd⟩, -⟩ :=
      answerable_of_isRead hcmds (.int 5) (by simp [commandsOf, batchOf, member, findKey, items])
    cases hcmd
  · have hcounters := congrArg (·.mCounters1.length) hrx
    revert hcounters
    decide

end Inputs

end PiAudioNode.Nmos
