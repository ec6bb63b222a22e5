import PiAudioNode.Lib.Access
import PiAudioNode.Lib.Throwing
import PiAudioNode.Lib.Word
import PiAudioNode.Nmos.Is12

/-! The text frames of the control websocket: a frame is parsed, its commands are
executed one after the other, and one reply is sent, or an error in its place. -/
namespace PiAudioNode.Nmos
open Lib Lib.Json Lib.Act

/-- The decoder that every text to be sent goes through: how many octets of a
character are still to come, and the range of the next one. -/
inductive Utf8State where
  | accept
  | more (n : Nat) (nLow nHigh : Byte)
  | reject
  deriving DecidableEq

def utf8Step : Utf8State → Byte → Utf8State
  | .accept, b =>
    if b ≤ 0x7F then .accept
    else if 0xC2 ≤ b ∧ b ≤ 0xDF then .more 0 0x80 0xBF
    else if b = 0xE0 then .more 1 0xA0 0xBF
    else if b = 0xED then .more 1 0x80 0x9F
    else if 0xE1 ≤ b ∧ b ≤ 0xEF then .more 1 0x80 0xBF
    else if b = 0xF0 then .more 2 0x90 0xBF
    else if 0xF1 ≤ b ∧ b ≤ 0xF3 then .more 2 0x80 0xBF
    else if b = 0xF4 then .more 2 0x80 0x8F
    else .reject
  | .more n nLow nHigh, b =>
    if nLow ≤ b ∧ b ≤ nHigh then (if n = 0 then .accept else .more (n - 1) 0x80 0xBF) else .reject
  | .reject, _ => .reject

/-- The text of an exception: of this program and its library, or of the parser, which
quotes the octets it read last as they are. -/
inductive What where
  | text (s : String)
  | quoted (octets : Bytes)

/-- Whether a text can be written out as JSON. -/
def What.Printable : What → Prop
  | .text _ => True
  | .quoted octets => octets.foldl utf8Step .accept = .accept

instance (what : What) : Decidable what.Printable := by
  cases what
  · exact isTrue trivial
  · exact inferInstanceAs (Decidable (_ = _))

theorem printable_text (s : String) : (What.text s).Printable := trivial

/-- What ends the handling of a frame early: an exception, or an access the library
leaves undefined. -/
inductive Fault where
  | exception (what : What)
  | outside (sKey : String)

inductive Reply where
  | subscriptionResponse (vOids : List Int)
  | commandResponse (responses : List (Int × McResult))
  | error (what : What)

structure ControlState where
  server : Is12Server
  sent : List (Connection × Reply) := []

abbrev ControlAct := Act Fault ControlState

/-- A read with one of the accessors that throw. -/
def checked {α : Type} (x : Except JsonError α) : Except Fault α := x.mapError fun e => .exception (.text e.sWhat)

/-- The subscript of a constant value: without the key its result is undefined. -/
def constAt (js : Json) (sKey : String) : Except Fault Json :=
  match js with
  | .obj fields => match findKey sKey fields with
    | some v => .ok v
    | none => .error (.outside sKey)
  | js => .error (.exception (.text ("cannot use operator[] with a string argument with " ++ js.typeName)))

/-- One field of the method id, where there is one. -/
def methodField (jsCommand : Json) (sKey : String) : Except JsonError Int :=
  match jsCommand.member "methodId" with
  | some js => js.value getInt sKey (-1)
  | none => .ok (-1)

/-- What a command asks for. Its handle is read once it has been executed. -/
def readCommand (jsCommand : Json) : Except Fault Command := do
  let nOid ← checked (jsCommand.value getInt "oid" (-1))
  let nLevel ← checked (methodField jsCommand "level")
  let nIndex ← checked (methodField jsCommand "index")
  let jsArgs ← checked (jsCommand.value .ok "arguments" (.obj []))
  if nLevel = 1 ∧ nIndex = 1 then
    let jsId ← constAt jsArgs "id"
    let nArgLevel ← checked (jsId.value getInt "level" (-1))
    let nArgIndex ← checked (jsId.value getInt "index" (-1))
    return { nHandle := 0, nOid, nLevel, nIndex, nArgLevel, nArgIndex }
  else return { nHandle := 0, nOid, nLevel, nIndex }

def readHandle (jsCommand : Json) : Except Fault Int := checked (jsCommand.value getInt "handle" 0)

def execute (cmd : Command) (s : ControlState) : Except Fault McResult × ControlState :=
  (.ok (s.server.invoke cmd).2, { s with server := (s.server.invoke cmd).1 })

def runCommand (jsCommand : Json) : ControlAct (Int × McResult) := do
  let cmd ← attempt (readCommand jsCommand)
  let result ← ofUpdate (execute cmd)
  let nHandle ← attempt (readHandle jsCommand)
  return (nHandle, result)

def runCommands : List Json → ControlAct (List (Int × McResult))
  | [] => pure []
  | jsCommand :: rest => do
    let response ← runCommand jsCommand
    let responses ← runCommands rest
    return response :: responses

/-- A message that cannot be written out is not sent. -/
def sendTo (pConn : Connection) (reply : Reply) : ControlAct Unit :=
  modify fun s => { s with sent := s.sent ++ [(pConn, reply)] }

def sendError (pConn : Connection) (what : What) : ControlAct Unit :=
  if what.Printable then sendTo pConn (.error what) else throw (.exception (.text "invalid UTF-8 byte"))

/-- The oids of a subscription: numbers that name an object. -/
def acceptedOids (s : Is12Server) (jsOids : Json) : List Int :=
  jsOids.items.filterMap fun item =>
    if item.2.isNumber then
      item.2.getInt.toOption.filter fun nOid => nOid = 1 ∨ (s.findMonitor nOid).isSome
    else none

def messageCommand : Int := 0
def messageSubscription : Int := 3

def handleMessage (pConn : Connection) (jsMessage : Json) : ControlAct Unit := do
  let nType ← attempt (checked (jsMessage.value getInt "messageType" (-1)))
  if nType = messageSubscription then
    let jsOids ← attempt (checked (jsMessage.value .ok "subscriptions" (.arr [])))
    let vOids := acceptedOids (← get).server jsOids
    modify fun s => { s with server := s.server.subscribe pConn vOids }
    sendTo pConn (.subscriptionResponse vOids)
  else if nType ≠ messageCommand then
    sendTo pConn (.error (.text "unsupported messageType"))
  else
    let jsCommands ← attempt (checked (jsMessage.value .ok "commands" (.arr [])))
    let responses ← runCommands (jsCommands.items.map Prod.snd)
    sendTo pConn (.commandResponse responses)

/-- One text frame. An exception is answered by an error; an exception from that
answer, like an undefined access, is not caught by anyone. -/
def wsData (parse : Bytes → Except Bytes Json) (pConn : Connection) (pData : Bytes) (s : ControlState) :
    Except Fault Unit × ControlState :=
  match parse pData with
  | .error octets => (sendError pConn (.quoted octets)).exec s
  | .ok jsMessage =>
    match (handleMessage pConn jsMessage).exec s with
    | (.error (.exception what), s) => (sendError pConn what).exec s
    | x => x

/-- The commands of a batch that are executed, up to the first one that cannot be
read or whose handle cannot. -/
def ran : List Json → List Command
  | [] => []
  | jsCommand :: rest =>
    match readCommand jsCommand, readHandle jsCommand with
    | .ok cmd, .ok nHandle => { cmd with nHandle } :: ran rest
    | .ok cmd, .error _ => [cmd]
    | .error _, _ => []

/-- What stops a batch. -/
def stopsAt : List Json → Option Fault
  | [] => none
  | jsCommand :: rest =>
    match readCommand jsCommand, readHandle jsCommand with
    | .ok _, .ok _ => stopsAt rest
    | .ok _, .error e => some e
    | .error e, _ => some e

/-- The server after some commands, one after the other. -/
def executed (s : Is12Server) (cmds : List Command) : Is12Server := cmds.foldl (fun s cmd => (s.invoke cmd).1) s

/-- The handle of each command with its result in the state it is executed in. -/
def answers (s : Is12Server) : List Command → List (Int × McResult)
  | [] => []
  | cmd :: rest => (cmd.nHandle, (s.invoke cmd).2) :: answers (s.invoke cmd).1 rest

theorem exec_runCommand (jsCommand : Json) (s : ControlState) :
    (runCommand jsCommand).exec s = match readCommand jsCommand, readHandle jsCommand with
      | .ok cmd, .ok nHandle =>
        (.ok (nHandle, (s.server.invoke cmd).2), { s with server := (s.server.invoke cmd).1 })
      | .ok cmd, .error e => (.error e, { s with server := (s.server.invoke cmd).1 })
      | .error e, _ => (.error e, s) := by
  rw [runCommand]
  cases hcmd : readCommand jsCommand with
  | error e => rw [exec_bind_error (by rw [exec_attempt])]
  | ok cmd =>
    rw [exec_bind_ok (by rw [exec_attempt]), exec_bind_ok (by rw [exec_ofUpdate, execute])]
    cases hhandle : readHandle jsCommand with
    | error e => rw [exec_bind_error (by rw [exec_attempt])]
    | ok nHandle => rw [exec_bind_ok (by rw [exec_attempt]), exec_pure]

/-- A batch, by what it executes and what stops it. -/
theorem exec_runCommands (items : List Json) (s : ControlState) :
    (runCommands items).exec s =
      ((match stopsAt items with
        | none => .ok (answers s.server (ran items))
        | some e => .error e), { s with server := executed s.server (ran items) }) := by
  induction items generalizing s with
  | nil => rfl
  | cons jsCommand rest ih =>
    have hfirst := exec_runCommand jsCommand s
    rw [runCommands, stopsAt, ran]
    cases hcmd : readCommand jsCommand with
    | error e =>
      simp only [hcmd] at hfirst
      rw [exec_bind_error hfirst]
      rfl
    | ok cmd =>
      cases hhandle : readHandle jsCommand with
      | error e =>
        simp only [hcmd, hhandle] at hfirst
        rw [exec_bind_error hfirst]
        rfl
      | ok nHandle =>
        simp only [hcmd, hhandle] at hfirst
        rw [exec_bind_ok hfirst]
        have hrest := ih { s with server := (s.server.invoke cmd).1 }
        cases hstop : stopsAt rest with
        | none =>
          simp only [hstop] at hrest
          rw [exec_bind_ok hrest]
          rfl
        | some e =>
          simp only [hstop] at hrest
          rw [exec_bind_error hrest]
          rfl

/-- The commands of a message. -/
def commandsOf (jsMessage : Json) : List Json := ((jsMessage.member "commands").getD (.arr [])).items.map Prod.snd

def IsCommand (jsMessage : Json) : Prop := jsMessage.value getInt "messageType" (-1) = .ok messageCommand

theorem value_ok_obj {α : Type} {get : Json → Except JsonError α} {js : Json} {sKey : String} {default a : α}
    (h : js.value get sKey default = .ok a) : ∃ fields, js = .obj fields := by
  cases js with
  | obj fields => exact ⟨fields, rfl⟩
  | _ => cases h

theorem exec_handleMessage {jsMessage : Json} (h : IsCommand jsMessage) (pConn : Connection) (s : ControlState) :
    (handleMessage pConn jsMessage).exec s =
      match stopsAt (commandsOf jsMessage) with
      | none =>
        (.ok (), { server := executed s.server (ran (commandsOf jsMessage)),
                   sent := s.sent ++ [(pConn, .commandResponse (answers s.server (ran (commandsOf jsMessage))))] })
      | some e => (.error e, { s with server := executed s.server (ran (commandsOf jsMessage)) }) := by
  obtain ⟨fields, rfl⟩ := value_ok_obj h
  have hcommands : checked ((Json.obj fields).value .ok "commands" (.arr [])) =
      .ok (((Json.obj fields).member "commands").getD (.arr [])) := by
    simp only [value, member]
    cases findKey "commands" fields <;> rfl
  have hrun := exec_runCommands (commandsOf (.obj fields)) s
  rw [handleMessage, exec_bind_ok (by rw [exec_attempt, h]; rfl), if_neg (by decide), if_neg (by decide),
    exec_bind_ok (by rw [exec_attempt, hcommands]), ← commandsOf]
  cases hstop : stopsAt (commandsOf (.obj fields)) with
  | none =>
    simp only [hstop] at hrun
    rw [exec_bind_ok hrun]
    rfl
  | some e =>
    simp only [hstop] at hrun
    rw [exec_bind_error hrun]

theorem checked_error {α : Type} {x : Except JsonError α} {e : Fault} (h : checked x = .error e) :
    ∃ s, e = .exception (.text s) := by
  cases x with
  | error err => exact ⟨err.sWhat, by cases h; rfl⟩
  | ok a => cases h

theorem checked_ok {α : Type} {x : Except JsonError α} {a : α} : checked x = .ok a ↔ x = .ok a := by
  cases x with
  | error e => exact iff_of_false (fun h => by cases h) (fun h => by cases h)
  | ok b => exact ⟨fun h => congrArg _ (Except.ok.inj h), fun h => congrArg _ (Except.ok.inj h)⟩

/-- A command that reads a property, with its arguments. -/
structure Gets (jsCommand jsArgs : Json) : Prop where
  oid : ∃ nOid, jsCommand.value getInt "oid" (-1) = .ok nOid
  level : methodField jsCommand "level" = .ok 1
  index : methodField jsCommand "index" = .ok 1
  arguments : jsCommand.value .ok "arguments" (.obj []) = .ok jsArgs

/-- A command that reads a property without saying which. -/
def LacksId (jsCommand : Json) : Prop := ∃ fields, Gets jsCommand (.obj fields) ∧ findKey "id" fields = none

theorem constAt_error {js : Json} {sKey : String} {e : Fault} (h : constAt js sKey = .error e) :
    (∃ s, e = .exception (.text s)) ∨ e = .outside sKey ∧ ∃ fields, js = .obj fields ∧ findKey sKey fields = none := by
  cases js with
  | obj fields =>
    cases hkey : findKey sKey fields with
    | none =>
      simp only [constAt, hkey] at h
      exact Or.inr ⟨(Except.error.inj h).symm, fields, rfl, hkey⟩
    | some v =>
      simp only [constAt, hkey] at h
      cases h
  | _ => exact Or.inl ⟨_, (Except.error.inj h).symm⟩

/-- How the reading of a command fails: with an exception of the library, or outside
the domain of the subscript, and there for want of an id. -/
theorem readCommand_error {jsCommand : Json} {e : Fault} (h : readCommand jsCommand = .error e) :
    (∃ s, e = .exception (.text s)) ∨ e = .outside "id" ∧ LacksId jsCommand := by
  rw [readCommand, bind_eq_error] at h
  rcases h with h | ⟨nOid, hoid, h⟩
  · exact Or.inl (checked_error h)
  rcases bind_eq_error.mp h with h | ⟨nLevel, hlevel, h⟩
  · exact Or.inl (checked_error h)
  rcases bind_eq_error.mp h with h | ⟨nIndex, hindex, h⟩
  · exact Or.inl (checked_error h)
  rcases bind_eq_error.mp h with h | ⟨jsArgs, hargs, h⟩
  · exact Or.inl (checked_error h)
  split at h
  · rename_i hget
    rcases bind_eq_error.mp h with h | ⟨jsId, -, h⟩
    · rcases constAt_error h with htext | ⟨hout, fields, rfl, hid⟩
      · exact Or.inl htext
      · obtain ⟨rfl, rfl⟩ := hget
        exact Or.inr ⟨hout, fields, ⟨⟨nOid, checked_ok.mp hoid⟩, checked_ok.mp hlevel, checked_ok.mp hindex,
          checked_ok.mp hargs⟩, hid⟩
    · rcases bind_eq_error.mp h with h | ⟨nArgLevel, -, h⟩
      · exact Or.inl (checked_error h)
      · rcases bind_eq_error.mp h with h | ⟨nArgIndex, -, h⟩
        · exact Or.inl (checked_error h)
        · cases h
  · cases h

theorem readCommand_of_lacksId {jsCommand : Json} (h : LacksId jsCommand) :
    readCommand jsCommand = .error (.outside "id") := by
  obtain ⟨fields, ⟨⟨nOid, hoid⟩, hlevel, hindex, hargs⟩, hid⟩ := h
  have hat : constAt (.obj fields) "id" = .error (.outside "id") := by
    simp only [constAt, hid]
  rw [readCommand, hoid, hlevel, hindex, hargs]
  change constAt (.obj fields) "id" >>= _ = _
  rw [hat]
  rfl

/-- A command of a batch that is answered: it can be read, and its handle can. -/
def Answerable (jsCommand : Json) : Prop := (∃ cmd, readCommand jsCommand = .ok cmd) ∧ ∃ n, readHandle jsCommand = .ok n

/-- Some command with a property is reached: all before it are answered. -/
def Reaches (P : Json → Prop) (items : List Json) : Prop :=
  ∃ pre jsCommand post, items = pre ++ jsCommand :: post ∧ (∀ js ∈ pre, Answerable js) ∧ P jsCommand

/-- Some command that is reached reads a property without saying which. -/
def ReachesLacking : List Json → Prop := Reaches LacksId

theorem not_reaches_nil {P : Json → Prop} : ¬ Reaches P [] := by
  rintro ⟨pre, js, post, hsplit, -⟩
  simp at hsplit

theorem reaches_cons {P : Json → Prop} {jsCommand : Json} {rest : List Json} :
    Reaches P (jsCommand :: rest) ↔ P jsCommand ∨ Answerable jsCommand ∧ Reaches P rest := by
  constructor
  · rintro ⟨pre, js, post, hsplit, hpre, hfound⟩
    cases pre with
    | nil =>
      obtain ⟨rfl, rfl⟩ := List.cons.inj hsplit
      exact Or.inl hfound
    | cons first pre =>
      obtain ⟨rfl, rfl⟩ := List.cons.inj hsplit
      exact Or.inr ⟨hpre _ (by simp), pre, js, post, rfl, fun x hx => hpre x (List.mem_cons_of_mem _ hx), hfound⟩
  · rintro (hfound | ⟨hread, pre, js, post, rfl, hpre, hfound⟩)
    · exact ⟨[], jsCommand, rest, rfl, by simp, hfound⟩
    · refine ⟨jsCommand :: pre, js, post, rfl, ?_, hfound⟩
      simpa [hread] using hpre

/-- What stops a batch is an exception of the library, or a property read without an id. -/
theorem stopsAt_cases {items : List Json} {e : Fault} (h : stopsAt items = some e) :
    (∃ s, e = .exception (.text s)) ∧ ¬ ReachesLacking items ∨ e = .outside "id" ∧ ReachesLacking items := by
  induction items with
  | nil => cases h
  | cons jsCommand rest ih =>
    rw [ReachesLacking, reaches_cons, ← ReachesLacking]
    rw [stopsAt] at h
    cases hcmd : readCommand jsCommand with
    | error err =>
      simp only [hcmd] at h
      obtain rfl := Option.some.inj h
      have hread : ¬ Answerable jsCommand := by
        rintro ⟨⟨cmd, hok⟩, -⟩
        rw [hcmd] at hok
        cases hok
      rcases readCommand_error hcmd with ⟨s, rfl⟩ | ⟨rfl, hlacks⟩
      · refine Or.inl ⟨⟨s, rfl⟩, ?_⟩
        rintro (hlacks | ⟨hok, -⟩)
        · rw [readCommand_of_lacksId hlacks] at hcmd
          cases hcmd
        · exact hread hok
      · exact Or.inr ⟨rfl, Or.inl hlacks⟩
    | ok cmd =>
      have hlacks : ¬ LacksId jsCommand := by
        intro hlacks
        rw [readCommand_of_lacksId hlacks] at hcmd
        cases hcmd
      cases hhandle : readHandle jsCommand with
      | error err =>
        simp only [hcmd, hhandle] at h
        obtain rfl := Option.some.inj h
        refine Or.inl ⟨checked_error hhandle, ?_⟩
        rintro (hlacking | ⟨⟨-, n, hok⟩, -⟩)
        · exact hlacks hlacking
        · rw [hhandle] at hok
          cases hok
      | ok nHandle =>
        simp only [hcmd, hhandle] at h
        have hread : Answerable jsCommand := ⟨⟨cmd, hcmd⟩, nHandle, hhandle⟩
        simpa [hlacks, hread] using ih h

theorem stopsAt_none {items : List Json} : stopsAt items = none ↔ ∀ js ∈ items, Answerable js := by
  induction items with
  | nil => simp [stopsAt]
  | cons jsCommand rest ih =>
    rw [stopsAt, List.forall_mem_cons, ← ih, Answerable]
    cases hcmd : readCommand jsCommand with
    | error err => simp
    | ok cmd =>
      cases hhandle : readHandle jsCommand with
      | error err => simp
      | ok nHandle => simp

theorem not_reachesLacking_of_answerable {items : List Json} (h : ∀ js ∈ items, Answerable js) :
    ¬ ReachesLacking items := by
  rintro ⟨pre, js, post, hsplit, -, hlacks⟩
  obtain ⟨⟨cmd, hcmd⟩, -⟩ := h js (by simp [hsplit])
  rw [readCommand_of_lacksId hlacks] at hcmd
  cases hcmd

@[simp] theorem exec_sendTo (pConn : Connection) (reply : Reply) (s : ControlState) :
    (sendTo pConn reply).exec s = (.ok (), { s with sent := s.sent ++ [(pConn, reply)] }) := rfl

theorem exec_sendError {what : What} (h : what.Printable) (pConn : Connection) (s : ControlState) :
    (sendError pConn what).exec s = (.ok (), { s with sent := s.sent ++ [(pConn, .error what)] }) := by
  rw [sendError, if_pos h, exec_sendTo]

/-- A message that is no command is answered, or refused by a checked read. -/
theorem exec_handleMessage_other {jsMessage : Json} (h : ¬ IsCommand jsMessage) (pConn : Connection)
    (s : ControlState) :
    (∃ reply server, (handleMessage pConn jsMessage).exec s = (.ok (), ⟨server, s.sent ++ [(pConn, reply)]⟩)) ∨
      ∃ t, (handleMessage pConn jsMessage).exec s = (.error (.exception (.text t)), s) := by
  rw [handleMessage]
  cases htype : jsMessage.value getInt "messageType" (-1) with
  | error e => exact Or.inr ⟨e.sWhat, exec_bind_error (by rw [exec_attempt]; rfl)⟩
  | ok nType =>
    rw [exec_bind_ok (by rw [exec_attempt, checked_ok.mpr rfl])]
    obtain ⟨fields, rfl⟩ := value_ok_obj htype
    have hoids : checked ((Json.obj fields).value .ok "subscriptions" (.arr [])) =
        .ok (((Json.obj fields).member "subscriptions").getD (.arr [])) := by
      simp only [value, member]
      cases findKey "subscriptions" fields <;> rfl
    split
    · rw [exec_bind_ok (by rw [exec_attempt, hoids]), exec_bind_ok (exec_get s), exec_bind_ok (exec_modify _ _)]
      exact Or.inl ⟨_, _, exec_sendTo ..⟩
    · split
      · exact Or.inl ⟨_, _, exec_sendTo ..⟩
      · rename_i hcommand
        rw [not_not] at hcommand
        exact absurd (htype.trans (congrArg _ hcommand)) h

section Frame
variable (parse : Bytes → Except Bytes Json) (pConn : Connection) (pData : Bytes) (s : ControlState)

/-- The handler comes to its end with one reply, and nothing is left uncaught. -/
def Answered : Prop :=
  (wsData parse pConn pData s).1 = .ok () ∧
    ∃ reply, (wsData parse pConn pData s).2.sent = s.sent ++ [(pConn, reply)]

/-- What the parser has to say can be sent, and no command that is reached reads a
property without saying which. -/
structure Askable : Prop where
  complaint : ∀ octets, parse pData = .error octets → (What.quoted octets).Printable
  commands : ∀ jsMessage, parse pData = .ok jsMessage → IsCommand jsMessage → ¬ ReachesLacking (commandsOf jsMessage)

variable {parse pData}

theorem wsData_command {jsMessage : Json} (hparse : parse pData = .ok jsMessage) (h : IsCommand jsMessage) :
    (stopsAt (commandsOf jsMessage) = none ∧ wsData parse pConn pData s =
      (.ok (), { server := executed s.server (ran (commandsOf jsMessage)),
                 sent := s.sent ++
                   [(pConn, .commandResponse (answers s.server (ran (commandsOf jsMessage))))] })) ∨
    (¬ ReachesLacking (commandsOf jsMessage) ∧ stopsAt (commandsOf jsMessage) ≠ none ∧
      ∃ what, wsData parse pConn pData s =
        (.ok (), { server := executed s.server (ran (commandsOf jsMessage)),
                   sent := s.sent ++ [(pConn, .error what)] })) ∨
    (ReachesLacking (commandsOf jsMessage) ∧ ∃ e s', wsData parse pConn pData s = (.error e, s')) := by
  have hrun := exec_handleMessage h pConn s
  simp only [wsData, hparse]
  cases hstop : stopsAt (commandsOf jsMessage) with
  | none =>
    simp only [hstop] at hrun
    exact Or.inl ⟨rfl, by rw [hrun]⟩
  | some e =>
    simp only [hstop] at hrun
    refine Or.inr ?_
    rcases stopsAt_cases hstop with ⟨⟨t, rfl⟩, hlacking⟩ | ⟨rfl, hlacking⟩
    · exact Or.inl ⟨hlacking, by simp, .text t, by rw [hrun]; exact exec_sendError (printable_text t) ..⟩
    · exact Or.inr ⟨hlacking, _, _, by rw [hrun]⟩

/-- A frame is answered by one reply, with nothing left uncaught, exactly when the
parser's complaint about it can be printed and every property read says which. -/
theorem answered_iff (parse : Bytes → Except Bytes Json) (pConn : Connection) (pData : Bytes) (s : ControlState) :
    Answered parse pConn pData s ↔ Askable parse pData := by
  cases hparse : parse pData with
  | error octets =>
    have hrun : wsData parse pConn pData s = (sendError pConn (.quoted octets)).exec s := by
      simp only [wsData, hparse]
    constructor
    · rintro ⟨hok, -⟩
      refine ⟨fun other hother => ?_, fun js hjs => by rw [hparse] at hjs; cases hjs⟩
      rw [hparse] at hother
      obtain rfl := Except.error.inj hother
      by_contra hprint
      rw [hrun, sendError, if_neg hprint] at hok
      cases hok
    · intro hask
      have hsent := exec_sendError (hask.complaint octets hparse) pConn s
      exact ⟨by rw [hrun, hsent], _, by rw [hrun, hsent]⟩
  | ok jsMessage =>
    have hask : Askable parse pData ↔ (IsCommand jsMessage → ¬ ReachesLacking (commandsOf jsMessage)) := by
      constructor
      · exact fun h => h.commands jsMessage hparse
      · refine fun h => ⟨fun _ herror => ?_, fun js hjs => ?_⟩
        · rw [hparse] at herror
          cases herror
        · rw [hparse] at hjs
          exact Except.ok.inj hjs ▸ h
    rw [hask]
    by_cases hcommand : IsCommand jsMessage
    · rcases wsData_command pConn s hparse hcommand with ⟨hstop, hrun⟩ | ⟨hlacking, -, what, hrun⟩ |
        ⟨hlacking, e, s', hrun⟩
      · exact iff_of_true ⟨by rw [hrun], _, by rw [hrun]⟩ fun _ =>
          not_reachesLacking_of_answerable (stopsAt_none.mp hstop)
      · exact iff_of_true ⟨by rw [hrun], _, by rw [hrun]⟩ fun _ => hlacking
      · refine iff_of_false ?_ fun h => h hcommand hlacking
        rintro ⟨hok, -⟩
        rw [hrun] at hok
        cases hok
    · refine iff_of_true ?_ fun h => absurd h hcommand
      unfold Answered
      simp only [wsData, hparse]
      rcases exec_handleMessage_other hcommand pConn s with ⟨reply, server, hrun⟩ | ⟨t, hrun⟩
      · rw [hrun]
        exact ⟨rfl, reply, rfl⟩
      · have hsent := exec_sendError (printable_text t) pConn s
        rw [hrun]
        exact ⟨congrArg Prod.fst hsent, _, congrArg (·.2.sent) hsent⟩

end Frame

section Inputs

/-- A parser that is asked about one text only. -/
def parsing (pData : Bytes) (result : Except Bytes Json) (asked : Bytes) : Except Bytes Json :=
  if asked = pData then result else .error []

/-- The octets of a text without characters beyond the first 128. -/
def ascii (s : String) : Bytes := s.toList.map fun c => BitVec.ofNat 8 c.toNat

def someServer : ControlState := { server := .init "node" "0.1.0" "receiver" "sender" }

/-- A property of the root block is read, and no arguments are given. -/
def getWithoutId : Bytes := ascii ("\x7b\"messageType\":0,\"commands\":" ++
    "[\x7b\"oid\":1,\"methodId\":\x7b\"level\":1,\"index\":1\x7d\x7d]\x7d")

def getWithoutIdMessage : Json :=
  .obj [("commands", .arr [.obj [("methodId", .obj [("index", .int 1), ("level", .int 1)]), ("oid", .int 1)]]),
    ("messageType", .int 0)]

/-- The parser stops after the first octet of the letter it cannot make sense of. -/
def accented : Bytes := [0xC3, 0xA9]

def accentedComplaint : Bytes :=
  ascii ("[json.exception.parse_error.101] parse error at line 1, column 1: " ++
    "syntax error while parsing value - invalid literal; last read: '") ++ [0xC3, 0x27]

/-- Neither frame gets an answer: the one ends in an undefined access, the other in an
exception that is thrown while the error is sent. -/
theorem getWithoutId_accented_unanswered :
    ¬ Answered (parsing getWithoutId (.ok getWithoutIdMessage)) 0 getWithoutId someServer ∧
      ¬ Answered (parsing accented (.error accentedComplaint)) 0 accented someServer := by
  constructor
  · have hrun : (wsData (parsing getWithoutId (.ok getWithoutIdMessage)) 0 getWithoutId someServer).1 =
        .error (.outside "id") := by
      simp only [wsData, parsing, if_pos]
      rfl
    rintro ⟨hok, -⟩
    rw [hrun] at hok
    cases hok
  · have hprint : ¬ (What.quoted accentedComplaint).Printable := by decide +kernel
    rintro ⟨hok, -⟩
    simp only [wsData, parsing, if_pos, sendError, if_neg hprint] at hok
    cases hok

end Inputs

end PiAudioNode.Nmos
