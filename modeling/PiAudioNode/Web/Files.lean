import PiAudioNode.Lib.Cut
import PiAudioNode.Lib.Files
import PiAudioNode.Lib.Json
import PiAudioNode.Lib.Run

/-! The audio files behind the HTTP interface. Several threads serve requests, each one
at a time, and an upload comes in pieces, with the requests of others between them. -/
namespace PiAudioNode.Web
open Lib Lib.Json

/-- A thread of the HTTP library. -/
abbrev Worker := Nat

inductive Route where
  | status
  | getConfig
  | postConfig
  | listFiles
  | badName
  | upload (sName : String)
  | action (sAction : String)
  | notFound
  deriving DecidableEq

/-- What a request is handled as. -/
def route (sUri sMethod : String) : Route :=
  if sUri = "/api/status" then .status
  else if sUri = "/api/config" ∧ sMethod = "GET" then .getConfig
  else if sUri = "/api/config" ∧ sMethod = "POST" then .postConfig
  else if sUri = "/api/files" ∧ sMethod = "GET" then .listFiles
  else
    match stripPrefix "/api/files/".toList sUri.toList, stripPrefix "/api/action/".toList sUri.toList, sMethod with
    | some sName, _, "PUT" => if '/' ∈ sName ∨ ['.', '.'] <:+: sName then .badName else .upload (String.ofList sName)
    | _, some sAction, "POST" => .action (String.ofList sAction)
    | _, _, _ => .notFound

/-- A name that is listed. -/
def IsAudio (sName : List Char) : Prop :=
  4 < sName.length ∧ (sName.drop (sName.length - 4) = ".wav".toList ∨ sName.drop (sName.length - 4) = ".mp3".toList)

instance (sName : List Char) : Decidable (IsAudio sName) :=
  inferInstanceAs (Decidable (_ ∧ (_ ∨ _)))

/-- An upload under way, without a writer where the file could not be opened. -/
structure Upload (β : Type*) where
  ofs : Option (Writer β)
  nTotal : Nat := 0

structure FileServer (β : Type*) where
  /-- Not empty: the daemon falls back to a directory of its own. -/
  sFilesDir : String
  cwd : Folder := []
  disk : Disk β
  uploads : Worker → Option (Upload β) := fun _ => none

/-- A request is taken up, bytes of its body arrive, the stream passes some of them on to
the file or fails to, and the body ends. -/
inductive FileEvent (β : Type*) where
  | request (w : Worker) (sUri sMethod : String) (bOpens : Bool)
  | receive (w : Worker) (buffer : List β)
  | pass (w : Worker) (n : Nat)
  | breaks (w : Worker)
  | finish (w : Worker)

def FileEvent.worker {β : Type*} : FileEvent β → Worker
  | .request w _ _ _ | .receive w _ | .pass w _ | .breaks w | .finish w => w

def FileEvent.opens {β : Type*} : FileEvent β → Bool
  | .request _ _ _ bOpens => bOpens
  | _ => false

/-- What a thread reads of the body of its request. -/
def FileEvent.received {β : Type*} (w : Worker) : FileEvent β → List β
  | .receive w' buffer => if w' = w then buffer else []
  | _ => []

/-- The name a request uploads to. -/
def FileEvent.uploads {β : Type*} : FileEvent β → Option String
  | .request _ sUri sMethod _ =>
    match route sUri sMethod with
    | .upload sName => some sName
    | _ => none
  | _ => none

section Uploads
variable {β : Type*}

namespace Upload

def place (u : Upload β) : Option (Folder × List Char) := u.ofs.map Writer.place

def receive (u : Upload β) (buffer : List β) : Upload β :=
  { ofs := u.ofs.map fun wr => { wr with vGiven := wr.vGiven ++ buffer }, nTotal := u.nTotal + buffer.length }

def breaks (u : Upload β) : Upload β := { u with ofs := u.ofs.map fun wr => { wr with bBroken := true } }

def pass [Zero β] (u : Upload β) (n : Nat) (d : Disk β) : Upload β × Disk β :=
  match u.ofs with
  | some wr => ({ u with ofs := some (wr.pass n d).1 }, (wr.pass n d).2)
  | none => (u, d)

end Upload

namespace FileServer

/-- Where the uploads go. -/
def dir (s : FileServer β) : Folder := (leads s.cwd (s.sFilesDir ++ "/").toList).1

def place (s : FileServer β) (sName : String) : Folder × List Char := leads s.cwd (s.sFilesDir ++ "/" ++ sName).toList

def put (s : FileServer β) (w : Worker) (u : Option (Upload β)) (d : Disk β) : FileServer β :=
  { s with uploads := Function.update s.uploads w u, disk := d }

/-- Opening a file empties it. The system may refuse. -/
def begin (s : FileServer β) (w : Worker) (sName : String) (bOpens : Bool) : FileServer β :=
  if bOpens ∧ s.disk.Writable (s.place sName) then
    s.put w (some { ofs := some { place := s.place sName } }) (s.disk.store (s.place sName) [])
  else s.put w (some { ofs := none }) s.disk

/-- What an event does to the thread it belongs to, in an upload. -/
def goOn [Zero β] (s : FileServer β) (u : Upload β) : FileEvent β → FileServer β
  | .request .. => s
  | .receive w buffer => s.put w (some (u.receive buffer)) s.disk
  | .pass w n => s.put w (some (u.pass n s.disk).1) (u.pass n s.disk).2
  | .breaks w => s.put w (some u.breaks) s.disk
  | .finish w => s.put w none (u.pass u.nTotal s.disk).2

def step [Zero β] (s : FileServer β) (e : FileEvent β) : FileServer β :=
  match s.uploads e.worker with
  | some u => s.goOn u e
  | none =>
    match e.uploads with
    | some sName => s.begin e.worker sName e.opens
    | none => s

def listing (s : FileServer β) : List (List Char) :=
  if s.dir ∈ s.disk.dirs then (s.disk.entries s.dir).filter fun sName => IsAudio sName else []

/-- The answers the files have to do with. -/
def answer (s : FileServer β) (e : FileEvent β) : Option (Nat × Json) :=
  match e with
  | .finish w => (s.uploads w).map fun u => (200, .obj [("bytes", .int u.nTotal), ("ok", .bool true)])
  | .request w sUri sMethod _ =>
    if (s.uploads w).isSome then none
    else
      match route sUri sMethod with
      | .listFiles => some (200, .arr (s.listing.map fun sName => .str (String.ofList sName)))
      | .badName => some (400, .obj [("error", .str "bad name")])
      | .notFound => some (404, .obj [("error", .str "not found")])
      | _ => none
  | _ => none

/-- The file a thread is writing. -/
def writes (s : FileServer β) (w : Worker) : Option (Folder × List Char) := (s.uploads w).bind Upload.place

@[simp] theorem uploads_put (s : FileServer β) (w : Worker) (u : Option (Upload β)) (d : Disk β) :
    (s.put w u d).uploads w = u := Function.update_self _ _ _

@[simp] theorem writes_put (s : FileServer β) (w : Worker) (u : Option (Upload β)) (d : Disk β) :
    (s.put w u d).writes w = u.bind Upload.place := by
  rw [writes, uploads_put]

theorem writes_put_ne (s : FileServer β) {w w' : Worker} (h : w' ≠ w) (u : Option (Upload β)) (d : Disk β) :
    (s.put w u d).writes w' = s.writes w' := by
  have hkept : (s.put w u d).uploads w' = s.uploads w' := Function.update_of_ne h _ _
  rw [writes, hkept, writes]

end FileServer

end Uploads

section Names
variable {β : Type*} {sUri sMethod sName : String}

/-- A request that puts a file, under a name that stays in its directory. -/
structure Puts (sUri sMethod sName : String) : Prop where
  uri : sUri = "/api/files/" ++ sName
  method : sMethod = "PUT"
  slash : '/' ∉ sName.toList
  dots : ¬ ['.', '.'] <:+: sName.toList

theorem puts_of_route (h : route sUri sMethod = .upload sName) : Puts sUri sMethod sName := by
  unfold route at h
  split_ifs at h
  split at h
  · split_ifs at h with hbad
    obtain ⟨hslash, hdots⟩ := not_or.mp hbad
    obtain rfl := Route.upload.inj h
    refine ⟨?_, rfl, ?_, ?_⟩
    · have huri := stripPrefix_eq_some_iff.mp ‹stripPrefix "/api/files/".toList sUri.toList = some _›
      have heq : sUri.toList = ("/api/files/" ++ String.ofList ‹List Char›).toList := by
        simp only [huri, String.toList_append, String.toList_ofList]
      exact String.toList_injective heq
    · rwa [String.toList_ofList]
    · rwa [String.toList_ofList]
  · cases h
  · cases h

theorem place_of_name (s : FileServer β) (h : '/' ∉ sName.toList) : s.place sName = (s.dir, sName.toList) := by
  have hpath : (s.sFilesDir ++ "/" ++ sName).toList = s.sFilesDir.toList ++ '/' :: sName.toList := by
    simp [String.toList_append]
  have hdir : (s.sFilesDir ++ "/").toList = s.sFilesDir.toList ++ ['/'] := by
    simp [String.toList_append]
  rw [FileServer.place, FileServer.dir, hpath, hdir]
  exact leads_join s.cwd s.sFilesDir.toList h

theorem route_of_uploads {e : FileEvent β} (h : e.uploads = some sName) :
    ∃ w sUri sMethod bOpens, e = .request w sUri sMethod bOpens ∧ route sUri sMethod = .upload sName := by
  cases e with
  | request w sUri sMethod bOpens =>
    unfold FileEvent.uploads at h
    dsimp only at h
    split at h
    · obtain rfl := Option.some.inj h
      exact ⟨w, sUri, sMethod, bOpens, rfl, ‹_›⟩
    · cases h
  | receive w buffer => cases h
  | pass w n => cases h
  | breaks w => cases h
  | finish w => cases h

theorem place_of_uploads (s : FileServer β) {e : FileEvent β} (h : e.uploads = some sName) :
    s.place sName = (s.dir, sName.toList) := by
  obtain ⟨w, sUri, sMethod, bOpens, rfl, hroute⟩ := route_of_uploads h
  exact place_of_name s (puts_of_route hroute).slash

end Names

section Steps
variable {β : Type*}

namespace Upload

@[simp] theorem place_receive (u : Upload β) (buffer : List β) : (u.receive buffer).place = u.place := by
  rw [place, receive, place, Option.map_map]
  rfl

@[simp] theorem place_breaks (u : Upload β) : u.breaks.place = u.place := by
  rw [place, breaks, place, Option.map_map]
  rfl

variable [Zero β]

@[simp] theorem place_pass (u : Upload β) (n : Nat) (d : Disk β) : (u.pass n d).1.place = u.place := by
  unfold pass
  split
  · rw [place, place, ‹u.ofs = _›]
    exact congrArg some (Writer.pass_place _ n d)
  · rfl

theorem lookup_pass_ne (u : Upload β) (n : Nat) (d : Disk β) {other : Folder × List Char} (h : u.place ≠ some other) :
    (u.pass n d).2.files.lookup other = d.files.lookup other := by
  unfold pass
  split
  · apply Writer.lookup_pass_ne
    rintro rfl
    rw [place, ‹u.ofs = _›] at h
    exact h rfl
  · rfl

@[simp] theorem dirs_pass (u : Upload β) (n : Nat) (d : Disk β) : (u.pass n d).2.dirs = d.dirs := by
  unfold pass
  split
  · exact Writer.pass_dirs _ n d
  · rfl

end Upload

namespace FileServer
variable {s : FileServer β} {place : Folder × List Char}

/-- What one event does: it begins an upload, goes on with one, or nothing. -/
inductive Steps [Zero β] (s : FileServer β) (e : FileEvent β) : FileServer β → Prop
  | begins {sName : String} (hidle : s.uploads e.worker = none) (hname : e.uploads = some sName) :
    Steps s e (s.begin e.worker sName e.opens)
  | goes {u : Upload β} (hbusy : s.uploads e.worker = some u) : Steps s e (s.goOn u e)
  | rests : Steps s e s

theorem step_steps [Zero β] (s : FileServer β) (e : FileEvent β) : Steps s e (s.step e) := by
  unfold step
  split
  · exact .goes ‹_›
  · split
    · exact .begins ‹_› ‹_›
    · exact .rests

/-- A server's own configuration stays, and no directory comes or goes. -/
structure SameRoot (s s' : FileServer β) : Prop where
  filesDir : s'.sFilesDir = s.sFilesDir
  cwd : s'.cwd = s.cwd
  dirs : s'.disk.dirs = s.disk.dirs

variable {s' : FileServer β} {e : FileEvent β} {w : Worker}

theorem SameRoot.trans {s'' : FileServer β} (h : SameRoot s s') (h' : SameRoot s' s'') : SameRoot s s'' :=
  ⟨h'.filesDir.trans h.filesDir, h'.cwd.trans h.cwd, h'.dirs.trans h.dirs⟩

theorem SameRoot.dir (h : SameRoot s s') : s'.dir = s.dir := by
  rw [FileServer.dir, FileServer.dir, h.filesDir, h.cwd]

theorem SameRoot.place_eq (h : SameRoot s s') {sName : String} (hname : e.uploads = some sName) :
    s'.place sName = (s.dir, sName.toList) := by
  rw [FileServer.place, h.filesDir, h.cwd]
  exact place_of_uploads s hname

variable [Zero β]

theorem Steps.sameRoot (h : Steps s e s') : SameRoot s s' := by
  cases h with
  | begins hidle hname =>
    unfold begin
    split_ifs <;> exact ⟨rfl, rfl, rfl⟩
  | goes hbusy =>
    cases e with
    | request w sUri sMethod bOpens => exact ⟨rfl, rfl, rfl⟩
    | receive w buffer => exact ⟨rfl, rfl, rfl⟩
    | pass w n => exact ⟨rfl, rfl, Upload.dirs_pass _ n s.disk⟩
    | breaks w => exact ⟨rfl, rfl, rfl⟩
    | finish w => exact ⟨rfl, rfl, Upload.dirs_pass _ _ s.disk⟩
  | rests => exact ⟨rfl, rfl, rfl⟩

/-- A thread's upload is its own. -/
theorem Steps.uploads_ne (h : Steps s e s') (hw : w ≠ e.worker) : s'.uploads w = s.uploads w := by
  cases h with
  | begins hidle hname =>
    unfold begin
    split_ifs <;> exact Function.update_of_ne hw _ _
  | goes hbusy =>
    cases e with
    | request w' sUri sMethod bOpens => rfl
    | receive w' buffer => exact Function.update_of_ne hw _ _
    | pass w' n => exact Function.update_of_ne hw _ _
    | breaks w' => exact Function.update_of_ne hw _ _
    | finish w' => exact Function.update_of_ne hw _ _
  | rests => rfl

/-- An event begins to write a file. -/
def Opens (s : FileServer β) (e : FileEvent β) (place : Folder × List Char) : Prop :=
  e.opens = true ∧ s.disk.Writable place ∧ ∃ sName, e.uploads = some sName ∧ place = s.place sName

/-- A file that is written was written before, or is one that the event begins to write. -/
theorem Steps.writes (h : Steps s e s') (hwrites : s'.writes w = some place) :
    s.writes w = some place ∨ Opens s e place := by
  by_cases hw : w = e.worker
  · subst hw
    cases h with
    | begins hidle hname =>
      unfold begin at hwrites
      split_ifs at hwrites with hopens
      · rw [writes_put] at hwrites
        obtain rfl := Option.some.inj hwrites
        exact Or.inr ⟨hopens.1, hopens.2, _, hname, rfl⟩
      · rw [writes_put] at hwrites
        cases hwrites
    | goes hbusy =>
      refine Or.inl ?_
      rw [FileServer.writes, hbusy, Option.bind_some]
      cases e with
      | request w sUri sMethod bOpens =>
        rw [goOn, FileServer.writes, hbusy, Option.bind_some] at hwrites
        exact hwrites
      | receive w buffer =>
        rw [goOn, FileEvent.worker, writes_put, Option.bind_some, Upload.place_receive] at hwrites
        exact hwrites
      | pass w n =>
        rw [goOn, FileEvent.worker, writes_put, Option.bind_some, Upload.place_pass] at hwrites
        exact hwrites
      | breaks w =>
        rw [goOn, FileEvent.worker, writes_put, Option.bind_some, Upload.place_breaks] at hwrites
        exact hwrites
      | finish w =>
        rw [goOn, FileEvent.worker, writes_put] at hwrites
        cases hwrites
    | rests => exact Or.inl hwrites
  · rw [FileServer.writes, h.uploads_ne hw] at hwrites
    exact Or.inl hwrites

/-- An event touches the file its thread is writing and the one it begins to write, and no
other. -/
theorem Steps.lookup_ne (h : Steps s e s') (hwrites : s.writes e.worker ≠ some place) (hopens : ¬ Opens s e place) :
    s'.disk.files.lookup place = s.disk.files.lookup place := by
  cases h with
  | begins hidle hname =>
    unfold begin
    split_ifs with hopen
    · apply Disk.lookup_store_ne
      rintro rfl
      exact hopens ⟨hopen.1, hopen.2, _, hname, rfl⟩
    · rfl
  | goes hbusy =>
    rw [FileServer.writes, hbusy, Option.bind_some] at hwrites
    cases e with
    | request w sUri sMethod bOpens => rfl
    | receive w buffer => rfl
    | pass w n => exact Upload.lookup_pass_ne _ n s.disk hwrites
    | breaks w => rfl
    | finish w => exact Upload.lookup_pass_ne _ _ s.disk hwrites
  | rests => rfl

end FileServer

end Steps

namespace FileServer
variable {β : Type*} {s : FileServer β}

/-- What is in the directory and has a name for it is listed. -/
theorem mem_listing {vBody : List β} (hdir : s.dir ∈ s.disk.dirs) {sName : List Char} (haudio : IsAudio sName)
    (hfile : s.disk.files.lookup (s.dir, sName) = some vBody) : sName ∈ s.listing := by
  rw [listing, if_pos hdir]
  exact List.mem_filter.mpr ⟨Disk.mem_entries_of_lookup hfile, decide_eq_true haudio⟩

/-- A request of the run may upload there. -/
def Uploaded (s : FileServer β) (es : List (FileEvent β)) (place : Folder × List Char) : Prop :=
  IsEntry place.2 ∧ ∃ e ∈ es, e.opens = true ∧ ∃ sName, e.uploads = some sName ∧ place = (s.dir, sName.toList)

theorem Uploaded.mono {es fs : List (FileEvent β)} {place : Folder × List Char} (h : Uploaded s es place) :
    Uploaded s (es ++ fs) place := by
  obtain ⟨hentry, e, hmem, hopens, hname⟩ := h
  exact ⟨hentry, e, List.mem_append_left _ hmem, hopens, hname⟩

/-- The bytes a thread has read of the body of its request. -/
def received (w : Worker) (es : List (FileEvent β)) : List β := es.flatMap (FileEvent.received w)

theorem received_append (w : Worker) (es fs : List (FileEvent β)) :
    received w (es ++ fs) = received w es ++ received w fs := List.flatMap_append

section Runs
variable [Zero β]

theorem sameRoot_run (s : FileServer β) (es : List (FileEvent β)) : SameRoot s (run step s es) := by
  induction es using List.reverseRecOn with
  | nil => exact ⟨rfl, rfl, rfl⟩
  | append_singleton es e ih =>
    rw [run_snoc]
    exact ih.trans (step_steps _ e).sameRoot

theorem uploaded_of_opens {es : List (FileEvent β)} {e : FileEvent β} {place : Folder × List Char}
    (h : Opens (run step s es) e place) : Uploaded s (es ++ [e]) place := by
  obtain ⟨hopens, hwritable, sName, hname, hplace⟩ := h
  refine ⟨hwritable.2.1, e, by simp, hopens, sName, hname, ?_⟩
  rw [hplace, (sameRoot_run s es).place_eq hname]

/-- Only what is uploaded is written. -/
theorem uploaded_of_writes (hidle : ∀ w, s.uploads w = none) (es : List (FileEvent β)) {w : Worker}
    {place : Folder × List Char} (h : (run step s es).writes w = some place) : Uploaded s es place := by
  induction es using List.reverseRecOn with
  | nil =>
    rw [run_nil, writes, hidle w] at h
    cases h
  | append_singleton es e ih =>
    rw [run_snoc] at h
    rcases (step_steps _ e).writes h with hbefore | hopens
    · exact (ih hbefore).mono
    · exact uploaded_of_opens hopens

theorem lookup_run_ne (hidle : ∀ w, s.uploads w = none) (es : List (FileEvent β)) {place : Folder × List Char}
    (h : ¬ Uploaded s es place) : (run step s es).disk.files.lookup place = s.disk.files.lookup place := by
  induction es using List.reverseRecOn with
  | nil => rfl
  | append_singleton es e ih =>
    have hbefore : ¬ Uploaded s es place := fun hup => h hup.mono
    rw [run_snoc, ← ih hbefore]
    apply (step_steps _ e).lookup_ne
    · intro hwrites
      exact hbefore (uploaded_of_writes hidle es hwrites)
    · intro hopens
      exact h (uploaded_of_opens hopens)

/-- Nothing is uploaded yet. -/
def fresh {β : Type*} : FileServer β where
  sFilesDir := "/root/audio-files"
  disk := { files := ∅, dirs := [["root".toList, "audio-files".toList]] }

/-- One of two uploads is refused, as it asks for another directory. -/
def twoUploads : List (FileEvent Nat) :=
  [.request 0 "/api/files/a.wav" "PUT" true, .request 1 "/api/files/../a.wav" "PUT" true, .receive 0 [82, 73],
    .receive 1 [1], .pass 0 1, .finish 1, .receive 0 [70], .finish 0]

/-- A thread is writing a file, and no other thread is. -/
structure Filling (s : FileServer β) (w : Worker) (place : Folder × List Char) (vBody : List β) : Prop where
  writer : ∃ wr, s.uploads w = some { ofs := some wr, nTotal := vBody.length } ∧ wr.place = place ∧ wr.vGiven = vBody ∧
    wr.bBroken = false ∧ wr.Fills s.disk
  alone : ∀ w', w' ≠ w → s.writes w' ≠ some place

/-- A file is complete, and no thread is writing it. -/
structure Complete (s : FileServer β) (place : Folder × List Char) (vBody : List β) : Prop where
  file : s.disk.files.lookup place = some vBody
  alone : ∀ w, s.writes w ≠ some place

section Delivery
variable {e : FileEvent β} {w : Worker} {place : Folder × List Char} {vBody : List β}

theorem Complete.step (h : Complete s place vBody) (hother : ¬ Opens s e place) : Complete (s.step e) place vBody where
  file := by
    rw [(step_steps s e).lookup_ne (h.alone _) hother]
    exact h.file
  alone w hwrites := by
    rcases (step_steps s e).writes hwrites with hbefore | hopens
    · exact h.alone w hbefore
    · exact hother hopens

/-- While its own thread is at it, a file is the beginning of what that has received. -/
theorem Filling.step (h : Filling s w place vBody) (hother : ¬ Opens s e place) (hgoes : e ≠ .finish w)
    (hsound : e ≠ .breaks w) : Filling (s.step e) w place (vBody ++ received w [e]) := by
  obtain ⟨⟨wr, hbusy, rfl, rfl, hwhole, hfills⟩, halone⟩ := h
  have halone' : ∀ w', w' ≠ w → (s.step e).writes w' ≠ some wr.place := by
    intro w' hw' hwrites
    rcases (step_steps s e).writes hwrites with hbefore | hopens
    · exact halone w' hw' hbefore
    · exact hother hopens
  refine ⟨?_, halone'⟩
  by_cases hw : w = e.worker
  · have hstep : s.step e = s.goOn { ofs := some wr, nTotal := wr.vGiven.length } e := by
      rw [FileServer.step, ← hw, hbusy]
    rw [hstep]
    cases e with
    | request w' sUri sMethod bOpens =>
      have hnext : received w [.request w' sUri sMethod bOpens] = ([] : List β) := rfl
      rw [hnext, List.append_nil]
      exact ⟨wr, hbusy, rfl, rfl, hwhole, hfills⟩
    | receive w' buffer =>
      obtain rfl : w = w' := hw
      have hnext : received w [.receive w buffer] = buffer := by
        rw [received, List.flatMap_singleton]
        exact if_pos rfl
      rw [hnext, goOn, uploads_put]
      refine ⟨{ wr with vGiven := wr.vGiven ++ buffer }, ?_, rfl, rfl, hwhole, ?_⟩
      · rw [List.length_append]
        rfl
      · obtain ⟨hle, hfile⟩ := hfills
        refine ⟨?_, ?_⟩
        · rw [List.length_append]
          exact hle.trans (Nat.le_add_right _ _)
        · rw [List.take_append_of_le_length hle]
          exact hfile
    | pass w' n =>
      obtain rfl : w = w' := hw
      have hnext : received w [.pass w n] = ([] : List β) := rfl
      rw [hnext, List.append_nil, goOn, uploads_put]
      exact ⟨(wr.pass n s.disk).1, rfl, wr.pass_place n _, wr.pass_given n _, (wr.pass_broken n _).trans hwhole,
        hfills.pass n⟩
    | breaks w' =>
      obtain rfl : w = w' := hw
      exact absurd rfl hsound
    | finish w' =>
      obtain rfl : w = w' := hw
      exact absurd rfl hgoes
  · have hnone : received w [e] = [] := by
      rw [received, List.flatMap_singleton]
      cases e with
      | receive w' buffer => exact if_neg (Ne.symm hw)
      | request w' sUri sMethod bOpens => rfl
      | pass w' n => rfl
      | breaks w' => rfl
      | finish w' => rfl
    rw [hnone, List.append_nil]
    refine ⟨wr, ?_, rfl, rfl, hwhole, hfills.1, ?_⟩
    · rw [(step_steps s e).uploads_ne hw]
      exact hbusy
    · rw [(step_steps s e).lookup_ne (halone _ (Ne.symm hw)) hother]
      exact hfills.2

/-- When the body ends, the file is complete. -/
theorem Filling.finish (h : Filling s w place vBody) : Complete (s.step (.finish w)) place vBody ∧
    s.answer (.finish w) = some (200, .obj [("bytes", .int vBody.length), ("ok", .bool true)]) := by
  obtain ⟨⟨wr, hbusy, rfl, rfl, hwhole, hfills⟩, halone⟩ := h
  have hstep : s.step (.finish w) =
      s.put w none (wr.pass wr.vGiven.length s.disk).2 := by
    rw [FileServer.step, FileEvent.worker, hbusy]
    rfl
  refine ⟨⟨?_, ?_⟩, ?_⟩
  · rw [hstep]
    exact hfills.close hwhole le_rfl
  · intro w' hwrites
    by_cases hw : w' = w
    · rw [hw, hstep, writes_put] at hwrites
      cases hwrites
    · rw [writes, (step_steps s (.finish w)).uploads_ne hw] at hwrites
      exact halone w' hw hwrites
  · rw [answer, hbusy]
    rfl

theorem not_opens {sName : String} {es : List (FileEvent β)} (hother : e.uploads ≠ some sName) :
    ¬ Opens (run FileServer.step s es) e (s.dir, sName.toList) := by
  rintro ⟨-, -, sOther, hname, hplace⟩
  rw [(sameRoot_run s es).place_eq hname] at hplace
  obtain rfl : sName = sOther := String.toList_injective (congrArg Prod.snd hplace)
  exact hother hname

theorem Filling.run {sName : String} (h : Filling s w (s.dir, sName.toList) vBody) {es : List (FileEvent β)}
    (hother : ∀ e ∈ es, e.uploads ≠ some sName) (hgoes : .finish w ∉ es) (hsound : .breaks w ∉ es) :
    Filling (run FileServer.step s es) w (s.dir, sName.toList) (vBody ++ received w es) := by
  induction es using List.reverseRecOn with
  | nil =>
    have hnone : received w ([] : List (FileEvent β)) = [] := rfl
    rw [hnone, List.append_nil]
    exact h
  | append_singleton es e ih =>
    have hbefore := ih (fun e' hmem => hother e' (List.mem_append_left _ hmem))
      (fun hmem => hgoes (List.mem_append_left _ hmem)) (fun hmem => hsound (List.mem_append_left _ hmem))
    rw [run_snoc, received_append, ← List.append_assoc]
    apply hbefore.step
    · exact not_opens (hother e (by simp))
    · rintro rfl
      exact hgoes (by simp)
    · rintro rfl
      exact hsound (by simp)

theorem Complete.run {sName : String} (h : Complete s (s.dir, sName.toList) vBody) {es : List (FileEvent β)}
    (hother : ∀ e ∈ es, e.uploads ≠ some sName) :
    Complete (run FileServer.step s es) (s.dir, sName.toList) vBody := by
  induction es using List.reverseRecOn with
  | nil => exact h
  | append_singleton es e ih =>
    rw [run_snoc]
    exact (ih fun e' hmem => hother e' (List.mem_append_left _ hmem)).step (not_opens (hother e (by simp)))

/-- A request that can be served, for a file that no thread is writing. -/
structure Starts (s : FileServer β) (w : Worker) (sUri sName : String) : Prop where
  idle : s.uploads w = none
  puts : route sUri "PUT" = .upload sName
  writable : s.disk.Writable (s.dir, sName.toList)
  alone : ∀ w', s.writes w' ≠ some (s.dir, sName.toList)

theorem Starts.filling {sUri sName : String} (h : Starts s w sUri sName) :
    Filling (s.step (.request w sUri "PUT" true)) w (s.dir, sName.toList) [] := by
  have hname : (FileEvent.request w sUri "PUT" true : FileEvent β).uploads = some sName := by
    rw [FileEvent.uploads, h.puts]
  have hplace : s.place sName = (s.dir, sName.toList) := place_of_uploads s hname
  have hstep : s.step (.request w sUri "PUT" true) =
      s.put w (some { ofs := some { place := (s.dir, sName.toList) } }) (s.disk.store (s.dir, sName.toList) []) := by
    rw [FileServer.step, FileEvent.worker, h.idle, hname]
    dsimp only
    rw [begin, hplace, if_pos ⟨rfl, h.writable⟩]
  rw [hstep]
  refine ⟨⟨{ place := (s.dir, sName.toList) }, uploads_put .., rfl, rfl, rfl, Nat.zero_le _, ?_⟩, ?_⟩
  · exact Disk.lookup_store_self s.disk _ _
  · intro w' hw
    rw [writes_put_ne s hw]
    exact h.alone w'

end Delivery

section Upload
variable {w : Worker} {sUri sName : String} {es : List (FileEvent β)}

/-- An upload that nothing breaks: while it goes on the file is the beginning of what was
received, and from its end on the whole of it. -/
theorem Starts.fills (h : Starts s w sUri sName) (hother : ∀ e ∈ es, e.uploads ≠ some sName) (hgoes : .finish w ∉ es)
    (hsound : .breaks w ∉ es) : Filling (run step s (.request w sUri "PUT" true :: es)) w (s.dir, sName.toList)
      (received w es) := by
  have hroot : SameRoot s (s.step (.request w sUri "PUT" true)) := (step_steps s _).sameRoot
  have hbegun := h.filling
  rw [← hroot.dir] at hbegun ⊢
  exact hbegun.run hother hgoes hsound

theorem Starts.completes (h : Starts s w sUri sName) {later : List (FileEvent β)}
    (hother : ∀ e ∈ es ++ later, e.uploads ≠ some sName) (hgoes : .finish w ∉ es) (hsound : .breaks w ∉ es) :
    Complete (run step s (.request w sUri "PUT" true :: es ++ .finish w :: later)) (s.dir, sName.toList) (received w es) := by
  have hfilling := h.fills (fun e hmem => hother e (List.mem_append_left _ hmem)) hgoes hsound
  have hfinished := hfilling.finish.1
  have hroot : SameRoot s ((run step s (.request w sUri "PUT" true :: es)).step (.finish w)) :=
    (sameRoot_run s _).trans (step_steps _ _).sameRoot
  rw [run_append]
  rw [← hroot.dir] at hfinished ⊢
  exact hfinished.run fun e hmem => hother e (List.mem_append_right _ hmem)

end Upload

end Runs

end FileServer

end PiAudioNode.Web
