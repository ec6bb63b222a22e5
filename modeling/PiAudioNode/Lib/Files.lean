import Mathlib

/-! Files behind paths. A path leads to a directory and to a name in it. A file that is
open for writing is filled by a writer which keeps its own offset. -/
namespace PiAudioNode.Lib

/-- A directory, by its names from the root down. -/
abbrev Folder := List (List Char)

def walkPart (place : Folder) (sPart : List Char) : Folder :=
  if sPart = [] ∨ sPart = ['.'] then place else if sPart = ['.', '.'] then place.dropLast else place ++ [sPart]

/-- Where a path leads: to the directory that its parts but the last walk to, and the last
part as a name in it. -/
def leads (cwd : Folder) (sPath : List Char) : Folder × List Char :=
  ((sPath.splitOn '/').dropLast.foldl walkPart (if sPath.head? = some '/' then [] else cwd),
    (sPath.splitOn '/').getLastD [])

/-- The other last parts name a directory whatever it holds. -/
def IsEntry (sPart : List Char) : Prop := sPart ≠ [] ∧ sPart ≠ ['.'] ∧ sPart ≠ ['.', '.']

instance (sPart : List Char) : Decidable (IsEntry sPart) :=
  inferInstanceAs (Decidable (_ ∧ _ ∧ _))

/-- Behind a directory and a slash, a name without one is looked up in that directory. -/
theorem leads_join (cwd : Folder) (sDir : List Char) {sName : List Char} (h : '/' ∉ sName) :
    leads cwd (sDir ++ '/' :: sName) = ((leads cwd (sDir ++ ['/'])).1, sName) := by
  have hname : sName.splitOn '/' = [sName] := List.splitOn_eq_singleton h
  have hnone : ([] : List Char).splitOn '/' = [[]] := List.splitOn_eq_singleton List.not_mem_nil
  have hhead : (sDir ++ '/' :: sName).head? = (sDir ++ ['/']).head? := by
    cases sDir <;> rfl
  simp only [leads, hhead, List.splitOn_append_cons_self, hname, hnone, List.dropLast_concat]
  simp

variable {β : Type*}

/-- The files with their contents, and the directories there are. -/
structure Disk (β : Type*) where
  files : AList fun _ : Folder × List Char => List β
  dirs : List Folder

namespace Disk

/-- What reading a path gives. -/
def read (d : Disk β) (cwd : Folder) (sPath : List Char) : Option (List β) := d.files.lookup (leads cwd sPath)

def store (d : Disk β) (place : Folder × List Char) (vBytes : List β) : Disk β :=
  { d with files := d.files.insert place vBytes }

/-- A file can be made or emptied there. -/
def Writable (d : Disk β) (place : Folder × List Char) : Prop :=
  place.1 ∈ d.dirs ∧ IsEntry place.2 ∧ place.1 ++ [place.2] ∉ d.dirs

instance (d : Disk β) (place : Folder × List Char) : Decidable (d.Writable place) :=
  inferInstanceAs (Decidable (_ ∧ _ ∧ _))

/-- The names in a directory. -/
def entries (d : Disk β) (place : Folder) : List (List Char) :=
  [['.'], ['.', '.']] ++ ((d.files.keys.filter (·.1 = place)).map Prod.snd ++
    (d.dirs.filter (·.dropLast = place)).filterMap List.getLast?)

@[simp] theorem lookup_store_self (d : Disk β) (place : Folder × List Char) (vBytes : List β) :
    (d.store place vBytes).files.lookup place = some vBytes := AList.lookup_insert _

theorem lookup_store_ne (d : Disk β) {place other : Folder × List Char} (h : other ≠ place) (vBytes : List β) :
    (d.store place vBytes).files.lookup other = d.files.lookup other := AList.lookup_insert_ne h

@[simp] theorem dirs_store (d : Disk β) (place : Folder × List Char) (vBytes : List β) :
    (d.store place vBytes).dirs = d.dirs := rfl

theorem mem_entries_of_lookup {d : Disk β} {place : Folder} {sName : List Char} {vBytes : List β}
    (h : d.files.lookup (place, sName) = some vBytes) : sName ∈ d.entries place := by
  have hkey : (place, sName) ∈ d.files.keys := AList.mem_keys.mp (AList.lookup_isSome.mp (by rw [h]; rfl))
  apply List.mem_append_right
  apply List.mem_append_left
  exact List.mem_map.mpr ⟨_, List.mem_filter.mpr ⟨hkey, decide_eq_true rfl⟩, rfl⟩

end Disk

section Writers
variable [Zero β]

/-- Bytes written at an offset. A gap in front of them is filled with zeros. -/
def patch (n : Nat) (vNew vOld : List β) : List β :=
  (vOld.take n ++ List.replicate (n - vOld.length) 0) ++ (vNew ++ vOld.drop (n + vNew.length))

/-- What comes next is added at the end of what is there. -/
theorem patch_take (vBytes : List β) {n : Nat} (hn : n ≤ vBytes.length) (k : Nat) :
    patch n ((vBytes.drop n).take k) (vBytes.take n) = vBytes.take (n + k) := by
  have hlength : (vBytes.take n).length = n := List.length_take_of_le hn
  have hrest : (vBytes.take n).drop (n + ((vBytes.drop n).take k).length) = [] := by
    apply List.drop_eq_nil_of_le
    omega
  rw [patch, hrest, hlength, Nat.sub_self, List.replicate_zero, List.append_nil, List.append_nil, List.take_take,
    min_self, List.take_add]

/-- A file open for writing: what it was given, and how much of that has come to the
file. After a failure nothing more comes. -/
structure Writer (β : Type*) where
  place : Folder × List Char
  vGiven : List β := []
  nDone : Nat := 0
  bBroken : Bool := false

namespace Writer

/-- So many more bytes come to the file, or what there is. -/
def pass (w : Writer β) (n : Nat) (d : Disk β) : Writer β × Disk β :=
  if w.bBroken then (w, d)
  else
    let vNext := (w.vGiven.drop w.nDone).take n
    ({ w with nDone := w.nDone + vNext.length },
      d.store w.place (patch w.nDone vNext ((d.files.lookup w.place).getD [])))

/-- The file holds what has come to it of what its writer was given. -/
def Fills (w : Writer β) (d : Disk β) : Prop :=
  w.nDone ≤ w.vGiven.length ∧ d.files.lookup w.place = some (w.vGiven.take w.nDone)

variable {w : Writer β} {d : Disk β}

@[simp] theorem pass_place (w : Writer β) (n : Nat) (d : Disk β) : (w.pass n d).1.place = w.place := by
  unfold pass
  split_ifs <;> rfl

@[simp] theorem pass_given (w : Writer β) (n : Nat) (d : Disk β) : (w.pass n d).1.vGiven = w.vGiven := by
  unfold pass
  split_ifs <;> rfl

@[simp] theorem pass_broken (w : Writer β) (n : Nat) (d : Disk β) : (w.pass n d).1.bBroken = w.bBroken := by
  unfold pass
  split_ifs <;> rfl

@[simp] theorem pass_dirs (w : Writer β) (n : Nat) (d : Disk β) : (w.pass n d).2.dirs = d.dirs := by
  unfold pass
  split_ifs <;> rfl

/-- Only the writer's own file changes. -/
theorem lookup_pass_ne (w : Writer β) (n : Nat) (d : Disk β) {other : Folder × List Char} (h : other ≠ w.place) :
    (w.pass n d).2.files.lookup other = d.files.lookup other := by
  unfold pass
  split_ifs
  · rfl
  · exact Disk.lookup_store_ne d h _

theorem Fills.pass (h : w.Fills d) (n : Nat) : (w.pass n d).1.Fills (w.pass n d).2 := by
  obtain ⟨hle, hfile⟩ := h
  unfold Writer.pass
  split_ifs
  · exact ⟨hle, hfile⟩
  · have hlength : ((w.vGiven.drop w.nDone).take n).length = min n (w.vGiven.length - w.nDone) := by
      rw [List.length_take, List.length_drop]
    simp only [Fills, hlength]
    refine ⟨by omega, ?_⟩
    rw [Disk.lookup_store_self, hfile, Option.getD_some, patch_take _ hle]
    congr 1
    rw [List.take_eq_take_iff]
    omega

/-- A writer that is not broken passes all it was given. -/
theorem Fills.close (h : w.Fills d) (hsound : w.bBroken = false) {n : Nat} (hn : w.vGiven.length ≤ n) :
    (w.pass n d).2.files.lookup w.place = some w.vGiven := by
  obtain ⟨hle, hfile⟩ := h
  rw [Writer.pass, hsound, if_neg Bool.false_ne_true, Disk.lookup_store_self, hfile, Option.getD_some, patch_take _ hle,
    List.take_of_length_le (by omega)]

end Writer

end Writers

end PiAudioNode.Lib
