import ClassLattice.Archive.Content
import ClassLattice.ClassPath.Basic
import ClassLattice.Proofs.ClassPath.Files
import Mathlib.Data.List.Forall2

/-!
# A class path is a plain scan of its entries

A class path keeps archives open, and so its answers depend on what was asked before.  The plain
scan has no open archives: it takes the entries one after the other as they answer by themselves,
an archive as it was when a scan first reached it while it could be opened, and any other entry as
it is now.

The two give the same answers over every history of questions and changes of files, as long as no
file is written over.  Between them stands a relation that every question and every change keeps: an
open archive is the one that was opened then, and its file still has the content that it had.  What
is found in an archive depends on its content and on nothing else, so it is the same as then,
whatever the format of archives.
-/

set_option autoImplicit false

namespace ClassLattice

/-- What happens to a class path and to the files in the course of time. -/
inductive PathEvent where
  /-- The question whether there is a resource. -/
  | has (name : String)
  /-- The question for the data of a resource. -/
  | read (name : String)
  /-- A file is written, or a directory is made. -/
  | write (path : String) (content : Option Bytes)
  /-- A file or a directory is removed. -/
  | delete (path : String)
  deriving DecidableEq

/-- The answer to a question. -/
inductive PathReply where
  | found (value : Bool)
  | data (result : Except ResourceFault (Option Bytes))
  deriving DecidableEq

/-- No file is written to where a file is already. -/
def FileSystem.NothingRewritten (files : FileSystem) : List PathEvent → Prop
  | [] => True
  | .has _ :: rest => files.NothingRewritten rest
  | .read _ :: rest => files.NothingRewritten rest
  | .write path content :: rest =>
    (content.isSome → files.overwrites path = false) ∧
      (files.write path content).NothingRewritten rest
  | .delete path :: rest => (files.delete path).2.NothingRewritten rest

/-- Whether files are written over can be found out by going through the history. -/
instance FileSystem.decidableNothingRewritten (files : FileSystem) (events : List PathEvent) :
    Decidable (files.NothingRewritten events) :=
  match events with
  | [] => inferInstanceAs (Decidable True)
  | .has _ :: rest => files.decidableNothingRewritten rest
  | .read _ :: rest => files.decidableNothingRewritten rest
  | .write path content :: rest =>
    have := (files.write path content).decidableNothingRewritten rest
    inferInstanceAs (Decidable (_ ∧ _))
  | .delete path :: rest => (files.delete path).2.decidableNothingRewritten rest

/-- The answers of a class path to the questions in a history. -/
def ClassPath.replies {format : ArchiveFormat} (path : ClassPath format) (files : FileSystem) :
    List PathEvent → List PathReply
  | [] => []
  | .has name :: rest =>
    .found (path.hasResource files name).1 :: (path.hasResource files name).2.replies files rest
  | .read name :: rest =>
    .data (path.readResource files name).1 :: (path.readResource files name).2.replies files rest
  | .write target content :: rest => path.replies (files.write target content) rest
  | .delete target :: rest => path.replies (files.delete target).2 rest

/-! ## The plain scan -/

/-- Whether an entry is an archive that can be opened. -/
def PathEntry.opens (format : ArchiveFormat) (entry : PathEntry) (files : FileSystem) : Bool :=
  entry.kind != .directory &&
    match entry.openArchive format files with
    | .ok (some _) => true
    | _ => false

/-- A resource has no name in an archive exactly if the entry is a directory. -/
theorem PathEntry.archiveName?_eq_none_iff {entry : PathEntry} {name : String} :
    entry.archiveName? name = none ↔ entry.kind = .directory := by
  unfold archiveName?
  cases entry.kind <;> simp

/-- An entry in which resources have names of their own is an archive. -/
theorem PathEntry.isArchive_of_archiveName? {entry : PathEntry} {name inner : String}
    (named : entry.archiveName? name = some inner) : entry.kind ≠ .directory := by
  intro isDirectory
  rw [archiveName?_eq_none_iff.2 isDirectory] at named
  cases named

/-- An entry with the files as they were when a scan first reached it while it could be opened as
an archive. -/
structure Sight where
  entry : PathEntry
  opening : Option FileSystem := none

namespace Sight

variable (format : ArchiveFormat)

/-- The files as the entry is taken: as they were at its opening, or as they are. -/
def files (sight : Sight) (now : FileSystem) : FileSystem := sight.opening.getD now

/-- Whether a resource is in an entry as it is taken. -/
def hasResource (sight : Sight) (now : FileSystem) (name : String) : Bool :=
  sight.entry.hasResource format (sight.files now) name

/-- The data of a resource in an entry as it is taken. -/
def readResource (sight : Sight) (now : FileSystem) (name : String) :
    Except ResourceFault (Option Bytes) :=
  sight.entry.readResource format (sight.files now) name

/-- An entry after a scan has reached it. -/
def reached (sight : Sight) (now : FileSystem) : Sight :=
  if sight.opening.isNone && sight.entry.opens format now then { sight with opening := some now }
  else sight

/-- Entries after a scan that ends with the first one at which it stops. -/
def scanned (now : FileSystem) (stops : Sight → Bool) : List Sight → List Sight
  | [] => []
  | sight :: rest =>
    sight.reached format now :: if stops sight then rest else scanned now stops rest

/-- Whether an answer ends the search for the data of a resource: data or a fault. -/
def isDecisive : Except ResourceFault (Option Bytes) → Bool
  | .ok none => false
  | _ => true

/-- The first decisive answer of the entries, or that there is no such resource. -/
def firstAnswer (sights : List Sight) (now : FileSystem) (name : String) :
    Except ResourceFault (Option Bytes) :=
  ((sights.map fun sight => sight.readResource format now name).find? isDecisive).getD (.ok none)

/-- The first entry answers the question, unless it has no decisive answer. -/
theorem firstAnswer_cons (sight : Sight) (sights : List Sight) (now : FileSystem) (name : String) :
    firstAnswer format (sight :: sights) now name =
      if isDecisive (sight.readResource format now name) then sight.readResource format now name
      else firstAnswer format sights now name := by
  unfold firstAnswer
  rw [List.map_cons, List.find?_cons]
  cases isDecisive (sight.readResource format now name) <;> rfl

/-- **The answers of the plain scan** to the questions in a history. -/
def replies (sights : List Sight) (now : FileSystem) : List PathEvent → List PathReply
  | [] => []
  | .has name :: rest =>
    .found (sights.any fun sight => sight.hasResource format now name) ::
      replies
        (scanned format now (fun sight => sight.hasResource format now name) sights) now rest
  | .read name :: rest =>
    .data (firstAnswer format sights now name) ::
      replies
        (scanned format now (fun sight => isDecisive (sight.readResource format now name)) sights)
        now rest
  | .write target content :: rest => replies sights (now.write target content) rest
  | .delete target :: rest => replies sights (now.delete target).2 rest

end Sight

/-! ## An open archive is what it was -/

/-- A slot is open exactly if its entry was reached while it could be opened, and then it holds
the archive of that time, the file of which has the content that it had. -/
inductive PathSlot.Follows {format : ArchiveFormat} (now : FileSystem) :
    PathSlot format → Sight → Prop
  | closed (entry : PathEntry) : Follows now { entry } { entry }
  | opened {entry : PathEntry} {archive : OpenArchive format} {opening : FileSystem} {data : Bytes}
      (isArchive : entry.kind ≠ .directory)
      (opens : entry.openArchive format opening = .ok (some archive))
      (held : opening.contents[archive.file]? = some data)
      (holds : now.contents[archive.file]? = some data) :
      Follows now { entry, archive := some archive } { entry, opening := some opening }

variable {format : ArchiveFormat}

/-- An open archive gives out the same entries while its file has the same content. -/
theorem OpenArchive.entry_eq {archive : OpenArchive format} {now opening : FileSystem}
    (same : now.content archive.file = opening.content archive.file) (name : String) :
    archive.entry now name = archive.entry opening name := by
  rw [OpenArchive.entry, OpenArchive.entry, same]

namespace PathSlot.Follows

variable {now later : FileSystem} {slot : PathSlot format} {sight : Sight} {name : String}

/-- Slot and entry belong together. -/
theorem entry_eq (h : slot.Follows now sight) : slot.entry = sight.entry := by
  cases h <;> rfl

/-- **A change of the files that keeps their contents keeps what an open archive is.** -/
theorem keep (keeps : now.Keeps later) (h : slot.Follows now sight) : slot.Follows later sight := by
  cases h with
  | closed entry => exact .closed entry
  | @opened _ archive _ data isArchive opens held holds =>
    have stays := keeps archive.file data holds
    exact .opened isArchive opens held stays

/-- **Opening leads to the archive as the plain scan takes it**, and leaves the slot open exactly
if the entry counts as opened from then on. -/
theorem ensureOpen (h : slot.Follows now sight) (isArchive : sight.entry.kind ≠ .directory) :
    (slot.ensureOpen now).1 = sight.entry.openArchive format (sight.files now) ∧
      (slot.ensureOpen now).2.Follows now (sight.reached format now) ∧
      ∀ archive, (slot.ensureOpen now).1 = .ok (some archive) →
        now.content archive.file = (sight.files now).content archive.file := by
  cases h with
  | closed entry =>
    have kind : (entry.kind != .directory) = true := by simpa using isArchive
    unfold PathSlot.ensureOpen Sight.reached PathEntry.opens
    cases opened : entry.openArchive format now with
    | error fault =>
      simp only [kind]
      exact ⟨opened.symm, .closed entry, fun _ found => nomatch found⟩
    | ok found =>
      cases found with
      | none =>
        simp only [kind]
        exact ⟨opened.symm, .closed entry, fun _ found => nomatch found⟩
      | some archive =>
        simp only [kind]
        obtain ⟨data, held⟩ := PathEntry.exists_content_of_openArchive opened
        exact ⟨opened.symm, .opened isArchive opened held held, fun _ _ => rfl⟩
  | @opened entry archive opening data _ opens held holds =>
    refine ⟨opens.symm, .opened isArchive opens held holds, ?_⟩
    intro other found
    obtain rfl := Option.some.inj (Except.ok.inj found)
    show now.contents[archive.file]?.getD [] = opening.contents[archive.file]?.getD []
    rw [holds, held]

/-- A directory is taken as it is, and a question about it opens nothing. -/
theorem directory (h : slot.Follows now sight) (isDirectory : sight.entry.kind = .directory) :
    sight.files now = now ∧ sight.reached format now = sight := by
  cases h with
  | closed entry =>
    have kind : (entry.kind != .directory) = false := by simpa using isDirectory
    simp [Sight.files, Sight.reached, PathEntry.opens, kind]
  | opened isArchive => exact absurd isDirectory isArchive

/-- **A slot answers whether it has a resource as the plain scan does**, and is reached by it. -/
theorem hasResource (h : slot.Follows now sight) (name : String) :
    (slot.hasResource now name).1 = sight.hasResource format now name ∧
      (slot.hasResource now name).2.Follows now (sight.reached format now) := by
  unfold PathSlot.hasResource Sight.hasResource PathEntry.hasResource
  rw [h.entry_eq]
  cases named : sight.entry.archiveName? name with
  | none =>
    obtain ⟨files, reached⟩ := h.directory (PathEntry.archiveName?_eq_none_iff.1 named)
    rw [files, reached]
    exact ⟨rfl, h⟩
  | some inner =>
    obtain ⟨opened, follows, content⟩ := h.ensureOpen (PathEntry.isArchive_of_archiveName? named)
    cases ran : slot.ensureOpen now with
    | mk result after =>
      rw [ran] at opened follows content
      rw [← opened]
      cases result with
      | error fault => exact ⟨rfl, follows⟩
      | ok found =>
        cases found with
        | none => exact ⟨rfl, follows⟩
        | some archive =>
          refine ⟨?_, follows⟩
          show archive.has now inner = archive.has (sight.files now) inner
          rw [OpenArchive.has, OpenArchive.has, OpenArchive.entry_eq (content archive rfl)]

/-- **A slot answers with the data of a resource as the plain scan does**, and is reached by it. -/
theorem readResource (h : slot.Follows now sight) (name : String) :
    (slot.readResource now name).1 = sight.readResource format now name ∧
      (slot.readResource now name).2.Follows now (sight.reached format now) := by
  unfold PathSlot.readResource Sight.readResource PathEntry.readResource
  rw [h.entry_eq]
  cases named : sight.entry.archiveName? name with
  | none =>
    obtain ⟨files, reached⟩ := h.directory (PathEntry.archiveName?_eq_none_iff.1 named)
    rw [files, reached]
    exact ⟨rfl, h⟩
  | some inner =>
    obtain ⟨opened, follows, content⟩ := h.ensureOpen (PathEntry.isArchive_of_archiveName? named)
    cases ran : slot.ensureOpen now with
    | mk result after =>
      rw [ran] at opened follows content
      rw [← opened]
      cases result with
      | error fault => exact ⟨rfl, follows⟩
      | ok found =>
        cases found with
        | none => exact ⟨rfl, follows⟩
        | some archive =>
          refine ⟨?_, follows⟩
          show archive.read now inner = archive.read (sight.files now) inner
          rw [OpenArchive.read, OpenArchive.read, OpenArchive.entry_eq (content archive rfl)]

end PathSlot.Follows

/-! ## Scans -/

namespace ClassPath

variable {now : FileSystem} {slots : List (PathSlot format)} {sights : List Sight}

/-- **A search for whether there is a resource goes as the plain scan does**, and reaches the same
entries. -/
theorem searchSlots_follows (h : List.Forall₂ (PathSlot.Follows now) slots sights)
    (name : String) :
    (searchSlots now name slots).1 = sights.any (fun sight => sight.hasResource format now name) ∧
      List.Forall₂ (PathSlot.Follows now) (searchSlots now name slots).2
        (Sight.scanned format now (fun sight => sight.hasResource format now name) sights) := by
  induction h with
  | nil => exact ⟨rfl, .nil⟩
  | @cons slot sight slots sights follows rest ih =>
    obtain ⟨answer, reached⟩ := follows.hasResource name
    obtain ⟨found, others⟩ := ih
    rw [searchSlots, List.any_cons, Sight.scanned, ← answer]
    cases ran : slot.hasResource now name with
    | mk has after =>
      rw [ran] at reached
      cases has with
      | true => exact ⟨rfl, .cons reached rest⟩
      | false => exact ⟨found, .cons reached others⟩

/-- **A search for the data of a resource goes as the plain scan does**, up to the first decisive
answer, and reaches the same entries. -/
theorem readSlots_follows (h : List.Forall₂ (PathSlot.Follows now) slots sights)
    (name : String) :
    (readSlots now name slots).1 = Sight.firstAnswer format sights now name ∧
      List.Forall₂ (PathSlot.Follows now) (readSlots now name slots).2
        (Sight.scanned format now
          (fun sight => Sight.isDecisive (sight.readResource format now name)) sights) := by
  induction h with
  | nil => exact ⟨rfl, .nil⟩
  | @cons slot sight slots sights follows rest ih =>
    obtain ⟨answer, reached⟩ := follows.readResource name
    obtain ⟨found, others⟩ := ih
    rw [readSlots, Sight.firstAnswer_cons, Sight.scanned, ← answer]
    cases ran : slot.readResource now name with
    | mk result after =>
      rw [ran] at reached
      cases result with
      | error fault => exact ⟨rfl, .cons reached rest⟩
      | ok data =>
        cases data with
        | none => exact ⟨found, .cons reached others⟩
        | some data => exact ⟨rfl, .cons reached rest⟩

/-- The answers of slots that follow entries are those of the plain scan. -/
theorem replies_follows {events : List PathEvent} (unwritten : now.NothingRewritten events)
    (h : List.Forall₂ (PathSlot.Follows now) slots sights) :
    (ClassPath.mk slots).replies now events = Sight.replies format sights now events := by
  induction events generalizing now slots sights with
  | nil => rfl
  | cons event rest ih =>
    cases event with
    | has name =>
      obtain ⟨answer, follows⟩ := searchSlots_follows h name
      exact congrArg₂ List.cons (congrArg PathReply.found answer) (ih unwritten follows)
    | read name =>
      obtain ⟨answer, follows⟩ := readSlots_follows h name
      exact congrArg₂ List.cons (congrArg PathReply.data answer) (ih unwritten follows)
    | write path content =>
      obtain ⟨vacant, unwritten⟩ := unwritten
      have keeps := FileSystem.keeps_write content vacant
      exact ih unwritten (h.imp fun _ _ follows => follows.keep keeps)
    | delete path =>
      have keeps := now.keeps_delete path
      exact ih unwritten (h.imp fun _ _ follows => follows.keep keeps)

/-- **A class path answers as the plain scan of its entries does**, over every history of questions
and changes of files in which no file is written over, and for every format of archives. -/
theorem replies_ofEntries (format : ArchiveFormat) (entries : List PathEntry) (files : FileSystem)
    (events : List PathEvent) (unwritten : files.NothingRewritten events) :
    (ofEntries entries : ClassPath format).replies files events =
      Sight.replies format (entries.map fun entry => { entry }) files events := by
  apply replies_follows unwritten
  rw [List.forall₂_map_left_iff, List.forall₂_map_right_iff, List.forall₂_same]
  intro entry _
  exact .closed entry

/-- An archive with the resource `x`, which holds the letter `y`. -/
def archiveOfX : Bytes :=
  [80, 75, 3, 4, 20, 0, 0, 0, 0, 0, 0, 0, 33, 0, 21, 38, 219, 251, 1, 0, 0, 0, 1, 0, 0, 0, 1, 0, 0,
    0, 120, 121, 80, 75, 1, 2, 20, 3, 20, 0, 0, 0, 0, 0, 0, 0, 33, 0, 21, 38, 219, 251, 1, 0, 0, 0,
    1, 0, 0, 0, 1, 0, 0, 0, 0, 0, 0, 0, 0, 0, 0, 0, 128, 1, 0, 0, 0, 0, 120, 80, 75, 5, 6, 0, 0, 0,
    0, 1, 0, 1, 0, 47, 0, 0, 0, 32, 0, 0, 0, 0, 0]

/-- The archive is missing at first, found as soon as it is there, and read after it is deleted,
whichever way its path is given. -/
theorem replies_ofEntries_deleted :
    (ofEntries [⟨.jar, "/lib/a.jar"⟩, ⟨.directory, "classes"⟩] : ClassPath .zip).replies .empty
        [.has "x", .write "lib/a.jar" (some archiveOfX), .has "x", .delete "lib/../lib/a.jar",
          .write "/classes/x" (some [0]), .read "x"] =
      [.found false, .found true, .data (.ok (some [121]))] := by
  rw [replies_ofEntries .zip _ _ _ (by decide +kernel)]
  decide +kernel

end ClassPath

end ClassLattice
