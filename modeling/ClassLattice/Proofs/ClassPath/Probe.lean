import ClassLattice.Archive.Content
import ClassLattice.ClassPath.TypeReader
import Mathlib.Data.List.Basic

/-!
# Whether there is a type and what is read of it

Two searches go over the entries of a class path, one for whether there is a resource and one for
its data.  They ask different things of files and archives, the first passes over what cannot be
opened and the second ends there, and each opens archives for the other.

They fit together all the same: what can be read is there, and what is not found is not there.  That
an entry of an archive is there means that it can be looked up, which is also where reading it
starts, so the format of archives does not matter.  Neither does it matter which archives are open,
for as long as the files stay as they are: a slot in which all has been opened that can be answers
as before, and that is what every search leads to.
-/

set_option autoImplicit false

namespace ClassLattice

/-! ## Answers that fit together -/

/-- The answer to the question for the data of a resource fits the one whether there is a resource.
A fault fits both. -/
inductive ResourceFits : Except ResourceFault (Option Bytes) → Bool → Prop
  | found (data : Bytes) : ResourceFits (.ok (some data)) true
  | missing : ResourceFits (.ok none) false
  | fault (fault : ResourceFault) (found : Bool) : ResourceFits (.error fault) found

/-- The answer to the question for the metadata of a type fits the one whether there is the type.
Where the type cannot be read both answers are possible, and the fault names the type. -/
inductive TypeFits (name : String) : Except HierarchyError TypeMetadata → Bool → Prop
  | found (metadata : TypeMetadata) : TypeFits name (.ok metadata) true
  | missing : TypeFits name (.error (.notFound name)) false
  | unreadable (fault : ReadFault) (found : Bool) :
    TypeFits name (.error (.unreadable name fault)) found

/-- Answers fit if data are there where there is a resource and nothing is where there is none. -/
theorem ResourceFits.of_iff {result : Except ResourceFault (Option Bytes)} {found : Bool}
    (there : ∀ data, result = .ok (some data) → found = true)
    (missing : result = .ok none → found = false) : ResourceFits result found := by
  cases result with
  | error fault => exact .fault fault found
  | ok data =>
    cases data with
    | none =>
      rw [missing rfl]
      exact .missing
    | some data =>
      rw [there data rfl]
      exact .found data

/-- The metadata of a type fit as its resource does. -/
theorem ResourceFits.metadataOf {result : Except ResourceFault (Option Bytes)} {found : Bool}
    (fits : ResourceFits result found) (name : String) :
    TypeFits name (ClassPath.metadataOf name result) found := by
  cases fits with
  | missing => exact .missing
  | fault fault found => exact .unreadable fault.readFault found
  | found data =>
    rw [ClassPath.metadataOf]
    cases ClassHeader.parse data with
    | ok header => exact .found header.metadata
    | error error => exact .unreadable (.classFile error) true

variable {format : ArchiveFormat} {files : FileSystem} {slot : PathSlot format}
  {slots : List (PathSlot format)} {path : ClassPath format}

/-- What a file system says of a path fits together. -/
theorem FileSystem.read_fits (files : FileSystem) (path : String) :
    ResourceFits (files.read path) (files.isFile path) :=
  .of_iff (fun _ => isFile_of_read) isFile_of_read_none

/-- **What an open archive says of an entry fits together**: reading starts with looking it up. -/
theorem OpenArchive.read_fits (archive : OpenArchive format) (files : FileSystem) (name : String) :
    ResourceFits (archive.read files name) (archive.has files name) := by
  unfold read has
  cases archive.entry files name with
  | error fault =>
    cases fault with
    | absent => exact .missing
    | refused => exact .fault .archive false
  | ok entry =>
    dsimp only
    cases format.data? entry with
    | none => exact .fault .transfer true
    | some data => exact .found data

/-! ## One slot -/

namespace PathSlot

/-- The slot once its archive is open, if it can be opened. -/
def settled (slot : PathSlot format) (files : FileSystem) : PathSlot format :=
  (slot.ensureOpen files).2

/-- Opening an archive leaves the entry of a slot as it is. -/
theorem entry_settled : (slot.settled files).entry = slot.entry := by
  unfold settled ensureOpen
  split
  · rfl
  · split <;> rfl

/-- **Opening a second time makes no difference**, whether it worked the first time or not. -/
theorem ensureOpen_settled : (slot.settled files).ensureOpen files = slot.ensureOpen files := by
  obtain ⟨entry, archive⟩ := slot
  cases archive with
  | some archive => simp [settled, ensureOpen]
  | none =>
    cases opened : entry.openArchive format files with
    | error fault => simp [settled, ensureOpen, opened]
    | ok archive => cases archive <;> simp [settled, ensureOpen, opened]

/-- Opening all that can be opened a second time makes no difference. -/
theorem settled_settled : (slot.settled files).settled files = slot.settled files :=
  congrArg Prod.snd ensureOpen_settled

/-- Questions about a directory leave its slot alone. -/
theorem hasResource_of_directory {name : String} (named : slot.entry.archiveName? name = none) :
    slot.hasResource files name = (slot.entry.hasResource format files name, slot) := by
  rw [hasResource, named]

/-- Reading from a directory leaves its slot alone. -/
theorem readResource_of_directory {name : String} (named : slot.entry.archiveName? name = none) :
    slot.readResource files name = (slot.entry.readResource format files name, slot) := by
  rw [readResource, named]

/-- Questions about an archive open it. -/
theorem hasResource_of_archive {name inner : String}
    (named : slot.entry.archiveName? name = some inner) :
    slot.hasResource files name =
      (match (slot.ensureOpen files).1 with
        | .ok (some archive) => archive.has files inner
        | _ => false, slot.settled files) := by
  rw [hasResource, named, settled]
  dsimp only
  obtain ⟨result, after⟩ := slot.ensureOpen files
  cases result with
  | error fault => rfl
  | ok archive => cases archive <;> rfl

/-- Reading from an archive opens it. -/
theorem readResource_of_archive {name inner : String}
    (named : slot.entry.archiveName? name = some inner) :
    slot.readResource files name =
      (match (slot.ensureOpen files).1 with
        | .ok (some archive) => archive.read files inner
        | .ok none => .ok none
        | .error fault => .error fault, slot.settled files) := by
  rw [readResource, named, settled]
  dsimp only
  obtain ⟨result, after⟩ := slot.ensureOpen files
  cases result with
  | error fault => rfl
  | ok archive => cases archive <;> rfl

/-- **A slot answers as it does once it is settled.** -/
theorem answers_settled (slot : PathSlot format) (files : FileSystem) (name : String) :
    ((slot.settled files).hasResource files name).1 = (slot.hasResource files name).1 ∧
      ((slot.settled files).readResource files name).1 = (slot.readResource files name).1 := by
  cases named : slot.entry.archiveName? name with
  | none =>
    have named' : (slot.settled files).entry.archiveName? name = none := by rwa [entry_settled]
    rw [hasResource_of_directory named, hasResource_of_directory named',
      readResource_of_directory named, readResource_of_directory named', entry_settled]
    exact ⟨rfl, rfl⟩
  | some inner =>
    have named' : (slot.settled files).entry.archiveName? name = some inner := by
      rwa [entry_settled]
    rw [hasResource_of_archive named, hasResource_of_archive named',
      readResource_of_archive named, readResource_of_archive named', ensureOpen_settled]
    exact ⟨rfl, rfl⟩

/-- **Questions do nothing but settle a slot.** -/
theorem settled_after (slot : PathSlot format) (files : FileSystem) (name : String) :
    (slot.hasResource files name).2.settled files = slot.settled files ∧
      (slot.readResource files name).2.settled files = slot.settled files := by
  cases named : slot.entry.archiveName? name with
  | none =>
    rw [hasResource_of_directory named, readResource_of_directory named]
    exact ⟨rfl, rfl⟩
  | some inner =>
    rw [hasResource_of_archive named, readResource_of_archive named]
    exact ⟨settled_settled, settled_settled⟩

/-- **What a slot says of a resource fits together.** -/
theorem readResource_fits (slot : PathSlot format) (files : FileSystem) (name : String) :
    ResourceFits (slot.readResource files name).1 (slot.hasResource files name).1 := by
  cases named : slot.entry.archiveName? name with
  | none =>
    rw [hasResource_of_directory named, readResource_of_directory named, PathEntry.hasResource,
      PathEntry.readResource, named]
    exact files.read_fits _
  | some inner =>
    rw [hasResource_of_archive named, readResource_of_archive named]
    cases (slot.ensureOpen files).1 with
    | error fault => exact .fault fault false
    | ok archive =>
      cases archive with
      | none => exact .missing
      | some archive => exact archive.read_fits files inner

end PathSlot

/-! ## The whole class path -/

namespace ClassPath

/-- A search that ends early leaves the other slots as they are. -/
theorem searchSlots_cons (slot : PathSlot format) (slots : List (PathSlot format))
    (files : FileSystem) (name : String) :
    searchSlots files name (slot :: slots) =
      if (slot.hasResource files name).1 then (true, (slot.hasResource files name).2 :: slots)
      else ((searchSlots files name slots).1,
        (slot.hasResource files name).2 :: (searchSlots files name slots).2) := by
  rw [searchSlots]
  obtain ⟨found, after⟩ := slot.hasResource files name
  cases found <;> rfl

/-- A search for data ends with the first slot that has them or fails. -/
theorem readSlots_cons (slot : PathSlot format) (slots : List (PathSlot format))
    (files : FileSystem) (name : String) :
    readSlots files name (slot :: slots) =
      match (slot.readResource files name).1 with
      | .ok none => ((readSlots files name slots).1,
          (slot.readResource files name).2 :: (readSlots files name slots).2)
      | result => (result, (slot.readResource files name).2 :: slots) := by
  rw [readSlots]
  obtain ⟨result, after⟩ := slot.readResource files name
  cases result with
  | error fault => rfl
  | ok data => cases data <;> rfl

/-- **What is read of a resource fits whether there is one.**  The induction is on the slots: up to
the one that ends the search for the data neither search finds anything, and behind it only the
search for whether there is a resource can go on, which is after a fault. -/
theorem readSlots_fits (slots : List (PathSlot format)) (files : FileSystem) (name : String) :
    ResourceFits (readSlots files name slots).1 (searchSlots files name slots).1 := by
  induction slots with
  | nil => exact .missing
  | cons slot rest ih =>
    rw [searchSlots_cons, readSlots_cons]
    have fits := slot.readResource_fits files name
    generalize (slot.readResource files name).1 = result at fits ⊢
    generalize (slot.hasResource files name).1 = found at fits ⊢
    cases fits with
    | found data => exact .found data
    | missing => exact ih
    | fault fault => exact .fault fault _

/-- The class path with all archives open that can be opened. -/
def settled (path : ClassPath format) (files : FileSystem) : ClassPath format :=
  ⟨path.slots.map fun slot => slot.settled files⟩

/-- A search for whether there is a resource answers as it does once all is open, and opens archives
only. -/
theorem searchSlots_settled (slots : List (PathSlot format)) (files : FileSystem) (name : String) :
    (searchSlots files name (slots.map fun slot => slot.settled files)).1 =
        (searchSlots files name slots).1 ∧
      (searchSlots files name slots).2.map (fun slot => slot.settled files) =
        slots.map fun slot => slot.settled files := by
  induction slots with
  | nil => exact ⟨rfl, rfl⟩
  | cons slot rest ih =>
    obtain ⟨answer, after⟩ := ih
    rw [List.map_cons, searchSlots_cons, searchSlots_cons, (slot.answers_settled files name).1]
    split
    · simp [(slot.settled_after files name).1]
    · simp [answer, after, (slot.settled_after files name).1]

/-- A search for data answers as it does once all is open, and opens archives only. -/
theorem readSlots_settled (slots : List (PathSlot format)) (files : FileSystem) (name : String) :
    (readSlots files name (slots.map fun slot => slot.settled files)).1 =
        (readSlots files name slots).1 ∧
      (readSlots files name slots).2.map (fun slot => slot.settled files) =
        slots.map fun slot => slot.settled files := by
  induction slots with
  | nil => exact ⟨rfl, rfl⟩
  | cons slot rest ih =>
    obtain ⟨answer, after⟩ := ih
    rw [List.map_cons, readSlots_cons, readSlots_cons, (slot.answers_settled files name).2]
    split
    · simp [answer, after, (slot.settled_after files name).2]
    · simp [(slot.settled_after files name).2]

/-- A question to a class path about one resource. -/
inductive Question where
  /-- Whether there is the resource. -/
  | has (name : String)
  /-- What its data are. -/
  | read (name : String)

/-- The class path after a question. -/
def asked (files : FileSystem) (path : ClassPath format) : Question → ClassPath format
  | .has name => (path.hasResource files name).2
  | .read name => (path.readResource files name).2

/-- The class path after questions one after the other. -/
def askedAll (files : FileSystem) (path : ClassPath format) (questions : List Question) :
    ClassPath format :=
  questions.foldl (asked files) path

/-- A question opens archives and does nothing else. -/
theorem settled_asked (question : Question) :
    (asked files path question).settled files = path.settled files := by
  cases question with
  | has name => exact congrArg ClassPath.mk (searchSlots_settled path.slots files name).2
  | read name => exact congrArg ClassPath.mk (readSlots_settled path.slots files name).2

/-- **Questions open archives and do nothing else.** -/
theorem settled_askedAll (questions : List Question) :
    (askedAll files path questions).settled files = path.settled files := by
  induction questions generalizing path with
  | nil => rfl
  | cons question rest ih => exact ih.trans (settled_asked question)

/-- Whether there is a type does not depend on which archives are open. -/
theorem hasType_settled (path : ClassPath format) (files : FileSystem) (name : String) :
    ((path.settled files).hasType files name).1 = (path.hasType files name).1 :=
  (searchSlots_settled path.slots files (resourceName name)).1

/-- What is read of a type does not depend on which archives are open. -/
theorem readType_settled (path : ClassPath format) (files : FileSystem) (name : String) :
    ((path.settled files).readType files name).1 = (path.readType files name).1 :=
  congrArg (metadataOf name) (readSlots_settled path.slots files (resourceName name)).1

/-- **Whether there is a type fits what is read of it**, whatever the format of archives, whatever
entries there are, whichever archives are open, and whatever is asked before the one and before the
other question while the files stay as they are: a type that is read is there, one that is not found
is not there, and the only other outcome is a fault that names the type. -/
theorem readType_fits_hasType (path : ClassPath format) (files : FileSystem) (name : String)
    (questions others : List Question) :
    TypeFits name ((askedAll files path questions).readType files name).1
      ((askedAll files path others).hasType files name).1 := by
  rw [← readType_settled, ← hasType_settled, settled_askedAll, settled_askedAll]
  exact (readSlots_fits _ files _).metadataOf name

/-- A broken archive makes a type unreadable, whether or not a directory behind it has the type. -/
example :
    (["x", "y"].map fun name =>
      let files := (FileSystem.empty.write "a.jar" (some [0])).write "classes/x.class" (some [0])
      let path : ClassPath .zip := ofEntries [⟨.jar, "a.jar"⟩, ⟨.directory, "classes"⟩]
      ((path.readType files name).1, (path.hasType files name).1)) =
      [(.error (.unreadable "x" .archive), true), (.error (.unreadable "y" .archive), false)] := by
  decide +kernel

end ClassPath

end ClassLattice
