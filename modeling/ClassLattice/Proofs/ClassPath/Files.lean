import ClassLattice.ClassPath.Entry
import ClassLattice.Proofs.Table

/-!
# What happens to the contents of files

Deleting takes away names and no content, and making directories adds names.  Writing a file adds a
content, unless the file is there already, which then gets another one.  So the contents of all
files stay for as long as none is written over.

What is written to a path is read from it afterwards, be it absolute or relative, and whatever
directories had to be made for it: making directories takes nothing away, and what could be followed
before can be followed in what extends it.
-/

set_option autoImplicit false

namespace ClassLattice

namespace FileSystem

variable {old new files : FileSystem} {path : String} {names : List String}

/-- Every file that there was has its content still, whatever became of the names that led to
it. -/
def Keeps (old new : FileSystem) : Prop :=
  ∀ (number : Nat) (data : Bytes), old.contents[number]? = some data →
    new.contents[number]? = some data

/-- Files keep their contents where no content changes at all. -/
theorem keeps_of_contents_eq (same : new.contents = old.contents) : old.Keeps new := by
  intro number data held
  rw [same]
  exact held

/-- Files keep their contents where a new one comes in. -/
theorem keeps_of_push {data : Bytes} (pushed : new.contents = old.contents.push data) :
    old.Keeps new := by
  intro number before held
  obtain ⟨inside, -⟩ := Array.getElem?_eq_some_iff.1 held
  rw [pushed, Array.getElem?_push_lt inside, ← held, Array.getElem?_eq_getElem inside]

/-- Making directories touches no content and leaves the working directory where it is. -/
theorem same_addDirectories {parts last : List String}
    (h : files.addDirectories names parts = some (new, last)) :
    new.contents = files.contents ∧ new.workingDirectory = files.workingDirectory := by
  induction parts generalizing files names with
  | nil =>
    cases h
    exact ⟨rfl, rfl⟩
  | cons component rest ih =>
    rw [addDirectories] at h
    split at h
    · exact ih h
    · cases h
    · split at h
      · have same := ih h
        exact same
      · cases h

/-- What making the way to a file comes to: the directories on the way are made, and the path ends
with a name in the last of them. -/
theorem of_makeWay (h : files.makeWay path = some (new, names)) :
    ∃ place last, files.addDirectories (files.start path) (Path.components path).dropLast =
        some (new, place) ∧ (Path.components path).getLast? = some last ∧
      isUsable path = true ∧ isName last = true ∧ new.node? place = some .directory ∧
      names = place ++ [last] := by
  unfold makeWay at h
  dsimp only at h
  split at h
  · cases h
  · rename_i last ends
    split at h
    · rename_i usable
      obtain ⟨usable, named⟩ := Bool.and_eq_true_iff.1 usable
      split at h
      · cases h
      · rename_i way place walked
        split at h
        · rename_i directory
          cases h
          exact ⟨place, last, walked, ends, usable, named, directory, rfl⟩
        · cases h
    · cases h

/-- The way to a file is made without touching a content. -/
theorem contents_makeWay (h : files.makeWay path = some (new, names)) :
    new.contents = files.contents := by
  obtain ⟨place, last, walked, -⟩ := of_makeWay h
  exact (same_addDirectories walked).1

/-- A file is put as a new one behind all others, or it takes the place of what it held. -/
theorem keeps_putFile (data : Bytes) (vacant : ∀ number, files.node? names ≠ some (.file number)) :
    files.Keeps (files.putFile names data) := by
  unfold putFile
  split
  · exact keeps_of_contents_eq rfl
  · rename_i number found
    exact absurd found (vacant number)
  · exact keeps_of_push rfl

/-- Making directories keeps the contents of all files. -/
theorem keeps_makeDirectories (files : FileSystem) (path : String) :
    files.Keeps (files.makeDirectories path) := by
  apply keeps_of_contents_eq
  unfold makeDirectories
  cases made : files.addDirectories (files.start path) (Path.components path) with
  | none => split <;> rfl
  | some found =>
    split
    · exact (same_addDirectories made).1
    · rfl

/-- **What is written keeps the contents of all files**, unless it is a file where one is there. -/
theorem keeps_write (data : Option Bytes) (vacant : data.isSome → files.overwrites path = false) :
    files.Keeps (files.write path data) := by
  cases data with
  | none => exact keeps_makeDirectories files path
  | some content =>
    have vacant := vacant rfl
    rw [overwrites] at vacant
    rw [write]
    cases made : files.makeWay path with
    | none => exact keeps_of_contents_eq rfl
    | some found =>
      obtain ⟨between, names⟩ := found
      rw [made] at vacant
      intro number before held
      rw [← contents_makeWay made] at held
      apply keeps_putFile content _ number before held
      intro other found
      simp [found] at vacant

/-- Deleting keeps the contents of all files. -/
theorem keeps_delete (files : FileSystem) (path : String) : files.Keeps (files.delete path).2 := by
  apply keeps_of_contents_eq
  unfold delete
  split <;> rfl

/-- Every file has a content. -/
theorem exists_content_of_node {number : Nat} (found : files.node? names = some (.file number)) :
    ∃ data, files.contents[number]? = some data := by
  unfold node? at found
  split at found
  · cases found
  · have inside := files.numbered _ number (Table.mem_entries_of_get? found)
    exact ⟨_, Array.getElem?_eq_getElem inside⟩

/-- So has the one that a path leads to. -/
theorem exists_content_of_find {number : Nat} (h : files.find path = .ok (some (.file number))) :
    ∃ data, files.contents[number]? = some data := by
  unfold find at h
  split at h
  · exact exists_content_of_node (Except.ok.inj h)
  · cases h
  · cases h

/-! ## What is written is found -/

/-- Whatever there was is still there. -/
def Extends (old new : FileSystem) : Prop :=
  ∀ names node, old.node? names = some node → new.node? names = some node

/-- What extends is extended further. -/
theorem Extends.trans {mid : FileSystem} (first : old.Extends mid) (second : mid.Extends new) :
    old.Extends new :=
  fun names node found => second names node (first names node found)

/-- What is put at a place below the root is there, and the rest is as it was. -/
theorem node?_of_insert {component : String} {node : FileNode}
    (inserted : new.nodes = files.nodes.insert (names ++ [component]) node)
    (other : List String) :
    new.node? other = if other = names ++ [component] then some node else files.node? other := by
  cases other with
  | nil => simp [node?]
  | cons first rest =>
    show new.nodes.get? (first :: rest) =
      if first :: rest = names ++ [component] then some node else files.nodes.get? (first :: rest)
    rw [inserted, Table.get?_insert]
    by_cases same : first :: rest = names ++ [component]
    · simp [same]
    · have apart : (names ++ [component] == first :: rest) = false :=
        beq_eq_false_iff_ne.2 (Ne.symm same)
      simp [same, apart]

/-- What is put where nothing was takes nothing away. -/
theorem extends_of_insert {component : String} {node : FileNode}
    (inserted : new.nodes = files.nodes.insert (names ++ [component]) node)
    (vacant : files.node? (names ++ [component]) = none) : files.Extends new := by
  intro other found here
  rw [node?_of_insert inserted]
  split
  · rename_i same
    rw [same, vacant] at here
    cases here
  · exact here

/-- Where a component leads from a directory: nowhere else, up, or to what has its name. -/
inductive Leads (files : FileSystem) (names : List String) : String → List String → Prop
  | here {component : String} (same : component = "" ∨ component = ".") :
      Leads files names component names
  | up : Leads files names ".." names.dropLast
  | down {component : String} {node : FileNode} (named : isName component = true)
      (found : files.node? (names ++ [component]) = some node) :
      Leads files names component (names ++ [component])

/-- A component can be followed from directories only. -/
theorem follow_eq_ok_iff {component : String} {last : List String} :
    files.follow names component = .ok last ↔
      files.node? names = some .directory ∧ files.Leads names component last := by
  unfold follow
  constructor
  · intro h
    split at h
    · cases h
    · cases h
    · rename_i directory
      refine ⟨directory, ?_⟩
      split at h
      · rename_i same
        cases h
        exact .here same
      · rename_i there
        obtain ⟨nonempty, notHere⟩ := not_or.1 there
        split at h
        · rename_i same
          cases h
          subst same
          exact .up
        · rename_i notUp
          split at h
          · cases h
          · rename_i short
            split at h
            · rename_i found
              cases h
              obtain ⟨node, found⟩ := Option.isSome_iff_exists.1 found
              refine .down ?_ found
              simpa [isName, nonempty, notHere, notUp] using short
            · cases h
  · rintro ⟨directory, leads⟩
    rw [directory]
    cases leads with
    | here same => simp [same]
    | up => simp
    | down named found =>
      simp only [isName, Bool.and_eq_true, bne_iff_ne, decide_eq_true_eq] at named
      obtain ⟨⟨⟨nonempty, notHere⟩, notUp⟩, short⟩ := named
      simp [nonempty, notHere, notUp, Nat.not_lt.2 short, found]

/-- What is missing in a directory is a name that it does not have. -/
theorem of_follow_missing {component : String} (directory : files.node? names = some .directory)
    (missing : files.follow names component = .error .missing) :
    isName component = true ∧ files.node? (names ++ [component]) = none := by
  unfold follow at missing
  rw [directory] at missing
  dsimp only at missing
  split at missing
  · cases missing
  · split at missing
    · cases missing
    · split at missing
      · cases missing
      · split at missing
        · cases missing
        · simp_all [isName]

/-- **What can be followed can be followed in an extended file system**, to the same place. -/
theorem follow_mono {component : String} {last : List String} (grows : old.Extends new)
    (h : old.follow names component = .ok last) : new.follow names component = .ok last := by
  obtain ⟨directory, leads⟩ := follow_eq_ok_iff.1 h
  refine follow_eq_ok_iff.2 ⟨grows names _ directory, ?_⟩
  cases leads with
  | here same => exact .here same
  | up => exact .up
  | down named found => exact .down named (grows _ _ found)

/-- So can whole paths. -/
theorem foldlM_follow_mono {parts last : List String} (grows : old.Extends new)
    (h : parts.foldlM old.follow names = .ok last) : parts.foldlM new.follow names = .ok last := by
  induction parts generalizing names with
  | nil => exact h
  | cons component rest ih =>
    rw [List.foldlM_cons] at h ⊢
    cases first : old.follow names component with
    | error fault =>
      rw [first] at h
      cases h
    | ok next =>
      rw [first] at h
      rw [follow_mono grows first]
      exact ih h

/-- **Directories that were made can be followed**, and nothing is lost by making them. -/
theorem foldlM_follow_addDirectories {parts last : List String}
    (made : files.addDirectories names parts = some (new, last)) :
    files.Extends new ∧ parts.foldlM new.follow names = .ok last := by
  induction parts generalizing files names with
  | nil =>
    cases made
    exact ⟨fun _ _ found => found, rfl⟩
  | cons component rest ih =>
    rw [addDirectories] at made
    rw [List.foldlM_cons]
    split at made
    · rename_i next first
      obtain ⟨grows, walked⟩ := ih made
      rw [follow_mono grows first]
      exact ⟨grows, walked⟩
    · cases made
    · rename_i missing
      split at made
      · rename_i directory
        obtain ⟨named, vacant⟩ := of_follow_missing directory missing
        obtain ⟨grows, walked⟩ := ih made
        have added : files.Extends (files.addDirectory (names ++ [component])) :=
          extends_of_insert rfl vacant
        have there : (files.addDirectory (names ++ [component])).node? (names ++ [component]) =
            some .directory := by
          rw [node?_of_insert rfl, if_pos rfl]
        have first := follow_eq_ok_iff.2 ⟨added names _ directory, .down named there⟩
        rw [follow_mono grows first]
        exact ⟨added.trans grows, walked⟩
      · cases made

/-- A path leads to the place at the end of the way that was made for it. -/
theorem find_of_makeWay {later : FileSystem} {node : FileNode}
    (made : files.makeWay path = some (new, names)) (grows : new.Extends later)
    (same : later.workingDirectory = new.workingDirectory) (there : later.node? names = some node) :
    later.find path = .ok (some node) := by
  obtain ⟨place, last, walked, ends, usable, named, directory, rfl⟩ := of_makeWay made
  obtain ⟨-, followed⟩ := foldlM_follow_addDirectories walked
  have nonempty : path.isEmpty = false := by
    by_contra empty
    rw [Bool.not_eq_false, String.isEmpty_iff] at empty
    subst empty
    cases ends
    simp [isName] at named
  have start : later.start path = files.start path := by
    unfold start
    rw [same, (same_addDirectories walked).2]
  have parts : Path.components path = (Path.components path).dropLast ++ [last] :=
    (List.dropLast_append_getLast? last ends).symm
  have located : later.locate path = .ok (place ++ [last]) := by
    have step := follow_eq_ok_iff.2 ⟨grows place _ directory, .down named there⟩
    unfold locate
    rw [nonempty, usable, start, parts, List.foldlM_append, foldlM_follow_mono grows followed]
    show later.follow place last >>= pure = _
    rw [step]
    rfl
  unfold find
  rw [located]
  exact congrArg Except.ok there

/-- **What was written to a path is read from it**, unless there is a directory in its place. -/
theorem read_write (made : files.makeWay path = some (new, names))
    (vacant : new.node? names ≠ some .directory) (data : Bytes) :
    (files.write path (some data)).read path = .ok (some data) := by
  have ⟨place, last, _, _, _, _, _, ends⟩ := of_makeWay made
  rw [write, made]
  unfold read
  dsimp only
  cases node : new.node? names with
  | none =>
    have put : new.putFile names data = new.addFile names data := by rw [putFile, node]
    have grows : new.Extends (new.addFile names data) := by
      subst ends
      exact extends_of_insert rfl node
    have there : (new.addFile names data).node? names = some (.file new.contents.size) := by
      subst ends
      rw [node?_of_insert rfl, if_pos rfl]
    have found := find_of_makeWay made grows rfl there
    rw [put, found]
    simp [content, addFile]
  | some here =>
    cases here with
    | directory => exact absurd node vacant
    | file number =>
      have put : new.putFile names data = new.rewrite number data := by rw [putFile, node]
      have grows : new.Extends (new.rewrite number data) := fun _ _ found => found
      have found := find_of_makeWay made grows rfl node
      obtain ⟨before, held⟩ := exists_content_of_node node
      obtain ⟨inside, -⟩ := Array.getElem?_eq_some_iff.1 held
      rw [put, found]
      simp [content, rewrite, inside]

end FileSystem

/-- An archive is opened from a file that has a content. -/
theorem PathEntry.exists_content_of_openArchive {format : ArchiveFormat} {entry : PathEntry}
    {files : FileSystem} {archive : OpenArchive format}
    (h : entry.openArchive format files = .ok (some archive)) :
    ∃ data, files.contents[archive.file]? = some data := by
  unfold openArchive at h
  split at h
  · cases h
  · cases h
  · cases h
  · rename_i found
    split at h
    · cases h
      exact FileSystem.exists_content_of_find found
    · cases h

end ClassLattice
