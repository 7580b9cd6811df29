/-
Files that stay where they belong.

The id of a proposal and the names of its files come from other nodes and become parts of
paths in three places: where a file is sent, where it is received, and where a container
finds it. All three rest on the same two facts, that a valid id is one ordinary name and
that the last name of a path is one (Files/Path). So a frame lies in the directory of its
id (`FileFrame.place_of_splitName`), and an executor carries files from the inbox of a
proposal to the directory of its task, name by name (`stageFiles_eq`), and changes no
other file (`staged_of_prepare`). `files_confined` puts this together.
-/
import TaskSwarm.Execution.Container
import TaskSwarm.Proofs.Node.Inputs

set_option autoImplicit false

namespace TaskSwarm

variable {fs fs' fs'' : Files} {n : String} {data : ByteArray}

namespace ContainerRuntime

variable {origin target inbox workDir id b : String} {paths names : List String}

/-! ## Carrying files over -/

/-- One file carried from a directory to another, if it is there. -/
def carry (origin target : String) (fs : Files) (n : String) : Except IoFault Files :=
  if fs.contains (Path.join origin n) then fs.copy (Path.join origin n) (Path.join target n)
  else .ok fs

/-- Files carried over one after the other, up to the first that fails. -/
def carryAll (origin target : String) (fs : Files) : List String → Files × Except IoFault Unit
  | [] => (fs, .ok ())
  | n :: names =>
    match carry origin target fs n with
    | .error fault => (fs, .error fault)
    | .ok fs => carryAll origin target fs names

theorem carryAll_cons : carryAll origin target fs (n :: names) =
    match carry origin target fs n with
    | .error fault => (fs, .error fault)
    | .ok fs => carryAll origin target fs names := (rfl)

theorem stageFiles_cons {path : String} : stageFiles origin target fs (path :: paths) =
    match Path.fileName? path with
    | none => stageFiles origin target fs paths
    | some n =>
      if fs.contains (Path.join origin n) then
        match fs.copy (Path.join origin n) (Path.join target n) with
        | .error fault => (fs, .error fault)
        | .ok fs => stageFiles origin target fs paths
      else stageFiles origin target fs paths := (rfl)

/-- Of the files of a proposal, those are carried over that have a name. -/
theorem stageFiles_eq :
    stageFiles origin target fs paths = carryAll origin target fs (paths.filterMap Path.fileName?) := by
  induction paths generalizing fs with
  | nil => rfl
  | cons path paths ih =>
    rw [stageFiles_cons]
    cases hname : Path.fileName? path with
    | none =>
      rw [List.filterMap_cons_none hname]
      exact ih
    | some n =>
      rw [List.filterMap_cons_some hname, carryAll_cons, carry]
      by_cases hthere : fs.contains (Path.join origin n) = true
      · simp only [if_pos hthere]
        cases fs.copy (Path.join origin n) (Path.join target n) with
        | error fault => rfl
        | ok fs' => exact ih
      · simp only [if_neg hthere]
        exact ih

/-- What becomes of the files when some are carried from one directory to another: those elsewhere are
as they were, and what is new came from the first directory under the same name. -/
structure Staged (origin target : String) (fs fs' : Files) : Prop where
  elsewhere : ∀ path data, (∀ n, Path.IsOrdinary n → Files.Apart path (Path.join target n)) →
    (fs'.Holds path data ↔ fs.Holds path data)
  brought : ∀ n data, Path.IsOrdinary n → fs'.Holds (Path.join target n) data →
    fs.Holds (Path.join target n) data ∨ fs.Holds (Path.join origin n) data

theorem Staged.refl : Staged origin target fs fs := ⟨fun _ _ _ => Iff.rfl, fun _ _ _ => Or.inl⟩

theorem staged_of_adds (h : fs.Adds fs') : Staged origin target fs fs' :=
  ⟨fun _ _ _ => h.holds_iff, fun _ _ _ hholds => Or.inl (h.holds_iff.1 hholds)⟩

/-- The directory of a task is none of the inbox. -/
theorem apart_of_ne {m : String} (hid : Path.IsOrdinary id) (hb : Path.IsOrdinary b) (hne : id ≠ b)
    (hn : Path.IsOrdinary n) (hm : Path.IsOrdinary m) :
    Files.Apart (Path.join (Path.join inbox id) n) (Path.join (Path.join workDir b) m) :=
  Files.apart_join hid hb hn hm (by simp [hne])

theorem Staged.trans (hid : Path.IsOrdinary id) (hb : Path.IsOrdinary b) (hne : id ≠ b)
    (h : Staged (Path.join inbox id) (Path.join workDir b) fs fs')
    (h' : Staged (Path.join inbox id) (Path.join workDir b) fs' fs'') :
    Staged (Path.join inbox id) (Path.join workDir b) fs fs'' := by
  refine ⟨fun path data hpath => (h'.elsewhere path data hpath).trans (h.elsewhere path data hpath),
    fun n data hn hholds => ?_⟩
  obtain hkept | hbrought := h'.brought n data hn hholds
  · exact h.brought n data hn hkept
  · -- What is in the inbox has been there from the beginning.
    exact Or.inr ((h.elsewhere _ data fun m hm => apart_of_ne hid hb hne hn hm).1 hbrought)

theorem staged_of_carry (hb : Path.IsOrdinary b) (hn : Path.IsOrdinary n)
    (h : carry origin (Path.join workDir b) fs n = .ok fs') :
    Staged origin (Path.join workDir b) fs fs' := by
  unfold carry at h
  split at h
  · obtain ⟨bytes, hread, hwrite⟩ := Files.copy_eq_ok_iff.1 h
    refine ⟨fun path data hpath => Files.holds_of_write hwrite (hpath n hn),
      fun m data hm hholds => ?_⟩
    by_cases hname : m = n
    · subst hname
      obtain rfl := hholds.eq (Files.holds_of_read (Files.read_of_write hwrite))
      exact Or.inr (Files.holds_of_read hread)
    · have hapart : Files.Apart (Path.join (Path.join workDir b) m) (Path.join (Path.join workDir b) n) :=
        Files.apart_join hb hb hm hn (by simp [hname])
      exact Or.inl ((Files.holds_of_write hwrite hapart).1 hholds)
  · cases h
    exact .refl

theorem staged_of_carryAll (hid : Path.IsOrdinary id) (hb : Path.IsOrdinary b) (hne : id ≠ b)
    (hnames : ∀ n ∈ names, Path.IsOrdinary n) :
    Staged (Path.join inbox id) (Path.join workDir b) fs
      (carryAll (Path.join inbox id) (Path.join workDir b) fs names).1 := by
  induction names generalizing fs with
  | nil => exact .refl
  | cons n names ih =>
    rw [carryAll_cons]
    cases hcarry : carry (Path.join inbox id) (Path.join workDir b) fs n with
    | error fault => exact .refl
    | ok fs' =>
      have hfirst := staged_of_carry hb (hnames n List.mem_cons_self) hcarry
      exact hfirst.trans hid hb hne (ih fun m hm => hnames m (List.mem_cons_of_mem _ hm))

/-! ## A task and its directory -/

variable {r : ContainerRuntime} {p : Proposal} {directory : String}

/-- The name of the directory of a task. -/
def folder (p : Proposal) : String := s!"proposal_{p.id}"

theorem toList_folder : (folder p).toList = "proposal_".toList ++ p.id.toList :=
  String.toList_append

theorem isOrdinary_folder (hid : Identifier.isValid p.id = true) : Path.IsOrdinary (folder p) := by
  refine Identifier.isOrdinary_of_isIdChar (fun hempty => ?_) ?_
  · have htext := toList_folder (p := p)
    rw [hempty] at htext
    cases htext
  · simp only [Identifier.isValid, Bool.and_eq_true] at hid
    rw [toList_folder, List.all_append, hid.2]
    decide

theorem id_ne_folder : p.id ≠ folder p := by
  intro h
  have hlength := congrArg (fun text => text.toList.length) h
  simp only [toList_folder, List.length_append] at hlength
  simp at hlength

theorem directory_of_isValid (hid : Identifier.isValid p.id = true) :
    r.directory p = .ok (Path.join r.workDir (folder p)) := by
  simp [directory, hid, folder]

/-- Nothing is touched for a proposal without a valid id. -/
theorem prepare_of_not_isValid (hid : Identifier.isValid p.id = false) :
    r.prepare p fs = (fs, .error (.invalidProposal (.escapingId p.id))) := by
  simp [prepare, directory, hid]

/-- What there is to prepare for a task: its directory, and its files in it. -/
theorem prepare_of_isValid (hid : Identifier.isValid p.id = true) :
    r.prepare p fs =
      match fs.makeDirectories (Path.join r.workDir (folder p)) with
      | .error fault => (fs, .error (.io fault))
      | .ok made =>
        match carryAll (Path.join r.inbox p.id) (Path.join r.workDir (folder p)) made
            (p.container.inputFiles.filterMap Path.fileName?) with
        | (fs, .error fault) => (fs, .error (.io fault))
        | (fs, .ok ()) => (fs, .ok (Path.join r.workDir (folder p),
            arguments p (Path.join r.workDir (folder p)))) := by
  cases hmade : fs.makeDirectories (Path.join r.workDir (folder p)) with
  | error fault => simp [prepare, directory_of_isValid hid, hmade]
  | ok made =>
    cases hcarried : carryAll (Path.join r.inbox p.id) (Path.join r.workDir (folder p)) made
        (p.container.inputFiles.filterMap Path.fileName?) with
    | mk carried outcome =>
      cases outcome with
      | error fault => simp [prepare, directory_of_isValid hid, hmade, stageFiles_eq, hcarried]
      | ok _ => simp [prepare, directory_of_isValid hid, hmade, stageFiles_eq, hcarried]

theorem staged_of_prepare (hid : Identifier.isValid p.id = true) :
    Staged (Path.join r.inbox p.id) (Path.join r.workDir (folder p)) fs (r.prepare p fs).1 := by
  have hordinary := Identifier.isOrdinary_of_isValid hid
  have hfolder := isOrdinary_folder hid
  rw [prepare_of_isValid hid]
  cases hmake : fs.makeDirectories (Path.join r.workDir (folder p)) with
  | error fault => exact .refl
  | ok made =>
    have hmade : Staged (Path.join r.inbox p.id) (Path.join r.workDir (folder p)) fs made :=
      staged_of_adds (Files.adds_of_makeDirectories hmake)
    have hnames : ∀ n ∈ p.container.inputFiles.filterMap Path.fileName?, Path.IsOrdinary n := by
      intro n hn
      obtain ⟨path, -, hname⟩ := List.mem_filterMap.1 hn
      exact Path.isOrdinary_of_fileName? hname
    have hall := hmade.trans hordinary hfolder id_ne_folder
      (staged_of_carryAll hordinary hfolder id_ne_folder hnames)
    cases hcarry : carryAll (Path.join r.inbox p.id) (Path.join r.workDir (folder p)) made
        (p.container.inputFiles.filterMap Path.fileName?) with
    | mk after outcome =>
      rw [hcarry] at hall
      simp only [hcarry]
      cases outcome with
      | error fault => exact hall
      | ok _ => exact hall

/-- Running the task leaves the files as they were prepared. -/
theorem execute_files {run : String → String → List String → Except IoFault CommandResult} :
    (r.execute run p fs).1 = (r.prepare p fs).1 := by
  unfold execute
  split
  · next heq => rw [heq]
  · next heq =>
    rw [heq]
    split <;> rfl

end ContainerRuntime

/-! ## All three places -/

open TaskSwarm.ContainerRuntime TaskSwarm.Node

/-- **Files stay where they belong.** The name of a frame is taken apart only into a valid id and one
ordinary name in the directory of that id, wherever the inbox is, so that frames for different
proposals never lie in the same place; and whatever is sent for a proposal with a valid id is taken apart
into what it was made of. Who receives a frame asks for nothing but such a place. An executor touches
nothing for a proposal whose id is not valid. For all others it makes the directory of the task and carries files there
from the inbox of the proposal, by the ordinary names that the paths of its files end with; no
other file changes, and none comes from anywhere else. -/
theorem files_confined :
    (∀ name id file, FileFrame.splitName name = .ok (id, file) →
      name = FileFrame.joinName id file ∧
        (id ≠ "" ∧ ∀ c ∈ id.toList, c.isAlphanum = true ∨ c = '-' ∨ c = '_') ∧
          ∃ n, Path.IsOrdinary n ∧ Path.steps file = [.name n] ∧ ∀ inbox,
            Path.steps (Path.join (Path.join inbox id) file) = Path.steps inbox ++ [.name id, .name n]) ∧
    (∀ name name' id id' file file' inbox, FileFrame.splitName name = .ok (id, file) →
      FileFrame.splitName name' = .ok (id', file') → id ≠ id' →
        Path.steps (Path.join (Path.join inbox id) file) ≠
          Path.steps (Path.join (Path.join inbox id') file')) ∧
    (∀ id path n, Identifier.isValid id = true → Path.fileName? path = some n →
      FileFrame.splitName (FileFrame.joinName id n) = .ok (id, n)) ∧
    (∀ s bytes, (receiveFile s bytes).Obeys (fun _ e => InInbox s.inbox e) (fun _ _ => True) []) ∧
    ∀ (r : ContainerRuntime) (p : Proposal) (run) (fs : Files),
      (Identifier.isValid p.id = false →
        r.execute run p fs = (fs, .error (.invalidProposal (.escapingId p.id)))) ∧
      (Identifier.isValid p.id = true →
        Path.steps (Path.join r.workDir (folder p)) =
          Path.steps r.workDir ++ [.name (folder p)] ∧
        (∀ n ∈ p.container.inputFiles.filterMap Path.fileName?, Path.IsOrdinary n ∧
          Path.steps (Path.join (Path.join r.workDir (folder p)) n) =
            Path.steps r.workDir ++ [.name (folder p), .name n] ∧
          Path.steps (Path.join (Path.join r.inbox p.id) n) =
            Path.steps r.inbox ++ [.name p.id, .name n]) ∧
        r.prepare p fs =
          (match fs.makeDirectories (Path.join r.workDir (folder p)) with
          | .error fault => (fs, .error (.io fault))
          | .ok made =>
            match carryAll (Path.join r.inbox p.id) (Path.join r.workDir (folder p)) made
                (p.container.inputFiles.filterMap Path.fileName?) with
            | (fs, .error fault) => (fs, .error (.io fault))
            | (fs, .ok ()) => (fs, .ok (Path.join r.workDir (folder p),
                arguments p (Path.join r.workDir (folder p))))) ∧
        Staged (Path.join r.inbox p.id) (Path.join r.workDir (folder p)) fs
          (r.execute run p fs).1) := by
  refine ⟨fun name id file hsplit => ?_, fun name name' id id' file file' inbox hsplit hsplit' hne heq => ?_,
    fun id path n hid hname => FileFrame.splitName_joinName hid (Path.isOrdinary_of_fileName? hname),
    fun s bytes => obeys_receiveFile, fun r p run fs => ⟨fun hid => ?_, fun hid => ?_⟩⟩
  · obtain ⟨hname, hid, -⟩ := FileFrame.splitName_eq_ok_iff.1 hsplit
    exact ⟨hname, Identifier.isValid_iff.1 hid, steps_of_splitName hsplit⟩
  · obtain ⟨n, -, -, hsteps⟩ := steps_of_splitName hsplit
    obtain ⟨n', -, -, hsteps'⟩ := steps_of_splitName hsplit'
    rw [hsteps inbox, hsteps' inbox, List.append_cancel_left_eq] at heq
    simp only [List.cons.injEq, Path.Step.name.injEq] at heq
    exact hne heq.1
  · simp only [execute, prepare_of_not_isValid hid]
  · have hfolder := isOrdinary_folder hid
    refine ⟨hfolder.steps_join, fun n hn => ?_, prepare_of_isValid hid, ?_⟩
    · obtain ⟨path, -, hname⟩ := List.mem_filterMap.1 hn
      have hordinary := Path.isOrdinary_of_fileName? hname
      refine ⟨hordinary, ?_, ?_⟩
      · rw [hordinary.steps_join, hfolder.steps_join, List.append_assoc]
        rfl
      · rw [hordinary.steps_join, (Identifier.isOrdinary_of_isValid hid).steps_join, List.append_assoc]
        rfl
    · rw [execute_files]
      exact staged_of_prepare hid

end TaskSwarm
