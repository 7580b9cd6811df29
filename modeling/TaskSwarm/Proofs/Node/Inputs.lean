/-
Files on their way from one node to another.

A file of a proposal is read, framed with the id of the proposal and the last name of
its path, and sent, and the next one goes out once the stream of the one before was
closed. Who says that a task is accepted has sent all of them (`obeys_accepts`).
Whoever receives a frame asks for nothing but its place in the inbox
(`obeys_receiveFile`). At work on a tree of files (`Program.OnFiles`) it puts the file
there or leaves the files of that proposal alone, and who sent it is not told which
(`written_of_receiveFile`).
-/
import TaskSwarm.Proofs.Files.Tree
import TaskSwarm.Proofs.Node.Duties
import TaskSwarm.Proofs.Wire.FileFrame
import Mathlib.Data.List.Forall2

set_option autoImplicit false

namespace TaskSwarm

/-- The place of a file of a proposal in the inbox of a node. -/
def Settings.place (s : Settings) (id n : String) : String := Path.join (Path.join s.inbox id) n

/-- A program at work on a tree of files, which it leaves behind with a result. It needs nothing else
but somebody to tell what it did. Whenever it is about to do something, and once it is done, others may
have been at work on the tree. -/
inductive Program.OnFiles {α : Type} (others : Files → Files → Prop) :
    Program α → Files → Files → α → Prop
  | done {a : α} {fs fs' : Files} : others fs fs' → OnFiles others (.done a) fs fs' a
  | emit {event : NodeEvent} {next : Unit → Program α} {a : α} {fs fs' : Files} :
      OnFiles others (next ()) fs fs' a → OnFiles others (.ask (.emit event) next) fs fs' a
  | makeDirectories {path : String} {next : Except IoFault Unit → Program α} {a : α}
      {fs fs₁ fs' : Files} : others fs fs₁ →
      OnFiles others (next ((fs₁.makeDirectories path).map fun _ => ()))
        ((fs₁.makeDirectories path).toOption.getD fs₁) fs' a →
      OnFiles others (.ask (.makeDirectories path) next) fs fs' a
  | writeFile {path : String} {bytes : ByteArray} {next : Except IoFault Unit → Program α} {a : α}
      {fs fs₁ fs' : Files} : others fs fs₁ →
      OnFiles others (next ((fs₁.write path bytes).map fun _ => ()))
        ((fs₁.write path bytes).toOption.getD fs₁) fs' a →
      OnFiles others (.ask (.writeFile path bytes) next) fs fs' a

namespace Node

open TaskSwarm.Action

variable {s : Settings} {o : Operation} {past : List Entry} {peer sender : PeerId} {id path : String}

/-! ## Sending -/

/-- A call that carries the file at a path, as it was read, under the last name of that path. -/
structure Carries (past : List Entry) (peer : PeerId) (id path n : String) (data : ByteArray)
    (c : Call) : Prop where
  peer : c.peer = peer
  name : Path.fileName? path = some n
  read : Got past (.readFile path) (.ok data)
  frame : FileFrame.write ⟨FileFrame.joinName id n, data⟩ = .ok c.bytes

theorem Carries.mono {later : List Entry} {n : String} {data : ByteArray} {c : Call}
    (h : Carries past peer id path n data c) (hsub : past ⊆ later) :
    Carries later peer id path n data c :=
  ⟨h.peer, h.name, h.read.mono hsub, h.frame⟩

/-- What may be asked for on behalf of a frame: a directory of the inbox with the id of a proposal for
its name, and a file with an ordinary name in it. -/
inductive InInbox (inbox : String) : Effect → Prop
  | directory {id : String} : Identifier.isValid id = true →
      InInbox inbox (.makeDirectories (Path.join inbox id))
  | file {id n path : String} {bytes : ByteArray} : Identifier.isValid id = true →
      Path.IsOrdinary n → Path.steps path = Path.steps inbox ++ [.name id, .name n] →
      InInbox inbox (.writeFile path bytes)
  | told {event : NodeEvent} : InInbox inbox (.emit event)

/-- The place of a frame is below any inbox, by its id and one name. -/
theorem steps_of_splitName {name id file : String} (h : FileFrame.splitName name = .ok (id, file)) :
    ∃ n, Path.IsOrdinary n ∧ Path.steps file = [.name n] ∧ ∀ inbox,
      Path.steps (Path.join (Path.join inbox id) file) = Path.steps inbox ++ [.name id, .name n] := by
  obtain ⟨-, hid, hone⟩ := FileFrame.splitName_eq_ok_iff.1 h
  obtain ⟨n, hn, hfile⟩ := Path.exists_of_isOneName hone
  refine ⟨n, hn, hfile, fun inbox => ?_⟩
  rw [Path.steps_join (Path.isRelative_of_steps hfile), hfile,
    (Identifier.isOrdinary_of_isValid hid).steps_join, List.append_assoc]
  rfl

theorem obeys_receiveFile {bytes : ByteArray} :
    (receiveFile s bytes).Obeys (fun _ e => InInbox s.inbox e) (fun _ _ => True) [] := by
  simp only [receiveFile, obeys_bind, obeys_ofOutcome]
  cases FileFrame.read bytes with
  | error e => trivial
  | ok frame =>
    simp only [then_ok, obeys_bind, obeys_ofOutcome]
    cases hsplit : FileFrame.splitName frame.name with
    | error e => trivial
    | ok parts =>
      obtain ⟨id, file⟩ := parts
      have hid := (FileFrame.splitName_eq_ok_iff.1 hsplit).2.1
      obtain ⟨n, hn, -, hsteps⟩ := steps_of_splitName hsplit
      simp only [then_ok, obeys_bind, obeys_makeDirectories]
      refine ⟨.directory hid, fun r => ?_⟩
      cases r with
      | error fault => trivial
      | ok _ =>
        simp only [ofIo_ok, obeys_pure, then_ok, obeys_bind, obeys_writeFile]
        refine ⟨.file hid hn (hsteps s.inbox), fun r => ?_⟩
        cases r with
        | error fault => trivial
        | ok _ => exact ⟨.told, fun _ => trivial⟩

/-! ## Receiving on a tree of files -/

/-- What others may do to the files: all directories stay, and so do the files of a proposal that have
one of some names. -/
structure Leaves (s : Settings) (id : String) (P : String → Prop) (fs fs' : Files) : Prop where
  directories : fs.KeepsDirectories fs'
  files : ∀ n data, P n → (fs'.Holds (s.place id n) data ↔ fs.Holds (s.place id n) data)

variable {P : String → Prop} {fs fs' fs'' : Files} {bytes data : ByteArray} {n : String}
  {outcome : Outcome String}

theorem Leaves.refl : Leaves s id P fs fs := ⟨fun _ h => h, fun _ _ _ => Iff.rfl⟩

theorem Leaves.trans (h : Leaves s id P fs fs') (h' : Leaves s id P fs' fs'') : Leaves s id P fs fs'' :=
  ⟨fun q hq => h'.directories q (h.directories q hq),
    fun n data hn => (h'.files n data hn).trans (h.files n data hn)⟩

theorem leaves_of_adds (h : fs.Adds fs') : Leaves s id P fs fs' :=
  ⟨h.keepsDirectories, fun _ _ _ => h.holds_iff⟩

theorem leaves_of_makeDirectories :
    Leaves s id P fs ((fs.makeDirectories path).toOption.getD fs) := by
  cases hmade : fs.makeDirectories path with
  | error fault => exact .refl
  | ok made => exact leaves_of_adds (Files.adds_of_makeDirectories hmade)

theorem ofOutcome_ok {α : Type} (a : α) : ofOutcome (.ok a) = (pure a : Action α) := rfl

theorem run_receiveFile {frame : FileFrame} {file : String} (hread : FileFrame.read bytes = .ok frame)
    (hsplit : FileFrame.splitName frame.name = .ok (id, file)) :
    (receiveFile s bytes).run = .ask (.makeDirectories (Path.join s.inbox id)) fun made =>
      match made with
      | .error fault => .done (.error (.io fault))
      | .ok _ => .ask (.writeFile (s.place id file) frame.body) fun written =>
        match written with
        | .error fault => .done (.error (.io fault))
        | .ok _ => .ask (.emit (.fileReceived id file frame.body.size)) fun _ =>
          .done (.ok (s.place id file)) := by
  simp only [receiveFile, hread, ofOutcome_ok, pure_bind, hsplit]
  refine congrArg (Program.ask _) (funext fun made => ?_)
  cases made with
  | error fault => rfl
  | ok _ =>
    refine congrArg (Program.ask _) (funext fun written => ?_)
    cases written with
    | error fault => rfl
    | ok _ => rfl

/-- Nothing is asked for on behalf of bytes that are not the frame of a file of a proposal. -/
theorem run_receiveFile_of_refused (h : ∀ frame id file, FileFrame.read bytes = .ok frame →
    FileFrame.splitName frame.name ≠ .ok (id, file)) :
    ∃ e, (receiveFile s bytes).run = .done (.error e) := by
  cases hread : FileFrame.read bytes with
  | error e =>
    simp only [receiveFile, hread]
    exact ⟨e, rfl⟩
  | ok frame =>
    cases hsplit : FileFrame.splitName frame.name with
    | error e =>
      simp only [receiveFile, hread, ofOutcome_ok, pure_bind, hsplit]
      exact ⟨e, rfl⟩
    | ok parts => exact absurd hsplit (h frame parts.1 parts.2 hread)

/-- **A frame at its receiver.** The file is put in its place, or else the files of all proposals are
left as they are. In both cases the receiver is done, and closes the stream. -/
theorem written_of_receiveFile {k : String}
    (hframe : FileFrame.write ⟨FileFrame.joinName id n, data⟩ = .ok bytes) (hn : Path.IsOrdinary n)
    (h : (receiveFile s bytes).run.OnFiles (Leaves s k P) fs fs' outcome) :
    (∃ e, outcome = .error e ∧ Leaves s k P fs fs') ∨
      (outcome = .ok (s.place id n) ∧ bytes.size ≤ Wire.maxMessageSize ∧
        Identifier.isValid id = true ∧ ∃ fs₁ fs₂, Leaves s k P fs fs₁ ∧
          fs₁.write (s.place id n) data = .ok fs₂ ∧ Leaves s k P fs₂ fs') := by
  have hread := FileFrame.read_of_write hframe
  by_cases hgood : bytes.size ≤ Wire.maxMessageSize ∧ Identifier.isValid id = true
  case neg =>
    obtain ⟨e, hrun⟩ : ∃ e, (receiveFile s bytes).run = .done (.error e) := by
      refine run_receiveFile_of_refused ?_
      intro frame id' file hframe' hsplit
      rw [hread] at hframe'
      split at hframe'
      · cases hframe'
      · next hsize =>
        cases hframe'
        obtain ⟨rfl, -⟩ := FileFrame.eq_of_splitName_joinName hn hsplit
        exact hgood ⟨Nat.le_of_not_lt hsize, (FileFrame.splitName_eq_ok_iff.1 hsplit).2.1⟩
    rw [hrun] at h
    cases h with
    | done hothers => exact Or.inl ⟨e, rfl, hothers⟩
  obtain ⟨hsize, hvalid⟩ := hgood
  rw [if_neg (Nat.not_lt.2 hsize)] at hread
  rw [run_receiveFile hread (FileFrame.splitName_joinName hvalid hn)] at h
  cases h with
  | @makeDirectories _ _ _ _ fs₁ _ hothers h =>
    have hmade : Leaves s k P fs ((fs₁.makeDirectories (Path.join s.inbox id)).toOption.getD fs₁) :=
      hothers.trans leaves_of_makeDirectories
    cases hmake : fs₁.makeDirectories (Path.join s.inbox id) with
    | error fault =>
      rw [hmake] at h hmade
      cases h with
      | done hlast => exact Or.inl ⟨_, rfl, hmade.trans hlast⟩
    | ok made =>
      rw [hmake] at h hmade
      cases h with
      | @writeFile _ _ _ _ _ fs₂ _ hothers' h =>
        cases hwrite : fs₂.write (s.place id n) data with
        | error fault =>
          rw [hwrite] at h
          cases h with
          | done hlast => exact Or.inl ⟨_, rfl, (hmade.trans hothers').trans hlast⟩
        | ok written =>
          rw [hwrite] at h
          cases h with
          | emit h =>
            cases h with
            | done hlast =>
              exact Or.inr ⟨rfl, hsize, hvalid, fs₂, written, hmade.trans hothers', hwrite, hlast⟩

theorem Leaves.mono {Q : String → Prop} (h : Leaves s id P fs fs') (imp : ∀ n, Q n → P n) :
    Leaves s id Q fs fs' :=
  ⟨h.directories, fun n data hn => h.files n data (imp n hn)⟩

/-- What can be read of the files that are left alone can still be read. -/
theorem Leaves.read (h : Leaves s id P fs fs') (hn : P n) (hread : fs.read (s.place id n) = .ok data) :
    fs'.read (s.place id n) = .ok data :=
  Files.read_of_holds hread h.directories ((h.files n data hn).2 (Files.holds_of_read hread))

/-- A file that is written leaves those of other proposals alone, and those with other names. -/
theorem leaves_of_write {k m : String} (hid : Identifier.isValid id = true)
    (hk : Identifier.isValid k = true) (hm : Path.IsOrdinary m)
    (h : fs.write (s.place k m) data = .ok fs') :
    Leaves s id (fun n => Path.IsOrdinary n ∧ (id, n) ≠ (k, m)) fs fs' :=
  ⟨Files.keepsDirectories_of_write h,
    fun _ _ hn => Files.holds_of_write h <| Files.apart_join (Identifier.isOrdinary_of_isValid hid)
      (Identifier.isOrdinary_of_isValid hk) hn.1 hm hn.2⟩

/-- Frames of one proposal leave the files of another one alone. -/
theorem leaves_of_receiveFile {k m : String} (hid : Identifier.isValid id = true) (hne : id ≠ k)
    (hframe : FileFrame.write ⟨FileFrame.joinName k m, data⟩ = .ok bytes) (hm : Path.IsOrdinary m)
    (h : (receiveFile s bytes).run.OnFiles (Leaves s id Path.IsOrdinary) fs fs' outcome) :
    Leaves s id Path.IsOrdinary fs fs' := by
  obtain ⟨e, -, hleaves⟩ | ⟨-, -, hk, fs₁, fs₂, hbefore, hwrite, hafter⟩ :=
    written_of_receiveFile hframe hm h
  · exact hleaves
  · have hwritten := (leaves_of_write hid hk hm hwrite).mono fun n hn => ⟨hn, by simp [hne]⟩
    exact (hbefore.trans hwritten).trans hafter

end Node

end TaskSwarm
