/-
What a tree of files holds, and what changes it.

Where a path leads is said by the path alone (`spot`); the files only say whether it
gets there, through directories that exist (`spot_of_resolve`). Two kinds of change are
told apart. Making directories puts new ones where nothing was (`Adds`), and whatever
could be read can still be read; those that were made once are found the next time
(`makeDirectories_again`). Writing a file puts it at its spot (`read_of_write`), also if
it is only added to (`append_eq_write`), and the files at all other spots stay as they
were (`holds_of_write`).
-/
import TaskSwarm.Files.Tree
import TaskSwarm.Proofs.Files.Path

set_option autoImplicit false

namespace TaskSwarm.Files

variable {fs fs' made : Files} {place q : Place} {path directory n : String} {names ns : List String}
  {entry : FileEntry} {bytes data : ByteArray} {pieces : List String}

/-! ## Where a path leads -/

/-- The place a path leads to, if all there is on the way are directories. -/
def spot (path : String) : Except IoFault Place :=
  (Path.pieces path).foldlM enter (if Path.isAbsolute path then .root else .inside [])

theorem foldlM_of_walk (h : fs.walk place pieces = .ok q) : pieces.foldlM enter place = .ok q := by
  induction pieces generalizing place with
  | nil => exact h
  | cons piece pieces ih =>
    simp only [walk] at h
    split at h
    · cases h
    · cases h
    · rw [List.foldlM_cons]
      cases henter : enter place piece with
      | error fault =>
        rw [henter] at h
        cases h
      | ok next =>
        rw [henter] at h
        exact ih h

/-- A path that leads anywhere leads to its spot. -/
theorem spot_of_resolve (h : fs.resolve path = .ok q) : spot path = .ok q := by
  unfold resolve at h
  split at h
  · cases h
  · split at h
    · cases h
    · split at h
      · cases h
      · exact foldlM_of_walk h

theorem enter_nothing : enter place "" = .ok place := by simp [enter]

/-- The spot of a name in a directory is found from the spot of the directory. -/
theorem spot_join (hn : Path.IsOrdinary n) :
    spot (Path.join directory n) = spot directory >>= fun place => enter place n := by
  by_cases hdirectory : directory = ""
  · subst hdirectory
    have hjoin : Path.join "" n = n := by simp [Path.join]
    have hnothing : spot "" = pure (.inside []) := by
      simp [spot, Path.isAbsolute, enter_nothing]
      rfl
    rw [hjoin, hnothing, pure_bind]
    simp [spot, Path.pieces_of_no_slash hn.no_slash, hn.not_isAbsolute]
  obtain ⟨front, hjoin, hfront, -⟩ := Path.pieces_join hn.not_isAbsolute hdirectory
  have hspot : spot directory = front.foldlM enter
      (if Path.isAbsolute directory then .root else .inside []) := by
    unfold spot
    obtain h | h := hfront
    · rw [h]
    · -- A slash at the end leads nowhere else.
      have hlast : (fun place => [""].foldlM enter place) = pure := by
        funext place
        simp [enter_nothing]
        rfl
      rw [h, List.foldlM_append, hlast, bind_pure]
  rw [hspot]
  unfold spot
  rw [hjoin, Path.isAbsolute_join hn.not_isAbsolute hdirectory,
    Path.pieces_of_no_slash hn.no_slash, List.foldlM_append]
  simp

/-- An ordinary name leads further down, or stays outside. -/
theorem enter_ordinary (hn : Path.IsOrdinary n) (h : enter place n = .ok q) :
    (∃ ns, place = .inside ns ∧ q = .inside (ns ++ [n])) ∨ q = .outside := by
  unfold enter at h
  split at h
  · cases h
  · split at h
    · next hnothing => simp [hn.ne_empty, hn.ne_here] at hnothing
    · split at h
      · next ns =>
        rw [if_neg hn.ne_up] at h
        cases h
        exact Or.inl ⟨ns, rfl, rfl⟩
      · rw [if_neg hn.ne_up] at h
        cases h
        exact Or.inr rfl
      · cases h
        exact Or.inr rfl

/-- The spot of an ordinary name is below the spot of its directory, or outside. -/
theorem spot_join_cases (hn : Path.IsOrdinary n) (h : spot (Path.join directory n) = .ok q) :
    (∃ ns, spot directory = .ok (.inside ns) ∧ q = .inside (ns ++ [n])) ∨ q = .outside := by
  rw [spot_join hn] at h
  cases hdirectory : spot directory with
  | error fault =>
    rw [hdirectory] at h
    cases h
  | ok place =>
    rw [hdirectory] at h
    obtain ⟨ns, rfl, hq⟩ | houtside := enter_ordinary hn h
    · exact Or.inl ⟨ns, rfl, hq⟩
    · exact Or.inr houtside

/-! ## What stands at a place -/

theorem at?_inside (hne : ns ≠ []) : fs.at? (.inside ns) = fs.entries.get? (key ns) := by
  cases ns with
  | nil => exact absurd rfl hne
  | cons => rfl

theorem ne_nil_of_not_directory (h : fs.at? (.inside ns) ≠ some .directory) : ns ≠ [] := by
  rintro rfl
  exact h rfl

theorem at?_insert_of_key (hne : ns ≠ []) (hkey : key ns = key names) :
    (fs.insert names entry).at? (.inside ns) = some entry := by
  rw [at?_inside hne, hkey]
  exact SortedMap.get?_insert_self ..

theorem at?_insert_of_ne (hkey : ∀ ns, q = .inside ns → ns ≠ [] → key ns ≠ key names) :
    (fs.insert names entry).at? q = fs.at? q := by
  cases q with
  | inside ns =>
    by_cases hne : ns = []
    · subst hne
      rfl
    · rw [at?_inside hne, at?_inside hne]
      exact SortedMap.get?_insert_of_ne _ _ (hkey ns rfl hne)
  | root => rfl
  | outside => rfl

/-- The last two names of a place can be told from its key. -/
theorem pieces_key (ns : List String) {a : String} (ha : '/' ∉ a.toList) (hn : '/' ∉ n.toList) :
    ∃ front, Path.pieces (key (ns ++ [a, n])) = front ++ [a, n] := by
  have hlast : Path.pieces (key [a, n]) = [a, n] := by
    have htext : key [a, n] = a ++ "/" ++ n := by
      simp [key, String.intercalate_cons_of_ne_nil]
    rw [htext, Path.pieces_append_slash, Path.pieces_of_no_slash ha, Path.pieces_of_no_slash hn]
    rfl
  by_cases hns : ns = []
  · exact ⟨[], by rw [hns]; exact hlast⟩
  · refine ⟨Path.pieces (key ns), ?_⟩
    have hkey : key (ns ++ [a, n]) = key ns ++ "/" ++ key [a, n] :=
      String.intercalate_append_of_ne_nil hns (by simp)
    rw [hkey, Path.pieces_append_slash, hlast]

/-! ## Directories that stay -/

/-- Every directory is still one. -/
def KeepsDirectories (fs fs' : Files) : Prop :=
  ∀ q, fs.at? q = some .directory → fs'.at? q = some .directory

theorem walk_mono (hkeeps : fs.KeepsDirectories fs') (h : fs.walk place pieces = .ok q) :
    fs'.walk place pieces = .ok q := by
  induction pieces generalizing place with
  | nil => exact h
  | cons piece pieces ih =>
    simp only [walk] at h
    split at h
    · cases h
    · cases h
    · next hplace =>
      simp only [walk, hkeeps _ hplace]
      cases henter : enter place piece with
      | error fault =>
        rw [henter] at h
        cases h
      | ok next =>
        rw [henter] at h
        exact ih h

/-- A path leads where it led as long as directories stay. -/
theorem resolve_mono (hkeeps : fs.KeepsDirectories fs') (h : fs.resolve path = .ok q) :
    fs'.resolve path = .ok q := by
  unfold resolve at h ⊢
  split at h
  · cases h
  · next hnul =>
    rw [if_neg hnul]
    split at h
    · cases h
    · next hempty =>
      rw [if_neg hempty]
      split at h
      · cases h
      · next hsize =>
        rw [if_neg hsize]
        exact walk_mono hkeeps h

theorem keepsDirectories_insert (h : fs.at? (.inside names) ≠ some .directory) :
    fs.KeepsDirectories (fs.insert names entry) := by
  intro q hq
  rw [at?_insert_of_ne ?_, hq]
  rintro ns rfl hne hkey
  have hnames := ne_nil_of_not_directory h
  rw [at?_inside hne, hkey, ← at?_inside hnames] at hq
  exact h hq

/-! ## Reading and writing -/

/-- What a path leads to is what stands where it ends. -/
theorem find_eq_ok_iff : fs.find path = .ok (q, entry) ↔
    fs.resolve path = .ok q ∧ fs.at? q = some entry := by
  unfold find
  cases hresolve : fs.resolve path with
  | error fault => simp [bind, Except.bind]
  | ok place =>
    simp only [bind, Except.bind, Except.ok.injEq]
    constructor
    · intro h
      split at h
      · next found hfound =>
        cases h
        exact ⟨rfl, hfound⟩
      · cases h
    · rintro ⟨rfl, hq⟩
      rw [hq]

theorem read_eq_ok_iff : fs.read path = .ok bytes ↔
    ∃ q, fs.resolve path = .ok q ∧ fs.at? q = some (.file bytes) := by
  simp only [← find_eq_ok_iff]
  unfold read
  cases fs.find path with
  | error fault => simp
  | ok found =>
    obtain ⟨q, entry⟩ := found
    cases entry <;> simp

/-- A file is written where there is one, or nothing. -/
theorem write_eq_ok_iff : fs.write path bytes = .ok fs' ↔
    ∃ names, fs.resolve path = .ok (.inside names) ∧ fs.at? (.inside names) ≠ some .directory ∧
      fs' = fs.insert names (.file bytes) := by
  unfold write forWriting
  cases hresolve : fs.resolve path with
  | error fault => simp [bind, Except.bind]
  | ok q =>
    cases q with
    | inside names =>
      cases hq : fs.at? (.inside names) with
      | none => simp [bind, Except.bind, pure, Except.pure, eq_comm, hq]
      | some entry => cases entry <;> simp [bind, Except.bind, pure, Except.pure, eq_comm, hq]
    | root =>
      simp only [bind, Except.bind]
      cases hq : fs.at? .root <;> simp
    | outside =>
      simp only [bind, Except.bind]
      cases hq : fs.at? .outside <;> simp

theorem keepsDirectories_of_write (h : fs.write path bytes = .ok fs') : fs.KeepsDirectories fs' := by
  obtain ⟨names, -, hnot, rfl⟩ := write_eq_ok_iff.1 h
  exact keepsDirectories_insert hnot

/-- What was written is read. -/
theorem read_of_write (h : fs.write path bytes = .ok fs') : fs'.read path = .ok bytes := by
  have hkeeps := keepsDirectories_of_write h
  obtain ⟨names, hresolve, hnot, rfl⟩ := write_eq_ok_iff.1 h
  exact read_eq_ok_iff.2
    ⟨_, resolve_mono hkeeps hresolve, at?_insert_of_key (ne_nil_of_not_directory hnot) rfl⟩

theorem exists_inside_of_read (h : fs.read path = .ok bytes) :
    ∃ names, fs.resolve path = .ok (.inside names) ∧ fs.at? (.inside names) = some (.file bytes) := by
  obtain ⟨q, hresolve, hq⟩ := read_eq_ok_iff.1 h
  cases q with
  | inside names => exact ⟨names, hresolve, hq⟩
  | root => cases hq
  | outside => cases hq

/-- A file that can be read can be written. -/
theorem exists_write_of_read (h : fs.read path = .ok bytes) (data : ByteArray) :
    ∃ fs', fs.write path data = .ok fs' := by
  obtain ⟨names, hresolve, hat⟩ := exists_inside_of_read h
  exact ⟨_, write_eq_ok_iff.2 ⟨names, hresolve, by rw [hat]; nofun, rfl⟩⟩

/-- Adding to a file is writing it with more at its end. -/
theorem append_eq_write (h : fs.read path = .ok bytes) (data : ByteArray) :
    fs.append path data = fs.write path (bytes ++ data) := by
  obtain ⟨names, hresolve, hat⟩ := exists_inside_of_read h
  simp [append, write, forWriting, hresolve, hat, bind, Except.bind, pure, Except.pure]

theorem exists_write_of_append (h : fs.append path bytes = .ok fs') :
    ∃ data, fs.write path data = .ok fs' := by
  unfold append at h
  unfold write
  cases hwriting : fs.forWriting path with
  | error fault =>
    rw [hwriting] at h
    cases h
  | ok found =>
    rw [hwriting] at h
    exact ⟨found.2 ++ bytes, h⟩

theorem copy_eq_ok_iff {target : String} : fs.copy path target = .ok fs' ↔
    ∃ bytes, fs.read path = .ok bytes ∧ fs.write target bytes = .ok fs' := by
  unfold copy read
  cases hfind : fs.find path with
  | error fault => simp [bind, Except.bind]
  | ok found =>
    obtain ⟨q, entry⟩ := found
    cases entry <;> simp [bind, Except.bind]

/-! ## Making directories -/

/-- Nothing but directories has come, where nothing was. -/
def Adds (fs fs' : Files) : Prop :=
  ∀ q, fs'.at? q = fs.at? q ∨ (fs.at? q = none ∧ fs'.at? q = some .directory)

theorem Adds.refl (fs : Files) : fs.Adds fs := fun _ => Or.inl rfl

theorem Adds.trans {fs'' : Files} (h : fs.Adds fs') (h' : fs'.Adds fs'') : fs.Adds fs'' := by
  intro q
  obtain hsame | ⟨hnone, hmade⟩ := h q <;> obtain hsame' | ⟨hnone', hmade'⟩ := h' q
  · exact Or.inl (hsame'.trans hsame)
  · exact Or.inr ⟨hsame.symm.trans hnone', hmade'⟩
  · exact Or.inr ⟨hnone, hsame'.trans hmade⟩
  · cases hmade.symm.trans hnone'

theorem Adds.keepsDirectories (h : fs.Adds fs') : fs.KeepsDirectories fs' := by
  intro q hq
  obtain hsame | ⟨hnone, -⟩ := h q
  · exact hsame.trans hq
  · cases hnone.symm.trans hq

/-- The files are what they were. -/
theorem Adds.file_iff (h : fs.Adds fs') : fs'.at? q = some (.file data) ↔ fs.at? q = some (.file data) := by
  obtain hsame | ⟨hnone, hmade⟩ := h q
  · rw [hsame]
  · simp [hnone, hmade]

/-- A directory is made where there is nothing. -/
theorem exists_of_makeDirectory (h : fs.makeDirectory path = .ok made) :
    ∃ names, fs.resolve path = .ok (.inside names) ∧ names ≠ [] ∧ fs.at? (.inside names) = none ∧
      made = fs.insert names .directory := by
  unfold makeDirectory at h
  cases hresolve : fs.resolve path with
  | error fault =>
    rw [hresolve] at h
    cases h
  | ok q =>
    rw [hresolve] at h
    simp only [bind, Except.bind] at h
    split at h
    · cases h
    · next names hnone =>
      cases h
      exact ⟨names, rfl, ne_nil_of_not_directory (by rw [hnone]; nofun), hnone, rfl⟩
    · cases h

theorem adds_of_makeDirectory (h : fs.makeDirectory path = .ok made) : fs.Adds made := by
  obtain ⟨names, -, hnames, hnone, rfl⟩ := exists_of_makeDirectory h
  intro q
  by_cases hkey : ∃ ns, q = .inside ns ∧ ns ≠ [] ∧ key ns = key names
  · obtain ⟨ns, rfl, hne, hkey⟩ := hkey
    refine Or.inr ⟨?_, at?_insert_of_key hne hkey⟩
    rw [at?_inside hne, hkey, ← at?_inside hnames, hnone]
  · refine Or.inl (at?_insert_of_ne ?_)
    intro ns hq hne heq
    exact hkey ⟨ns, hq, hne, heq⟩

theorem adds_of_makeSteps {steps : List Path.Step} (h : fs.makeSteps steps = .ok made) :
    fs.Adds made := by
  induction steps generalizing made with
  | nil =>
    cases h
    exact .refl fs
  | cons last before ih =>
    simp only [makeSteps] at h
    split at h
    · next hmade =>
      cases h
      exact adds_of_makeDirectory hmade
    · -- The directory it lies in was missing.
      cases hbefore : fs.makeSteps before with
      | error fault =>
        rw [hbefore] at h
        cases h
      | ok between =>
        rw [hbefore] at h
        simp only [bind, Except.bind] at h
        split at h
        · next hmade =>
          cases h
          exact (ih hbefore).trans (adds_of_makeDirectory hmade)
        · split at h
          · cases h
            exact ih hbefore
          · cases h
    · split at h
      · cases h
        exact .refl fs
      · cases h

theorem adds_of_makeDirectories (h : fs.makeDirectories path = .ok made) : fs.Adds made := by
  unfold makeDirectories at h
  split at h
  · cases h
  · exact adds_of_makeSteps h

/-! ## Directories that are there -/

theorem isDirectory_eq_true_iff : fs.isDirectory path = true ↔
    ∃ q, fs.resolve path = .ok q ∧ fs.at? q = some .directory := by
  simp only [← find_eq_ok_iff]
  unfold isDirectory
  cases fs.find path with
  | error fault => simp
  | ok found =>
    obtain ⟨q, entry⟩ := found
    cases entry <;> simp

theorem isDirectory_mono (hkeeps : fs.KeepsDirectories fs') (h : fs.isDirectory path = true) :
    fs'.isDirectory path = true := by
  obtain ⟨q, hresolve, hq⟩ := isDirectory_eq_true_iff.1 h
  exact isDirectory_eq_true_iff.2 ⟨q, resolve_mono hkeeps hresolve, hkeeps q hq⟩

theorem isDirectory_of_makeDirectory (h : fs.makeDirectory path = .ok made) :
    made.isDirectory path = true := by
  have hkeeps := (adds_of_makeDirectory h).keepsDirectories
  obtain ⟨names, hresolve, hnames, -, rfl⟩ := exists_of_makeDirectory h
  exact isDirectory_eq_true_iff.2 ⟨_, resolve_mono hkeeps hresolve, at?_insert_of_key hnames rfl⟩

/-- The last of the steps that were made is a directory. -/
theorem isDirectory_of_makeSteps {last : Path.Step} {before : List Path.Step}
    (h : fs.makeSteps (last :: before) = .ok made) :
    made.isDirectory (Path.ofSteps (last :: before).reverse) = true := by
  simp only [makeSteps] at h
  split at h
  · next hmade =>
    cases h
    exact isDirectory_of_makeDirectory hmade
  · cases hbefore : fs.makeSteps before with
    | error fault =>
      rw [hbefore] at h
      cases h
    | ok between =>
      rw [hbefore] at h
      simp only [bind, Except.bind] at h
      split at h
      · next hmade =>
        cases h
        exact isDirectory_of_makeDirectory hmade
      · split at h
        · next hthere =>
          cases h
          exact hthere
        · cases h
  · split at h
    · next hthere =>
      cases h
      exact hthere
    · cases h

theorem makeDirectory_of_isDirectory (h : fs.isDirectory path = true) :
    fs.makeDirectory path = .error .alreadyExists := by
  obtain ⟨q, hresolve, hq⟩ := isDirectory_eq_true_iff.1 h
  simp [makeDirectory, hresolve, hq, bind, Except.bind]

theorem makeSteps_of_isDirectory {last : Path.Step} {before : List Path.Step}
    (h : fs.isDirectory (Path.ofSteps (last :: before).reverse) = true) :
    fs.makeSteps (last :: before) = .ok fs := by
  simp only [makeSteps, makeDirectory_of_isDirectory h, h, if_true]

/-- Directories that were made need not be made again. -/
theorem makeDirectories_again (h : fs.makeDirectories path = .ok made)
    (hkeeps : made.KeepsDirectories fs') : fs'.makeDirectories path = .ok fs' := by
  unfold makeDirectories at h ⊢
  split at h
  · cases h
  · next hnul =>
    rw [if_neg hnul]
    cases hsteps : (Path.steps path).reverse with
    | nil => rfl
    | cons last before =>
      rw [hsteps] at h
      exact makeSteps_of_isDirectory (isDirectory_mono hkeeps (isDirectory_of_makeSteps h))

/-! ## The file at a spot -/

/-- There is a file with these bytes at the spot of a path, whether or not the path gets there. -/
def Holds (fs : Files) (path : String) (data : ByteArray) : Prop :=
  ∃ q, spot path = .ok q ∧ fs.at? q = some (.file data)

theorem holds_of_read (h : fs.read path = .ok data) : fs.Holds path data := by
  obtain ⟨q, hresolve, hq⟩ := read_eq_ok_iff.1 h
  exact ⟨q, spot_of_resolve hresolve, hq⟩

theorem Holds.eq (h : fs.Holds path data) (h' : fs.Holds path bytes) : data = bytes := by
  obtain ⟨q, hspot, hq⟩ := h
  obtain ⟨q', hspot', hq'⟩ := h'
  rw [hspot] at hspot'
  cases hspot'
  rw [hq] at hq'
  cases hq'
  rfl

/-- Where something could be read, what is at the spot is read as long as directories stay. -/
theorem read_of_holds (hread : fs.read path = .ok bytes) (hkeeps : fs.KeepsDirectories fs')
    (h : fs'.Holds path data) : fs'.read path = .ok data := by
  obtain ⟨q, hresolve, -⟩ := read_eq_ok_iff.1 hread
  obtain ⟨q', hspot, hq⟩ := h
  rw [spot_of_resolve hresolve] at hspot
  cases hspot
  exact read_eq_ok_iff.2 ⟨q, resolve_mono hkeeps hresolve, hq⟩

theorem Adds.holds_iff (h : fs.Adds fs') : fs'.Holds path data ↔ fs.Holds path data := by
  simp only [Holds, h.file_iff]

/-- Two paths have no spot in common. -/
def Apart (path path' : String) : Prop :=
  ∀ ns ns', spot path = .ok (.inside ns) → spot path' = .ok (.inside ns') → key ns ≠ key ns'

/-- Files in directories of different names, or with different names, have no spot in common. -/
theorem apart_join {directory' a a' n' : String} (ha : Path.IsOrdinary a) (ha' : Path.IsOrdinary a')
    (hn : Path.IsOrdinary n) (hn' : Path.IsOrdinary n') (hne : (a, n) ≠ (a', n')) :
    Apart (Path.join (Path.join directory a) n) (Path.join (Path.join directory' a') n') := by
  have hspot : ∀ {d k m ns}, Path.IsOrdinary k → Path.IsOrdinary m →
      spot (Path.join (Path.join d k) m) = .ok (.inside ns) → ∃ base, ns = base ++ [k, m] := by
    intro d k m ns hk hm hspot
    obtain ⟨ms, hdirectory, hns⟩ | hns := spot_join_cases hm hspot
    · obtain ⟨base, -, hms⟩ | hms := spot_join_cases hk hdirectory
      · cases hns
        cases hms
        exact ⟨base, by simp⟩
      · cases hms
    · cases hns
  intro ns ns' hns hns' hkey
  obtain ⟨base, rfl⟩ := hspot ha hn hns
  obtain ⟨base', rfl⟩ := hspot ha' hn' hns'
  obtain ⟨front, hpieces⟩ := pieces_key base ha.no_slash hn.no_slash
  obtain ⟨front', hpieces'⟩ := pieces_key base' ha'.no_slash hn'.no_slash
  rw [hkey, hpieces'] at hpieces
  have hlast := (List.append_inj' hpieces rfl).2
  simp only [List.cons.injEq, and_true] at hlast
  exact hne (by rw [hlast.1, hlast.2])

/-- Writing a file changes none that has another spot. -/
theorem holds_of_write {target : String} (h : fs.write target bytes = .ok fs')
    (hapart : Apart path target) : fs'.Holds path data ↔ fs.Holds path data := by
  obtain ⟨names, hresolve, -, rfl⟩ := write_eq_ok_iff.1 h
  have hat : ∀ q, spot path = .ok q → (fs.insert names (.file bytes)).at? q = fs.at? q := by
    intro q hspot
    refine at?_insert_of_ne ?_
    rintro ns rfl -
    exact hapart ns names hspot (spot_of_resolve hresolve)
  unfold Holds
  refine exists_congr fun q => and_congr_right fun hspot => ?_
  rw [hat q hspot]

end TaskSwarm.Files
