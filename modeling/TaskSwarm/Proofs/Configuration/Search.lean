/-
Which settings count.

A file that is not there holds no settings, so it makes no difference whether a search asks
first if a file is there or simply tries to read it (`usable_eq`). Both searches of a node
therefore come to the first file that can be used: the one for settings takes all of it
(`load_eq_ok_iff`) and the one for the level of logging a part (`loadLogLevel_eq`). What the
files say does not change meanwhile, so the level is always that of the settings which the
rest of the session goes by (`level_of_settings_used`).
-/
import TaskSwarm.CommandLine.Session

set_option autoImplicit false

namespace TaskSwarm

namespace Configuration

variable {look : String → Candidate} {paths : List String} {userDirectory named : Option String}
  {c : Configuration}

/-! ## Files of which some are passed over -/

/-- The settings under a path, if there are any. -/
def usable? (look : String → Candidate) (path : String) : Option Configuration :=
  (ofCandidate (look path)).toOption

theorem usable?_eq_some_iff {path : String} :
    usable? look path = some c ↔ ofCandidate (look path) = .ok c := by
  unfold usable?
  cases ofCandidate (look path) <;> simp [Except.toOption]

/-- Nothing is lost if files that are not there are not read. -/
theorem usable_eq (look : String → Candidate) (path : String) :
    (if (look path).isPresent then usable? look path else none) = usable? look path := by
  unfold usable?
  cases look path with
  | missing => rfl
  | unreadable | text content => rfl

theorem firstOf_eq (look : String → Candidate) (paths : List String) :
    firstOf look paths = paths.findSome? (usable? look) := by
  have hsame : (fun path => if (look path).isPresent then usable? look path else none) =
      usable? look := funext (usable_eq look)
  exact congrArg paths.findSome? hsame

theorem findSome?_present (look : String → Candidate) (paths : List String) :
    (paths.filter fun path => (look path).isPresent).findSome? (usable? look) =
      paths.findSome? (usable? look) := by
  induction paths with
  | nil => rfl
  | cons path paths ih =>
    have hpath := usable_eq look path
    cases hpresent : (look path).isPresent with
    | true => simp only [List.filter_cons, hpresent, if_true, List.findSome?_cons, ih]
    | false =>
      have hnone : usable? look path = none := by simpa [hpresent] using hpath.symm
      simp only [List.filter_cons, hpresent, Bool.false_eq_true, if_false, List.findSome?_cons, hnone, ih]

/-- A search for settings ends at the first file that has some. -/
theorem firstOf_eq_some_iff : firstOf look paths = some c ↔
    ∃ before path after, paths = before ++ path :: after ∧ ofCandidate (look path) = .ok c ∧
      ∀ other ∈ before, usable? look other = none := by
  simp only [firstOf_eq, List.findSome?_eq_some_iff, usable?_eq_some_iff]

theorem firstOf_eq_none_iff : firstOf look paths = none ↔
    ∀ path ∈ paths, usable? look path = none := by
  rw [firstOf_eq, List.findSome?_eq_none_iff]

theorem firstOf_congr {look' : String → Candidate} (h : ∀ path ∈ paths, look path = look' path) :
    firstOf look paths = firstOf look' paths := by
  rw [firstOf_eq, firstOf_eq]
  induction paths with
  | nil => rfl
  | cons path paths ih =>
    obtain ⟨hpath, hrest⟩ := List.forall_mem_cons.1 h
    rw [List.findSome?_cons, List.findSome?_cons, ih hrest, usable?, usable?, hpath]

/-! ## Both searches -/

/-- Whether some settings are those that count: those of the file that is named, or else those of the first
file on the search path that can be used, or else the defaults. -/
def Counts (look : String → Candidate) (userDirectory named : Option String) (c : Configuration) : Prop :=
  match named with
  | some path => ofCandidate (look path) = .ok c
  | none =>
    (∃ before path after, searchPath userDirectory = before ++ path :: after ∧
      ofCandidate (look path) = .ok c ∧ ∀ other ∈ before, usable? look other = none) ∨
    ((∀ path ∈ searchPath userDirectory, usable? look path = none) ∧ c = default)

theorem load_eq_ok_iff : load look userDirectory named = .ok c ↔
    Counts look userDirectory named c := by
  cases named with
  | some path =>
    show (ofCandidate (look path)).mapError _ = .ok c ↔ ofCandidate (look path) = .ok c
    cases ofCandidate (look path) with
    | ok found =>
      constructor <;>
      · rintro ⟨⟩
        rfl
    | error cause => exact ⟨nofun, nofun⟩
  | none =>
    unfold Counts
    rw [← firstOf_eq_some_iff, ← firstOf_eq_none_iff]
    show Except.ok ((firstOf look (searchPath userDirectory)).getD default) = .ok c ↔ _
    cases firstOf look (searchPath userDirectory) with
    | some found => simp
    | none => simp [eq_comm]

/-- A search takes in no more than the files it may come to. -/
theorem load_congr {look' : String → Candidate}
    (h : ∀ path ∈ named.toList ++ searchPath userDirectory, look path = look' path) :
    load look userDirectory named = load look' userDirectory named := by
  cases named with
  | some path =>
    have hpath := h path (List.mem_append_left _ (List.mem_singleton.2 rfl))
    simp only [load, hpath]
  | none =>
    have hfirst : firstOf look (searchPath userDirectory) = firstOf look' (searchPath userDirectory) :=
      firstOf_congr fun path hmem => h path (List.mem_append_right _ hmem)
    simp only [load, hfirst]

theorem loadLogLevel_eq (look : String → Candidate) (userDirectory named : Option String) :
    loadLogLevel look userDirectory named =
      match load look userDirectory named with
      | .ok c => c.logLevel
      | .error _ => none := by
  have hsearch : loadLogLevel look userDirectory named =
      (firstOf look (logLevelPaths userDirectory named)).bind logLevel := by
    rw [firstOf_eq, ← findSome?_present]
    rfl
  rw [hsearch]
  cases named with
  | some path =>
    rw [firstOf_eq]
    simp only [logLevelPaths, List.findSome?_cons, List.findSome?_nil, load, usable?]
    cases ofCandidate (look path) <;> rfl
  | none =>
    -- Without a usable file there is no level, and there is none among the defaults.
    simp only [logLevelPaths, load]
    cases firstOf look (searchPath userDirectory) <;> rfl

end Configuration

/-! ## The settings of a session -/

namespace CommandLine

open Session (play)

variable {act : (d : Deed) → d.Answer}

theorem play_bind {α β : Type} (s : Session α) (f : α → Session β) :
    play (m := Id) act (s.bind f) =
      match play (m := Id) act s with
      | .ok a => play (m := Id) act (f a)
      | .error cause => .error cause := by
  induction s with
  | done a => rfl
  | halt cause => rfl
  | ask d next ih => exact ih (act d)

theorem play_lookAt (paths : List String) :
    play (m := Id) act (lookAt paths) = .ok (paths.map fun path => (path, act (.look path))) := by
  induction paths with
  | nil => rfl
  | cons path paths ih =>
    show play (m := Id) act ((lookAt paths).bind fun more => .done ((path, act (.look path)) :: more)) = _
    rw [play_bind, ih]
    rfl

theorem lookup_map_pair {α : Type} (f : String → α) {paths : List String} {path : String}
    (h : path ∈ paths) : (paths.map fun p => (p, f p)).lookup path = some (f path) := by
  induction paths with
  | nil => cases h
  | cons p paths ih =>
    rw [List.map_cons, List.lookup_cons]
    by_cases heq : path = p
    · rw [heq, beq_self_eq_true]
    · rw [beq_eq_false_iff_ne.2 heq]
      exact ih ((List.mem_cons.1 h).resolve_left heq)

/-- A session goes by the settings that are found in the files it looks at. -/
theorem play_loadSettings (act : (d : Deed) → d.Answer) (s : Surroundings) (g : Globals) :
    play (m := Id) act (loadSettings s g) =
      (Configuration.load (fun path => act (.look path)) s.userSettings g.config).mapError
        fun _ => .settings := by
  have hseen : ∀ path ∈ g.config.toList ++ Configuration.searchPath s.userSettings,
      (((g.config.toList ++ Configuration.searchPath s.userSettings).map
        fun path => (path, act (.look path))).lookup path).getD .missing = act (.look path) := by
    intro path hmem
    rw [lookup_map_pair (fun path => act (.look path)) hmem]
    rfl
  show play (m := Id) act ((lookAt _).bind _) = _
  rw [play_bind, play_lookAt]
  show play (m := Id) act (Session.require _ (Configuration.load _ s.userSettings g.config)) = _
  rw [Configuration.load_congr hseen]
  cases Configuration.load (fun path => act (.look path)) s.userSettings g.config <;> rfl

/-- Whatever the files hold and whichever is named, the settings that count are loaded, a session goes by
them, and the level of logging that was looked for beforehand is theirs; there is none if there are no
such settings. -/
theorem level_of_settings_used (act : (d : Deed) → d.Answer) (s : Surroundings) (g : Globals) :
    let look : String → Candidate := fun path => act (.look path)
    let loaded := Configuration.load look s.userSettings g.config
    (∀ c, loaded = .ok c ↔ Configuration.Counts look s.userSettings g.config c) ∧
      play (m := Id) act (loadSettings s g) = loaded.mapError (fun _ => .settings) ∧
      Configuration.loadLogLevel look s.userSettings g.config =
        match loaded with
        | .ok c => c.logLevel
        | .error _ => none :=
  ⟨fun _ => Configuration.load_eq_ok_iff, play_loadSettings act s g,
    Configuration.loadLogLevel_eq _ _ _⟩

end CommandLine

end TaskSwarm
