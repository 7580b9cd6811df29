/-
The steps of a path.

What a path is made of are the texts between its slashes, and joining two paths
puts these one after the other, however the first one ends (`pieces_join`). A path
that is neither absolute nor starts with a dot therefore adds its own steps to those
of the directory it is seen from (`steps_join`). An ordinary name is one such step:
it is not empty, has no slash in it, and is none of the two that stand for other
directories. Every name that a path ends with is ordinary, and so is every id of a
proposal, which is all that keeps files in their place.
-/
import TaskSwarm.Files.Path
import TaskSwarm.Task.Identifier

set_option autoImplicit false

namespace TaskSwarm

namespace Path

variable {directory path n piece : String}

/-! ## Pieces -/

@[simp] theorem pieces_empty : pieces "" = [""] := rfl

theorem pieces_ne_nil : pieces path ≠ [] := by simp [pieces, List.splitOn_ne_nil]

/-- A slash ends a piece. -/
theorem pieces_append_slash {a b : String} : pieces (a ++ "/" ++ b) = pieces a ++ pieces b := by
  have htext : (a ++ "/" ++ b).toList = a.toList ++ '/' :: b.toList := by simp
  simp only [pieces, htext, List.splitOn_append_cons_self, List.map_append]

theorem pieces_of_no_slash (h : '/' ∉ path.toList) : pieces path = [path] := by
  simp [pieces, List.splitOn_eq_singleton h]

/-- What is split at a separator has none of it in its parts. -/
theorem not_mem_of_mem_splitOn {α : Type} [BEq α] [LawfulBEq α] {a : α} {l part : List α}
    (h : part ∈ l.splitOn a) : a ∉ part := by
  induction l generalizing part with
  | nil =>
    obtain rfl : part = [] := by simpa using h
    exact List.not_mem_nil
  | cons x l ih =>
    rw [List.splitOn_cons_eq_if_modifyHead] at h
    split at h
    · obtain rfl | h := List.mem_cons.1 h
      · exact List.not_mem_nil
      · exact ih h
    · next hne =>
      cases hparts : l.splitOn a with
      | nil => simp [hparts] at h
      | cons first rest =>
        rw [hparts, List.modifyHead_cons] at h
        obtain rfl | h := List.mem_cons.1 h
        · have hfirst := ih (hparts ▸ List.mem_cons_self)
          simp only [List.mem_cons, not_or]
          exact ⟨fun heq => hne (by simp [heq]), hfirst⟩
        · exact ih (hparts ▸ List.mem_cons_of_mem _ h)

/-- A path whose first piece is empty has a slash there, or nothing at all. -/
theorem isAbsolute_of_head?_pieces (hne : path ≠ "") (h : (pieces path).head? = some "") :
    isAbsolute path = true := by
  obtain ⟨c, rest, hcons⟩ : ∃ c rest, path.toList = c :: rest :=
    List.exists_cons_of_ne_nil (by simpa using hne)
  unfold pieces at h
  rw [hcons, List.splitOn_cons_eq_if_modifyHead] at h
  split at h
  · next hslash => simpa [isAbsolute, hcons] using hslash
  · cases hparts : rest.splitOn '/' with
    | nil => simp [List.splitOn_ne_nil] at hparts
    | cons first more =>
      -- The first piece starts with the first character.
      rw [hparts] at h
      simp at h

theorem no_slash_of_mem_pieces (h : piece ∈ pieces path) : '/' ∉ piece.toList := by
  obtain ⟨part, hpart, rfl⟩ := List.mem_map.1 h
  rw [String.toList_ofList]
  exact not_mem_of_mem_splitOn hpart

/-! ## Ordinary names -/

/-- A name that stands for something in a directory, and for nothing else. -/
structure IsOrdinary (n : String) : Prop where
  no_slash : '/' ∉ n.toList
  ne_empty : n ≠ ""
  ne_here : n ≠ "."
  ne_up : n ≠ ".."

theorem step?_eq_name_iff : step? piece = some (.name n) ↔
    piece = n ∧ n ≠ "" ∧ n ≠ "." ∧ n ≠ ".." := by
  unfold step?
  split
  · next h =>
    simp only [Bool.or_eq_true, decide_eq_true_eq] at h
    refine ⟨nofun, ?_⟩
    rintro ⟨rfl, hempty, hhere, -⟩
    exact absurd h (by simp [hempty, hhere])
  · next h =>
    simp only [Bool.or_eq_true, decide_eq_true_eq, not_or] at h
    split
    · next hup =>
      refine ⟨nofun, ?_⟩
      rintro ⟨rfl, -, -, hne⟩
      exact absurd hup hne
    · next hup =>
      simp only [Option.some.injEq, Step.name.injEq]
      refine ⟨?_, fun h => h.1⟩
      rintro rfl
      exact ⟨rfl, h.1, h.2, hup⟩

/-- The names among the steps of a path are ordinary. -/
theorem isOrdinary_of_mem_steps (h : .name n ∈ steps path) : IsOrdinary n := by
  have hnamed : .name n ∈ (pieces path).filterMap step? := by
    unfold steps at h
    split at h
    · simpa using h
    · split at h
      · simpa using h
      · exact h
  obtain ⟨piece, hpiece, hstep⟩ := List.mem_filterMap.1 hnamed
  obtain ⟨rfl, hempty, hhere, hup⟩ := step?_eq_name_iff.1 hstep
  exact ⟨no_slash_of_mem_pieces hpiece, hempty, hhere, hup⟩

theorem isOrdinary_of_fileName? (h : fileName? path = some n) : IsOrdinary n := by
  unfold fileName? at h
  split at h
  · next name hlast =>
    cases h
    exact isOrdinary_of_mem_steps (List.mem_of_getLast? hlast)
  · cases h

theorem IsOrdinary.not_isAbsolute (h : IsOrdinary n) : isAbsolute n = false := by
  refine decide_eq_false fun hhead => ?_
  exact h.no_slash (List.mem_of_head? hhead)

theorem IsOrdinary.steps_eq (h : IsOrdinary n) : steps n = [.name n] := by
  have hstep : step? n = some (.name n) := step?_eq_name_iff.2 ⟨rfl, h.ne_empty, h.ne_here, h.ne_up⟩
  have hpieces := pieces_of_no_slash h.no_slash
  simp [steps, hpieces, hstep, h.not_isAbsolute, h.ne_here]

theorem IsOrdinary.isOneName (h : IsOrdinary n) : isOneName n = true := by
  simp [Path.isOneName, h.steps_eq]

/-- What is one name and nothing else is so up to slashes and dots at its end. -/
theorem exists_of_isOneName (h : isOneName path = true) :
    ∃ n, IsOrdinary n ∧ steps path = [.name n] := by
  unfold isOneName at h
  split at h
  · next n hsteps => exact ⟨n, isOrdinary_of_mem_steps (by rw [hsteps]; exact List.mem_cons_self), hsteps⟩
  · cases h

/-! ## Relative paths -/

/-- A path that counts from where it is seen. -/
structure IsRelative (path : String) : Prop where
  not_isAbsolute : isAbsolute path = false
  not_here : (pieces path).head? ≠ some "."

theorem IsRelative.steps_eq (h : IsRelative path) : steps path = (pieces path).filterMap step? := by
  simp [steps, h.not_isAbsolute, h.not_here]

theorem IsOrdinary.isRelative (h : IsOrdinary n) : IsRelative n := by
  refine ⟨h.not_isAbsolute, ?_⟩
  rw [pieces_of_no_slash h.no_slash]
  simpa using h.ne_here

/-- A path whose first step is a name is relative. -/
theorem isRelative_of_steps {rest : List Step} (h : steps path = .name n :: rest) :
    IsRelative path := by
  unfold steps at h
  split at h
  · cases h
  · next habsolute =>
    split at h
    · cases h
    · next hhere => exact ⟨Bool.eq_false_iff.2 habsolute, hhere⟩

/-- Whatever stands in front of an ordinary name is a step more. -/
theorem not_isOneName_of_slash {front : String} (hn : IsOrdinary n) :
    isOneName (front ++ "/" ++ n) = false := by
  refine Bool.eq_false_iff.2 fun hone => ?_
  obtain ⟨m, -, hsteps⟩ := exists_of_isOneName hone
  have hrelative := isRelative_of_steps hsteps
  have hpieces : pieces (front ++ "/" ++ n) = pieces front ++ [n] := by
    rw [pieces_append_slash, pieces_of_no_slash hn.no_slash]
  have hstep : step? n = some (.name n) := step?_eq_name_iff.2 ⟨rfl, hn.ne_empty, hn.ne_here, hn.ne_up⟩
  obtain ⟨piece, more, hfront⟩ : ∃ piece more, pieces front = piece :: more :=
    List.exists_cons_of_ne_nil pieces_ne_nil
  have hhead : (pieces (front ++ "/" ++ n)).head? = some piece := by rw [hpieces, hfront]; rfl
  rw [hrelative.steps_eq, hpieces, hfront, List.filterMap_append] at hsteps
  cases hpiece : step? piece with
  | some step => simp [hpiece, hstep] at hsteps
  | none =>
    unfold step? at hpiece
    split at hpiece
    · next hnothing =>
      simp only [Bool.or_eq_true, decide_eq_true_eq] at hnothing
      obtain rfl | rfl := hnothing
      · have habsolute := isAbsolute_of_head?_pieces (by simp) hhead
        rw [hrelative.not_isAbsolute] at habsolute
        cases habsolute
      · exact hrelative.not_here hhead
    · split at hpiece <;> cases hpiece

/-! ## Joining -/

theorem join_eq (hpath : isAbsolute path = false) (hdirectory : directory ≠ "") :
    join directory path =
      if directory.toList.getLast? = some '/' then directory ++ path else directory ++ "/" ++ path := by
  have hempty : directory.isEmpty = false := by simpa using hdirectory
  unfold join
  rw [hpath, hempty]
  rfl

/-- Joining puts the pieces of a path after those of its directory; a slash that the directory ends with
has nothing after it, and does not count. -/
theorem pieces_join (hpath : isAbsolute path = false) (hdirectory : directory ≠ "") :
    ∃ front, pieces (join directory path) = front ++ pieces path ∧
      (pieces directory = front ∨ pieces directory = front ++ [""]) ∧ front ≠ [] := by
  rw [join_eq hpath hdirectory]
  split
  · next hlast =>
    -- The directory ends with a slash.
    obtain ⟨front, hfront⟩ := List.getLast?_eq_some_iff.1 hlast
    have hsplit : directory = String.ofList front ++ "/" ++ "" := by
      rw [← String.toList_inj]
      simp [hfront]
    refine ⟨pieces (String.ofList front), ?_, Or.inr ?_, pieces_ne_nil⟩
    · rw [hsplit, String.append_empty, pieces_append_slash]
    · rw [hsplit, pieces_append_slash, pieces_empty]
  · exact ⟨pieces directory, pieces_append_slash, Or.inl rfl, pieces_ne_nil⟩

theorem isAbsolute_join (hpath : isAbsolute path = false) (hdirectory : directory ≠ "") :
    isAbsolute (join directory path) = isAbsolute directory := by
  obtain ⟨c, rest, hcons⟩ : ∃ c rest, directory.toList = c :: rest :=
    List.exists_cons_of_ne_nil (by simpa using hdirectory)
  rw [join_eq hpath hdirectory]
  split <;> simp [isAbsolute, hcons]

/-- **A path seen from a directory adds its steps to those of the directory.** -/
theorem steps_join (hpath : IsRelative path) :
    steps (join directory path) = steps directory ++ steps path := by
  by_cases hdirectory : directory = ""
  · subst hdirectory
    have hjoin : join "" path = path := by simp [join]
    rw [hjoin]
    rfl
  obtain ⟨front, hjoin, hfront, hne⟩ := pieces_join hpath.not_isAbsolute hdirectory
  have habsolute := isAbsolute_join hpath.not_isAbsolute hdirectory
  have hnamed : (pieces directory).filterMap step? = front.filterMap step? := by
    obtain h | h := hfront
    · rw [h]
    · rw [h, List.filterMap_append]
      simp [step?]
  have hhead : ∀ back, (front ++ back).head? = front.head? := by
    obtain ⟨first, rest, rfl⟩ := List.exists_cons_of_ne_nil hne
    exact fun _ => rfl
  have hfirst : (pieces directory).head? = front.head? := by
    obtain h | h := hfront
    · rw [h]
    · rw [h, hhead]
  rw [hpath.steps_eq]
  simp only [steps, hjoin, habsolute, hhead, hfirst, hnamed, List.filterMap_append]
  split
  · rfl
  · split <;> rfl

theorem IsOrdinary.steps_join (hn : IsOrdinary n) :
    steps (join directory n) = steps directory ++ [.name n] := by
  rw [Path.steps_join hn.isRelative, hn.steps_eq]

end Path

/-! ## Ids -/

namespace Identifier

variable {id : String} {c : Char}

/-- The characters an id may hold are the letters and digits of ASCII, the dash and the underscore. -/
theorem isIdChar_iff : isIdChar c = true ↔ c.isAlphanum = true ∨ c = '-' ∨ c = '_' := by
  have hupper : c.isUpper = decide ('A' ≤ c ∧ c ≤ 'Z') := rfl
  have hlower : c.isLower = (decide ('a' ≤ c) && decide (c ≤ 'z')) := rfl
  have hdigit : c.isDigit = (decide ('0' ≤ c) && decide (c ≤ '9')) := rfl
  have hone : c.isAlphanum = (c.isUpper || c.isLower || c.isDigit) := rfl
  rw [hone, hupper, hlower, hdigit]
  simp only [isIdChar, Bool.or_eq_true, Bool.and_eq_true, decide_eq_true_eq]
  rw [or_comm (a := 'a' ≤ c ∧ _), or_assoc (c := c = '_')]

theorem isValid_iff : isValid id = true ↔
    id ≠ "" ∧ ∀ c ∈ id.toList, c.isAlphanum = true ∨ c = '-' ∨ c = '_' := by
  simp only [isValid, Bool.and_eq_true, Bool.not_eq_true', List.all_eq_true, isIdChar_iff]
  simp

/-- What is made of such characters is an ordinary name. -/
theorem isOrdinary_of_isIdChar {n : String} (hne : n ≠ "") (hchars : n.toList.all isIdChar = true) :
    Path.IsOrdinary n := by
  have hnone : ∀ c, isIdChar c = false → c ∉ n.toList := by
    intro c hc hmem
    rw [List.all_eq_true.1 hchars c hmem] at hc
    cases hc
  refine ⟨hnone '/' (by decide), hne, ?_, ?_⟩
  · rintro rfl
    exact hnone '.' (by decide) (by decide)
  · rintro rfl
    exact hnone '.' (by decide) (by decide)

theorem isOrdinary_of_isValid (h : isValid id = true) : Path.IsOrdinary id := by
  simp only [isValid, Bool.and_eq_true, Bool.not_eq_true', String.isEmpty_eq_false_iff] at h
  exact isOrdinary_of_isIdChar h.1 h.2

end Identifier

end TaskSwarm
