/-
Arguments that leave no doubt.

A container is started with two words, some options and the workload: its image and the
command that a shell in it is to carry out. Every option is a flag and one value. The
environment, the ports and the volumes of a task come from other nodes and may hold any text
at all, flags and the names of shells among it. That does no harm, because such a text only
ever stands where a value belongs: pairs can be told apart by where they stand
(`eq_of_spread`), and what follows the last of them has a place of its own. So the arguments
of a task tell all there is to tell of it, and whoever takes options off their front comes to
the image (`arguments_unambiguous`).
-/
import TaskSwarm.Execution.Container

set_option autoImplicit false

namespace TaskSwarm

/-! ## What a task asks for -/

namespace Container

/-- The environment of a task as it is handed over, each name with its value. -/
def environment (c : Container) : List String := c.env.entries.map fun e => e.1 ++ "=" ++ e.2

/-- The options a task asks for: flags with their values. -/
def options (c : Container) : List (String × String) :=
  c.environment.map ("-e", ·) ++ c.ports.map ("-p", ·) ++ c.volumes.map ("-v", ·)

/-- What is started once all options are known. -/
def workload (c : Container) : List String := [c.image, "sh", "-c", c.command]

/-- The values of a flag, in their order. -/
def valuesOf (flag : String) (os : List (String × String)) : List String :=
  (os.filter (·.1 = flag)).map Prod.snd

theorem valuesOf_append (flag : String) (os os' : List (String × String)) :
    valuesOf flag (os ++ os') = valuesOf flag os ++ valuesOf flag os' := by
  simp [valuesOf]

theorem valuesOf_same (flag : String) (vs : List String) : valuesOf flag (vs.map (flag, ·)) = vs := by
  induction vs with
  | nil => rfl
  | cons v vs ih => simpa [valuesOf] using ih

theorem valuesOf_other {flag flag' : String} (h : flag' ≠ flag) (vs : List String) :
    valuesOf flag (vs.map (flag', ·)) = [] := by
  simp [valuesOf, h]

/-- The options of a task tell its environment, its ports and its volumes. -/
theorem eq_of_options {c c' : Container} (h : c.options = c'.options) :
    c.environment = c'.environment ∧ c.ports = c'.ports ∧ c.volumes = c'.volumes := by
  have hvalues : ∀ flag, valuesOf flag c.options = valuesOf flag c'.options := fun flag => by rw [h]
  have henvironment := hvalues "-e"
  have hports := hvalues "-p"
  have hvolumes := hvalues "-v"
  simp only [options, valuesOf_append, valuesOf_same, ne_eq, String.reduceEq, not_false_eq_true,
    valuesOf_other, List.append_nil, List.nil_append] at henvironment hports hvolumes
  exact ⟨henvironment, hports, hvolumes⟩

end Container

/-! ## Pairs in a row -/

namespace ContainerRuntime

variable {os os' : List (String × String)} {c c' : Container} {p q : Proposal} {d d' : String}

/-- Flags and their values, one after the other. -/
def spread (os : List (String × String)) : List String := os.flatMap fun o => [o.1, o.2]

theorem spread_cons (o : String × String) (os : List (String × String)) :
    spread (o :: os) = o.1 :: o.2 :: spread os := rfl

theorem spread_append (os os' : List (String × String)) :
    spread (os ++ os') = spread os ++ spread os' := List.flatMap_append

theorem spread_map (flag : String) (vs : List String) :
    spread (vs.map (flag, ·)) = vs.flatMap fun v => [flag, v] := List.flatMap_map ..

theorem length_spread (os : List (String × String)) : (spread os).length = 2 * os.length := by
  induction os with
  | nil => rfl
  | cons o os ih =>
    simp only [spread_cons, List.length_cons, ih]
    omega

/-- Pairs are told by the row they make, whatever they hold. -/
theorem eq_of_spread (h : spread os = spread os') : os = os' := by
  induction os generalizing os' with
  | nil =>
    cases os' with
    | nil => rfl
    | cons o' os' => cases h
  | cons o os ih =>
    cases os' with
    | nil => cases h
    | cons o' os' =>
      rw [spread_cons, spread_cons] at h
      obtain ⟨hflag, h⟩ := List.cons.inj h
      obtain ⟨hvalue, h⟩ := List.cons.inj h
      rw [ih h, Prod.ext hflag hvalue]

/-! ## The arguments of a task -/

/-- The options with which the directory of a task is seen from inside its container. -/
def mounts (directory : String) : List (String × String) :=
  [("-v", directory ++ ":" ++ mountPoint), ("-w", mountPoint)]

theorem arguments_eq (p : Proposal) (directory : String) : arguments p directory =
    "run" :: "--rm" :: spread (mounts directory ++ p.container.options) ++ p.container.workload := by
  simp only [Container.options, spread_append, spread_map, Container.environment, List.flatMap_map]
  simp [arguments, mounts, spread, Container.workload, toString]

theorem eq_of_mounts (h : mounts d = mounts d') : d = d' := by
  have hmount : d ++ ":" ++ mountPoint = d' ++ ":" ++ mountPoint := by
    simpa [mounts] using h
  rw [← String.toList_inj] at hmount ⊢
  simpa using hmount

/-- Everything about a task can be told from its arguments. -/
theorem eq_of_arguments (h : arguments p d = arguments q d') :
    d = d' ∧ p.container.options = q.container.options ∧
      p.container.workload = q.container.workload := by
  rw [arguments_eq, arguments_eq] at h
  -- What follows the options has the same length for every task, so the options end at one place.
  obtain ⟨hfront, hworkload⟩ := List.append_inj' h rfl
  have hoptions := eq_of_spread (List.cons.inj (List.cons.inj hfront).2).2
  obtain ⟨hmounts, hoptions⟩ := List.append_inj hoptions rfl
  exact ⟨eq_of_mounts hmounts, hoptions, hworkload⟩

/-- The flags of options that take a value. -/
def flags : List String := ["-e", "-p", "-v", "-w"]

/-- Takes options off the front of some arguments: a flag, and the word after it as its value, whatever that is.
What is left starts with the first word that is no flag. -/
def takeOptions : List String → List (String × String) × List String
  | flag :: value :: rest =>
    if flag ∈ flags then
      let (os, left) := takeOptions rest
      ((flag, value) :: os, left)
    else ([], flag :: value :: rest)
  | rest => ([], rest)

theorem takeOptions_spread (hos : ∀ o ∈ os, o.1 ∈ flags) (hc : c.image ∉ flags) :
    takeOptions (spread os ++ c.workload) = (os, c.workload) := by
  induction os with
  | nil => simp [spread, Container.workload, takeOptions, hc]
  | cons o os ih =>
    obtain ⟨hflag, hos⟩ := List.forall_mem_cons.1 hos
    rw [spread_cons, List.cons_append, List.cons_append, takeOptions, if_pos hflag, ih hos]

theorem mem_flags_of_mem_options {o : String × String} (h : o ∈ mounts d ++ c.options) :
    o.1 ∈ flags := by
  simp only [mounts, Container.options, List.mem_append, List.mem_cons, List.mem_map, List.not_mem_nil,
    or_false] at h
  rcases h with (rfl | rfl) | (⟨v, -, rfl⟩ | ⟨v, -, rfl⟩) | ⟨v, -, rfl⟩ <;> simp [flags]

/-- Two tasks are started with the same arguments only if they have one directory, image and command, the same
environment, ports and volumes. The image and what follows it are the last words, at a place that depends on
how many options there are and on nothing in them, and are what is left once the options are taken off. -/
theorem arguments_unambiguous (p q : Proposal) (directory directory' : String) :
    (arguments p directory = arguments q directory' ↔
      directory = directory' ∧ p.container.image = q.container.image ∧
        p.container.command = q.container.command ∧ p.container.ports = q.container.ports ∧
        p.container.volumes = q.container.volumes ∧
        p.container.environment = q.container.environment) ∧
    (∃ before, arguments p directory =
        before ++ [p.container.image, "sh", "-c", p.container.command] ∧
      before.length = 6 + 2 * (p.container.env.size + p.container.ports.length +
        p.container.volumes.length)) ∧
    (p.container.image ∉ flags → takeOptions ((arguments p directory).drop 2) =
      (mounts directory ++ p.container.options,
        [p.container.image, "sh", "-c", p.container.command])) := by
  refine ⟨⟨fun h => ?_, ?_⟩, ?_, fun himage => ?_⟩
  · obtain ⟨hdirectory, hoptions, hworkload⟩ := eq_of_arguments h
    obtain ⟨henvironment, hports, hvolumes⟩ := Container.eq_of_options hoptions
    simp only [Container.workload, List.cons.injEq, and_true, true_and] at hworkload
    exact ⟨hdirectory, hworkload.1, hworkload.2, hports, hvolumes, henvironment⟩
  · rintro ⟨rfl, himage, hcommand, hports, hvolumes, henvironment⟩
    simp only [arguments_eq, Container.options, Container.workload, himage, hcommand, hports, hvolumes,
      henvironment]
  · refine ⟨_, arguments_eq p directory, ?_⟩
    simp only [List.length_cons, length_spread, List.length_append, mounts, Container.options,
      List.length_map, Container.environment, List.length_nil, SortedMap.size]
    omega
  · rw [arguments_eq]
    exact takeOptions_spread (fun _ => mem_flags_of_mem_options) himage

/-- Entries that look like flags, like the image's shell or like a switch are read as the values they are. -/
theorem lookalikes_stay_values :
    let c : Container := ⟨"alpine:3", "ls /work", .ofList [("-v", "sh")], ["-e", "sh"], ["--rm", "-c"], []⟩
    let p : Proposal := .new "t" "n" { TaskSpec.default with container := c } 0
    c.image ∉ flags ∧ takeOptions ((arguments p "/jobs/proposal_t").drop 2) =
      ([("-v", "/jobs/proposal_t:/work"), ("-w", "/work"), ("-e", "-v=sh"), ("-p", "-e"), ("-p", "sh"),
          ("-v", "--rm"), ("-v", "-c")],
        ["alpine:3", "sh", "-c", "ls /work"]) := by
  intro c p
  have himage : c.image ∉ flags := by decide
  exact ⟨himage, (arguments_unambiguous p p "/jobs/proposal_t" "/jobs/proposal_t").2.2 himage⟩

end ContainerRuntime

end TaskSwarm
