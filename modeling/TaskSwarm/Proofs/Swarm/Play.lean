/-
Playing a run.

A run is a relation, so that anything may happen next. To look at one run in
particular it is played: a `Scene` keeps what happened and what is left of the
programs under way, and a `Turn` says who goes on and what the surroundings
answer. Stores answer for themselves, and so do members: a call brings what
serving it came to, or fails if nobody has served it. What can be played is a run
(`run_played`).

Who takes a call in is told what it asks, because the text of a request is easy
to write and tedious to read; a turn compares the bytes, and `Scene.serve` leaves
that to a proof.
-/
import TaskSwarm.Proofs.Message.Heard
import TaskSwarm.Proofs.Swarm.History

set_option autoImplicit false

namespace TaskSwarm

/-- What a request asks of who reads it, if it can be read. -/
def Inbound.ofHeard? (r : Request) : Option Inbound :=
  match Request.codec.decode (.text Source.maxLevels) (Request.codec.encode r).tree with
  | .ok heard => if heard.kind = r.kind then (ofRequest heard).toOption else none
  | .error _ => none

theorem Inbound.ofBytes_writeMessage {r : Request} {m : Inbound}
    (hsize : (Wire.textBytes (Request.codec.encode r)).length < Wire.maxMessageSize)
    (hm : ofHeard? r = some m) : ofBytes r.kind (Wire.writeMessage Request.codec r) = .ok m := by
  have hwhole : (Wire.writeMessage Request.codec r).size ≤ Wire.maxMessageSize := by
    rw [Wire.size_writeMessage]
    exact hsize
  unfold ofBytes
  rw [Wire.readFirst_writeMessage rfl hwhole]
  unfold ofHeard? at hm
  split at hm
  · next heard hheard =>
    rw [hheard]
    split at hm
    · next hkind =>
      show (if heard.kind ≠ r.kind then _ else ofRequest heard) = _
      rw [if_neg (Decidable.not_not.2 hkind)]
      cases ho : ofRequest heard with
      | error e =>
        rw [ho] at hm
        cases hm
      | ok m' =>
        rw [ho] at hm
        cases hm
        rfl
    · cases hm
  · cases hm

/-- Whether a node's user asks for an operation. -/
def Operation.isUsers : Operation → Bool
  | .job _ | .handle _ _ => false
  | _ => true

namespace Swarm

/-- What happened, and what is left to do for whoever has something left. -/
structure Scene where
  history : List Event
  cast : List (Activity × Program (Outcome Json))

/-- What happens next. -/
inductive Turn
  /-- A node's user has it do something. -/
  | user (peer : PeerId) (operation : Operation)
  /-- A peer outside the swarm asks a node something. -/
  | outsider (peer sender : PeerId) (message : Inbound)
  /-- A node goes on with the job that it set going some events ago. -/
  | job (ago : Nat)
  /-- A member takes in one of the calls that the activity of some number is making. -/
  | hear (number index : Nat) (request : Request)
  /-- The activity of some number goes on, with an answer from its surroundings if it needs one. -/
  | go (number : Nat) (told : (e : Effect) → Option e.Answer)
  /-- The activity of some number ends. -/
  | finish (number : Nat)

variable (w : Swarm)

/-! ## Answers -/

/-- Whether a text has been given out as an id or a token. -/
def isTaken (text : String) : Event → Bool
  | .asked _ .freshId id => id = text
  | .asked _ .freshToken token => token = text
  | _ => false

/-- Whether two calls are the same. -/
def isSame (c d : Call) : Bool :=
  c.peer = d.peer && c.protocol = d.protocol && c.bytes.data.toList = d.bytes.data.toList &&
    c.timeout = d.timeout

/-- What serving a call came to, if an event says so. -/
def outcomeOf (number place index : Nat) (c : Call) : Event → Option (Outcome Json)
  | .ended ⟨_, _, .request n p i d, _⟩ o =>
    if n = number ∧ p = place ∧ i = index ∧ isSame d c then some o else none
  | _ => none

/-- What a call to a member brings. -/
def reply (h : List Event) (a : Activity) (i : Nat) (c : Call) : Except CallFault ByteArray :=
  match h.findSome? (outcomeOf a.number (place a h) i c) with
  | some o => .ok (Wire.writeMessage Response.codec (.ofOutcome 0 o))
  | none => .error .requestTimedOut

/-- The answer to an effect, if what was told may be one. -/
def answer? (h : List Event) (a : Activity) (told : (e : Effect) → Option e.Answer) :
    (e : Effect) → Option e.Answer
  | .store c => some ((w.store h a.peer).step c).2.1
  | .freshId => (told .freshId).filter fun id => !h.any (isTaken id)
  | .freshToken => (told .freshToken).filter fun token => !h.any (isTaken token)
  | .call c => some (reply h a 0 c)
  | .callAll cs => some (cs.mapIdx (reply h a))
  | e => told e

/-! ## One turn -/

/-- Whether an event begins the job that the effect at some place of an activity has set going. -/
def isJobOf (number place : Nat) : Event → Bool
  | .began ⟨_, _, .spawned n p, _⟩ => n = number && p = place
  | _ => false

/-- Whether an event begins the serving of a call of the effect at some place of an activity. -/
def isServiceOf (number place index : Nat) : Event → Bool
  | .began ⟨_, _, .request n p i _, _⟩ => n = number && p = place && i = index
  | _ => false

/-- The scene in which an activity has begun. -/
def Scene.enter (sc : Scene) (peer : PeerId) (origin : Origin) (operation : Operation) : Scene :=
  let a : Activity := ⟨sc.history.length, peer, origin, operation⟩
  ⟨.began a :: sc.history, (a, operation.program (w.settings peer)) :: sc.cast⟩

/-- The scene in which a member has taken in a call of an activity. -/
def Scene.serve (sc : Scene) (b : Activity) (i : Nat) (c : Call) (m : Inbound) : Scene :=
  sc.enter w c.peer (.request b.number (place b sc.history) i c) (.handle b.peer m)

variable [DecidablePred w.isMember]

/-- The scene after a turn, if it may be taken. -/
def Scene.next (sc : Scene) : Turn → Option Scene
  | .user peer operation =>
    if w.isMember peer ∧ operation.isUsers then some (sc.enter w peer .outside operation) else none
  | .outsider peer sender message =>
    if w.isMember peer ∧ ¬ w.isMember sender then
      some (sc.enter w peer .outside (.handle sender message))
    else none
  | .job ago =>
    match sc.history.drop ago with
    | .asked b (.spawn j) () :: older =>
      if sc.history.any (isJobOf b.number (place b older)) then none
      else some (sc.enter w b.peer (.spawned b.number (place b older)) (.job j))
    | _ => none
  | .hear number i r =>
    match sc.cast.find? (·.1.number = number) with
    | some (b, .ask e _) =>
      match e.calls[i]? with
      | some c =>
        match Inbound.ofHeard? r with
        | some m =>
          if w.isMember c.peer ∧ !sc.history.any (isServiceOf b.number (place b sc.history) i) ∧
              isSame c ⟨c.peer, Protocol.ofKind r.kind, Wire.writeMessage Request.codec r, c.timeout⟩ ∧
                (Wire.textBytes (Request.codec.encode r)).length < Wire.maxMessageSize then
            some (sc.serve w b i c m)
          else none
        | none => none
      | none => none
    | _ => none
  | .go number told =>
    match sc.cast.find? (·.1.number = number) with
    | some (a, .ask e next) => (w.answer? sc.history a told e).map fun answer =>
        ⟨.asked a e answer :: sc.history,
          (a, next answer) :: sc.cast.filter (·.1.number ≠ number)⟩
    | _ => none
  | .finish number =>
    match sc.cast.find? (·.1.number = number) with
    | some (a, .done o) => some ⟨.ended a o :: sc.history, sc.cast.filter (·.1.number ≠ number)⟩
    | _ => none

/-- What some turns come to, one after the other; the scene itself if one of them may not be taken. -/
def Scene.after (sc : Scene) (turns : List Turn) : Scene :=
  (turns.foldlM (Scene.next w) sc).getD sc

/-- What happened in the course of some turns; nothing if one of them may not be taken. -/
def played (turns : List Turn) : List Event := (Scene.after w ⟨[], []⟩ turns).history

/-! ## What is played is a run -/

variable {w}
variable {h : List Event} {a : Activity} {sc sc' : Scene}

theorem eq_of_isSame {c d : Call} (hsame : isSame c d = true) : c = d := by
  obtain ⟨peer, protocol, ⟨⟨bytes⟩⟩, timeout⟩ := c
  obtain ⟨peer', protocol', ⟨⟨bytes'⟩⟩, timeout'⟩ := d
  simp only [isSame, Bool.and_eq_true, decide_eq_true_eq] at hsame
  obtain ⟨⟨⟨rfl, rfl⟩, rfl⟩, rfl⟩ := hsame
  rfl

omit [DecidablePred w.isMember] in
/-- A call brings what serving it came to. -/
theorem brought_reply (i : Nat) (c : Call) : w.Brought h a i c (reply h a i c) := by
  cases hreply : reply h a i c with
  | error fault => trivial
  | ok bytes =>
    intro _
    unfold reply at hreply
    split at hreply
    · next o ho =>
      cases hreply
      obtain ⟨event, hmem, hevent⟩ := List.exists_of_findSome?_eq_some ho
      unfold outcomeOf at hevent
      split at hevent
      · next number peer n p j d operation o' =>
        split at hevent
        · next hc =>
          obtain ⟨rfl, rfl, rfl, hsame⟩ := hc
          cases hevent
          rw [eq_of_isSame hsame] at hmem
          exact ⟨0, o, rfl, Or.inl ⟨_, hmem, rfl⟩⟩
        · cases hevent
      · cases hevent
    · cases hreply

omit [DecidablePred w.isMember] in
theorem possible_of_answer? {told : (e : Effect) → Option e.Answer} {e : Effect} {answer : e.Answer}
    (hanswer : w.answer? h a told e = some answer) : w.Possible h a e answer := by
  cases e with
  | store c =>
    cases hanswer
    rfl
  | freshId =>
    intro b hmem
    obtain ⟨-, hfree⟩ := Option.filter_eq_some_iff.1 hanswer
    simp only [Bool.not_eq_true', List.any_eq_false] at hfree
    exact hfree _ hmem (by simp [isTaken])
  | freshToken =>
    intro b hmem
    obtain ⟨-, hfree⟩ := Option.filter_eq_some_iff.1 hanswer
    simp only [Bool.not_eq_true', List.any_eq_false] at hfree
    exact hfree _ hmem (by simp [isTaken])
  | call c =>
    cases hanswer
    exact brought_reply 0 c
  | callAll cs =>
    cases hanswer
    refine ⟨List.length_mapIdx, fun i c r hc hr => ?_⟩
    rw [List.getElem?_mapIdx, hc] at hr
    cases hr
    exact brought_reply i c
  | _ => trivial

/-- A scene that a run can have come to. -/
structure Scene.Valid (w : Swarm) (sc : Scene) : Prop where
  run : w.Run sc.history
  standing : ∀ x ∈ sc.cast, w.Standing x.1 sc.history x.2
  /-- Activities are numbered by when they begin. -/
  number_lt : ∀ b, .began b ∈ sc.history → b.number < sc.history.length

omit [DecidablePred w.isMember] in
theorem Scene.Valid.enter (hvalid : sc.Valid w) {peer : PeerId} {origin : Origin}
    {operation : Operation}
    (hfresh : ∀ b, .began b ∈ sc.history → b.origin = origin → origin = .outside)
    (hopens : w.Opens sc.history ⟨sc.history.length, peer, origin, operation⟩) :
    (sc.enter w peer origin operation).Valid w := by
  have hnumber : ∀ b, .began b ∈ sc.history → b.number ≠ sc.history.length :=
    fun b hb => Nat.ne_of_lt (hvalid.number_lt b hb)
  refine ⟨.begin hvalid.run hnumber hfresh hopens, ?_, ?_⟩
  · intro x hx
    rcases List.mem_cons.1 hx with rfl | hx
    · exact .began
    · have hst := hvalid.standing x hx
      refine .other (fun heq => ?_) hst
      exact hnumber _ hst.began_mem (congrArg Activity.number heq.symm)
  · intro b hb
    rcases List.mem_cons.1 hb with hb | hb
    · cases hb
      exact Nat.lt_succ_self _
    · exact Nat.lt_succ_of_lt (hvalid.number_lt b hb)

omit [DecidablePred w.isMember] in
/-- A member may take in a call that an activity is making, if it has not done so before. -/
theorem Scene.Valid.serve (hvalid : sc.Valid w) {b : Activity} {e : Effect}
    {next : e.Answer → Program (Outcome Json)} {number i : Nat} {c : Call} {kind : MessageKind}
    {m : Inbound} (hfind : sc.cast.find? (·.1.number = number) = some (b, .ask e next))
    (hcall : e.calls[i]? = some c) (hmember : w.isMember c.peer)
    (hkind : Protocol.kind? c.protocol = some kind) (hm : Inbound.ofBytes kind c.bytes = .ok m)
    (hfirst : sc.history.any (isServiceOf b.number (place b sc.history) i) = false) :
    (sc.serve w b i c m).Valid w := by
  have hst := hvalid.standing _ (List.mem_of_find?_eq_some hfind)
  refine hvalid.enter ?_ (.request hst hcall hmember hkind hm)
  rintro ⟨number', peer, origin, operation⟩ hb rfl
  have hnot := List.any_eq_false.1 hfirst _ hb
  simp [isServiceOf] at hnot

omit [DecidablePred w.isMember] in
/-- The others stand where they stood. -/
theorem Scene.Valid.others (hvalid : sc.Valid w) {event : Event} {x : Activity × Program (Outcome Json)}
    (hx : x ∈ sc.cast.filter (·.1.number ≠ event.activity.number)) :
    w.Standing x.1 (event :: sc.history) x.2 := by
  obtain ⟨hx, hne⟩ := List.mem_filter.1 hx
  refine .other (fun heq => ?_) (hvalid.standing x hx)
  rw [heq] at hne
  simp at hne

omit [DecidablePred w.isMember] in
/-- A node may go on with a job that it has set going, if it has not done so before. -/
theorem Scene.Valid.spawn (hvalid : sc.Valid w) {b : Activity} {j : Job} {ago : Nat} {older : List Event}
    (hdrop : sc.history.drop ago = .asked b (.spawn j) () :: older)
    (hfirst : sc.history.any (isJobOf b.number (place b older)) = false) :
    (sc.enter w b.peer (.spawned b.number (place b older)) (.job j)).Valid w := by
  have hsplit : sc.history = sc.history.take ago ++ .asked b (.spawn j) () :: older := by
    rw [← hdrop, List.take_append_drop]
  refine hvalid.enter ?_ (.spawned hsplit)
  rintro ⟨number', peer, origin, operation⟩ hb rfl
  have hnot := List.any_eq_false.1 hfirst _ hb
  simp [isJobOf] at hnot

omit [DecidablePred w.isMember] in
/-- A member may take in a call whose bytes are those of a request it can read. -/
theorem Scene.Valid.hear (hvalid : sc.Valid w) {b : Activity} {e : Effect}
    {next : e.Answer → Program (Outcome Json)} {number i : Nat} {c : Call} {r : Request}
    {m : Inbound} (hfind : sc.cast.find? (·.1.number = number) = some (b, .ask e next))
    (hcall : e.calls[i]? = some c) (hmember : w.isMember c.peer) (hm : Inbound.ofHeard? r = some m)
    (hsame : isSame c ⟨c.peer, Protocol.ofKind r.kind, Wire.writeMessage Request.codec r, c.timeout⟩)
    (hsize : (Wire.textBytes (Request.codec.encode r)).length < Wire.maxMessageSize)
    (hfirst : sc.history.any (isServiceOf b.number (place b sc.history) i) = false) :
    (sc.serve w b i c m).Valid w := by
  have heq := eq_of_isSame hsame
  have hkind : Protocol.kind? c.protocol = some r.kind := by
    rw [heq]
    exact Protocol.kind?_ofKind r.kind
  have hbytes : Inbound.ofBytes r.kind c.bytes = .ok m := by
    rw [heq]
    exact Inbound.ofBytes_writeMessage hsize hm
  exact hvalid.serve hfind hcall hmember hkind hbytes hfirst

omit [DecidablePred w.isMember] in
/-- An activity may go on with an answer that is possible. -/
theorem Scene.Valid.ask (hvalid : sc.Valid w) {e : Effect} {next : e.Answer → Program (Outcome Json)}
    {number : Nat} {answer : e.Answer}
    (hfind : sc.cast.find? (·.1.number = number) = some (a, .ask e next))
    (hpossible : w.Possible sc.history a e answer) :
    Scene.Valid w ⟨.asked a e answer :: sc.history,
      (a, next answer) :: sc.cast.filter (·.1.number ≠ number)⟩ := by
  have hst := hvalid.standing _ (List.mem_of_find?_eq_some hfind)
  obtain rfl : a.number = number := by simpa using List.find?_some hfind
  refine ⟨.ask hvalid.run hst hpossible, ?_, ?_⟩
  · intro x hx
    rcases List.mem_cons.1 hx with rfl | hx
    · exact .asked answer hst
    · exact hvalid.others hx
  · intro b hb
    exact Nat.lt_succ_of_lt (hvalid.number_lt b (began_mem_asked.1 hb))

omit [DecidablePred w.isMember] in
/-- An activity that has come to something may end. -/
theorem Scene.Valid.finish (hvalid : sc.Valid w) {o : Outcome Json} {number : Nat}
    (hfind : sc.cast.find? (·.1.number = number) = some (a, .done o)) :
    Scene.Valid w ⟨.ended a o :: sc.history, sc.cast.filter (·.1.number ≠ number)⟩ := by
  have hst := hvalid.standing _ (List.mem_of_find?_eq_some hfind)
  obtain rfl : a.number = number := by simpa using List.find?_some hfind
  refine ⟨.finish hvalid.run hst, fun x hx => hvalid.others hx, ?_⟩
  intro b hb
  exact Nat.lt_succ_of_lt (hvalid.number_lt b (began_mem_ended.1 hb))

theorem Scene.Valid.next (hvalid : sc.Valid w) {turn : Turn} (hnext : sc.next w turn = some sc') :
    sc'.Valid w := by
  cases turn with
  | user peer operation =>
    simp only [Scene.next] at hnext
    split at hnext
    · next hc =>
      cases hnext
      refine hvalid.enter (fun _ _ _ => rfl) (.user hc.1 ?_ ?_)
      · rintro j rfl
        cases hc.2
      · rintro sender m rfl
        cases hc.2
    · cases hnext
  | outsider peer sender message =>
    simp only [Scene.next] at hnext
    split at hnext
    · next hc =>
      cases hnext
      exact hvalid.enter (fun _ _ _ => rfl) (.outsider hc.1 hc.2)
    · cases hnext
  | job ago =>
    simp only [Scene.next] at hnext
    split at hnext
    · next b j older hdrop =>
      split at hnext
      · cases hnext
      · next hany =>
        cases hnext
        exact hvalid.spawn hdrop (Bool.eq_false_iff.2 hany)
    · cases hnext
  | hear number i r =>
    simp only [Scene.next] at hnext
    split at hnext
    · next b e next hfind =>
      split at hnext
      · next c hcall =>
        split at hnext
        · next m hm =>
          split at hnext
          · next hc =>
            obtain ⟨hmember, hfirst, hsame, hsize⟩ := hc
            cases hnext
            exact hvalid.hear hfind hcall hmember hm hsame hsize (by simpa using hfirst)
          · cases hnext
        · cases hnext
      · cases hnext
    · cases hnext
  | go number told =>
    simp only [Scene.next] at hnext
    split at hnext
    · next a e next hfind =>
      obtain ⟨answer, hanswer, rfl⟩ := Option.map_eq_some_iff.1 hnext
      exact hvalid.ask hfind (possible_of_answer? hanswer)
    · cases hnext
  | finish number =>
    simp only [Scene.next] at hnext
    split at hnext
    · next a o hfind =>
      cases hnext
      exact hvalid.finish hfind
    · cases hnext

theorem Scene.Valid.after (hvalid : sc.Valid w) (turns : List Turn) : (sc.after w turns).Valid w := by
  unfold Scene.after
  cases hplay : turns.foldlM (Scene.next w) sc with
  | none => exact hvalid
  | some sc' =>
    rw [Option.getD_some]
    induction turns generalizing sc with
    | nil =>
      cases hplay
      exact hvalid
    | cons turn turns ih =>
      rw [List.foldlM_cons] at hplay
      obtain ⟨sc₁, hnext, hplay⟩ := Option.bind_eq_some_iff.1 hplay
      exact ih (hvalid.next hnext) hplay

omit [DecidablePred w.isMember] in
theorem Scene.valid_blank : (⟨[], []⟩ : Scene).Valid w := ⟨.nil, by simp, by simp⟩

/-- What is played is a run. -/
theorem run_played (turns : List Turn) : w.Run (w.played turns) :=
  (Scene.valid_blank.after turns).run

/-! ## A plain swarm -/

/-- The swarm of some peers who are told nothing particular. -/
def among (members : List PeerId) : Swarm where
  isMember n := n ∈ members
  settings n := ⟨n, 0, 1000, "inbox"⟩
  named _ := rfl
  capabilities _ := .default
  lockTimeout _ := 60000

instance (members : List PeerId) : DecidablePred (among members).isMember :=
  fun n => inferInstanceAs (Decidable (n ∈ members))

/-- Surroundings in which time stands still, files are empty and go through, and `name` is what is
given out as fresh. -/
def calm (name : String) : (e : Effect) → Option e.Answer
  | .emit _ | .sleep _ | .spawn _ => some ()
  | .now => some 0
  | .freshId | .freshToken => some name
  | .readFile _ => some (.ok .empty)
  | .transfer _ => some (.ok ())
  | _ => none

/-- A task that prints a word, and needs some files for it. -/
def echo (files : List String) : TaskSpec :=
  { TaskSpec.default with
    container := { Container.empty with
      image := "alpine", command := "echo done", inputFiles := files } }

end Swarm

end TaskSwarm
