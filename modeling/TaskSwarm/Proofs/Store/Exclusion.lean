/-
One lock at a time.

Whose lock a proposal is under can be told from the decisions of its store alone:
a grant names the lock, a move by command may bring one or drop the one there was,
and an unlock or a removal ends it (`Store.held`). The record agrees, whatever the
clock said (`holds_after`). So the store refuses an unlock that does not carry the
token of that lock, and between two grants with nothing to end the first, the
second found the first in the record, and found it expired (`free_or_held`).
-/
import TaskSwarm.Proofs.Store.LockLaw

set_option autoImplicit false

namespace TaskSwarm

/-- A proposal as its proposer makes it. -/
def Proposal.IsNew (p : Proposal) : Prop := ∃ spec, p = .new p.id p.proposer spec p.timestamp

theorem Proposal.IsNew.isUnder {p : Proposal} (h : p.IsNew) : p.IsUnder none := by
  obtain ⟨spec, hp⟩ := h
  rw [hp]
  exact isUnder_new ..

/-! ## Decisions about locks -/

namespace Decision

/-- A lock on the proposal `k` is granted. -/
inductive Grants (k : String) : Lock → Decision → Prop
  | mk {r : LockRequest} {now : Int64} {token : String} {former : TaskState} : r.proposalId = k →
      Grants k ⟨r.token, r.requester, now⟩ ⟨.lock r now, .granted token former⟩

/-- What may end a lock on `k` under a token: a move by command, an unlock with that token, or the
end of the record. -/
inductive Frees (k token : String) : Decision → Prop
  | moved {target : TaskState} {patch : Patch} {q : Proposal} :
      Frees k token ⟨.transition k target patch, .ok q⟩
  | unlocked : Frees k token ⟨.unlock ⟨k, token⟩, .ok ()⟩
  | removed {former : Option Proposal} : Frees k token ⟨.remove k, former⟩

/-- The lock on `k` after a decision, going by the decision. -/
def lockLeft (k : String) (former : Option Lock) (d : Decision) : Option Lock :=
  if d.command.moves? d.answer = some k then d.command.lockLeft former
  else
    match d.command with
    | .remove id => if id = k then none else former
    | _ => former

theorem lockLeft_of_moves {k : String} {former : Option Lock} {d : Decision}
    (h : d.command.moves? d.answer = some k) : d.lockLeft k former = d.command.lockLeft former :=
  if_pos h

theorem lockLeft_of_remove {k : String} {former : Option Lock} {record : Option Proposal} :
    (⟨.remove k, record⟩ : Decision).lockLeft k former = none := by
  simp [lockLeft, Command.moves?]

theorem lockLeft_of_other {k : String} {former : Option Lock} {d : Decision}
    (hmoves : d.command.moves? d.answer ≠ some k) (hremove : d.command ≠ .remove k) :
    d.lockLeft k former = former := by
  rw [lockLeft, if_neg hmoves]
  split
  · next id heq =>
    have hid : id ≠ k := fun hid => hremove (by rw [heq, hid])
    exact if_neg hid
  · rfl

theorem Grants.lockLeft {k : String} {former : Option Lock} {l : Lock} {d : Decision}
    (h : d.Grants k l) : d.lockLeft k former = some l := by
  obtain ⟨hr⟩ := h
  exact lockLeft_of_moves (congrArg some hr)

end Decision

namespace Store

/-- The lock on `k`, going by what was decided since there was no record of it. -/
def held (k : String) (ds : List Decision) : Option Lock := ds.foldl (fun lock d => d.lockLeft k lock) none

variable {s : Store} {k : String} {lock : Option Lock} {c : Command} {cs : List Command}

/-! ## The lock in the record -/

/-- The record under `k` is under this lock, or there is neither. -/
structure Holds (s : Store) (k : String) (lock : Option Lock) : Prop where
  record : ∀ {p}, s.proposals.get? k = some p → p.IsUnder lock
  absent : s.proposals.get? k = none → lock = none

theorem Holds.step (h : s.Holds k lock) (hinsert : ∀ p, c = .insert p → p.id = k → p.IsUnder none) :
    (s.step c).1.Holds k (Decision.lockLeft k lock ⟨c, (s.step c).2.1⟩) := by
  cases hp : s.proposals.get? k with
  | none =>
    have hlock := h.absent hp
    subst hlock
    have hleft : Decision.lockLeft k none ⟨c, (s.step c).2.1⟩ = none := by
      by_cases hremove : c = .remove k
      · subst hremove; exact Decision.lockLeft_of_remove
      · exact Decision.lockLeft_of_other (not_moves_of_none hp) hremove
    rw [hleft]
    obtain hnone | ⟨q, hc, hid, hq⟩ := step_of_none hp c
    · refine ⟨fun hr => ?_, fun _ => rfl⟩
      rw [hnone] at hr
      cases hr
    · refine ⟨fun hr => ?_, fun _ => rfl⟩
      obtain rfl := Option.some.inj (hq.symm.trans hr)
      exact hinsert _ hc hid
  | some p =>
    have hunder := h.record hp
    by_cases hmoves : c.moves? (s.step c).2.1 = some k
    · obtain ⟨p', q, hp', hchanges, hstep, -, -⟩ := step_of_moves hmoves
      obtain rfl := Option.some.inj (hp.symm.trans hp')
      rw [Decision.lockLeft_of_moves hmoves, hstep]
      constructor
      · intro r hr
        rw [get?_put, if_pos rfl] at hr
        obtain rfl := Option.some.inj hr
        exact hchanges.isUnder hunder
      · intro hr
        rw [get?_put, if_pos rfl] at hr
        cases hr
    by_cases hremove : c = .remove k
    · subst hremove
      rw [Decision.lockLeft_of_remove]
      refine ⟨fun hr => ?_, fun _ => rfl⟩
      simp [Store.step, SortedMap.get?_erase] at hr
    · obtain ⟨progress, hq⟩ := get?_step_of_not_moves hp hmoves hremove
      rw [Decision.lockLeft_of_other hmoves hremove]
      refine ⟨fun hr => ?_, fun hr => ?_⟩
      · obtain rfl := Option.some.inj (hq.symm.trans hr)
        exact ⟨hunder.state, hunder.token, hunder.holder, hunder.since⟩
      · rw [hq] at hr; cases hr

theorem holds_empty (capabilities : Capabilities) (timeout : Int64) (k : String) :
    (empty capabilities timeout).Holds k none where
  record h := by cases h
  absent _ := rfl

theorem Holds.after (h : s.Holds k lock)
    (hinsert : ∀ p, Command.insert p ∈ cs → p.id = k → p.IsUnder none) :
    (s.after cs).Holds k ((s.decisions cs).foldl (fun lock d => d.lockLeft k lock) lock) := by
  induction cs generalizing s lock with
  | nil => exact h
  | cons c cs ih =>
    apply ih
    · exact h.step fun p hc => hinsert p (hc ▸ List.mem_cons_self)
    · intro p hp
      exact hinsert p (List.mem_cons_of_mem c hp)

/-- After any commands, the record is under the lock that the decisions tell of. -/
theorem holds_after {capabilities : Capabilities} {timeout : Int64}
    (hinsert : ∀ p, Command.insert p ∈ cs → p.id = k → p.IsNew) :
    ((empty capabilities timeout).after cs).Holds k (held k ((empty capabilities timeout).decisions cs)) :=
  (holds_empty capabilities timeout k).after fun p hp hid => (hinsert p hp hid).isUnder

/-! ## What a lock keeps out -/

/-- An unlock succeeds with the token of the lock there is, and with no other. -/
theorem unlock_ok_iff (h : s.Holds k lock) (token : String) :
    (s.step (.unlock ⟨k, token⟩)).2.1 = .ok () ↔ lock.map Lock.token = some token := by
  cases hp : s.proposals.get? k with
  | none =>
    rw [h.absent hp]
    simp [step, unlock, hp]
  | some p =>
    have hunder := h.record hp
    rw [← hunder.token]
    constructor
    · intro hok
      cases hrelease : p.release token with
      | error e => simp [step, unlock, hp, hrelease] at hok
      | ok q => exact (Proposal.release_eq_ok_iff.1 hrelease).1
    · intro htoken
      have hstate : p.state = .locked := by
        rw [hunder.state, ← Option.isSome_map (f := Lock.token), ← hunder.token, htoken]
        rfl
      exact reply_unlock hp hstate htoken

/-- While a lock is there and nothing frees it or grants another, it stays. -/
theorem lockLeft_of_not_frees {l : Lock} (h : s.Holds k (some l))
    (hgrants : ∀ l', ¬ Decision.Grants k l' ⟨c, (s.step c).2.1⟩)
    (hfrees : ¬ Decision.Frees k l.token ⟨c, (s.step c).2.1⟩) :
    Decision.lockLeft k (some l) ⟨c, (s.step c).2.1⟩ = some l := by
  have hremove : c ≠ .remove k := by
    rintro rfl
    exact hfrees .removed
  refine Decision.lockLeft_of_other (fun hmoves => ?_) hremove
  cases c with
  | transition id target patch =>
    cases hanswer : (s.step (.transition id target patch)).2.1 with
    | error e => rw [hanswer] at hmoves; cases hmoves
    | ok q =>
      rw [hanswer] at hmoves hfrees
      cases hmoves
      exact hfrees .moved
  | lock r now =>
    cases hanswer : (s.step (.lock r now)).2.1 with
    | denied denial => rw [hanswer] at hmoves; cases hmoves
    | granted token former =>
      rw [hanswer] at hmoves hgrants
      exact hgrants _ (.mk (Option.some.inj hmoves))
  | unlock u =>
    obtain ⟨id, token⟩ := u
    cases hanswer : (s.step (.unlock ⟨id, token⟩)).2.1 with
    | error e => rw [hanswer] at hmoves; cases hmoves
    | ok _ =>
      have hid : id = k := by rw [hanswer] at hmoves; exact Option.some.inj hmoves
      subst hid
      -- Only the token of the lock itself gives it back.
      have htoken : l.token = token := Option.some.inj ((unlock_ok_iff h token).1 hanswer)
      rw [hanswer, ← htoken] at hfrees
      exact hfrees .unlocked
  | insert | get | list | remove | setProgress | capabilities | updateCapabilities | canHandle
    | reserve | finish | activeTasks => cases hmoves

/-- A lock stays until something frees it, as long as no other is granted. -/
theorem free_or_held {l : Lock} (h : s.Holds k (some l))
    (hinsert : ∀ p, Command.insert p ∈ cs → p.id = k → p.IsUnder none)
    (hgrants : ∀ d ∈ s.decisions cs, ∀ l', ¬ d.Grants k l') :
    (s.after cs).Holds k (some l) ∨
      ∃ xs d ys, s.decisions cs = xs ++ d :: ys ∧ d.Frees k l.token ∧
        xs.foldl (fun lock d => d.lockLeft k lock) (some l) = some l := by
  induction cs generalizing s with
  | nil => exact Or.inl h
  | cons c cs ih =>
    by_cases hfrees : Decision.Frees k l.token ⟨c, (s.step c).2.1⟩
    · exact Or.inr ⟨[], _, _, rfl, hfrees, rfl⟩
    have hstays := lockLeft_of_not_frees h (hgrants _ List.mem_cons_self) hfrees
    have hstep := h.step fun p hc => hinsert p (hc ▸ List.mem_cons_self)
    rw [hstays] at hstep
    have hrest := ih hstep (fun p hp => hinsert p (List.mem_cons_of_mem c hp))
      fun d hd => hgrants d (List.mem_cons_of_mem _ hd)
    obtain hheld | ⟨xs, d, ys, hsplit, hd, hxs⟩ := hrest
    · exact Or.inl hheld
    · refine Or.inr ⟨_ :: xs, d, ys, by rw [decisions_cons, hsplit]; rfl, hd, ?_⟩
      rw [List.foldl_cons, hstays, hxs]

/-- A lock that is there gives way to another only when it has expired. -/
theorem timeout_le_of_grants {l l' : Lock} (h : s.Holds k (some l))
    (hgrants : Decision.Grants k l' ⟨c, (s.step c).2.1⟩) : s.lockTimeout ≤ l'.since - l.since := by
  generalize hanswer : (s.step c).2.1 = answer at hgrants
  obtain @⟨r, now, token, former, hr⟩ := hgrants
  subst hr
  obtain ⟨p, q, hp, hgrant⟩ := of_reply_lock hanswer
  have hunder := h.record hp
  have hstate : p.state = .locked := hunder.state.2 rfl
  have hage : p.lockAge now = now - l.since := by rw [Proposal.lockAge, hunder.since]; rfl
  have hdenial := (Proposal.grant_eq_ok_iff.1 hgrant).1
  rw [Proposal.lockDenial?, hstate, hage] at hdenial
  split at hdenial
  · cases hdenial
  · by_cases hyoung : now - l.since < s.lockTimeout
    · rw [if_pos hyoung] at hdenial; cases hdenial
    · exact Int64.not_lt.1 hyoung

/-- The next grant finds the lock expired, or freed. -/
theorem expired_or_freed {l l' : Lock} {between rest : List Decision} {d : Decision}
    (h : s.Holds k (some l)) (hinsert : ∀ p, Command.insert p ∈ cs → p.id = k → p.IsUnder none)
    (hds : s.decisions cs = between ++ d :: rest) (hd : d.Grants k l')
    (hbetween : ∀ d ∈ between, ∀ l, ¬ d.Grants k l) :
    s.lockTimeout ≤ l'.since - l.since ∨
      ∃ xs d ys, between = xs ++ d :: ys ∧ d.Frees k l.token ∧
        xs.foldl (fun lock d => d.lockLeft k lock) (some l) = some l := by
  obtain ⟨bs, cs', rfl, hbs, hcs'⟩ := decisions_eq_append hds
  obtain ⟨cs', rfl, hanswer, -⟩ := decisions_eq_cons hcs'
  have hinsert' : ∀ p, Command.insert p ∈ bs → p.id = k → p.IsUnder none :=
    fun p hp => hinsert p (List.mem_append_left _ hp)
  rw [← hbs] at hbetween
  obtain hheld | hfreed := free_or_held h hinsert' hbetween
  · left
    have htimeout : (s.after bs).lockTimeout = s.lockTimeout := lockTimeout_after
    rw [← htimeout]
    apply timeout_le_of_grants hheld
    rw [hanswer]
    exact hd
  · right
    rwa [hbs] at hfreed

/-- The proposer of a record gets no lock on it. -/
theorem denied_of_proposer {p : Proposal} {r : LockRequest} {now : Int64}
    (hp : s.proposals.get? r.proposalId = some p) (hself : r.requester = p.proposer) :
    (s.step (.lock r now)).2.1 = .denied .selfClaim := by
  have hgrant : p.grant r now s.lockTimeout = .error .selfClaim := by
    simp [Proposal.grant, Proposal.lockDenial?, hself]
  simp [step, lock, hp, hgrant]

/-- Locks on a proposal exclude each other. A second one is granted only once the first has expired
or was freed, and until then the record is under the first; an unlock has to carry the token of the
lock there is; the proposer gets no lock; and what is refused changes nothing. -/
theorem locks_exclude {capabilities : Capabilities} {timeout : Int64}
    (hinsert : ∀ p, Command.insert p ∈ cs → p.id = k → p.IsNew) :
    (∀ before d₁ between d₂ rest lock₁ lock₂,
        (empty capabilities timeout).decisions cs = before ++ d₁ :: (between ++ d₂ :: rest) →
        d₁.Grants k lock₁ → d₂.Grants k lock₂ → (∀ d ∈ between, ∀ lock, ¬ d.Grants k lock) →
        (lock₂.since - lock₁.since).toInt = lock₂.since.toInt - lock₁.since.toInt →
          timeout.toInt ≤ lock₂.since.toInt - lock₁.since.toInt ∨
            ∃ xs d ys, between = xs ++ d :: ys ∧ d.Frees k lock₁.token ∧
              held k (before ++ d₁ :: xs) = some lock₁) ∧
      (∀ p, ((empty capabilities timeout).after cs).proposals.get? k = some p →
        p.IsUnder (held k ((empty capabilities timeout).decisions cs))) ∧
      (∀ token, (((empty capabilities timeout).after cs).step (.unlock ⟨k, token⟩)).2.1 = .ok () ↔
        (held k ((empty capabilities timeout).decisions cs)).map Lock.token = some token) ∧
      (∀ r now p, r.proposalId = k →
        ((empty capabilities timeout).after cs).proposals.get? k = some p → r.requester = p.proposer →
        (((empty capabilities timeout).after cs).step (.lock r now)).2.1 = .denied .selfClaim) ∧
      ∀ c, c.refuses (((empty capabilities timeout).after cs).step c).2.1 = true →
        (((empty capabilities timeout).after cs).step c).1 = (empty capabilities timeout).after cs := by
  refine ⟨?_, fun p hp => (holds_after hinsert).record hp, unlock_ok_iff (holds_after hinsert), ?_,
    fun c hrefuses => (step_of_refuses hrefuses).1⟩
  · intro before d₁ between d₂ rest lock₁ lock₂ hds hd₁ hd₂ hbetween hoverflow
    obtain ⟨bs, cs', rfl, hbs, hcs'⟩ := decisions_eq_append hds
    obtain ⟨cs', rfl, hanswer, hcs'⟩ := decisions_eq_cons hcs'
    have hbefore : ((empty capabilities timeout).after bs).Holds k
        (held k ((empty capabilities timeout).decisions bs)) :=
      holds_after fun p hp => hinsert p (List.mem_append_left _ hp)
    -- The first grant puts its lock in the record.
    have hlocked := hbefore.step (c := d₁.command) fun p hp hid =>
      (hinsert p (List.mem_append_right _ (hp ▸ List.mem_cons_self)) hid).isUnder
    rw [hanswer, hd₁.lockLeft] at hlocked
    have hnext := expired_or_freed hlocked (fun p hp hid =>
      (hinsert p (List.mem_append_right _ (List.mem_cons_of_mem _ hp)) hid).isUnder) hcs' hd₂ hbetween
    obtain hexpired | ⟨xs, d, ys, hsplit, hd, hxs⟩ := hnext
    · left
      rw [lockTimeout_step, lockTimeout_after, Int64.le_iff_toInt_le, hoverflow] at hexpired
      exact hexpired
    · right
      refine ⟨xs, d, ys, hsplit, hd, ?_⟩
      rw [held, List.foldl_append, List.foldl_cons, hd₁.lockLeft, hxs]
  · intro r now p hr hp hself
    subst hr
    exact denied_of_proposer hp hself

/-- A lock is granted, refused to somebody else, and granted to them when it has expired. -/
def regranting : List Command :=
  [.insert (.new "t" "p" .default 0), .lock ⟨"t", "x", "a"⟩ 0, .lock ⟨"t", "y", "b"⟩ 50,
    .lock ⟨"t", "y", "b"⟩ 100]

theorem regranting_excludes :
    (∀ p, Command.insert p ∈ regranting → p.id = "t" → p.IsNew) ∧
      ((100 : Int64).toInt ≤ (100 : Int64).toInt - (0 : Int64).toInt ∨
        ∃ xs d ys, [⟨.lock ⟨"t", "y", "b"⟩ 50, .denied .alreadyLocked⟩] = xs ++ d :: ys ∧
          Decision.Frees "t" "x" d ∧
            held "t" ([⟨.insert (.new "t" "p" .default 0), true⟩] ++
              ⟨.lock ⟨"t", "x", "a"⟩ 0, .granted "x" .proposed⟩ :: xs) = some ⟨"x", "a", 0⟩) ∧
      (((empty .default 100).after regranting).step (.unlock ⟨"t", "x"⟩)).2.1 ≠ .ok () ∧
      (((empty .default 100).after regranting).step (.unlock ⟨"t", "y"⟩)).2.1 = .ok () := by
  have hinsert : ∀ p, Command.insert p ∈ regranting → p.id = "t" → p.IsNew := by
    intro p hp _
    obtain rfl : p = .new "t" "p" .default 0 := by simpa [regranting] using hp
    exact ⟨.default, rfl⟩
  obtain ⟨hexclude, -, hunlock, -, -⟩ := @locks_exclude "t" regranting .default 100 hinsert
  have hheld : held "t" ((empty .default 100).decisions regranting) = some ⟨"y", "b", 100⟩ := rfl
  have hds : (empty .default 100).decisions regranting =
      [⟨.insert (.new "t" "p" .default 0), true⟩] ++
        ⟨.lock ⟨"t", "x", "a"⟩ 0, .granted "x" .proposed⟩ ::
          ([⟨.lock ⟨"t", "y", "b"⟩ 50, .denied .alreadyLocked⟩] ++
            ⟨.lock ⟨"t", "y", "b"⟩ 100, .granted "y" .locked⟩ :: []) := rfl
  rw [hheld] at hunlock
  refine ⟨hinsert, ?_, ?_, (hunlock "y").2 rfl⟩
  · apply hexclude _ _ _ _ _ ⟨"x", "a", 0⟩ ⟨"y", "b", 100⟩ hds
    · exact @Decision.Grants.mk "t" ⟨"t", "x", "a"⟩ 0 "x" .proposed rfl
    · exact @Decision.Grants.mk "t" ⟨"t", "y", "b"⟩ 100 "y" .locked rfl
    · intro d hd lock hgrants
      obtain rfl := List.mem_singleton.1 hd
      cases hgrants
    · decide
  · intro hok
    have htoken := (hunlock "x").1 hok
    revert htoken
    decide

end Store

end TaskSwarm
