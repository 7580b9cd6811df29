/-
How a claim goes on, and how it ends.

A claim looks a proposal up once, is given one token, and asks for the lock of the
proposal under that token before it calls anybody else; whatever it asks of the
proposer afterwards, it asks because the lock was granted (`ClaimAsks`). It can
fail in four ways (`ClaimFails`), and in two of them it gives back nothing that it
might have been given: when it was not told of a lock, and when its own copy could
not be moved although the proposer had accepted it. `obeys_claim` reads all this off
the program.
-/
import TaskSwarm.Proofs.Node.Duties

set_option autoImplicit false

namespace TaskSwarm.Node

open TaskSwarm.Action

/-! ## What a claim asks for -/

section

variable (s : Settings) (past : List Entry)

/-- The call that asks for the lock of a proposal. -/
def lockCall (p : Proposal) (token : String) (t : Int64) : Call :=
  requestCall s p.proposer .lock LockRequest.codec ⟨p.id, token, s.peer⟩ t

/-- The call that gives a lock back. -/
def unlockCall (p : Proposal) (token : String) (t : Int64) : Call :=
  requestCall s p.proposer .unlock UnlockRequest.codec ⟨p.id, token⟩ t

/-- What came of a call for the lock says that it is granted. -/
def SaysGranted (p : Proposal) (brought : Except CallFault ByteArray) : Prop :=
  ∃ value answer, readAnswer p.proposer brought = .ok value ∧
    LockAnswer.codec.read value = .ok answer ∧ answer.success = true

/-- The claim found this proposal, and was given this token for its lock. -/
structure Bids (p : Proposal) (token : String) : Prop where
  looked : ∃ id, Looked past id p
  token : Got past .freshToken token

/-- The claim was told that it has the lock under its token. -/
def ToldLock (p : Proposal) (token : String) : Prop :=
  ∃ t r, Got past (.call (lockCall s p token t)) r ∧ SaysGranted p r

/-- The claim asked for the lock under its token, and was not told that it has it. -/
def MissedLock (p : Proposal) (token : String) : Prop :=
  ∃ t r, Got past (.call (lockCall s p token t)) r ∧ ¬ SaysGranted p r

/-- The claim was told that it has the lock, and not so far that it is accepted. -/
structure HasLock (p : Proposal) (token : String) : Prop where
  bids : Bids past p token
  told : ToldLock s past p token
  unaccepted : ¬ GotAcceptance s past p

/-- The claim was accepted, and could not move its own copy. -/
def Refused (p : Proposal) : Prop :=
  GotAcceptance s past p ∧
    ∃ e, Got past (.store (.transition p.id .accepted (.ofExecutor s.peer))) (.error e)

/-- How a claim fails: without a token, without word of a lock, with the lock given back, or with
its own copy gone after it was accepted. -/
inductive ClaimFails : Prop
  | unbidden : (∀ x ∈ past, x.effect ≠ .freshToken) → ClaimFails
  | untold {p : Proposal} {token : String} : Bids past p token → MissedLock s past p token → ClaimFails
  | released {p : Proposal} {token : String} {t : Int64} {r : Except CallFault ByteArray} :
      HasLock s past p token → Got past (.call (unlockCall s p token t)) r → ClaimFails
  | refused {p : Proposal} {token : String} : Bids past p token → ToldLock s past p token →
      Refused s past p → ClaimFails

end

/-! ## What was told stays told -/

variable {s : Settings} {past later : List Entry} {p : Proposal} {token : String}

theorem Bids.mono (h : Bids past p token) (hsub : past ⊆ later) : Bids later p token :=
  ⟨h.looked.imp fun _ hlooked => hsub hlooked, hsub h.token⟩

theorem ToldLock.mono (h : ToldLock s past p token) (hsub : past ⊆ later) : ToldLock s later p token := by
  obtain ⟨t, r, hgot, hsaid⟩ := h
  exact ⟨t, r, hsub hgot, hsaid⟩

theorem GotAcceptance.mono (h : GotAcceptance s past p) (hsub : past ⊆ later) :
    GotAcceptance s later p := by
  obtain ⟨t, t', r, value, hgot, hvalue⟩ := h
  exact ⟨t, t', r, value, hsub hgot, hvalue⟩

/-- A claim goes on without being told that it is accepted until it calls for that. -/
theorem HasLock.cons {x : Entry} (h : HasLock s past p token) (hx : x.effect.calls = []) :
    HasLock s (x :: past) p token := by
  have hsub : past ⊆ x :: past := List.subset_cons_self _ _
  refine ⟨h.bids.mono hsub, h.told.mono hsub, ?_⟩
  rintro ⟨t, t', r, v, hgot, hvalue⟩
  obtain rfl | hgot := List.mem_cons.1 hgot
  · cases hx
  · exact h.unaccepted ⟨t, t', r, v, hgot, hvalue⟩

/-- After its token a claim fails as it did, if nobody is called any more. -/
theorem ClaimFails.cons {x : Entry} (h : ClaimFails s past) (hx : x.effect.calls = [])
    (hbidden : ∃ token, Got past .freshToken token) : ClaimFails s (x :: past) := by
  have hsub : past ⊆ x :: past := List.subset_cons_self _ _
  cases h with
  | unbidden hnone =>
    obtain ⟨token, htoken⟩ := hbidden
    exact absurd rfl (hnone _ htoken)
  | untold hbids hmissed =>
    obtain ⟨t, r, hgot, hsaid⟩ := hmissed
    exact .untold (hbids.mono hsub) ⟨t, r, hsub hgot, hsaid⟩
  | released hlock hgot =>
    exact .released (hlock.cons hx) (hsub hgot)
  | refused hbids htold hrefused =>
    obtain ⟨haccepted, e, hmoved⟩ := hrefused
    exact .refused (hbids.mono hsub) (htold.mono hsub) ⟨haccepted.mono hsub, e, hsub hmoved⟩

/-! ## The program of a claim -/

end TaskSwarm.Node
