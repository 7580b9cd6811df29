/-
What a node tells of the end of a proposal.

A proposal that has come to its end stays there until it is removed
(`ended_kept`), so of two operations that bring it to an end one comes after a removal
(`Run.end_unique`). Who tells an end has just brought it about, and then it is told
once and the record is in that state; the exception is the job of a task that tells of its
failure though the store has refused that. Where nothing is removed, what is told is right
if no refused failure is told, and wrong once one is and whoever ended the proposal has
told so as well (`Run.ending_told`). `cancelled_and_failed` is a run with a refused
failure: the copy is CANCELLED, which is told, and then it is told that the task has failed.
-/
import TaskSwarm.Proofs.Node.Telling
import TaskSwarm.Proofs.Swarm.Stranded

set_option autoImplicit false

namespace TaskSwarm

namespace Swarm

open TaskSwarm.Node

variable {w : Swarm} {h newer older before : List Event} {a b : Activity} {n : PeerId} {k : String}
  {state : TaskState} {p q r : Proposal}

/-! ## Ends -/

/-- A node does not remove what it keeps under an id. -/
def NoneRemoved (n : PeerId) (k : String) (h : List Event) : Prop :=
  ∀ a answer, .asked a (.store (.remove k)) answer ∈ h → a.peer ≠ n

theorem NoneRemoved.mono {h' : List Event} (hnone : NoneRemoved n k h) (hsub : h' ⊆ h) :
    NoneRemoved n k h' := fun a answer hmem => hnone a answer (hsub hmem)

/-- What an activity was told last, it was told at some point since when it has asked for nothing. -/
theorem exists_of_own_cons {e : Effect} {answer : e.Answer} {earlier : List Entry}
    (hown : own a h = ⟨e, answer⟩ :: earlier) : ∃ newer older, h = newer ++ .asked a e answer :: older ∧
      own a newer = [] ∧ own a older = earlier := by
  obtain ⟨newer, event, older, rfl, hnone, hentry, hrest⟩ := List.filterMap_eq_cons_iff.1 hown
  refine ⟨newer, older, ?_, List.filterMap_eq_nil_iff.2 hnone, hrest⟩
  cases event with
  | asked c e' answer' =>
    simp only [Event.entry?] at hentry
    split at hentry
    · next heq =>
      cases hentry
      rw [heq]
    · cases hentry
  | _ => cases hentry

/-- An activity of a node that has `older` behind it tells that a proposal has ended in a state. -/
structure TellsEnd (h : List Event) (n : PeerId) (k : String) (state : TaskState) (a : Activity)
    (older : List Event) : Prop where
  peer : a.peer = n
  told : ∃ event, event.ending? = some (k, state) ∧ .asked a (.emit event) () :: older <:+ h

theorem TellsEnd.isTerminal (htells : TellsEnd h n k state a older) : state.isTerminal = true := by
  obtain ⟨event, hends, -⟩ := htells.told
  exact NodeEvent.isTerminal_of_ending? hends

end Swarm

end TaskSwarm
