/-
What a reader has taken in, however the bytes were cut.

Pieces in a row stand for a connection. A reader that asks for them one by one
ends up with a beginning of the bytes, and the pieces it did not ask for hold the
rest (`takeIn_popPiece`). It stops because it has enough, because a line has
ended or because there is no more. The first line of what it has is then the
first line of everything (`lineLength_append`).
-/
import Mathlib.Data.List.Basic
import TaskSwarm.Proofs.Wire.Line
import TaskSwarm.Wire.Intake

set_option autoImplicit false

namespace TaskSwarm.Wire

/-! ## The first line -/

/-- Whether a reader that wants a line of so many bytes at most has enough, given what would follow. -/
def Enough (limit : Nat) (start more : ByteArray) : Prop :=
  limit ≤ start.size ∨ more = .empty ∨ newline ∈ listed start

/-- The line of a reader that has enough is the line of everything. -/
theorem lineLength_append {limit : Nat} {start more : ByteArray} (h : Enough limit start more) :
    lineLength (start ++ more) 0 (min (start ++ more).size limit) =
      lineLength start 0 (min start.size limit) := by
  rw [lineLength_eq (Nat.min_le_left _ _), lineLength_eq (Nat.min_le_left _ _), listed_append,
    ByteArray.size_append]
  rcases h with hlimit | rfl | hmem
  · rw [List.takeWhile_append]
    split
    · next hall =>
      rw [List.length_append, hall, length_listed]
      omega
    · omega
  · simp [listed]
  · obtain ⟨before, after, hlist, hbefore⟩ := List.eq_append_cons_of_mem hmem
    have hlt : before.length < start.size := by
      rw [← length_listed, hlist, List.length_append, List.length_cons]
      omega
    rw [hlist, takeWhile_of_split hbefore, List.append_assoc, List.cons_append,
      takeWhile_of_split hbefore]
    omega

/-! ## Pieces in a row -/

/-- The bytes of pieces in a row. -/
def joined (pieces : List ByteArray) : ByteArray := pieces.foldr (· ++ ·) .empty

/-- Asks for the first piece of those that are left. -/
def popPiece : StateM (List ByteArray) (Option ByteArray) := fun pieces =>
  match pieces with
  | [] => (none, [])
  | piece :: pieces => (some piece, pieces)

theorem newline_mem_of_findIdx? {bytes : ByteArray}
    (h : (bytes.findIdx? (· = newline)).isSome = true) : newline ∈ listed bytes := by
  by_contra hmem
  rw [findIdx?_eq_none_iff.2 hmem] at h
  cases h

section

variable {limit : Nat} {oneLine : Bool} {count : Nat} {before : ByteArray}

theorem takePieces_of_le (h : limit ≤ before.size) (pieces : List ByteArray) :
    takePieces popPiece limit oneLine (count + 1) before pieces = (before, pieces) := by
  simp only [takePieces, h, if_true]
  rfl

theorem takePieces_nil (h : ¬ limit ≤ before.size) :
    takePieces popPiece limit oneLine (count + 1) before [] = (before, []) := by
  simp only [takePieces, h, if_false]
  rfl

theorem takePieces_cons (h : ¬ limit ≤ before.size) (piece : ByteArray) (pieces : List ByteArray) :
    takePieces popPiece limit oneLine (count + 1) before (piece :: pieces) =
      if oneLine && (piece.findIdx? (· = newline)).isSome then (before ++ piece, pieces)
      else takePieces popPiece limit oneLine count (before ++ piece) pieces := by
  simp only [takePieces, h, if_false]
  change (if oneLine && (piece.findIdx? (· = newline)).isSome then pure (before ++ piece)
    else takePieces popPiece limit oneLine count (before ++ piece) :
      StateM (List ByteArray) ByteArray) pieces = _
  split <;> rfl

/-- Taking in some pieces and leaving the others changes no byte, and goes on until there is enough. -/
theorem takePieces_popPiece {pieces : List ByteArray} (hpieces : ∀ p ∈ pieces, p.size ≠ 0)
    (hcount : limit ≤ before.size + count) :
    ∃ start left, takePieces popPiece limit oneLine count before pieces = (start, left) ∧
      start ++ joined left = before ++ joined pieces ∧ Enough limit start (joined left) := by
  induction count generalizing before pieces with
  | zero => exact ⟨before, pieces, rfl, rfl, Or.inl hcount⟩
  | succ count ih =>
    by_cases hlimit : limit ≤ before.size
    · exact ⟨before, pieces, takePieces_of_le hlimit pieces, rfl, Or.inl hlimit⟩
    cases pieces with
    | nil => exact ⟨before, [], takePieces_nil hlimit, rfl, Or.inr (Or.inl rfl)⟩
    | cons piece pieces =>
      obtain ⟨hpiece, hpieces⟩ := List.forall_mem_cons.1 hpieces
      have hjoined : before ++ piece ++ joined pieces = before ++ joined (piece :: pieces) :=
        ByteArray.append_assoc
      rw [takePieces_cons hlimit]
      split
      · next hstop =>
        -- A line has ended within the piece.
        refine ⟨before ++ piece, pieces, rfl, hjoined, Or.inr (Or.inr ?_)⟩
        rw [listed_append]
        exact List.mem_append_right _ (newline_mem_of_findIdx? (Bool.and_eq_true_iff.1 hstop).2)
      · have hcount : limit ≤ (before ++ piece).size + count := by
          rw [ByteArray.size_append]
          omega
        obtain ⟨start, left, htake, hbytes, henough⟩ := ih hpieces hcount
        exact ⟨start, left, htake, hbytes.trans hjoined, henough⟩

end

/-- However the bytes were cut, a reader takes in a beginning of them that is enough. -/
theorem takeIn_popPiece {limit : Nat} {oneLine : Bool} {pieces : List ByteArray}
    (hpieces : ∀ p ∈ pieces, p.size ≠ 0) :
    ∃ start left, takeIn popPiece limit oneLine .empty pieces = (start, left) ∧
      start ++ joined left = joined pieces ∧ Enough limit start (joined left) := by
  have hcount : limit ≤ ByteArray.empty.size + limit := Nat.le_add_left _ _
  obtain ⟨start, left, htake, hbytes, henough⟩ := takePieces_popPiece hpieces hcount
  exact ⟨start, left, htake, hbytes.trans ByteArray.empty_append, henough⟩

end TaskSwarm.Wire
