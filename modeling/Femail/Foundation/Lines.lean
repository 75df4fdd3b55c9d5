import Mathlib.Data.List.Basic
import Mathlib.Data.List.Infix
import Mathlib.Data.List.Induction

/-! # Lines of a stream

A stream is cut into lines by a terminator of two different symbols.  `lines` are the
complete ones; a line stands in a stream where it begins it, or behind a terminator
(`mem_lines_iff`), so that looking for a line is looking for a piece of the stream.
-/

namespace Foundation

universe u

variable {α : Type u} [DecidableEq α] {cr lf : α}

/-- The complete lines of a stream, without their terminators. -/
def lines (cr lf : α) : List α → List (List α)
  | a :: b :: rest =>
    if a = cr ∧ b = lf then [] :: lines cr lf rest
    else (lines cr lf (b :: rest)).modifyHead (a :: ·)
  | _ => []

theorem lines_terminator (rest : List α) :
    lines cr lf (cr :: lf :: rest) = [] :: lines cr lf rest := if_pos ⟨rfl, rfl⟩

theorem lines_cons_of_not {a b : α} (other : ¬ (a = cr ∧ b = lf)) (rest : List α) :
    lines cr lf (a :: b :: rest) = (lines cr lf (b :: rest)).modifyHead (a :: ·) := if_neg other

/-- The lines and what is left behind them are the stream. -/
theorem flatMap_lines (stream : List α) :
    ∃ tail, stream = (lines cr lf stream).flatMap (· ++ [cr, lf]) ++ tail := by
  fun_induction lines cr lf stream with
  | case1 a b rest ends ih =>
    obtain ⟨tail, whole⟩ := ih
    obtain ⟨rfl, rfl⟩ := ends
    refine ⟨tail, ?_⟩
    rw [List.flatMap_cons, List.append_assoc, ← whole]
    rfl
  | case2 a b rest other ih =>
    obtain ⟨tail, whole⟩ := ih
    cases cut : lines cr lf (b :: rest) with
    | nil => exact ⟨a :: b :: rest, rfl⟩
    | cons first more =>
      rw [cut] at whole
      refine ⟨tail, ?_⟩
      rw [whole]
      rfl
  | case3 => exact ⟨_, rfl⟩

section

variable (distinct : cr ≠ lf)
include distinct

/-- The terminator of a line is not taken for its text. -/
theorem lines_cons_terminator (a : α) (rest : List α) :
    lines cr lf (a :: cr :: lf :: rest) = [a] :: lines cr lf rest := by
  rw [lines_cons_of_not (fun ends => distinct ends.2), lines_terminator]
  rfl

/-- A terminator ends a line wherever it stands. -/
theorem lines_append : ∀ front rest : List α, ∃ first more,
    lines cr lf (front ++ cr :: lf :: rest) = first :: more ++ lines cr lf rest
  | [], rest => ⟨[], [], lines_terminator rest⟩
  | [a], rest => ⟨[a], [], lines_cons_terminator distinct a rest⟩
  | a :: b :: front, rest => by
    by_cases ends : a = cr ∧ b = lf
    · obtain ⟨first, more, cut⟩ := lines_append front rest
      refine ⟨[], first :: more, ?_⟩
      rw [ends.1, ends.2, List.cons_append, List.cons_append, lines_terminator, cut]
      rfl
    · obtain ⟨first, more, cut⟩ := lines_append (b :: front) rest
      refine ⟨a :: first, more, ?_⟩
      rw [List.cons_append, List.cons_append, lines_cons_of_not ends, ← List.cons_append, cut]
      rfl

/-- A text without a terminator and a terminator behind it are one line. -/
theorem lines_line : ∀ (line rest : List α), ¬ [cr, lf] <:+: line →
    lines cr lf (line ++ cr :: lf :: rest) = line :: lines cr lf rest
  | [], rest, _ => lines_terminator rest
  | [a], rest, _ => lines_cons_terminator distinct a rest
  | a :: b :: line, rest, whole => by
    have other : ¬ (a = cr ∧ b = lf) := by
      rintro ⟨rfl, rfl⟩
      exact whole ⟨[], line, rfl⟩
    have tail : ¬ [cr, lf] <:+: b :: line :=
      fun inside => whole (inside.trans (List.suffix_cons a _).isInfix)
    rw [List.cons_append, List.cons_append, lines_cons_of_not other, ← List.cons_append,
      lines_line (b :: line) rest tail]
    rfl

/-- Where a line stands in a stream. -/
theorem mem_lines_iff {line : List α} (whole : ¬ [cr, lf] <:+: line) (stream : List α) :
    line ∈ lines cr lf stream ↔
      line ++ [cr, lf] <+: stream ∨ [cr, lf] ++ line ++ [cr, lf] <:+: stream := by
  constructor
  · intro mem
    obtain ⟨tail, cut⟩ := @flatMap_lines _ _ cr lf stream
    obtain ⟨before, after, split⟩ := List.append_of_mem mem
    rw [split, List.flatMap_append, List.flatMap_cons] at cut
    -- it is the first line, or there is one in front of it with its terminator
    cases before using List.reverseRecOn with
    | nil =>
      left
      refine ⟨after.flatMap (· ++ [cr, lf]) ++ tail, ?_⟩
      rw [cut]
      simp
    | append_singleton before last =>
      right
      refine ⟨before.flatMap (· ++ [cr, lf]) ++ last, after.flatMap (· ++ [cr, lf]) ++ tail, ?_⟩
      rw [cut]
      simp
  · rintro (⟨rest, rfl⟩ | ⟨front, rest, rfl⟩)
    · rw [List.append_assoc]
      rw [show [cr, lf] ++ rest = cr :: lf :: rest from rfl, lines_line distinct line rest whole]
      exact List.mem_cons_self
    · have split : front ++ ([cr, lf] ++ line ++ [cr, lf]) ++ rest =
          front ++ cr :: lf :: (line ++ cr :: lf :: rest) := by simp
      obtain ⟨first, more, cut⟩ := lines_append distinct front (line ++ cr :: lf :: rest)
      rw [split, cut, lines_line distinct line rest whole]
      exact List.mem_append_right _ List.mem_cons_self

end

end Foundation
