import Mathlib.Data.List.Basic

/-! # Lines in which the served go to the end

A line serves its first member, who then goes to the end or leaves; newcomers join at
the end.  `turns` is who is served, call by call.  A line is served in its order
(`getElem?_turns`), so a member waits for those ahead of it and for nobody else; and
between two turns of one member those in the line at the first are served once each
(`take_turns`).
-/

namespace Foundation

universe u

/-- What happens to a line: some join it, or its first member is served and goes back to
    the end or not. -/
inductive Move (α : Type u) where
  | join (newcomers : List α)
  | turn (back : Bool)

variable {α : Type u}

namespace Move

def apply : Move α → List α → List α
  | .join newcomers, line => line ++ newcomers
  | .turn _, [] => []
  | .turn back, x :: line => if back then line ++ [x] else line

def newcomers : Move α → List α
  | .join newcomers => newcomers
  | .turn _ => []

end Move

/-- Who is served, one entry for each turn; `none` if the line is empty. -/
def turns : List α → List (Move α) → List (Option α)
  | _, [] => []
  | line, .join newcomers :: moves => turns (line ++ newcomers) moves
  | line, .turn back :: moves => line.head? :: turns ((Move.turn back).apply line) moves

/-- The line is served in its order, whoever joins it and whoever comes back. -/
theorem getElem?_turns {waiting : List α} {k : Nat} {x : α} (place : waiting[k]? = some x)
    (moves : List (Move α)) (enough : k < (turns waiting moves).length) :
    (turns waiting moves)[k]? = some (some x) := by
  induction moves generalizing waiting k with
  | nil => exact absurd enough (Nat.not_lt_zero k)
  | cons move moves ih =>
    cases move with
    | join newcomers =>
      have placed : (waiting ++ newcomers)[k]? = some x := by
        rw [List.getElem?_append_left (List.getElem?_eq_some_iff.mp place).1, place]
      exact ih placed enough
    | turn back =>
      cases waiting with
      | nil => cases place
      | cons first rest =>
        cases k with
        | zero => exact congrArg some place
        | succ k =>
          have placed : ((Move.turn back).apply (first :: rest))[k]? = some x := by
            have inside : k < rest.length := Nat.lt_of_succ_lt_succ (List.getElem?_eq_some_iff.mp place).1
            cases back with
            | false => exact place
            | true => exact (List.getElem?_append_left inside).trans place
          exact ih placed (Nat.lt_of_succ_lt_succ enough)

/-- Who is not in the line and does not join it is not served. -/
theorem notMem_turns {line : List α} {x : α} (absent : x ∉ line) {moves : List (Move α)}
    (stays : ∀ move ∈ moves, x ∉ move.newcomers) : some x ∉ turns line moves := by
  induction moves generalizing line with
  | nil => exact List.not_mem_nil
  | cons move moves ih =>
    obtain ⟨out, later⟩ := List.forall_mem_cons.mp stays
    cases move with
    | join newcomers =>
      refine ih ?_ later
      intro mem
      exact (List.mem_append.mp mem).elim absent out
    | turn back =>
      intro mem
      obtain here | elsewhere := List.mem_cons.mp mem
      · exact absent (List.mem_of_mem_head? here.symm)
      · refine ih ?_ later elsewhere
        cases line with
        | nil => exact List.not_mem_nil
        | cons first rest =>
          intro again
          cases back with
          | false => exact absent (List.mem_cons_of_mem _ again)
          | true => exact absent ((List.perm_append_singleton first rest).mem_iff.mp again)

/-- Between two turns of the first member, the rest of the line is served, in its order. -/
theorem take_turns {x : α} {rest : List α} (alone : x ∉ rest) {back : Bool}
    {moves : List (Move α)} (stays : ∀ move ∈ moves, x ∉ move.newcomers) {j : Nat}
    (next : (turns ((Move.turn back).apply (x :: rest)) moves)[j]? = some (some x))
    (first : ∀ i < j, (turns ((Move.turn back).apply (x :: rest)) moves)[i]? ≠ some (some x)) :
    (turns ((Move.turn back).apply (x :: rest)) moves).take j = rest.map some := by
  cases back with
  | false => exact absurd (List.mem_of_getElem? next) (notMem_turns alone stays)
  | true =>
    change (turns (rest ++ [x]) moves)[j]? = some (some x) at next
    change ∀ i < j, (turns (rest ++ [x]) moves)[i]? ≠ some (some x) at first
    change (turns (rest ++ [x]) moves).take j = rest.map some
    have inside : j < (turns (rest ++ [x]) moves).length := (List.getElem?_eq_some_iff.mp next).1
    have last : (rest ++ [x])[rest.length]? = some x := by simp
    have ahead : ∀ i (early : i < rest.length), (rest ++ [x])[i]? = some rest[i] := by
      intro i early
      rw [List.getElem?_append_left early, List.getElem?_eq_getElem early]
    -- the next turn is neither among the rest nor behind the place at the end
    have place : j = rest.length := by
      obtain before | same | behind := Nat.lt_trichotomy j rest.length
      · have served := getElem?_turns (ahead j before) moves inside
        rw [next] at served
        have same : x = rest[j] := by simpa using served
        exact absurd (same ▸ List.getElem_mem before) alone
      · exact same
      · exact absurd (getElem?_turns last moves (Nat.lt_trans behind inside)) (first _ behind)
    subst place
    apply List.ext_getElem?
    intro i
    by_cases early : i < rest.length
    · rw [List.getElem?_take_of_lt early, getElem?_turns (ahead i early) moves
        (Nat.lt_trans early inside)]
      simp [early]
    · have late : rest.length ≤ i := Nat.le_of_not_lt early
      rw [List.getElem?_take_eq_none late, List.getElem?_eq_none (by simpa using late)]

end Foundation
