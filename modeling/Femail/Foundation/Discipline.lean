import Mathlib.Data.List.Induction
import Femail.Foundation.History

/-! # Disciplines

An interface can ask for its calls to be made in some order: open before read, no use
after close.  A *discipline* says this as a step relation `σ → ε → σ → Prop`: which call
may be made in which state, and the state it leads to.  A trace follows the discipline if
each of its calls can be made where it stands (`Follows`).

What a state of the discipline means for the calls made so far is read off with
`Follows.since`.
-/

namespace Foundation

universe u v

variable {σ : Type u} {ε : Type v}

/-- `Follows step s calls s'`: the calls can be made one after the other from `s` on, and
    lead to `s'`. -/
inductive Follows (step : σ → ε → σ → Prop) : σ → List ε → σ → Prop where
  | nil (s : σ) : Follows step s [] s
  | cons {s s' s'' : σ} {e : ε} {calls : List ε} : step s e s' → Follows step s' calls s'' →
      Follows step s (e :: calls) s''

variable {step : σ → ε → σ → Prop} {s s' s'' : σ} {calls later : List ε}

theorem Follows.append (first : Follows step s calls s') (second : Follows step s' later s'') :
    Follows step s (calls ++ later) s'' := by
  induction first with
  | nil => exact second
  | cons here _ ih => exact .cons here (ih second)

theorem follows_append :
    Follows step s (calls ++ later) s'' ↔
      ∃ s', Follows step s calls s' ∧ Follows step s' later s'' := by
  constructor
  · intro follows
    induction calls generalizing s with
    | nil => exact ⟨s, .nil s, follows⟩
    | cons e calls ih =>
      cases follows with
      | cons here rest =>
        obtain ⟨s', first, second⟩ := ih rest
        exact ⟨s', .cons here first, second⟩
  · rintro ⟨s', first, second⟩
    exact first.append second

theorem follows_singleton {e : ε} : Follows step s [e] s' ↔ step s e s' := by
  constructor
  · intro follows
    cases follows with
    | cons here rest =>
      cases rest
      exact here
  · intro here
    exact .cons here (.nil s')

/-- Calls that leave the state as it is, in any number. -/
theorem follows_of_loops (loops : ∀ e ∈ calls, step s e s) : Follows step s calls s := by
  induction calls with
  | nil => exact .nil s
  | cons e calls ih =>
    obtain ⟨here, others⟩ := List.forall_mem_cons.mp loops
    exact .cons here (ih others)

/-- The state in which a call of the trace was made. -/
theorem Follows.at {before : List ε} {e : ε} (follows : Follows step s (before ++ e :: later) s'') :
    ∃ here next, Follows step s before here ∧ step here e next := by
  obtain ⟨here, first, second⟩ := follows_append.mp follows
  cases second with
  | cons made _ => exact ⟨here, _, first, made⟩

/-- What every step asks of its call holds of each call of the trace. -/
theorem Follows.forall_mem {P : ε → Prop} (steps : ∀ s e s', step s e s' → P e)
    (follows : Follows step s calls s') : ∀ e ∈ calls, P e := by
  induction follows with
  | nil => simp
  | cons here _ ih => exact List.forall_mem_cons.mpr ⟨steps _ _ _ here, ih⟩

/-- **Since rule.**  Let the states `inside` be entered only by calls that satisfy `enters`,
    and stay so only under calls that satisfy `keeps`.  Then in such a state a call of the
    first kind has been made, and since then only calls of the second. -/
theorem Follows.since (inside : σ → Prop) {keeps enters : ε → Prop}
    (moves : ∀ s e s', step s e s' → inside s' → enters e ∨ (keeps e ∧ inside s))
    (outside : ¬ inside s) (follows : Follows step s calls s') (now : inside s') :
    Since keeps (fun e _ => enters e) calls.reverse := by
  induction calls using List.reverseRecOn generalizing s' with
  | nil =>
    cases follows
    exact absurd now outside
  | append_singleton calls e ih =>
    obtain ⟨before, first, last⟩ := follows_append.mp follows
    rw [List.reverse_append]
    obtain entered | ⟨kept, held⟩ := moves _ _ _ (follows_singleton.mp last) now
    · exact Or.inl entered
    · exact Or.inr ⟨kept, ih first held⟩

end Foundation
