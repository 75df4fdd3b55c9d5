import Femail.Foundation.History

/-! # Projecting a machine on one of its components

A machine that serves many components one at a time, seen from one of them: `view` is
the component's own state, as long as it is there, and `pick` says which inputs serve
it.  `Machine.project` lists the steps that serve it, up to the one with which it
ends.  If each step either serves the component as its own machine would or leaves it
alone, the projection follows that machine (`project_follows`).

Two runs are then compared on the component alone; `AgreeAt` is the comparison of two
lists as far as both go.
-/

namespace Foundation

universe u

variable {σ ι ε τ κ : Type u}

/-- One step of a component: its state before, its input, what came out, and its state
    after, if it is still there. -/
structure Served (τ κ ε : Type u) where
  before : τ
  input : κ
  output : ε
  after : Option τ

namespace Machine

/-- The steps of a run that serve the component, up to its end. -/
def project (m : Machine σ ι ε) (view : σ → Option τ) (pick : σ → ι → Option κ) :
    σ → List ι → List (Served τ κ ε)
  | _, [] => []
  | s, i :: is =>
    match view s, pick s i with
    | some c, some k =>
      ⟨c, k, (m.step s i).2, view (m.step s i).1⟩ ::
        if (view (m.step s i).1).isSome then m.project view pick (m.step s i).1 is else []
    | _, _ => m.project view pick (m.step s i).1 is

/-- The steps are those of `n`, one after the other, from the state `s`. -/
def Follows (n : Machine (Option τ) κ ε) : Option τ → List (Served τ κ ε) → Prop
  | _, [] => True
  | s, step :: steps =>
    s = some step.before ∧ n.step s step.input = (step.after, step.output) ∧
      n.Follows step.after steps

/-- Each step of `m` that `allowed` lets through keeps `inv` and, of a component that is
    there, is either a step of `n` or none at all. -/
structure Simulates (m : Machine σ ι ε) (n : Machine (Option τ) κ ε) (view : σ → Option τ)
    (pick : σ → ι → Option κ) (inv : σ → Prop) (allowed : σ → ι → Prop) : Prop where
  keeps : ∀ s i, inv s → allowed s i → inv (m.step s i).1
  serves : ∀ s i c k, inv s → allowed s i → view s = some c → pick s i = some k →
    n.step (some c) k = (view (m.step s i).1, (m.step s i).2)
  leaves : ∀ s i c, inv s → allowed s i → view s = some c → pick s i = none →
    view (m.step s i).1 = some c

/-- **Projection rule.**  What a run does to a component is a run of the component. -/
theorem project_follows {m : Machine σ ι ε} {n : Machine (Option τ) κ ε} {view : σ → Option τ}
    {pick : σ → ι → Option κ} {inv : σ → Prop} {allowed : σ → ι → Prop}
    (simulates : Simulates m n view pick inv allowed) {s : σ} {c : τ} (holds : inv s)
    (here : view s = some c) {h : List (Entry σ ι ε)} {is : List ι}
    (ok : m.Admits (fun _ => allowed) h s is) : n.Follows (some c) (m.project view pick s is) := by
  induction is generalizing h s c with
  | nil => exact trivial
  | cons i is ih =>
    obtain ⟨now, later⟩ := ok
    have holds' := simulates.keeps s i holds now
    unfold project
    rw [here]
    cases picked : pick s i with
    | none => exact ih holds' (simulates.leaves s i c holds now here picked) later
    | some k =>
      refine ⟨rfl, simulates.serves s i c k holds now here picked, ?_⟩
      cases next : view (m.step s i).1 with
      | none => exact trivial
      | some c' => exact ih holds' next later

end Machine

/-! ## Agreement -/

/-- Two lists agree at every index both have. -/
def AgreeAt {α : Type u} (l l' : List α) : Prop :=
  ∀ (n : Nat) (x y : α), l[n]? = some x → l'[n]? = some y → x = y

theorem AgreeAt.refl {α : Type u} (l : List α) : AgreeAt l l := by
  intro n x y here there
  rw [here] at there
  exact Option.some.inj there

theorem AgreeAt.of_append {α : Type u} {a b l l' : List α} (agree : AgreeAt (a ++ l) (b ++ l'))
    (length : a.length = b.length) : a = b ∧ AgreeAt l l' := by
  constructor
  · apply List.ext_getElem length
    intro n inside inside'
    refine agree n _ _ ?_ ?_
    · rw [List.getElem?_append_left inside, List.getElem?_eq_getElem inside]
    · rw [List.getElem?_append_left inside', List.getElem?_eq_getElem inside']
  · intro n x y here there
    refine agree (a.length + n) x y ?_ ?_
    · rw [List.getElem?_append_right (Nat.le_add_right _ _), Nat.add_sub_cancel_left]
      exact here
    · rw [length, List.getElem?_append_right (Nat.le_add_right _ _), Nat.add_sub_cancel_left]
      exact there

end Foundation
