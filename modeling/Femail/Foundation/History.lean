import Mathlib.Logic.Basic
import Mathlib.Data.List.Basic

/-! # Machines and their histories

A machine consumes one input per step and answers with an output.  Safety
properties of a whole run are stated over its *history*: the list of the steps
taken so far, newest first, each with the state before it, its input and its
output.  `Machine.Reaches` builds histories one step at a time, and can restrict
the steps taken to those that meet a condition on the history so far.

* `Machine.Reaches.invariant` is the induction rule for one run.
* `Machine.Reaches.refines` takes the runs of one machine to runs of another.
* `Machine.run_lockstep` compares two runs, of one machine or of two, on the same
  inputs.
* `Since` is the past-time "since" operator on newest-first histories.
-/

namespace Foundation

universe u v w

/-- A deterministic machine with state `σ`, inputs `ι` and outputs `ε`. -/
structure Machine (σ : Type u) (ι : Type v) (ε : Type w) where
  step : σ → ι → σ × ε

/-- One step of a run: the state it started from, its input and its output. -/
structure Entry (σ : Type u) (ι : Type v) (ε : Type w) where
  before : σ
  input : ι
  output : ε

/-- Branches on equivalent conditions are related if they are related branch by branch. -/
theorem rel_ite {α : Type u} {rel : α → α → Prop} {p q : Prop} [Decidable p] [Decidable q]
    {a b a' b' : α} (same : p ↔ q) (yes : p → rel a a') (no : ¬p → rel b b') :
    rel (if p then a else b) (if q then a' else b') := by
  by_cases holds : p
  · rw [if_pos holds, if_pos (same.mp holds)]
    exact yes holds
  · rw [if_neg holds, if_neg (fun other => holds (same.mpr other))]
    exact no holds

namespace Machine

variable {σ : Type u} {ι : Type v} {ε : Type w}

/-- `m.Reaches start allowed h s`: some run that begins in a `start` state, takes
    only `allowed` steps and has the history `h` ends in `s`. -/
inductive Reaches (m : Machine σ ι ε) (start : σ → Prop)
    (allowed : List (Entry σ ι ε) → σ → ι → Prop) : List (Entry σ ι ε) → σ → Prop where
  | start {s : σ} : start s → Reaches m start allowed [] s
  | step {h : List (Entry σ ι ε)} {s : σ} {i : ι} :
      Reaches m start allowed h s → allowed h s i →
      Reaches m start allowed (⟨s, i, (m.step s i).2⟩ :: h) (m.step s i).1

/-- Runs with no condition on their steps. -/
def anyStep : List (Entry σ ι ε) → σ → ι → Prop := fun _ _ _ => True

/-- **Invariant rule.** What holds at the start and is kept by every allowed
    step holds at the end of every run. -/
theorem Reaches.invariant {m : Machine σ ι ε} {start : σ → Prop}
    {allowed : List (Entry σ ι ε) → σ → ι → Prop} (inv : List (Entry σ ι ε) → σ → Prop)
    (initial : ∀ s, start s → inv [] s)
    (preserved : ∀ h s i, inv h s → allowed h s i →
      inv (⟨s, i, (m.step s i).2⟩ :: h) (m.step s i).1)
    {h : List (Entry σ ι ε)} {s : σ} (reaches : m.Reaches start allowed h s) : inv h s := by
  induction reaches with
  | start hs => exact initial _ hs
  | step _ ok ih => exact preserved _ _ _ ih ok

/-- Weakening the condition on the steps keeps a run. -/
theorem Reaches.mono {m : Machine σ ι ε} {start : σ → Prop}
    {allowed allowed' : List (Entry σ ι ε) → σ → ι → Prop}
    (weaken : ∀ h s i, allowed h s i → allowed' h s i)
    {h : List (Entry σ ι ε)} {s : σ} (reaches : m.Reaches start allowed h s) :
    m.Reaches start allowed' h s := by
  induction reaches with
  | start hs => exact .start hs
  | step _ ok ih => exact .step ih (weaken _ _ _ ok)

/-- A run from a start of one kind is one from a start of a wider kind. -/
theorem Reaches.widen {m : Machine σ ι ε} {start start' : σ → Prop}
    {allowed : List (Entry σ ι ε) → σ → ι → Prop} (weaken : ∀ s, start s → start' s)
    {h : List (Entry σ ι ε)} {s : σ} (reaches : m.Reaches start allowed h s) :
    m.Reaches start' allowed h s := by
  induction reaches with
  | start hs => exact .start (weaken _ hs)
  | step _ ok ih => exact .step ih ok

/-- **Refinement rule.** If each step of `m` that a run takes is a step of `n`, seen
    through `state` and `input`, then the run is a run of `n`. -/
theorem Reaches.refines {τ : Type u} {κ : Type v} {m : Machine σ ι ε} {n : Machine τ κ ε}
    {start : σ → Prop} {start' : τ → Prop} {allowed : List (Entry σ ι ε) → σ → ι → Prop}
    (state : σ → τ) (input : ι → κ) (initial : ∀ s, start s → start' (state s))
    (simulates : ∀ h s i, m.Reaches start allowed h s → allowed h s i →
      n.step (state s) (input i) = (state (m.step s i).1, (m.step s i).2))
    {h : List (Entry σ ι ε)} {s : σ} (reaches : m.Reaches start allowed h s) :
    n.Reaches start' anyStep (h.map fun e => ⟨state e.before, input e.input, e.output⟩) (state s) := by
  induction reaches with
  | start hs => exact .start (initial _ hs)
  | @step h s i reaches ok ih =>
    have next := Reaches.step (i := input i) ih trivial
    rw [simulates h s i reaches ok] at next
    exact next

/-- The run over a list of inputs: the outputs in order, and the last state. -/
def run (m : Machine σ ι ε) : σ → List ι → List ε × σ
  | s, [] => ([], s)
  | s, i :: is =>
    let rest := m.run (m.step s i).1 is
    ((m.step s i).2 :: rest.1, rest.2)

theorem run_append (m : Machine σ ι ε) (s : σ) (is more : List ι) :
    m.run s (is ++ more) =
      ((m.run s is).1 ++ (m.run (m.run s is).2 more).1, (m.run (m.run s is).2 more).2) := by
  induction is generalizing s with
  | nil => rfl
  | cons i is ih => simp only [List.cons_append, run, ih]

/-- **Lockstep rule.** Two machines on the same inputs, in states related by a
    relation that every step keeps with equal outputs, have equal outputs on
    every list of inputs. -/
theorem run_lockstep {σ' : Type u} {m : Machine σ ι ε} {m' : Machine σ' ι ε}
    {rel : σ → σ' → Prop}
    (keeps : ∀ s s' i, rel s s' →
      (m.step s i).2 = (m'.step s' i).2 ∧ rel (m.step s i).1 (m'.step s' i).1)
    {s : σ} {s' : σ'} (related : rel s s') (is : List ι) :
    (m.run s is).1 = (m'.run s' is).1 ∧ rel (m.run s is).2 (m'.run s' is).2 := by
  induction is generalizing s s' with
  | nil => exact ⟨rfl, related⟩
  | cons i is ih =>
    obtain ⟨same, next⟩ := keeps s s' i related
    obtain ⟨sameRest, last⟩ := ih next
    exact ⟨by simp only [run, same, sameRest], last⟩

/-- The history and the state after a list of inputs, from `s` with history `h`. -/
def trace (m : Machine σ ι ε) : List (Entry σ ι ε) → σ → List ι → List (Entry σ ι ε) × σ
  | h, s, [] => (h, s)
  | h, s, i :: is => m.trace (⟨s, i, (m.step s i).2⟩ :: h) (m.step s i).1 is

/-- Each of the inputs is allowed at its place. -/
def Admits (m : Machine σ ι ε) (allowed : List (Entry σ ι ε) → σ → ι → Prop) :
    List (Entry σ ι ε) → σ → List ι → Prop
  | _, _, [] => True
  | h, s, i :: is =>
    allowed h s i ∧ m.Admits allowed (⟨s, i, (m.step s i).2⟩ :: h) (m.step s i).1 is

instance Admits.decidable (m : Machine σ ι ε) {allowed : List (Entry σ ι ε) → σ → ι → Prop}
    [∀ h s i, Decidable (allowed h s i)] :
    ∀ (h : List (Entry σ ι ε)) (s : σ) (is : List ι), Decidable (m.Admits allowed h s is)
  | _, _, [] => inferInstanceAs (Decidable True)
  | h, s, i :: is =>
    have : Decidable (m.Admits allowed (⟨s, i, (m.step s i).2⟩ :: h) (m.step s i).1 is) :=
      Admits.decidable m _ _ is
    inferInstanceAs (Decidable (_ ∧ _))

/-- Running on from a reached state. -/
theorem Reaches.trace {m : Machine σ ι ε} {start : σ → Prop}
    {allowed : List (Entry σ ι ε) → σ → ι → Prop} {h : List (Entry σ ι ε)} {s : σ}
    (reaches : m.Reaches start allowed h s) (is : List ι) (ok : m.Admits allowed h s is) :
    m.Reaches start allowed (m.trace h s is).1 (m.trace h s is).2 := by
  induction is generalizing h s with
  | nil => exact reaches
  | cons i is ih => exact ih (reaches.step ok.1) ok.2

theorem admits_anyStep (m : Machine σ ι ε) (h : List (Entry σ ι ε)) (s : σ) (is : List ι) :
    m.Admits anyStep h s is := by
  induction is generalizing h s with
  | nil => exact trivial
  | cons i is ih => exact ⟨trivial, ih _ _⟩

end Machine

/-! ## The past-time "since" -/

variable {α : Type u}

/-- `Since keep event h`: in the newest-first history `h` some entry satisfies
    `event` (which also sees the entries older than it), and every entry newer
    than that one satisfies `keep`. -/
def Since (keep : α → Prop) (event : α → List α → Prop) : List α → Prop
  | [] => False
  | e :: older => event e older ∨ (keep e ∧ Since keep event older)

@[simp] theorem since_nil {keep : α → Prop} {event : α → List α → Prop} :
    Since keep event [] ↔ False := Iff.rfl

@[simp] theorem since_cons {keep : α → Prop} {event : α → List α → Prop} {e : α} {older : List α} :
    Since keep event (e :: older) ↔ event e older ∨ (keep e ∧ Since keep event older) := Iff.rfl

instance Since.decidable {keep : α → Prop} {event : α → List α → Prop}
    [∀ a, Decidable (keep a)] [∀ a older, Decidable (event a older)] :
    ∀ h, Decidable (Since keep event h)
  | [] => inferInstanceAs (Decidable False)
  | e :: older =>
    have : Decidable (Since keep event older) := Since.decidable older
    inferInstanceAs (Decidable (event e older ∨ (keep e ∧ Since keep event older)))

end Foundation
