import Mathlib.Data.List.Pairwise
import Mathlib.Data.List.Basic

/-! # Lines that are left at the front and joined at the back

`Passed k new line line'`: since the line was `line`, at least `k` have left it at the
front, and whoever joined it since is `new`.  Passages compose (`Passed.trans`), and once
as many have left as stood in the line, all that stand in it are new (`Passed.all_new`).
A line sorted by some key stays sorted if those that join are above the rest
(`pairwise_joined`).
-/

namespace Foundation

universe u

variable {α : Type u} {new new' : α → Prop} {line line' line'' : List α} {k k' : Nat}

def Passed (k : Nat) (new : α → Prop) (line line' : List α) : Prop :=
  ∃ gone joined, k ≤ gone ∧ line' = line.drop gone ++ joined ∧ ∀ x ∈ joined, new x

theorem Passed.refl (new : α → Prop) (line : List α) : Passed 0 new line line :=
  ⟨0, [], Nat.le_refl 0, by simp, by simp⟩

theorem Passed.mono (passed : Passed k new line line') (weaken : ∀ x, new x → new' x) :
    Passed k new' line line' := by
  obtain ⟨gone, joined, enough, split, fresh⟩ := passed
  exact ⟨gone, joined, enough, split, fun x mem => weaken x (fresh x mem)⟩

/-- One passage after the other. -/
theorem Passed.trans (first : Passed k new line line') (second : Passed k' new line' line'') :
    Passed (k' + k) new line line'' := by
  obtain ⟨gone, joined, enough, rfl, fresh⟩ := first
  obtain ⟨gone', joined', enough', rfl, fresh'⟩ := second
  refine ⟨gone + gone', joined.drop (gone' - (line.drop gone).length) ++ joined', by omega, ?_, ?_⟩
  · rw [List.drop_append, List.drop_drop, List.append_assoc]
  · intro x mem
    obtain here | here := List.mem_append.mp mem
    · exact fresh x (List.mem_of_mem_drop here)
    · exact fresh' x here

theorem Passed.all_new (passed : Passed k new line line') (enough : line.length ≤ k) :
    ∀ x ∈ line', new x := by
  obtain ⟨gone, joined, left, rfl, fresh⟩ := passed
  rw [List.drop_eq_nil_of_le (Nat.le_trans enough left), List.nil_append]
  exact fresh

/-- Who joins a sorted line must not be below anyone in it. -/
theorem pairwise_joined {rel : α → α → Prop} (sorted : line.Pairwise rel) (gone : Nat)
    {joined : Option α} (above : ∀ x ∈ joined, ∀ y ∈ line, rel y x) :
    (line.drop gone ++ joined.toList).Pairwise rel := by
  refine List.pairwise_append.mpr ⟨sorted.sublist (List.drop_sublist gone line), ?_, ?_⟩
  · cases joined with
    | none => exact .nil
    | some x => exact List.pairwise_singleton rel x
  · intro y here x mem
    exact above x (Option.mem_toList.mp mem) y (List.mem_of_mem_drop here)

end Foundation
