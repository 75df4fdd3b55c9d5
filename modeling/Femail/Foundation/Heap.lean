import Mathlib.Data.List.Nodup
import Mathlib.Data.List.Perm.Basic

/-! # A heap and the sizes of its blocks

The heap as the allocator sees it: the blocks given out and not taken back, with their
sizes.  `Heap.Holds heap owned` says that they are exactly those somebody accounts for,
each once; it survives an allocation at an address not in use (`Heap.Holds.alloc`) and
the release of a block accounted for (`Heap.Holds.free`).
-/

namespace Foundation

universe u

/-- The blocks given out: address and size. -/
abbrev Heap (α : Type u) := List (α × Nat)

inductive HeapCall (α : Type u) where
  | alloc (addr : α) (size : Nat)
  | free (addr : α)
deriving DecidableEq

variable {α : Type u} [DecidableEq α]

def HeapCall.apply (heap : Heap α) : HeapCall α → Heap α
  | .alloc addr size => (addr, size) :: heap
  | .free addr => heap.filter fun block => block.1 ≠ addr

def heapAfter (heap : Heap α) (calls : List (HeapCall α)) : Heap α := calls.foldl HeapCall.apply heap

/-- The bytes given out. -/
def Heap.total : Heap α → Nat
  | [] => 0
  | block :: heap => block.2 + total heap

@[simp] theorem heapAfter_nil (heap : Heap α) : heapAfter heap [] = heap := rfl

@[simp] theorem heapAfter_cons (heap : Heap α) (call : HeapCall α) (calls : List (HeapCall α)) :
    heapAfter heap (call :: calls) = heapAfter (call.apply heap) calls := rfl

@[simp] theorem heapAfter_append (heap : Heap α) (calls calls' : List (HeapCall α)) :
    heapAfter heap (calls ++ calls') = heapAfter (heapAfter heap calls) calls' := List.foldl_append

namespace Heap

omit [DecidableEq α] in
@[simp] theorem total_nil : total ([] : Heap α) = 0 := rfl

omit [DecidableEq α] in
@[simp] theorem total_append (heap heap' : Heap α) :
    total (heap ++ heap') = total heap + total heap' := by
  induction heap with
  | nil => exact (Nat.zero_add _).symm
  | cons block heap ih => rw [List.cons_append, total, total, ih, Nat.add_assoc]

omit [DecidableEq α] in
theorem total_perm {heap heap' : Heap α} (same : heap.Perm heap') : total heap = total heap' := by
  induction same with
  | nil => rfl
  | cons block _ ih => rw [total, total, ih]
  | swap a b heap =>
    simp only [total]
    omega
  | trans _ _ first second => exact first.trans second

/-- The heap is what is `owned`, and no two blocks share an address. -/
structure Holds (heap owned : Heap α) : Prop where
  perm : heap.Perm owned
  nodup : (owned.map Prod.fst).Nodup

variable {heap owned owned' : Heap α}

omit [DecidableEq α] in
theorem holds_nil : Holds ([] : Heap α) [] := ⟨.refl _, .nil⟩

omit [DecidableEq α] in
theorem Holds.congr (holds : Holds heap owned) (same : owned.Perm owned') : Holds heap owned' :=
  ⟨holds.perm.trans same, (same.map Prod.fst).nodup_iff.mp holds.nodup⟩

omit [DecidableEq α] in
theorem Holds.total_eq (holds : Holds heap owned) : heap.total = owned.total := total_perm holds.perm

theorem Holds.alloc (holds : Holds heap owned) {addr : α} (fresh : addr ∉ owned.map Prod.fst)
    (size : Nat) : Holds ((HeapCall.alloc addr size).apply heap) ((addr, size) :: owned) :=
  ⟨holds.perm.cons _, List.nodup_cons.mpr ⟨fresh, holds.nodup⟩⟩

theorem Holds.free {block : α × Nat} (holds : Holds heap (block :: owned)) :
    Holds ((HeapCall.free block.1).apply heap) owned := by
  obtain ⟨others, distinct⟩ := List.nodup_cons.mp holds.nodup
  refine ⟨?_, distinct⟩
  have left : (block :: owned).filter (fun other => other.1 ≠ block.1) = owned := by
    rw [List.filter_cons_of_neg (by simp), List.filter_eq_self]
    intro other mem
    have differs : other.1 ≠ block.1 := by
      intro same
      exact others (same ▸ List.mem_map_of_mem mem)
    simpa using differs
  have filtered := holds.perm.filter fun other => other.1 ≠ block.1
  rw [left] at filtered
  exact filtered

/-- The calls that release a block, if there is one. -/
def release (block : Option (α × Nat)) : List (HeapCall α) := block.toList.map fun b => .free b.1

theorem Holds.release {block : Option (α × Nat)} (holds : Holds heap (block.toList ++ owned)) :
    Holds (heapAfter heap (release block)) owned := by
  cases block with
  | none => exact holds
  | some block => exact holds.free

end Heap

end Foundation
