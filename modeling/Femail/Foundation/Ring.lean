import Mathlib.Data.List.Basic
import Mathlib.Data.Nat.ModEq

/-! # Ring buffers

A ring of `cap` slots with a write index `head`, a read index `tail` and an
element count.  `put` and `take` move the indices and leave old slots in place;
they do not look at the count, so a client has to test it first.

`Ring.contents` reads the ring as the queue it stands for, oldest element first.
Under `Ring.Wf`, `put` appends to the contents (`contents_put`) and `take`
removes the first of them (`contents_take`); both keep `Ring.Wf`.
-/

namespace Foundation

universe u

structure Ring (α : Type u) (cap : Nat) where
  count : Nat
  head : Nat
  tail : Nat
  data : Vector α cap

namespace Ring

variable {α : Type u} {cap : Nat} [NeZero cap]

theorem cap_pos (cap : Nat) [NeZero cap] : 0 < cap := Nat.pos_of_ne_zero (NeZero.ne cap)

/-- An empty ring whose slots all hold `x`. -/
def cleared (x : α) : Ring α cap := ⟨0, 0, 0, Vector.replicate cap x⟩

/-- The element in the slot `i`, for every `i` below `cap`. -/
def slot (r : Ring α cap) (i : Nat) : α := r.data[Fin.ofNat cap i]

/-- Store `x` at `head` and advance it. -/
def put (r : Ring α cap) (x : α) : Ring α cap :=
  { r with
    data := r.data.setIfInBounds r.head x
    head := (r.head + 1) % cap
    count := r.count + 1 }

/-- Advance `tail` past the oldest element. -/
def take (r : Ring α cap) : Ring α cap :=
  { r with
    tail := (r.tail + 1) % cap
    count := r.count - 1 }

/-- The queue a ring stands for: `count` slots from `tail` on. -/
def contents (r : Ring α cap) : List α :=
  (List.range r.count).map fun i => r.slot (r.tail + i)

/-- The indices fit together. -/
structure Wf (r : Ring α cap) : Prop where
  count_le : r.count ≤ cap
  tail_lt : r.tail < cap
  head_eq : r.head = (r.tail + r.count) % cap

theorem Wf.head_lt {r : Ring α cap} (wf : r.Wf) : r.head < cap := by
  rw [wf.head_eq]
  exact Nat.mod_lt _ (cap_pos cap)

@[simp] theorem length_contents (r : Ring α cap) : r.contents.length = r.count := by
  simp [contents]

theorem count_ne_zero {r : Ring α cap} {x : α} {rest : List α} (front : r.contents = x :: rest) :
    r.count ≠ 0 := by
  rw [← length_contents, front]
  exact Nat.succ_ne_zero _

theorem wf_cleared (x : α) : (cleared x : Ring α cap).Wf :=
  ⟨Nat.zero_le _, cap_pos cap, by simp [cleared]⟩

@[simp] theorem contents_cleared (x : α) : (cleared x : Ring α cap).contents = [] := rfl

/-! ## Slots -/

theorem slot_eq_of_mod_eq (r : Ring α cap) {i j : Nat} (h : i % cap = j % cap) :
    r.slot i = r.slot j := by
  have same : Fin.ofNat cap i = Fin.ofNat cap j := Fin.ext h
  simp only [slot, same]

/-- The slot just written holds the new element. -/
theorem slot_put_self (r : Ring α cap) (x : α) {i : Nat} (h : i % cap = r.head) :
    (r.put x).slot i = x := by
  have index : (Fin.ofNat cap i).val = r.head := h
  simp only [slot, put, Fin.getElem_fin]
  rw [Vector.getElem_setIfInBounds, if_pos index.symm]

theorem slot_put_of_ne (r : Ring α cap) (x : α) {i : Nat} (h : i % cap ≠ r.head) :
    (r.put x).slot i = r.slot i := by
  have index : (Fin.ofNat cap i).val ≠ r.head := h
  simp only [slot, put, Fin.getElem_fin]
  rw [Vector.getElem_setIfInBounds, if_neg index.symm]

omit [NeZero cap] in
/-- Positions less than one revolution apart are different slots. -/
theorem mod_ne_of_lt {t i n : Nat} (hi : i < n) (hn : n < cap) : (t + i) % cap ≠ (t + n) % cap := by
  intro same
  have congruent : i ≡ n [MOD cap] := Nat.ModEq.add_left_cancel' t same
  have equal := Nat.ModEq.eq_of_lt_of_lt congruent (by omega) hn
  omega

/-! ## `put` and `take` on the contents -/

omit [NeZero cap] in
theorem Wf.put {r : Ring α cap} (wf : r.Wf) (room : r.count ≠ cap) (x : α) : (r.put x).Wf where
  count_le := by
    have := wf.count_le
    simp only [Ring.put]
    omega
  tail_lt := wf.tail_lt
  head_eq := by
    simp only [Ring.put, wf.head_eq, Nat.mod_add_mod, Nat.add_assoc]

theorem contents_put {r : Ring α cap} (wf : r.Wf) (room : r.count ≠ cap) (x : α) :
    (r.put x).contents = r.contents ++ [x] := by
  have below : r.count < cap := Nat.lt_of_le_of_ne wf.count_le room
  have grown : (r.put x).contents =
      (List.range (r.count + 1)).map fun i => (r.put x).slot (r.tail + i) := rfl
  rw [grown, List.range_succ, List.map_append, List.map_cons, List.map_nil]
  congr 1
  · -- the occupied slots are not the one `head` points to
    apply List.map_congr_left
    intro i hi
    apply slot_put_of_ne
    rw [wf.head_eq]
    exact mod_ne_of_lt (List.mem_range.mp hi) below
  · rw [slot_put_self r x wf.head_eq.symm]

theorem Wf.take {r : Ring α cap} (wf : r.Wf) (nonempty : r.count ≠ 0) : r.take.Wf where
  count_le := by
    have := wf.count_le
    simp only [Ring.take]
    omega
  tail_lt := Nat.mod_lt _ (cap_pos cap)
  head_eq := by
    simp only [Ring.take, wf.head_eq, Nat.mod_add_mod]
    congr 1
    omega

omit [NeZero cap] in
/-- Taking an element makes room for one. -/
theorem Wf.take_count_ne {r : Ring α cap} (wf : r.Wf) (nonempty : r.count ≠ 0) :
    r.take.count ≠ cap := by
  have := wf.count_le
  simp only [Ring.take]
  omega

theorem contents_take {r : Ring α cap} (nonempty : r.count ≠ 0) :
    r.contents = r.slot r.tail :: r.take.contents := by
  obtain ⟨n, hn⟩ := Nat.exists_eq_succ_of_ne_zero nonempty
  have rest : r.take.contents = (List.range n).map fun i => r.slot ((r.tail + 1) % cap + i) := by
    simp only [contents, Ring.take, hn, Nat.succ_sub_one]
    rfl
  rw [contents, hn, List.range_succ_eq_map, List.map_cons, List.map_map, rest]
  refine congrArg₂ List.cons rfl ?_
  apply List.map_congr_left
  intro i _
  apply slot_eq_of_mod_eq
  simp only [Nat.mod_add_mod]
  congr 1
  omega

end Ring

end Foundation
