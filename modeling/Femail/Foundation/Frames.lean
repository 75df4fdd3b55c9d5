import Mathlib.Data.List.Nodup
import Mathlib.Order.BooleanAlgebra.Set
import Femail.Foundation.Lifecycle

/-! # Owners beside each other

`Safe` of one owner's uses starts from nothing held.  In a whole program other owners hold
resources at the same time: the frame.  What connects the two is a promise of whoever
gives out the resources, `AcquiresFresh`: an acquire is of something not held, by anyone.
Under it an owner that is safe alone is safe inside any frame and leaves the frame as it
is (`Safe.frame`), also when uses of the frame stand between its own (`Framed`).

An owner that keeps the books of `Balances` is safe under it; `safe_blocks` runs any number
of them one after the other.
-/

namespace Foundation

universe u

variable {ρ : Type u}

/-- Every acquire in the trace is of something not held then. -/
def AcquiresFresh (held : Set ρ) : List (Use ρ) → Prop
  | [] => True
  | u :: uses => (∀ r, u = .acquire r → r ∉ held) ∧ AcquiresFresh (u.apply held) uses

theorem acquiresFresh_append (held : Set ρ) (uses uses' : List (Use ρ)) :
    AcquiresFresh held (uses ++ uses') ↔
      AcquiresFresh held uses ∧ AcquiresFresh (heldAfter held uses) uses' := by
  induction uses generalizing held with
  | nil => simp [AcquiresFresh]
  | cons u uses ih => simp only [List.cons_append, AcquiresFresh, ih, heldAfter_cons, and_assoc]

instance AcquiresFresh.decidable [DecidableEq ρ] (held : Set ρ) [DecidablePred (· ∈ held)] :
    ∀ uses : List (Use ρ), Decidable (AcquiresFresh held uses)
  | [] => .isTrue trivial
  | .acquire r :: uses =>
    have : Decidable (AcquiresFresh ((Use.acquire r).apply held) uses) := decidable _ uses
    decidable_of_iff (r ∉ held ∧ AcquiresFresh ((Use.acquire r).apply held) uses)
      (by simp [AcquiresFresh])
  | .use r :: uses =>
    have : Decidable (AcquiresFresh ((Use.use r).apply held) uses) := decidable _ uses
    decidable_of_iff (AcquiresFresh ((Use.use r).apply held) uses) (by simp [AcquiresFresh])
  | .release r :: uses =>
    have : Decidable (AcquiresFresh ((Use.release r).apply held) uses) := decidable _ uses
    decidable_of_iff (AcquiresFresh ((Use.release r).apply held) uses) (by simp [AcquiresFresh])

theorem Use.apply_mono {held held' : Set ρ} (sub : held ⊆ held') (u : Use ρ) :
    u.apply held ⊆ u.apply held' := by
  cases u with
  | acquire r => exact Set.insert_subset_insert sub
  | use => exact sub
  | release r => exact Set.sdiff_subset_sdiff_left sub

/-- What is fresh among many resources is fresh among some of them. -/
theorem AcquiresFresh.anti {held held' : Set ρ} (sub : held ⊆ held') {uses : List (Use ρ)}
    (fresh : AcquiresFresh held' uses) : AcquiresFresh held uses := by
  induction uses generalizing held held' with
  | nil => exact trivial
  | cons u uses ih =>
    obtain ⟨here, rest⟩ := fresh
    exact ⟨fun r same mem => here r same (sub mem), ih (u.apply_mono sub) rest⟩

/-- What is acquired is not held, neither then nor before the uses that release nothing. -/
theorem AcquiresFresh.notMem {held : Set ρ} {before after : List (Use ρ)} {r : ρ}
    (fresh : AcquiresFresh held (before ++ .acquire r :: after))
    (keeps : ∀ r', .release r' ∉ before) : r ∉ held := by
  induction before generalizing held with
  | nil => exact fresh.1 r rfl
  | cons u before ih =>
    have rest := ih fresh.2 fun r' mem => keeps r' (List.mem_cons_of_mem _ mem)
    intro mem
    cases u with
    | acquire r' => exact rest (Set.mem_insert_of_mem _ mem)
    | use => exact rest mem
    | release r' => exact keeps r' List.mem_cons_self

/-! ## The frame rule -/

/-- `uses` is `own` with uses of the frame put in between. -/
inductive Framed (frame : Set ρ) : List (Use ρ) → List (Use ρ) → Prop where
  | nil : Framed frame [] []
  | own (u : Use ρ) {own uses : List (Use ρ)} : Framed frame own uses →
      Framed frame (u :: own) (u :: uses)
  | other (r : ρ) {own uses : List (Use ρ)} : r ∈ frame → Framed frame own uses →
      Framed frame own (.use r :: uses)

theorem framed_refl (frame : Set ρ) (uses : List (Use ρ)) : Framed frame uses uses := by
  induction uses with
  | nil => exact .nil
  | cons u uses ih => exact .own u ih

theorem Framed.append {frame : Set ρ} {own own' uses uses' : List (Use ρ)}
    (first : Framed frame own uses) (second : Framed frame own' uses') :
    Framed frame (own ++ own') (uses ++ uses') := by
  induction first with
  | nil => exact second
  | own u _ ih => exact .own u ih
  | other r mem _ ih => exact .other r mem ih

theorem Framed.mono {frame frame' : Set ρ} (sub : frame ⊆ frame') {own uses : List (Use ρ)}
    (framed : Framed frame own uses) : Framed frame' own uses := by
  induction framed with
  | nil => exact .nil
  | own u _ ih => exact .own u ih
  | other r mem _ ih => exact .other r (sub mem) ih

/-- Without the uses of the frame, what is fresh stays fresh. -/
theorem Framed.acquiresFresh {held frame : Set ρ} {own uses : List (Use ρ)}
    (framed : Framed frame own uses) (fresh : AcquiresFresh held uses) : AcquiresFresh held own := by
  induction framed generalizing held with
  | nil => exact trivial
  | own u _ ih => exact ⟨fresh.1, ih fresh.2⟩
  | other r _ _ ih => exact ih fresh.2

theorem Use.apply_union {held frame : Set ρ} {u : Use ρ} (ok : u.ok held)
    (apart : ∀ r ∈ held, r ∉ frame) : u.apply (held ∪ frame) = u.apply held ∪ frame := by
  cases u with
  | acquire r => exact Set.insert_union.symm
  | use => rfl
  | release r =>
    -- what is released is the owner's, so it is not in the frame
    have foreign : r ∉ frame := apart r ok
    exact Set.union_sdiff_distrib.trans (by rw [Set.sdiff_singleton_eq_self foreign]; rfl)

theorem Use.apply_apart {held frame : Set ρ} {u : Use ρ} (apart : ∀ r ∈ held, r ∉ frame)
    (fresh : ∀ r, u = .acquire r → r ∉ held ∪ frame) : ∀ r ∈ u.apply held, r ∉ frame := by
  cases u with
  | acquire r =>
    rintro r' (rfl | mem)
    · exact fun inside => fresh r' rfl (Or.inr inside)
    · exact apart r' mem
  | use => exact apart
  | release r => exact fun r' mem => apart r' mem.1

/-- **Frame rule.**  An owner that is safe alone is safe beside a frame, whose own uses may
    stand between its own, and it leaves the frame as it was. -/
theorem Safe.frame {held frame : Set ρ} {own uses : List (Use ρ)} (framed : Framed frame own uses)
    (safe : Safe held own) (fresh : AcquiresFresh (held ∪ frame) uses)
    (apart : ∀ r ∈ held, r ∉ frame) :
    Safe (held ∪ frame) uses ∧ heldAfter (held ∪ frame) uses = heldAfter held own ∪ frame ∧
      ∀ r ∈ heldAfter held own, r ∉ frame := by
  induction framed generalizing held with
  | nil => exact ⟨trivial, rfl, apart⟩
  | own u _ ih =>
    obtain ⟨ok, rest⟩ := safe
    obtain ⟨new, later⟩ := fresh
    have both := Use.apply_union ok apart
    rw [both] at later
    obtain ⟨safe, after, apart⟩ := ih rest later (Use.apply_apart apart new)
    rw [← both] at safe after
    refine ⟨⟨?_, safe⟩, after, apart⟩
    -- of the three only an acquisition asks something of the frame
    cases u with
    | acquire r => exact new r rfl
    | use => exact Or.inl ok
    | release => exact Or.inl ok
  | other r mem _ ih =>
    obtain ⟨safe, after, apart⟩ := ih safe fresh.2 apart
    exact ⟨⟨Or.inr mem, safe⟩, after, apart⟩

/-! ## Owners with books -/

/-- Releasing, one by one, what is held once. -/
theorem safe_releaseAll {held : Set ρ} {owned : List ρ} (single : owned.Nodup)
    (mem : ∀ r ∈ owned, r ∈ held) :
    Safe held (owned.map .release) ∧
      heldAfter held (owned.map .release) = held \ {r | r ∈ owned} := by
  induction owned generalizing held with
  | nil => exact ⟨trivial, by simp⟩
  | cons r owned ih =>
    obtain ⟨alone, single⟩ := List.nodup_cons.mp single
    obtain ⟨here, others⟩ := List.forall_mem_cons.mp mem
    have still : ∀ r' ∈ owned, r' ∈ held \ {r} := by
      intro r' mem'
      refine ⟨others r' mem', ?_⟩
      rintro rfl
      exact alone mem'
    obtain ⟨safe, after⟩ := ih single still
    refine ⟨⟨here, safe⟩, ?_⟩
    refine Eq.trans after ?_
    ext r'
    simp only [Set.mem_sdiff, Set.mem_singleton_iff, Set.mem_ofPred_eq, List.mem_cons]
    tauto

/-- Releasing something twice is not safe. -/
theorem Safe.nodup_of_releases {held : Set ρ} {owned : List ρ}
    (safe : Safe held (owned.map .release)) : owned.Nodup := by
  induction owned generalizing held with
  | nil => exact List.nodup_nil
  | cons r owned ih =>
    have released : ∀ held : Set ρ, Safe held (owned.map .release) → ∀ r ∈ owned, r ∈ held := by
      clear ih safe
      induction owned with
      | nil => simp
      | cons r' owned ih =>
        intro held safe r mem
        cases mem with
        | head => exact safe.1
        | tail _ later => exact (ih _ safe.2 r later).1
    refine List.nodup_cons.mpr ⟨?_, ih safe.2⟩
    intro mem
    exact (released _ safe.2 r mem).2 rfl

section

variable [DecidableEq ρ]

/-- Books that are kept over fresh acquires give a safe trace, and hold nothing twice. -/
theorem safe_of_balance {held held' : List ρ} {uses : List (Use ρ)}
    (kept : balance held uses = some held') (single : held.Nodup)
    (fresh : AcquiresFresh {r | r ∈ held} uses) :
    Safe {r | r ∈ held} uses ∧ heldAfter {r | r ∈ held} uses = {r | r ∈ held'} ∧ held'.Nodup := by
  induction uses generalizing held with
  | nil =>
    cases kept
    exact ⟨trivial, rfl, single⟩
  | cons u uses ih =>
    obtain ⟨new, later⟩ := fresh
    cases u with
    | acquire r =>
      have free : r ∉ held := new r rfl
      have same : (Use.acquire r).apply {r | r ∈ held} = {r' | r' ∈ r :: held} := by
        ext r'
        simp [Use.apply]
      rw [same] at later
      obtain ⟨safe, after, single'⟩ := ih kept (List.nodup_cons.mpr ⟨free, single⟩) later
      rw [← same] at safe after
      exact ⟨⟨free, safe⟩, after, single'⟩
    | use r =>
      simp only [balance] at kept
      split at kept
      · obtain ⟨safe, after, single'⟩ := ih kept single later
        exact ⟨⟨‹_›, safe⟩, after, single'⟩
      · cases kept
    | release r =>
      simp only [balance] at kept
      split at kept
      · have same : (Use.release r).apply {r | r ∈ held} = {r' | r' ∈ held.erase r} := by
          ext r'
          simp [Use.apply, single.mem_erase_iff, and_comm]
        rw [same] at later
        obtain ⟨safe, after, single'⟩ := ih kept (single.erase r) later
        rw [← same] at safe after
        exact ⟨⟨‹_›, safe⟩, after, single'⟩
      · cases kept

theorem Balances.safe {uses : List (Use ρ)} {owned : List ρ} (balances : Balances uses owned)
    (fresh : AcquiresFresh ∅ uses) :
    Safe ∅ uses ∧ heldAfter ∅ uses = {r | r ∈ owned} ∧ owned.Nodup := by
  obtain ⟨held, kept, perm⟩ := balances
  have empty : (∅ : Set ρ) = {r | r ∈ ([] : List ρ)} := by simp
  rw [empty] at fresh ⊢
  obtain ⟨safe, after, single⟩ := safe_of_balance kept List.nodup_nil fresh
  refine ⟨safe, ?_, perm.nodup_iff.mp single⟩
  rw [after]
  ext r
  exact perm.mem_iff

/-- **Owners one after the other**, each starting with nothing of its own, inside a frame. -/
theorem safe_blocks {frame : Set ρ} {ι : Type*} (owners : List ι) (uses : ι → List (Use ρ))
    (owned : ι → List ρ) (balances : ∀ i ∈ owners, Balances (uses i) (owned i))
    (fresh : AcquiresFresh frame (owners.flatMap uses)) :
    Safe frame (owners.flatMap uses) ∧
      heldAfter frame (owners.flatMap uses) = {r | r ∈ owners.flatMap owned} ∪ frame ∧
      (owners.flatMap owned).Nodup ∧ ∀ r ∈ owners.flatMap owned, r ∉ frame := by
  induction owners generalizing frame with
  | nil => simp [Safe]
  | cons i owners ih =>
    obtain ⟨here, others⟩ := List.forall_mem_cons.mp balances
    rw [List.flatMap_cons] at fresh ⊢
    rw [acquiresFresh_append] at fresh
    obtain ⟨first, later⟩ := fresh
    -- the first owner's part is safe alone, and so with the frame around it
    obtain ⟨alone, held, single⟩ := here.safe (first.anti (Set.empty_subset frame))
    have inside : AcquiresFresh (∅ ∪ frame) (uses i) := by rwa [Set.empty_union]
    obtain ⟨safe, after, apart⟩ := alone.frame (framed_refl frame _) inside (fun _ none => none.elim)
    rw [Set.empty_union] at safe after
    rw [held] at after apart
    rw [after] at later
    obtain ⟨safe', after', single', apart'⟩ := ih others later
    refine ⟨?_, ?_, ?_, ?_⟩
    · rw [safe_append, after]
      exact ⟨safe, safe'⟩
    · rw [heldAfter_append, after, after']
      ext r
      simp only [Set.mem_union, Set.mem_ofPred_eq, List.flatMap_cons, List.mem_append]
      tauto
    · rw [List.flatMap_cons, List.nodup_append]
      refine ⟨single, single', ?_⟩
      rintro r mine r' theirs rfl
      exact apart' r theirs (Or.inl mine)
    · intro r mem
      rw [List.flatMap_cons, List.mem_append] at mem
      obtain mine | theirs := mem
      · exact apart r mine
      · exact fun inFrame => apart' r theirs (Or.inr inFrame)

end

end Foundation
