import Mathlib.Data.List.TakeWhile
import Mathlib.Data.Set.Insert

/-! # The life of a resource

A program's calls seen as uses of resources: each acquires, uses or releases one.
`Safe` says that a trace acquires only what is not held, and uses and releases only
what is.  A resource name can come back after a release, so what happened to it is
told per life: from one acquire up to the next (`life`).  In a safe trace a life is
a number of uses and then at most one release (`Safe.fate`).

`Sole` is the law of an owner with room for one resource: it holds what its slot says
and nothing else, so each resource it acquired is in the slot or was released once
(`Sole.fate`).  `Balances` is the law of an owner with any number of slots; it counts,
so it does not ask that what is acquired is not held already.
-/

namespace Foundation

universe u

inductive Use (ρ : Type u) where
  | acquire (r : ρ)
  | use (r : ρ)
  | release (r : ρ)
deriving DecidableEq

namespace Use

variable {ρ : Type u}

def target : Use ρ → ρ
  | .acquire r => r
  | .use r => r
  | .release r => r

/-- What is held after a use, if `held` is before it. -/
def apply (held : Set ρ) : Use ρ → Set ρ
  | .acquire r => insert r held
  | .use _ => held
  | .release r => held \ {r}

def ok (held : Set ρ) : Use ρ → Prop
  | .acquire r => r ∉ held
  | .use r => r ∈ held
  | .release r => r ∈ held

end Use

variable {ρ : Type u}

def heldAfter (held : Set ρ) (uses : List (Use ρ)) : Set ρ := uses.foldl Use.apply held

def Safe (held : Set ρ) : List (Use ρ) → Prop
  | [] => True
  | u :: uses => u.ok held ∧ Safe (u.apply held) uses

@[simp] theorem heldAfter_nil (held : Set ρ) : heldAfter held [] = held := rfl

@[simp] theorem heldAfter_cons (held : Set ρ) (u : Use ρ) (uses : List (Use ρ)) :
    heldAfter held (u :: uses) = heldAfter (u.apply held) uses := rfl

theorem heldAfter_append (held : Set ρ) (uses uses' : List (Use ρ)) :
    heldAfter held (uses ++ uses') = heldAfter (heldAfter held uses) uses' :=
  List.foldl_append

theorem safe_append (held : Set ρ) (uses uses' : List (Use ρ)) :
    Safe held (uses ++ uses') ↔ Safe held uses ∧ Safe (heldAfter held uses) uses' := by
  induction uses generalizing held with
  | nil => simp [Safe]
  | cons u uses ih => simp only [List.cons_append, Safe, ih, heldAfter_cons, and_assoc]

theorem heldAfter_uses (held : Set ρ) (r : ρ) (n : Nat) :
    heldAfter held (List.replicate n (.use r)) = held := by
  induction n with
  | zero => rfl
  | succ n ih => exact ih

theorem safe_uses {held : Set ρ} {r : ρ} (mem : r ∈ held) (n : Nat) :
    Safe held (List.replicate n (.use r)) := by
  induction n with
  | zero => exact trivial
  | succ n ih => exact ⟨mem, ih⟩

/-! ## Lives -/

section

variable [DecidableEq ρ]

instance Use.apply.decidable (held : Set ρ) [DecidablePred (· ∈ held)] :
    ∀ u : Use ρ, DecidablePred (· ∈ u.apply held)
  | .acquire r => fun r' => inferInstanceAs (Decidable (r' = r ∨ r' ∈ held))
  | .use _ => fun r' => inferInstanceAs (Decidable (r' ∈ held))
  | .release r => fun r' => inferInstanceAs (Decidable (r' ∈ held ∧ ¬r' = r))

instance heldAfter.decidable (held : Set ρ) [DecidablePred (· ∈ held)] :
    ∀ uses : List (Use ρ), DecidablePred (· ∈ heldAfter held uses)
  | [] => inferInstanceAs (DecidablePred (· ∈ held))
  | u :: uses => heldAfter.decidable (u.apply held) uses

/-- What happens to `r` up to the next time it is acquired. -/
def life (r : ρ) (uses : List (Use ρ)) : List (Use ρ) :=
  (uses.takeWhile fun u => u ≠ .acquire r).filter fun u => u.target = r

theorem life_acquire (r : ρ) (uses : List (Use ρ)) : life r (.acquire r :: uses) = [] := by
  simp [life]

theorem life_cons_of_ne {r : ρ} {u : Use ρ} (other : u.target ≠ r) (uses : List (Use ρ)) :
    life r (u :: uses) = life r uses := by
  have differs : u ≠ .acquire r := by
    rintro rfl
    exact other rfl
  simp [life, differs, other]

theorem life_cons_of_eq {r : ρ} {u : Use ρ} (same : u.target = r) (later : u ≠ .acquire r)
    (uses : List (Use ρ)) : life r (u :: uses) = u :: life r uses := by
  simp [life, later, same]

/-- A resource that is not held has to be acquired first. -/
theorem Safe.life_of_notMem {r : ρ} {held : Set ρ} {uses : List (Use ρ)} (safe : Safe held uses)
    (free : r ∉ held) : life r uses = [] := by
  induction uses generalizing held with
  | nil => rfl
  | cons u uses ih =>
    obtain ⟨ok, rest⟩ := safe
    -- the first use of `r` can only be an acquire, which ends the life
    by_cases same : u.target = r
    · subst same
      cases u with
      | acquire => exact life_acquire _ _
      | use => exact absurd ok free
      | release => exact absurd ok free
    · rw [life_cons_of_ne same]
      refine ih rest ?_
      cases u with
      | acquire r' =>
        rintro (rfl | mem)
        · exact same rfl
        · exact free mem
      | use => exact free
      | release => exact fun mem => free mem.1

/-- A held resource is used some times and is then still held, or is released. -/
theorem Safe.life_of_mem {r : ρ} {held : Set ρ} {uses : List (Use ρ)} (safe : Safe held uses)
    (mem : r ∈ held) :
    ∃ n, (life r uses = List.replicate n (.use r) ∧ r ∈ heldAfter held uses) ∨
      life r uses = List.replicate n (.use r) ++ [.release r] := by
  induction uses generalizing held with
  | nil => exact ⟨0, Or.inl ⟨rfl, mem⟩⟩
  | cons u uses ih =>
    obtain ⟨ok, rest⟩ := safe
    by_cases same : u.target = r
    · subst same
      cases u with
      | acquire => exact absurd mem ok
      | use r =>
        obtain ⟨n, fate⟩ := ih rest mem
        rw [life_cons_of_eq rfl (by simp)]
        refine ⟨n + 1, ?_⟩
        obtain ⟨uses, open'⟩ | closed := fate
        · exact Or.inl ⟨by rw [uses]; rfl, open'⟩
        · exact Or.inr (by rw [closed]; rfl)
      | release r =>
        -- released, it has to be acquired before anything else happens to it
        have nothing := rest.life_of_notMem (r := r) (fun mem => mem.2 rfl)
        refine ⟨0, Or.inr ?_⟩
        rw [life_cons_of_eq rfl (by simp), show life (Use.release r).target uses = [] from nothing]
        rfl
    · rw [life_cons_of_ne same]
      refine ih rest ?_
      cases u with
      | acquire => exact Or.inr mem
      | use => exact mem
      | release => exact ⟨mem, fun same' => same same'.symm⟩

/-- **The fate of an acquired resource** in a safe trace. -/
theorem Safe.fate {r : ρ} {held : Set ρ} {before after : List (Use ρ)}
    (safe : Safe held (before ++ .acquire r :: after)) :
    ∃ n, (life r after = List.replicate n (.use r) ∧
        r ∈ heldAfter held (before ++ .acquire r :: after)) ∨
      life r after = List.replicate n (.use r) ++ [.release r] := by
  rw [safe_append] at safe
  obtain ⟨-, -, rest⟩ := safe
  rw [heldAfter_append]
  exact rest.life_of_mem (Set.mem_insert r _)

end

/-! ## One owner -/

/-- After the calls `uses` of one owner it holds exactly the resource `owned`. -/
structure Sole (uses : List (Use ρ)) (owned : Option ρ) : Prop where
  safe : Safe ∅ uses
  held : heldAfter ∅ uses = {r | owned = some r}

section

variable {uses : List (Use ρ)} {owned : Option ρ}

theorem sole_nil : Sole ([] : List (Use ρ)) none :=
  ⟨trivial, by simp⟩

/-- An owner of nothing may acquire a resource. -/
theorem Sole.acquire (sole : Sole uses none) (new : Option ρ) :
    Sole (uses ++ new.toList.map .acquire) new := by
  have empty : heldAfter ∅ uses = ∅ := by simp [sole.held]
  cases new with
  | none => simpa using sole
  | some r =>
    refine ⟨?_, ?_⟩
    · rw [safe_append, empty]
      exact ⟨sole.safe, Set.notMem_empty r, trivial⟩
    · rw [heldAfter_append, empty]
      ext r'
      simp [Use.apply, eq_comm]

theorem Sole.release (sole : Sole uses owned) :
    Sole (uses ++ owned.toList.map .release) none := by
  cases owned with
  | none => simpa using sole
  | some r =>
    refine ⟨?_, ?_⟩
    · rw [safe_append, sole.held]
      exact ⟨sole.safe, rfl, trivial⟩
    · rw [heldAfter_append, sole.held]
      ext r'
      simp [Use.apply]

/-- Using what it owns changes nothing. -/
theorem Sole.usedBy {later : List (Use ρ)} (sole : Sole uses owned)
    (only : ∀ u ∈ later, ∃ r, owned = some r ∧ u = .use r) : Sole (uses ++ later) owned := by
  induction later generalizing uses with
  | nil => simpa using sole
  | cons u later ih =>
    obtain ⟨⟨r, mine, rfl⟩, others⟩ := List.forall_mem_cons.mp only
    rw [List.append_cons]
    refine ih ⟨?_, ?_⟩ others
    · rw [safe_append, sole.held]
      exact ⟨sole.safe, mine, trivial⟩
    · rw [heldAfter_append, sole.held]
      rfl

theorem Sole.empty (sole : Sole uses none) : heldAfter ∅ uses = ∅ := by simp [sole.held]

/-- What an owner acquired is what it owns, or was released once. -/
theorem Sole.fate [DecidableEq ρ] (sole : Sole uses owned) (noUse : ∀ r, .use r ∉ uses)
    {before after : List (Use ρ)} {r : ρ} (split : uses = before ++ .acquire r :: after) :
    (life r after = [] ∧ owned = some r) ∨ life r after = [.release r] := by
  have silent : ∀ n, .use r ∉ life r after → ∀ rest, life r after = List.replicate n (.use r) ++ rest →
      n = 0 := by
    intro n absent rest shape
    cases n with
    | zero => rfl
    | succ n =>
      rw [shape] at absent
      exact absurd (by simp [List.replicate_succ]) absent
  have absent : .use r ∉ life r after := by
    intro mem
    have inside := (List.takeWhile_sublist _).subset (List.mem_filter.mp mem).1
    exact noUse r (by simp [split, inside])
  have safe := sole.safe
  rw [split] at safe
  obtain ⟨n, ⟨uses', held⟩ | closed⟩ := safe.fate
  · have zero := silent n absent [] (by rw [uses', List.append_nil])
    rw [← split, sole.held] at held
    exact Or.inl ⟨by rw [uses', zero]; rfl, held⟩
  · have zero := silent n absent _ closed
    exact Or.inr (by rw [closed, zero]; rfl)

end

/-! ## Counted resources -/

section

variable [DecidableEq ρ]

/-- What is held after a trace, one entry for each acquire; none if the trace uses or
    releases what is not held. -/
def balance : List ρ → List (Use ρ) → Option (List ρ)
  | held, [] => some held
  | held, .acquire r :: uses => balance (r :: held) uses
  | held, .use r :: uses => if r ∈ held then balance held uses else none
  | held, .release r :: uses => if r ∈ held then balance (held.erase r) uses else none

theorem balance_append (held : List ρ) (uses uses' : List (Use ρ)) :
    balance held (uses ++ uses') = (balance held uses).bind fun held => balance held uses' := by
  induction uses generalizing held with
  | nil => rfl
  | cons u uses ih =>
    cases u with
    | acquire r => exact ih _
    | use r | release r =>
      simp only [List.cons_append, balance]
      split
      · exact ih _
      · rfl

/-- The trace keeps the books, and what it leaves is `owned`. -/
def Balances (uses : List (Use ρ)) (owned : List ρ) : Prop :=
  ∃ held, balance [] uses = some held ∧ held.Perm owned

theorem balances_nil : Balances ([] : List (Use ρ)) [] := ⟨[], rfl, .nil⟩

variable {uses : List (Use ρ)} {owned : List ρ} {r : ρ}

theorem Balances.acquire (balances : Balances uses owned) (r : ρ) :
    Balances (uses ++ [.acquire r]) (r :: owned) := by
  obtain ⟨held, after, perm⟩ := balances
  refine ⟨r :: held, ?_, perm.cons r⟩
  rw [balance_append, after]
  rfl

theorem Balances.release (balances : Balances uses owned) (mem : r ∈ owned) :
    Balances (uses ++ [.release r]) (owned.erase r) := by
  obtain ⟨held, after, perm⟩ := balances
  refine ⟨held.erase r, ?_, perm.erase r⟩
  rw [balance_append, after]
  exact if_pos (perm.mem_iff.mpr mem)

theorem Balances.perm {owned' : List ρ} (balances : Balances uses owned) (perm : owned.Perm owned') :
    Balances uses owned' := by
  obtain ⟨held, after, same⟩ := balances
  exact ⟨held, after, same.trans perm⟩

/-- Releasing everything, one by one. -/
theorem Balances.releaseAll (balances : Balances uses owned) :
    Balances (uses ++ owned.map .release) [] := by
  induction owned generalizing uses with
  | nil => simpa using balances
  | cons r owned ih =>
    have first := balances.release (r := r) List.mem_cons_self
    rw [List.erase_cons_head] at first
    simpa using ih first

end

end Foundation
