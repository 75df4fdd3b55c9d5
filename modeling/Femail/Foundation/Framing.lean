import Mathlib.Data.List.Basic
import Mathlib.Data.List.Infix
import Mathlib.Data.List.Induction
import Mathlib.Data.Nat.Find

/-! # Framing a stream by an end marker

A stream of symbols arrives in pieces, and the frame in it ends with the first
occurrence of a marker.  `FirstAt` says what is in front of that occurrence and
`exists_firstPiece` which piece completes it.
-/

namespace Foundation

universe u

variable {α : Type u}

/-- `text` is what `bytes` has in front of its first `marker`. -/
structure FirstAt (marker bytes text : List α) : Prop where
  here : text ++ marker <+: bytes
  first : ∀ other, other ++ marker <+: bytes → text.length ≤ other.length

theorem isInfix_iff_exists_front {marker bytes : List α} :
    marker <:+: bytes ↔ ∃ text, text ++ marker <+: bytes := by
  constructor
  · rintro ⟨text, rest, rfl⟩
    exact ⟨text, rest, rfl⟩
  · rintro ⟨text, rest, rfl⟩
    exact ⟨text, rest, rfl⟩

theorem exists_firstAt {marker bytes : List α} (inside : marker <:+: bytes) :
    ∃ text, FirstAt marker bytes text := by
  classical
  have found : ∃ n, ∃ text : List α, text.length = n ∧ text ++ marker <+: bytes := by
    obtain ⟨text, here⟩ := isInfix_iff_exists_front.mp inside
    exact ⟨_, text, rfl, here⟩
  obtain ⟨text, size, here⟩ := Nat.find_spec found
  refine ⟨text, here, ?_⟩
  intro other there
  rw [size]
  exact Nat.find_min' found ⟨other, rfl, there⟩

/-- Whatever stands in front of an occurrence of the marker begins with the text in
    front of the first one. -/
theorem FirstAt.isPrefix {marker bytes text other : List α} (at' : FirstAt marker bytes text)
    (there : other ++ marker <+: bytes) : text <+: other := by
  have front : text <+: bytes := (List.prefix_append _ _).trans at'.here
  have front' : other <+: bytes := (List.prefix_append _ _).trans there
  exact List.prefix_of_prefix_length_le front front' (at'.first other there)

/-- What comes later does not move the first occurrence. -/
theorem FirstAt.extend {marker bytes more text : List α} (at' : FirstAt marker bytes text)
    (longer : bytes <+: more) : FirstAt marker more text := by
  have here := at'.here.trans longer
  refine ⟨here, ?_⟩
  intro other there
  by_contra shorter
  have inside : other ++ marker <+: text ++ marker :=
    List.prefix_of_prefix_length_le there here (by simp; omega)
  exact shorter (at'.first other (inside.trans at'.here))

/-- Of the pieces of a stream, one is the first with which a property of the prefix
    comes to hold. -/
theorem exists_firstPiece {holds : List α → Prop} (pieces : List α) (never : ¬ holds [])
    (all : holds pieces) :
    ∃ before piece after, pieces = before ++ piece :: after ∧ ¬ holds before ∧
      holds (before ++ [piece]) := by
  induction pieces using List.reverseRecOn with
  | nil => exact absurd all never
  | append_singleton pieces last ih =>
    by_cases earlier : holds pieces
    · obtain ⟨before, piece, after, rfl, not', now⟩ := ih earlier
      exact ⟨before, piece, after ++ [last], by simp, not', now⟩
    · exact ⟨pieces, last, [], rfl, earlier, all⟩

end Foundation
