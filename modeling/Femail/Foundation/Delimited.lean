import Mathlib.Data.List.Basic

/-! # Streams of delimited groups

A stream is cut into pieces by a symbol that ends each (`pieces`), and the pieces are put
together into groups by a mark on all of a group but its last piece (`groups`).  Both read
a stream from left to right and drop what is unfinished, so a decoder built from them reads
one message after the other: what stands behind a finished group does not change it.
-/

namespace Foundation

universe u

variable {α : Type u}

section

variable [DecidableEq α]

/-- The finished pieces of a stream, without the symbol that ends them. -/
def pieces (ending : α) : List α → List (List α)
  | [] => []
  | a :: stream =>
    if a = ending then [] :: pieces ending stream
    else (pieces ending stream).modifyHead (a :: ·)

theorem pieces_piece {ending : α} {piece : List α} (free : ending ∉ piece) (rest : List α) :
    pieces ending (piece ++ ending :: rest) = piece :: pieces ending rest := by
  induction piece with
  | nil => exact if_pos rfl
  | cons a piece ih =>
    rw [List.mem_cons, not_or] at free
    obtain ⟨other, free⟩ := free
    rw [List.cons_append, pieces, if_neg (Ne.symm other), ih free]
    rfl

end

/-- The finished groups: each is pieces that are marked, and one that is not. -/
def groups (marked : α → Bool) : List α → List (List α)
  | [] => []
  | a :: stream =>
    if marked a then (groups marked stream).modifyHead (a :: ·) else [a] :: groups marked stream

theorem groups_last {marked : α → Bool} {a : α} (last : marked a = false) (rest : List α) :
    groups marked (a :: rest) = [a] :: groups marked rest := by
  simp [groups, last]

theorem groups_more {marked : α → Bool} {a : α} (more : marked a = true) {group : List α}
    {stream : List α} {rest : List (List α)} (behind : groups marked stream = group :: rest) :
    groups marked (a :: stream) = (a :: group) :: rest := by
  simp [groups, more, behind]

/-- **Decoding a stream of messages**, if the decoder takes each message off the front
    whatever follows it. -/
theorem decode_flatten {β γ : Type*} (decode : List α → List β) {read : γ → β} {write : γ → List α}
    {messages : List γ} (empty : decode [] = [])
    (each : ∀ m ∈ messages, ∀ rest, decode (write m ++ rest) = read m :: decode rest) :
    decode (messages.flatMap write) = messages.map read := by
  induction messages with
  | nil => exact empty
  | cons m messages ih =>
    obtain ⟨here, others⟩ := List.forall_mem_cons.mp each
    rw [List.flatMap_cons, here, ih others, List.map_cons]

/-- Such a decoder leaves nothing of the messages for what comes behind them. -/
theorem decode_flatten_append {β γ : Type*} (decode : List α → List β) {read : γ → List β}
    {write : γ → List α} {messages : List γ} (empty : decode [] = [])
    (each : ∀ m ∈ messages, ∀ rest, decode (write m ++ rest) = read m ++ decode rest)
    (rest : List α) :
    decode (messages.flatMap write ++ rest) = decode (messages.flatMap write) ++ decode rest := by
  induction messages with
  | nil => rw [List.flatMap_nil, empty, List.nil_append, List.nil_append]
  | cons m messages ih =>
    obtain ⟨here, others⟩ := List.forall_mem_cons.mp each
    rw [List.flatMap_cons, List.append_assoc, here, here, ih others, List.append_assoc]

end Foundation
