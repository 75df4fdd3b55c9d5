import Mathlib.Data.List.Basic
import Mathlib.Data.List.Infix
import Mathlib.Data.List.TakeWhile

/-! # Byte strings as C sees them

Memory is a list of bytes.  A C string at the start of a list is the part before
its first NUL; running off the end of the list reads as NUL.  `strncmp` and
`strncasecmp` are one comparison, `strncmpBy`, with a different folding of the
bytes, and agree with comparing prefixes when the second string is a literal
(`strncmpBy_literal`).
-/

namespace Foundation

abbrev Byte := UInt8

/-- The bytes of a source literal. -/
def ascii (s : String) : List Byte := s.toList.map fun c => UInt8.ofNat c.toNat

/-- The C string that starts a piece of memory: its bytes before the first NUL. -/
def cstring (memory : List Byte) : List Byte := memory.takeWhile (· ≠ 0)

/-- `memory` after `src` has been copied to it at `offset`. -/
def overwrite (memory : List Byte) (offset : Nat) (src : List Byte) : List Byte :=
  memory.take offset ++ src ++ memory.drop (offset + src.length)

/-- ASCII lower case, the `tolower` of the "C" locale. -/
def toLower (b : Byte) : Byte := if 65 ≤ b ∧ b ≤ 90 then b + 32 else b

/-- The comparison loop of `strncmp`, on bytes folded by `fold`. -/
def strncmpBy (fold : Byte → Byte) : List Byte → List Byte → Nat → Int
  | _, _, 0 => 0
  | s, t, n + 1 =>
    let a := fold (s.headD 0)
    let b := fold (t.headD 0)
    if a = b then
      if s.headD 0 = 0 then 0 else strncmpBy fold s.tail t.tail n
    else (a.toNat : Int) - b.toNat

def strncmp : List Byte → List Byte → Nat → Int := strncmpBy id

def strncasecmp : List Byte → List Byte → Nat → Int := strncmpBy toLower

/-- The bytes a program may read, by address; `none` where it may not. -/
abbrev Memory := Nat → Option Byte

/-- `strncmp` of the string at `addr` with a literal, one read after the other: `none`
    if it reads where it may not. -/
def strncmpAt (memory : Memory) : Nat → List Byte → Nat → Option Int
  | _, _, 0 => some 0
  | addr, t, n + 1 => do
    let a ← memory addr
    let b := t.headD 0
    if a = b then
      if a = 0 then return 0 else strncmpAt memory (addr + 1) t.tail n
    else return (a.toNat : Int) - b.toNat

/-- `strncasecmp` in the same way: what is read is folded before it is compared. -/
def strncasecmpAt (memory : Memory) : Nat → List Byte → Nat → Option Int
  | _, _, 0 => some 0
  | addr, t, n + 1 => do
    let c ← memory addr
    let a := toLower c
    let b := toLower (t.headD 0)
    if a = b then
      if c = 0 then return 0 else strncasecmpAt memory (addr + 1) t.tail n
    else return (a.toNat : Int) - b.toNat

/-! ## C strings -/

@[simp] theorem cstring_nil : cstring [] = [] := rfl

@[simp] theorem cstring_cons_zero (rest : List Byte) : cstring (0 :: rest) = [] := by
  simp [cstring]

theorem cstring_cons_of_ne {b : Byte} (nonzero : b ≠ 0) (rest : List Byte) :
    cstring (b :: rest) = b :: cstring rest := by
  simp [cstring, nonzero]

/-- What follows a NUL is not part of the string. -/
theorem cstring_append_zero (s rest : List Byte) : cstring (s ++ 0 :: rest) = cstring s := by
  induction s with
  | nil => simp
  | cons b s ih =>
    by_cases zero : b = 0
    · subst zero; simp
    · rw [List.cons_append, cstring_cons_of_ne zero, cstring_cons_of_ne zero, ih]

theorem cstring_eq_self {s : List Byte} (nulFree : 0 ∉ s) : cstring s = s := by
  apply List.takeWhile_eq_self_iff.mpr
  intro b hb
  simp only [ne_eq, decide_eq_true_eq]
  rintro rfl
  exact nulFree hb

theorem zero_notMem_cstring (s : List Byte) : (0 : Byte) ∉ cstring s := by
  intro hz
  simpa using List.mem_takeWhile_imp hz

theorem cstring_isPrefix (s : List Byte) : cstring s <+: s := List.takeWhile_prefix _

/-- A NUL-free literal starts the string exactly if it starts the memory. -/
theorem literal_isPrefix_cstring_iff {t memory : List Byte} (nulFree : 0 ∉ t) :
    t <+: cstring memory ↔ t <+: memory := by
  constructor
  · intro inside
    exact inside.trans (cstring_isPrefix memory)
  · intro inside
    obtain ⟨rest, rfl⟩ := inside
    induction t with
    | nil => exact List.nil_prefix
    | cons c t ih =>
      simp only [List.mem_cons, not_or] at nulFree
      rw [List.cons_append, cstring_cons_of_ne (Ne.symm nulFree.1)]
      exact List.cons_prefix_cons.mpr ⟨rfl, ih nulFree.2⟩

/-! ## Comparing with a literal -/

theorem toLower_eq_zero {b : Byte} (h : toLower b = 0) : b = 0 := by
  unfold toLower at h
  split at h
  · rename_i range
    obtain ⟨low, high⟩ := range
    have lower : 65 ≤ b.toNat := low
    have upper : b.toNat ≤ 90 := high
    have value : (b + 32).toNat = 0 := congrArg UInt8.toNat h
    have sum : (b + 32).toNat = (b.toNat + 32) % 256 := UInt8.toNat_add b 32
    omega
  · exact h

theorem strncmpBy_cons (fold : Byte → Byte) (b c : Byte) (s t : List Byte) (n : Nat) :
    strncmpBy fold (b :: s) (c :: t) (n + 1) =
      if fold b = fold c then if b = 0 then 0 else strncmpBy fold s t n
      else ((fold b).toNat : Int) - (fold c).toNat := rfl

theorem strncmpBy_nil (fold : Byte → Byte) (c : Byte) (t : List Byte) (n : Nat) :
    strncmpBy fold [] (c :: t) (n + 1) =
      if fold 0 = fold c then 0 else ((fold 0).toNat : Int) - (fold c).toNat := rfl

/-- Against a NUL-free literal compared in full, `strncmpBy` is a comparison of
    prefixes; the fold must send nothing but NUL to NUL. -/
theorem strncmpBy_literal {fold : Byte → Byte} (zero : fold 0 = 0)
    (faithful : ∀ b, fold b = 0 → b = 0) {t : List Byte} (nulFree : 0 ∉ t) (s : List Byte) :
    strncmpBy fold s t t.length = 0 ↔ (s.take t.length).map fold = t.map fold := by
  induction t generalizing s with
  | nil => simp [strncmpBy]
  | cons c t ih =>
    simp only [List.mem_cons, not_or] at nulFree
    obtain ⟨hc, ht⟩ := nulFree
    have folded : fold c ≠ 0 := fun h => hc (faithful c h).symm
    have differs : ∀ {x y : Byte}, x ≠ y → ((x.toNat : Int) - y.toNat = 0 ↔ False) := by
      intro x y hxy
      rw [iff_false]
      intro h
      exact hxy (UInt8.toNat_inj.mp (by omega))
    cases s with
    | nil =>
      rw [List.length_cons, strncmpBy_nil, zero, if_neg folded.symm, differs folded.symm]
      simp
    | cons b s =>
      rw [List.length_cons, strncmpBy_cons]
      simp only [List.take_succ_cons, List.map_cons, List.cons.injEq]
      split
      · rename_i same
        have hb : b ≠ 0 := by
          rintro rfl
          exact folded (same ▸ zero)
        rw [if_neg hb, ih ht]
        simp [same]
      · rename_i other
        rw [differs other]
        simp [other]

theorem strncmp_literal {t : List Byte} (nulFree : 0 ∉ t) (s : List Byte) :
    strncmp s t t.length = 0 ↔ t <+: s := by
  have literal := @strncmpBy_literal id rfl (fun _ h => h) t nulFree s
  rw [List.map_id, List.map_id] at literal
  rw [strncmp, literal, List.prefix_iff_eq_take, eq_comm]

theorem strncasecmp_literal {t : List Byte} (nulFree : 0 ∉ t) (s : List Byte) :
    strncasecmp s t t.length = 0 ↔ (s.take t.length).map toLower = t.map toLower :=
  strncmpBy_literal rfl (fun _ => toLower_eq_zero) nulFree s

/-- `s` begins with `word`, ignoring case. -/
def Begins (s word : List Byte) : Prop := (s.take word.length).map toLower = word.map toLower

instance (s word : List Byte) : Decidable (Begins s word) := inferInstanceAs (Decidable (_ = _))

theorem Begins.length_take {s word : List Byte} (begins : Begins s word) :
    (s.take word.length).length = word.length := by
  have lengths := congrArg List.length begins
  rwa [List.length_map, List.length_map] at lengths

/-- What begins with a text is as long. -/
theorem Begins.length_le {s word : List Byte} (begins : Begins s word) : word.length ≤ s.length := by
  have length := begins.length_take
  rw [List.length_take] at length
  omega

/-- What begins with a text begins with the first part of it. -/
theorem Begins.left {s word more : List Byte} (begins : Begins s (word ++ more)) : Begins s word := by
  unfold Begins at begins ⊢
  have front := congrArg (List.take word.length) begins
  rw [← List.map_take, ← List.map_take, List.take_take, List.length_append,
    Nat.min_eq_left (Nat.le_add_right _ _), List.take_left] at front
  exact front

/-- The byte behind a text, where more of the text is known. -/
theorem Begins.getElem? {s word more : List Byte} {c : Byte} (begins : Begins s (word ++ c :: more)) :
    ∃ b, s[word.length]? = some b ∧ toLower b = toLower c := by
  have here := congrArg (fun bytes : List Byte => bytes[word.length]?) begins
  simpa [List.getElem?_take, List.getElem?_append] using here

/-- A word that `s` begins with is passed over by a scan that does not look at case. -/
theorem Begins.takeWhile {s word : List Byte} {p : Byte → Bool} (begins : Begins s word)
    (folds : ∀ b, p (toLower b) = p b) (inside : ∀ b ∈ word, p b = true) :
    s.takeWhile p = s.take word.length ++ (s.drop word.length).takeWhile p := by
  have letters : ∀ b ∈ s.take word.length, p b = true := by
    intro b mem
    have folded : toLower b ∈ word.map toLower := begins ▸ List.mem_map_of_mem mem
    obtain ⟨c, inWord, same⟩ := List.mem_map.mp folded
    rw [← folds b, ← same, folds c]
    exact inside c inWord
  conv_lhs => rw [← List.take_append_drop word.length s]
  exact List.takeWhile_append_of_pos letters

/-! ## Reading a string -/

/-- The C string at `addr` is `s`: its bytes and a NUL behind them are there to be read.
    Nothing is said of what comes after the NUL. -/
def StringAt (memory : Memory) : Nat → List Byte → Prop
  | addr, [] => memory addr = some 0
  | addr, b :: s => b ≠ 0 ∧ memory addr = some b ∧ StringAt memory (addr + 1) s

/-- The string at the start of an array that has a NUL in it. -/
theorem stringAt_cstring {block : List Byte} (nul : 0 ∈ block) {memory : Memory} {addr : Nat}
    (holds : ∀ i, memory (addr + i) = block[i]?) : StringAt memory addr (cstring block) := by
  induction block generalizing addr with
  | nil => cases nul
  | cons b block ih =>
    have first : memory addr = some b := holds 0
    by_cases zero : b = 0
    · subst zero
      rw [cstring_cons_zero]
      exact first
    · rw [cstring_cons_of_ne zero]
      refine ⟨zero, first, ih ((List.mem_cons.mp nul).resolve_left (Ne.symm zero)) ?_⟩
      intro i
      rw [Nat.add_assoc, Nat.add_comm 1]
      exact holds (i + 1)

theorem strncmp_succ (s t : List Byte) (n : Nat) :
    strncmp s t (n + 1) =
      if s.headD 0 = t.headD 0 then if s.headD 0 = 0 then 0 else strncmp s.tail t.tail n
      else ((s.headD 0).toNat : Int) - (t.headD 0).toNat := rfl

theorem strncmpAt_succ {memory : Memory} {addr : Nat} {a : Byte} (here : memory addr = some a)
    (t : List Byte) (n : Nat) :
    strncmpAt memory addr t (n + 1) =
      if a = t.headD 0 then if a = 0 then some 0 else strncmpAt memory (addr + 1) t.tail n
      else some ((a.toNat : Int) - (t.headD 0).toNat) := by
  rw [strncmpAt, here]
  rfl

/-- The first byte of the string, or the NUL behind it. -/
theorem StringAt.head {memory : Memory} {addr : Nat} {s : List Byte}
    (string : StringAt memory addr s) : memory addr = some (s.headD 0) := by
  cases s with
  | nil => exact string
  | cons b s => exact string.2.1

theorem StringAt.tail {memory : Memory} {addr : Nat} {s : List Byte}
    (string : StringAt memory addr s) (more : s.headD 0 ≠ 0) : StringAt memory (addr + 1) s.tail := by
  cases s with
  | nil => exact absurd rfl more
  | cons b s => exact string.2.2

/-- `strncmp` reads nothing behind the NUL of the string. -/
theorem StringAt.strncmpAt_eq {memory : Memory} {addr : Nat} {s : List Byte}
    (string : StringAt memory addr s) (t : List Byte) (n : Nat) :
    strncmpAt memory addr t n = some (strncmp s t n) := by
  induction n generalizing addr s t with
  | zero => rfl
  | succ n ih =>
    rw [strncmpAt_succ string.head, strncmp_succ]
    split
    · split
      · rfl
      · rename_i more
        exact ih (string.tail more) t.tail
    · rfl

/-- Nor does `strncasecmp`, in an array that has a NUL in it. -/
theorem strncasecmpAt_eq {block : List Byte} (nul : 0 ∈ block) {memory : Memory} {addr : Nat}
    (holds : ∀ i, memory (addr + i) = block[i]?) (t : List Byte) (n : Nat) :
    strncasecmpAt memory addr t n = some (strncasecmp block t n) := by
  induction n generalizing addr block t with
  | zero => rfl
  | succ n ih =>
    cases block with
    | nil => cases nul
    | cons c block =>
      have first : memory addr = some c := holds 0
      have rest : ∀ i, memory (addr + 1 + i) = block[i]? := by
        intro i
        rw [Nat.add_assoc, Nat.add_comm 1]
        exact holds (i + 1)
      have compared : strncasecmp (c :: block) t (n + 1) =
          if toLower c = toLower (t.headD 0) then if c = 0 then 0 else strncasecmp block t.tail n
          else ((toLower c).toNat : Int) - (toLower (t.headD 0)).toNat := rfl
      rw [strncasecmpAt, first, compared]
      dsimp only [Option.bind_eq_bind, Option.bind_some]
      by_cases same : toLower c = toLower (t.headD 0)
      · rw [if_pos same, if_pos same]
        by_cases ends : c = 0
        · rw [if_pos ends, if_pos ends]
          rfl
        · rw [if_neg ends, if_neg ends]
          exact ih ((List.mem_cons.mp nul).resolve_left (Ne.symm ends)) rest t.tail
      · rw [if_neg same, if_neg same]
        rfl

/-! ## Copies into memory -/

/-- A copy right after a known part of the memory extends that part. -/
theorem overwrite_append (s rest src : List Byte) :
    overwrite (s ++ rest) s.length src = s ++ src ++ rest.drop src.length := by
  simp [overwrite, List.drop_append]

theorem length_overwrite {memory src : List Byte} {offset : Nat}
    (inside : offset + src.length ≤ memory.length) :
    (overwrite memory offset src).length = memory.length := by
  simp [overwrite]
  omega

/-- A copy may be made byte by byte. -/
theorem overwrite_cons {memory : List Byte} {offset : Nat} (inside : offset < memory.length)
    (b : Byte) (src : List Byte) :
    overwrite memory offset (b :: src) = overwrite (memory.set offset b) (offset + 1) src := by
  have front : (memory.set offset b).take (offset + 1) = memory.take offset ++ [b] := by
    rw [List.set_eq_take_append_cons_drop, if_pos inside, List.take_append]
    simp [Nat.min_eq_left (Nat.le_of_lt inside), List.take_take]
  have back : (memory.set offset b).drop (offset + 1 + src.length) =
      memory.drop (offset + 1 + src.length) :=
    List.drop_set_of_lt (by omega)
  rw [overwrite, overwrite, front, back]
  simp [Nat.add_assoc, Nat.add_comm 1]

end Foundation
