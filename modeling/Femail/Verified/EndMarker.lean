import Femail.Foundation.Lines
import Femail.Verified.DataPhase

/-! # The end marker

`found_crlf_end` as it reads memory, and what it looks for.  The scan stays inside its
string and decides whether the marker is in it; what it decides is not quite where a line
of a single dot stands, since a first line has no line end of its message in front of it.
-/

namespace Femail

open Foundation

/-! ## The scan -/

/-- The scan of a string ends, reads nothing behind its NUL and finds what
    `foundCrlfEnd` finds. -/
theorem foundCrlfEndAt_eq {memory : Memory} {addr : Nat} {s : List Byte}
    (string : StringAt memory addr s) {fuel : Nat} (enough : s.length < fuel) :
    foundCrlfEndAt memory fuel addr = some (foundCrlfEnd s) := by
  induction s generalizing addr fuel with
  | nil =>
    obtain ⟨fuel, rfl⟩ := Nat.exists_eq_succ_of_ne_zero (Nat.ne_of_gt enough)
    rw [foundCrlfEndAt, string.head]
    rfl
  | cons b s ih =>
    obtain ⟨fuel, rfl⟩ := Nat.exists_eq_succ_of_ne_zero (Nat.ne_of_gt (Nat.zero_lt_of_lt enough))
    have rest := ih string.2.2 (Nat.lt_of_succ_lt_succ enough)
    have compared := string.strncmpAt_eq crlfDotCrlf 5
    obtain ⟨nonzero, first, -⟩ := string
    rw [foundCrlfEndAt, foundCrlfEnd, first, compared, rest]
    simp only [Option.bind_eq_bind, Option.bind_some, if_neg nonzero]
    by_cases cr : b = 13
    · by_cases found : strncmp (b :: s) crlfDotCrlf 5 = 0
      · rw [if_pos cr, if_pos found, if_pos ⟨cr, found⟩]
        rfl
      · rw [if_pos cr, if_neg found, if_neg fun both => found both.2]
    · rw [if_neg cr, if_neg fun both => cr both.1]

/-- The scan in the data branch stays inside the message block. -/
theorem Buffered.scan_in_block {conn : Connection} {text : List Byte}
    (buffered : Buffered conn text) (t : Turn) (chunk : Chunk) :
    let block := appendedBytes t conn chunk conn.nextSize
    foundCrlfEndAt (block[·]?) (block.length + 1) 0 = some (foundCrlfEnd block) := by
  intro block
  obtain ⟨rest, bytes⟩ := buffered.appendedBytes_eq t chunk
  have nul : 0 ∈ block := by
    rw [show block = _ from bytes]
    simp
  have string : StringAt (block[·]?) 0 (cstring block) :=
    stringAt_cstring nul (fun i => by rw [Nat.zero_add])
  have shorter : (cstring block).length < block.length + 1 :=
    Nat.lt_succ_of_le (cstring_isPrefix block).length_le
  rw [foundCrlfEndAt_eq string shorter, Option.some.injEq, Bool.eq_iff_iff, foundCrlfEnd_iff,
    foundCrlfEnd_iff, cstring_eq_self (zero_notMem_cstring block)]

theorem foundCrlfEnd_iff_of_nulFree {s : List Byte} (nulFree : 0 ∉ s) :
    foundCrlfEnd s = true ↔ crlfDotCrlf <:+: s := by
  rw [foundCrlfEnd_iff, cstring_eq_self nulFree]

/-- A marker that is not in the first part ends in the second. -/
theorem marker_ends_later {s t front back : List Byte} (missing : ¬ crlfDotCrlf <:+: s)
    (here : s ++ t = front ++ crlfDotCrlf ++ back) : back.length < t.length := by
  by_contra early
  have length := congrArg List.length here
  simp only [List.length_append] at length
  have inside : front ++ crlfDotCrlf <+: s ++ t := ⟨back, here.symm⟩
  have within : front ++ crlfDotCrlf <+: s :=
    List.prefix_of_prefix_length_le inside (List.prefix_append s t) (by
      rw [List.length_append]
      omega)
  exact missing ((List.suffix_append front crlfDotCrlf).isInfix.trans within.isInfix)

/-- **The scan.**  For every string, in every memory that has it, the scan ends without a
    read behind the NUL and finds the marker exactly if it is in the string.  What is found
    stays found when the string grows, and what is not found before ends in the growth. -/
theorem foundCrlfEnd_scan {s t : List Byte} (nulFree : 0 ∉ s) (nulFree' : 0 ∉ t) :
    (∀ memory addr, StringAt memory addr s → ∀ fuel, s.length < fuel →
      foundCrlfEndAt memory fuel addr = some (foundCrlfEnd s)) ∧
      (foundCrlfEnd s = true ↔ crlfDotCrlf <:+: s) ∧
      (foundCrlfEnd s = true → foundCrlfEnd (s ++ t) = true) ∧
      (foundCrlfEnd s = false → ∀ front back, s ++ t = front ++ crlfDotCrlf ++ back →
        back.length < t.length) := by
  have found := foundCrlfEnd_iff_of_nulFree nulFree
  have both : 0 ∉ s ++ t := by
    rw [List.mem_append]
    exact fun mem => mem.elim nulFree nulFree'
  refine ⟨fun memory addr string fuel enough => foundCrlfEndAt_eq string enough, found, ?_, ?_⟩
  · intro before
    rw [foundCrlfEnd_iff_of_nulFree both]
    exact marker_append s t (found.mp before)
  · intro before front back here
    have missing : ¬ crlfDotCrlf <:+: s := mt found.mpr (by simp [before])
    exact marker_ends_later missing here

/-- A marker without its last byte, at the very end of the memory, and with it. -/
theorem foundCrlfEnd_scan_cut :
    foundCrlfEndAt ((ascii "\r\n.\r" ++ [0])[·]?) 5 0 = some false ∧
      ∀ front back, ascii "\r\n.\r" ++ [10] = front ++ crlfDotCrlf ++ back →
        back.length < [(10 : Byte)].length := by
  obtain ⟨scan, -, -, later⟩ :=
    @foundCrlfEnd_scan (ascii "\r\n.\r") [10] (by decide) (by decide)
  refine ⟨?_, later (by decide)⟩
  have nul : 0 ∈ ascii "\r\n.\r" ++ [0] := by decide
  exact scan _ 0 (stringAt_cstring nul (fun i => by rw [Nat.zero_add])) 5 (by decide)

/-! ## Lines -/

/-- A line of a single dot is among the lines of the bytes. -/
def LoneDot (bytes : List Byte) : Prop := [46] ∈ lines 13 10 bytes

instance : DecidablePred LoneDot := fun bytes => inferInstanceAs (Decidable ([46] ∈ lines 13 10 bytes))

/-- The bytes of such a line. -/
def dotCrlf : List Byte := ascii ".\r\n"

theorem loneDot_iff (bytes : List Byte) :
    LoneDot bytes ↔ dotCrlf <+: bytes ∨ crlfDotCrlf <:+: bytes :=
  mem_lines_iff (by decide) (by decide) bytes

theorem LoneDot.append {bytes : List Byte} (dot : LoneDot bytes) (more : List Byte) :
    LoneDot (bytes ++ more) := by
  rw [loneDot_iff] at dot ⊢
  rcases dot with first | later
  · exact Or.inl (first.trans (List.prefix_append _ _))
  · exact Or.inr (marker_append bytes more later)

/-- Until the first line is a lone dot, and while it is about to be one, there is no other. -/
theorem not_loneDot_of_first {bytes more : List Byte} (missing : ¬ dotCrlf <+: bytes)
    (now : dotCrlf <+: bytes ++ more) : ¬ LoneDot bytes := by
  rw [loneDot_iff]
  rintro (first | later)
  · exact missing first
  · -- the marker is longer than what is still shorter than the line
    have long : 5 ≤ bytes.length := later.length_le
    exact missing (List.prefix_of_prefix_length_le now (List.prefix_append _ _)
      ((by decide : dotCrlf.length ≤ 5).trans long))

/-- The very first line is no single dot, or the read that completes it brings an end
    marker too. -/
def FirstLineMarked (turns : List Turn) : Prop :=
  ∀ before t after, turns = before ++ t :: after → ¬ dotCrlf <+: textRead before →
    dotCrlf <+: textRead (before ++ [t]) → crlfDotCrlf <:+: textRead (before ++ [t])

/-- **The lone dot.**  For all NUL-free message text that a client sends after a 354, in
    reads that stay within the size limit, the message is accepted with the read that
    completes the first line of a single dot exactly if that is not the very first line,
    or the same read has an end marker behind it, and memory does not run out. -/
theorem endsWith_loneDot_iff (g : Globals) {h : SessionHistory} {conn : Connection}
    (reaches : (session g).Reaches (smtpStart g) Machine.anyStep h (some conn))
    (starts : StartsData h) {turns : List Turn} (allRead : AllRead turns)
    (nulFree : 0 ∉ textRead turns) (fits : turns.length * smallBufferSize + 1 ≤ esmtpSize) :
    EndsWith LoneDot g conn turns ↔ FirstLineMarked turns ∧ HasMemoryUntil LoneDot turns := by
  have collecting := collecting_of_startsData reaches starts
  have whole : ∀ before t after, turns = before ++ t :: after →
      cstring (textRead (before ++ [t])) = textRead (before ++ [t]) := by
    intro before t after split
    have front : textRead (before ++ [t]) <+: textRead turns := by simp [split]
    exact cstring_eq_self fun zero => nulFree (front.subset zero)
  refine (endsWith_iff (fun bytes marker => (loneDot_iff bytes).mpr (Or.inr marker))
    (fun bytes more dot => dot.append more) collecting allRead fits).trans ?_
  constructor
  · intro sound
    refine ⟨?_, fun before t after split missing => (sound before t after split missing).1⟩
    intro before t after split missing now
    have longer : textRead (before ++ [t]) = textRead before ++ textRead [t] := textRead_append _ _
    have seen := (sound before t after split (not_loneDot_of_first missing (longer ▸ now))).2
    rw [whole before t after split, loneDot_iff] at seen
    exact seen (Or.inl now)
  · rintro ⟨marked, memory⟩ before t after split missing
    refine ⟨memory before t after split missing, ?_⟩
    rw [whole before t after split, loneDot_iff]
    rintro (first | later)
    · rw [loneDot_iff, not_or] at missing
      exact marked before t after split missing.1 first
    · exact later

/-- A message whose first line is not a lone dot. -/
theorem firstLineMarked_of_not {turns : List Turn} (other : ¬ dotCrlf <+: textRead turns) :
    FirstLineMarked turns := by
  intro before t after split _ now
  have front : textRead (before ++ [t]) <+: textRead turns := by simp [split]
  exact absurd (now.trans front) other

/-- One line and the dot, cut inside the last line end. -/
theorem endsWith_loneDot_iff_mailey :
    let turns := [.sends (ascii "Hi\r\n.\r") (by decide) (by decide),
      .sends (ascii "\n") (by decide) (by decide)]
    ∃ conn, maileyMessage.2 = some conn ∧ LoneDot (textRead turns) ∧
      EndsWith LoneDot maileyGlobals conn turns := by
  intro turns
  obtain ⟨conn, here, run, starts⟩ := maileyMessage_reaches
  have allRead : AllRead turns := allRead_of_bytes (by decide)
  have nulFree : 0 ∉ textRead turns := by decide +kernel
  refine ⟨conn, here, by decide +kernel, ?_⟩
  refine (endsWith_loneDot_iff _ run starts allRead nulFree (by decide)).mpr ⟨?_, ?_⟩
  · exact firstLineMarked_of_not (by decide +kernel)
  · intro before t after split _
    have memory : ∀ t ∈ turns, t.realloc ≠ none := by decide
    exact memory t (by simp [split])

/-- An empty message, a lone dot right after the 354, is not ended. -/
theorem not_endsWith_loneDot_of_empty :
    ∃ conn, maileyMessage.2 = some conn ∧ ¬ EndsWith LoneDot maileyGlobals conn
      [.sends (ascii ".\r\n") (by decide) (by decide)] := by
  obtain ⟨conn, here, -⟩ := maileyMessage_reaches
  have silent : replies ((session maileyGlobals).step maileyMessage.2
      (.sends (ascii ".\r\n") (by decide) (by decide))).2 = [] := by
    decide +kernel
  rw [here] at silent
  exact ⟨conn, here, not_endsWith_of_silent (by decide) (by decide) silent⟩

end Femail
