import Femail.Foundation.CString
import Mathlib.Data.List.TakeWhile

/-! # Heads of messages

A head is a start line of three words and a list of fields, a line each, with an empty
line at the end.  `Head.write` writes one and `readHead` reads one off a stream; what was
written is read back, with what stood behind it left over (`readHead_write`).
-/

namespace Foundation

structure Head where
  version : List Byte
  code : List Byte
  reason : List Byte
  fields : List (List Byte × List Byte)
deriving DecidableEq

/-! ## Writing -/

def writeLine (line : List Byte) : List Byte := line ++ [13, 10]

def writeField (field : List Byte × List Byte) : List Byte :=
  writeLine (field.1 ++ 58 :: 32 :: field.2)

def Head.write (head : Head) : List Byte :=
  writeLine (head.version ++ 32 :: head.code ++ 32 :: head.reason) ++
    head.fields.flatMap writeField ++ writeLine []

/-! ## Reading -/

/-- The first line of a stream and what stands behind it. -/
def readLine : List Byte → Option (List Byte × List Byte)
  | a :: b :: rest =>
    if a = 13 ∧ b = 10 then some ([], rest)
    else (readLine (b :: rest)).map fun (line, rest) => (a :: line, rest)
  | _ => none

/-- A text up to a separator and behind it. -/
def readWord (separator : Byte) (text : List Byte) : Option (List Byte × List Byte) :=
  match text.dropWhile (· ≠ separator) with
  | _ :: rest => some (text.takeWhile (· ≠ separator), rest)
  | [] => none

/-- The name of a field and its value without the blanks in front. -/
def readField (line : List Byte) : Option (List Byte × List Byte) :=
  (readWord 58 line).map fun field => (field.1, field.2.dropWhile (· = 32))

/-- At most `n` lines: the fields up to the empty line. -/
def readFields : Nat → List Byte → Option (List (List Byte × List Byte) × List Byte)
  | 0, _ => none
  | n + 1, stream => do
    let (line, rest) ← readLine stream
    if line = [] then return ([], rest)
    let field ← readField line
    let (fields, rest) ← readFields n rest
    return (field :: fields, rest)

def readHead (stream : List Byte) : Option (Head × List Byte) := do
  let (start, rest) ← readLine stream
  let (version, text) ← readWord 32 start
  let (code, reason) ← readWord 32 text
  let (fields, rest) ← readFields stream.length rest
  return (⟨version, code, reason, fields⟩, rest)

/-! ## What is written is read back -/

/-- A text without the first symbol of a line end is read up to the line end. -/
theorem readLine_writeLine {line : List Byte} (free : 13 ∉ line) (rest : List Byte) :
    readLine (writeLine line ++ rest) = some (line, rest) := by
  induction line with
  | nil => rfl
  | cons a line ih =>
    obtain ⟨other, tail⟩ := not_or.mp (mt List.mem_cons.mpr free)
    have later := ih tail
    cases behind : writeLine line ++ rest with
    | nil => simp [writeLine] at behind
    | cons b more =>
      have stream : writeLine (a :: line) ++ rest = a :: b :: more := by rw [← behind]; rfl
      have here : ¬ (a = 13 ∧ b = 10) := fun ends => other ends.1.symm
      rw [behind] at later
      rw [stream, readLine, if_neg here, later]
      rfl

theorem readWord_append {separator : Byte} {word : List Byte} (free : separator ∉ word)
    (rest : List Byte) : readWord separator (word ++ separator :: rest) = some (word, rest) := by
  have others : ∀ b ∈ word, decide (b ≠ separator) = true := by
    intro b mem
    exact decide_eq_true fun same => free (same ▸ mem)
  have behind : (word ++ separator :: rest).dropWhile (· ≠ separator) = separator :: rest := by
    rw [List.dropWhile_append_of_pos others]
    simp
  have front : (word ++ separator :: rest).takeWhile (· ≠ separator) = word := by
    rw [List.takeWhile_append_of_pos others]
    simp
  rw [readWord, behind, front]

/-- A name without a colon, and a value that does not begin with a blank, on one line. -/
structure FieldText (field : List Byte × List Byte) : Prop where
  name : 58 ∉ field.1
  value : field.2.head? ≠ some 32
  line : 13 ∉ field.1 ∧ 13 ∉ field.2

theorem readField_line {field : List Byte × List Byte} (text : FieldText field) :
    readField (field.1 ++ 58 :: 32 :: field.2) = some field := by
  have value : (32 :: field.2).dropWhile (· = 32) = field.2 := by
    have first := text.value
    rw [List.dropWhile_cons_of_pos (by decide)]
    cases shape : field.2 with
    | nil => rfl
    | cons b rest =>
      rw [shape] at first
      exact List.dropWhile_cons_of_neg (by simpa using first)
  rw [readField, readWord_append text.name, Option.map_some, value]

theorem readFields_write {fields : List (List Byte × List Byte)}
    (text : ∀ field ∈ fields, FieldText field) {n : Nat} (enough : fields.length < n)
    (rest : List Byte) :
    readFields n (fields.flatMap writeField ++ writeLine [] ++ rest) = some (fields, rest) := by
  induction fields generalizing n with
  | nil =>
    obtain ⟨n, rfl⟩ := Nat.exists_eq_succ_of_ne_zero (Nat.ne_of_gt enough)
    rfl
  | cons field fields ih =>
    obtain ⟨here, later⟩ := List.forall_mem_cons.mp text
    obtain ⟨n, rfl⟩ := Nat.exists_eq_succ_of_ne_zero (Nat.ne_of_gt (Nat.zero_lt_of_lt enough))
    have free : 13 ∉ field.1 ++ 58 :: 32 :: field.2 := by
      simp [here.line.1, here.line.2]
    have more := ih later (Nat.lt_of_succ_lt_succ enough)
    have line := readLine_writeLine free (fields.flatMap writeField ++ writeLine [] ++ rest)
    have stream : (field :: fields).flatMap writeField ++ writeLine [] ++ rest =
        writeLine (field.1 ++ 58 :: 32 :: field.2) ++
          (fields.flatMap writeField ++ writeLine [] ++ rest) := by
      simp [writeField]
    generalize fields.flatMap writeField ++ writeLine [] ++ rest = behind at line more stream
    rw [stream, readFields, line]
    simp [readField_line here, more]

theorem length_le_flatMap_writeField (fields : List (List Byte × List Byte)) :
    fields.length ≤ (fields.flatMap writeField).length := by
  induction fields with
  | nil => exact Nat.le_refl 0
  | cons field fields ih =>
    simp only [List.flatMap_cons, List.length_append, List.length_cons, writeField, writeLine]
    omega

/-- The words of the start line are apart, and so are the fields. -/
structure Head.Text (head : Head) : Prop where
  version : 32 ∉ head.version ∧ 13 ∉ head.version
  code : 32 ∉ head.code ∧ 13 ∉ head.code
  reason : 13 ∉ head.reason
  fields : ∀ field ∈ head.fields, FieldText field

/-- **Round trip.**  A head written in front of anything is read back. -/
theorem readHead_write {head : Head} (text : head.Text) (rest : List Byte) :
    readHead (head.write ++ rest) = some (head, rest) := by
  have free : 13 ∉ head.version ++ 32 :: head.code ++ 32 :: head.reason := by
    simp [text.version.2, text.code.2, text.reason]
  have line := readLine_writeLine free (head.fields.flatMap writeField ++ writeLine [] ++ rest)
  have stream : head.write ++ rest =
      writeLine (head.version ++ 32 :: head.code ++ 32 :: head.reason) ++
        (head.fields.flatMap writeField ++ writeLine [] ++ rest) := by
    simp only [Head.write, List.append_assoc]
  have enough : head.fields.length < (head.write ++ rest).length := by
    have lines := length_le_flatMap_writeField head.fields
    simp only [Head.write, writeLine, List.length_append, List.length_cons, List.length_nil]
    omega
  have start : head.version ++ 32 :: head.code ++ 32 :: head.reason =
      head.version ++ 32 :: (head.code ++ 32 :: head.reason) := by simp
  have fields := readFields_write text.fields enough rest
  generalize head.fields.flatMap writeField ++ writeLine [] ++ rest = behind at line stream fields
  rw [← stream, start] at line
  have version := readWord_append text.version.1 (head.code ++ 32 :: head.reason)
  have code := readWord_append text.code.1 head.reason
  simp [readHead, line, version, code, fields, -List.length_append]

end Foundation
