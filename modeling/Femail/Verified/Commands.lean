import Femail.Verified.Verbs

/-! # Commands as they are sent

What `parse_client_command` makes of a read, exactly: a read is the command `verb` when it
is the text of the verb, in any case, followed by anything, and the parameter is what
follows (`parse_readBuffer_iff`).  HELP alone skips one byte more than it compares, and the
first four verbs drop what follows.
-/

namespace Femail

open Foundation

/-- The bytes between the text of a command and its parameter; none where `param` is null. -/
def SMTPCommand.skips : SMTPCommand → Option Nat
  | .noop | .quit | .rset | .data => none
  | .help => some 1
  | _ => some 0

/-- The parameter in a buffer that begins with the text of the command. -/
def SMTPCommand.paramIn (verb : SMTPCommand) (buffer : List Byte) : Option (List Byte) :=
  verb.skips.map fun n => buffer.drop (verb.text.length + n)

/-- One branch of the chain, and those behind it. -/
theorem paramIn_branch {compared : Prop} [Decidable compared] {buffer : List Byte}
    {verb : SMTPCommand} {param : Option (List Byte)} {rest : Option SMTPClientCommand}
    (here : param = verb.paramIn buffer)
    (there : ∀ command, rest = some command → command.param = command.command.paramIn buffer) :
    ∀ command, (if compared then some ⟨verb, param⟩ else rest) = some command →
      command.param = command.command.paramIn buffer := by
  intro command parsed
  split at parsed
  · cases parsed
    exact here
  · exact there command parsed

/-- The parameter is read off at a place that only the verb decides. -/
theorem param_parseClientCommand {buffer : List Byte} :
    ∀ command, parseClientCommand buffer = some command →
      command.param = command.command.paramIn buffer := by
  unfold parseClientCommand
  refine paramIn_branch rfl ?_
  refine paramIn_branch rfl ?_
  refine paramIn_branch rfl ?_
  refine paramIn_branch rfl ?_
  refine paramIn_branch rfl ?_
  refine paramIn_branch rfl ?_
  refine paramIn_branch rfl ?_
  refine paramIn_branch rfl ?_
  refine paramIn_branch rfl ?_
  refine paramIn_branch rfl ?_
  refine paramIn_branch rfl ?_
  refine paramIn_branch rfl ?_
  intro command none
  cases none

theorem parseClientCommand_iff (buffer : List Byte) (command : SMTPClientCommand) :
    parseClientCommand buffer = some command ↔
      Begins buffer command.command.text ∧ command.param = command.command.paramIn buffer := by
  constructor
  · intro parsed
    exact ⟨begins_of_parseClientCommand parsed, param_parseClientCommand _ parsed⟩
  · rintro ⟨begins, param⟩
    have found := (command_parseClientCommand_iff buffer command.command).mpr begins
    obtain ⟨other, parsed, same⟩ := Option.map_eq_some_iff.mp found
    have sameParam := param_parseClientCommand _ parsed
    rw [same, ← param] at sameParam
    rw [parsed]
    obtain ⟨verb, behind⟩ := other
    obtain ⟨verb', behind'⟩ := command
    cases same
    cases sameParam
    rfl

/-- `word` is the text of `verb`, in some mix of upper and lower case. -/
def Spells (word : List Byte) (verb : SMTPCommand) : Prop :=
  word.map toLower = verb.text.map toLower

instance (word : List Byte) (verb : SMTPCommand) : Decidable (Spells word verb) :=
  inferInstanceAs (Decidable (_ = _))

theorem Spells.length_eq {word : List Byte} {verb : SMTPCommand} (spells : Spells word verb) :
    word.length = verb.text.length := by
  have lengths := congrArg List.length spells
  rwa [List.length_map, List.length_map] at lengths

/-- The case of the letters is the sender's choice; no other text is as long. -/
theorem begins_iff_spells {buffer : List Byte} {verb : SMTPCommand} :
    Begins buffer verb.text ↔ ∃ word rest, buffer = word ++ rest ∧ Spells word verb := by
  constructor
  · intro begins
    exact ⟨_, _, (List.take_append_drop verb.text.length buffer).symm, begins⟩
  · rintro ⟨word, rest, rfl, spells⟩
    unfold Begins
    rw [← spells.length_eq, List.take_left]
    exact spells

/-- What the read leaves of the buffer is zero. -/
def padding (chunk : Chunk) : List Byte := List.replicate (smallBufferSize - chunk.bytes.length) 0

theorem readBuffer_eq {chunk : Chunk} {word rest : List Byte} (bytes : chunk.bytes = word ++ rest) :
    readBuffer chunk = word ++ (rest ++ padding chunk) := by
  rw [← List.append_assoc, ← bytes]
  rfl

/-- The zeros behind what was read are no part of the text of a command. -/
theorem begins_readBuffer {chunk : Chunk} {verb : SMTPCommand} :
    Begins (readBuffer chunk) verb.text ↔ Begins chunk.bytes verb.text := by
  constructor
  · intro begins
    unfold Begins readBuffer at begins
    unfold Begins
    by_cases long : verb.text.length ≤ chunk.bytes.length
    · rwa [List.take_append_of_le_length long] at begins
    · -- a shorter read would have a zero where the text has none
      rw [List.take_append, List.map_append] at begins
      have short := Nat.lt_of_not_le long
      have size : verb.text.length ≤ smallBufferSize := by cases verb <;> decide
      have zero : (0 : Byte) ∈ verb.text.map toLower := by
        rw [← begins, List.take_replicate]
        refine List.mem_append_right _ (List.mem_map.mpr ⟨0, ?_, rfl⟩)
        exact List.mem_replicate.mpr ⟨by omega, rfl⟩
      obtain ⟨b, mem, folded⟩ := List.mem_map.mp zero
      rw [toLower_eq_zero folded] at mem
      exact absurd mem (zero_notMem_text verb)
  · intro begins
    obtain ⟨word, rest, bytes, spells⟩ := begins_iff_spells.mp begins
    exact begins_iff_spells.mpr ⟨word, rest ++ padding chunk, readBuffer_eq bytes, spells⟩

/-- **What is parsed as what.**  A read is a command exactly if it is the text of the verb
    in any case and something behind it; the parameter is what follows, up to the end of
    the buffer, and for HELP one byte less. -/
theorem parse_readBuffer_iff (chunk : Chunk) (command : SMTPClientCommand) :
    parseClientCommand (readBuffer chunk) = some command ↔
      ∃ word rest, chunk.bytes = word ++ rest ∧ Spells word command.command ∧
        command.param = command.command.skips.map (rest ++ padding chunk).drop := by
  have behind : ∀ {word rest : List Byte}, chunk.bytes = word ++ rest → Spells word command.command →
      command.command.paramIn (readBuffer chunk) =
        command.command.skips.map (rest ++ padding chunk).drop := by
    intro word rest bytes spells
    rw [SMTPCommand.paramIn, readBuffer_eq bytes, ← spells.length_eq]
    congr 1
    funext n
    rw [← List.drop_drop, List.drop_left]
  rw [parseClientCommand_iff, begins_readBuffer]
  constructor
  · rintro ⟨begins, param⟩
    obtain ⟨word, rest, bytes, spells⟩ := begins_iff_spells.mp begins
    exact ⟨word, rest, bytes, spells, param.trans (behind bytes spells)⟩
  · rintro ⟨word, rest, bytes, spells, param⟩
    exact ⟨begins_iff_spells.mpr ⟨word, rest, bytes, spells⟩, param.trans (behind bytes spells).symm⟩

end Femail
