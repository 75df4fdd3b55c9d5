import Mathlib.Data.List.Nodup
import Femail.Verified.Dialogue
import Femail.Verified.Replies

/-! # The verbs that are recognised

`parse_client_command` is a table of texts, tried in order: the buffer is a command
when it begins with the text of one (`command_parseClientCommand_iff`), and no two
texts begin alike.  Six of the texts go on behind the verb and six end with it, so
that a longer word is taken for the verb it begins with.
-/

namespace Femail

open Foundation

/-! ## The table -/

def SMTPCommand.verb : SMTPCommand → List Byte
  | .noop => ascii "NOOP"
  | .quit => ascii "QUIT"
  | .rset => ascii "RSET"
  | .data => ascii "DATA"
  | .help => ascii "HELP"
  | .helo => ascii "HELO"
  | .ehlo => ascii "EHLO"
  | .mail => ascii "MAIL"
  | .rcpt => ascii "RCPT"
  | .vrfy => ascii "VRFY"
  | .expn => ascii "EXPN"
  | .starttls => ascii "STARTTLS"

/-- What `parse_client_command` asks for behind the verb. -/
def SMTPCommand.behind : SMTPCommand → List Byte
  | .helo | .ehlo | .vrfy | .expn => ascii " "
  | .mail => ascii " FROM:"
  | .rcpt => ascii " TO:"
  | _ => []

/-- The text a buffer is compared with. -/
def SMTPCommand.text (verb : SMTPCommand) : List Byte := verb.verb ++ verb.behind

/-- The commands in the order of the comparisons. -/
def verbs : List SMTPCommand :=
  [.noop, .quit, .rset, .data, .help, .helo, .ehlo, .mail, .rcpt, .vrfy, .expn, .starttls]

/-- The verbs behind which nothing is asked for. -/
def bareVerbs : List SMTPCommand := [.noop, .quit, .rset, .data, .help, .starttls]

theorem mem_verbs (verb : SMTPCommand) : verb ∈ verbs := by cases verb <;> decide

theorem zero_notMem_text (verb : SMTPCommand) : 0 ∉ verb.text := by cases verb <;> decide

theorem letters_verb (verb : SMTPCommand) : ∀ b ∈ verb.verb, endsWord b = false := by
  cases verb <;> decide +kernel

/-- The commands that are not bare have a space behind the verb. -/
theorem behind_cases (verb : SMTPCommand) :
    (verb ∈ bareVerbs ∧ verb.behind = []) ∨
      (verb ∉ bareVerbs ∧ verb.behind = 32 :: verb.behind.tail) := by
  cases verb <;> decide

/-- One comparison of the chain. -/
theorem find?_verbs_cons {compared : Prop} [Decidable compared] {recognised : SMTPCommand → Bool}
    {verb : SMTPCommand} {param : Option (List Byte)} {rest : Option SMTPClientCommand}
    {more : List SMTPCommand} (here : compared ↔ recognised verb = true)
    (there : rest.map SMTPClientCommand.command = more.find? recognised) :
    (if compared then some ⟨verb, param⟩ else rest).map SMTPClientCommand.command =
      (verb :: more).find? recognised := by
  rw [List.find?_cons]
  by_cases same : compared
  · rw [if_pos same, here.mp same]
    rfl
  · rw [if_neg same, there, Bool.eq_false_iff.mpr fun hit => same (here.mpr hit)]

/-- `parse_client_command` looks the buffer up in the table. -/
theorem command_parseClientCommand (buffer : List Byte) :
    (parseClientCommand buffer).map SMTPClientCommand.command =
      verbs.find? fun verb => decide (Begins buffer verb.text) := by
  have compared : ∀ verb : SMTPCommand, strncasecmp buffer verb.text verb.text.length = 0 ↔
      decide (Begins buffer verb.text) = true := by
    intro verb
    rw [decide_eq_true_iff]
    exact strncasecmp_literal (zero_notMem_text verb) buffer
  unfold parseClientCommand
  refine find?_verbs_cons (compared .noop) ?_
  refine find?_verbs_cons (compared .quit) ?_
  refine find?_verbs_cons (compared .rset) ?_
  refine find?_verbs_cons (compared .data) ?_
  refine find?_verbs_cons (compared .help) ?_
  refine find?_verbs_cons (compared .helo) ?_
  refine find?_verbs_cons (compared .ehlo) ?_
  refine find?_verbs_cons (compared .mail) ?_
  refine find?_verbs_cons (compared .rcpt) ?_
  refine find?_verbs_cons (compared .vrfy) ?_
  refine find?_verbs_cons (compared .expn) ?_
  exact find?_verbs_cons (compared .starttls) rfl

/-- The first four letters tell the commands apart. -/
theorem begins_text_unique {buffer : List Byte} {verb verb' : SMTPCommand}
    (here : Begins buffer verb.text) (there : Begins buffer verb'.text) : verb = verb' := by
  have four : ∀ {verb : SMTPCommand}, Begins buffer verb.text →
      (buffer.take 4).map toLower = (verb.text.take 4).map toLower := by
    intro verb begins
    have split : verb.text.take 4 ++ verb.text.drop 4 = verb.text := List.take_append_drop _ _
    have length : (verb.text.take 4).length = 4 := by cases verb <;> decide
    have front := (split.symm ▸ begins : Begins buffer _).left
    rw [Begins, length] at front
    exact front
  have distinct : (verbs.map fun verb => (verb.text.take 4).map toLower).Nodup := by decide
  exact List.inj_on_of_nodup_map distinct (mem_verbs verb) (mem_verbs verb')
    ((four here).symm.trans (four there))

/-- A buffer is a command exactly when it begins with the text of it. -/
theorem command_parseClientCommand_iff (buffer : List Byte) (verb : SMTPCommand) :
    (parseClientCommand buffer).map SMTPClientCommand.command = some verb ↔
      Begins buffer verb.text := by
  rw [command_parseClientCommand]
  constructor
  · intro found
    have hit := List.find?_some found
    exact of_decide_eq_true hit
  · intro begins
    cases found : verbs.find? fun verb => decide (Begins buffer verb.text) with
    | none =>
      have missing := List.find?_eq_none.mp found verb (mem_verbs verb)
      exact absurd (decide_eq_true begins) missing
    | some verb' =>
      have hit := List.find?_some found
      rw [begins_text_unique (of_decide_eq_true hit) begins]

theorem begins_of_parseClientCommand {buffer : List Byte} {command : SMTPClientCommand}
    (parsed : parseClientCommand buffer = some command) : Begins buffer command.command.text := by
  apply (command_parseClientCommand_iff buffer command.command).mp
  rw [parsed, Option.map_some]

/-! ## First words -/

theorem endsWord_toLower (b : Byte) : endsWord (toLower b) = endsWord b := by
  unfold toLower
  split
  · rename_i upper
    -- neither a capital nor its small letter ends a word
    obtain ⟨low, high⟩ := upper
    have inside : 65 ≤ b.toNat ∧ b.toNat ≤ 90 := ⟨low, high⟩
    have sum : (b + 32).toNat = (b.toNat + 32) % 256 := UInt8.toNat_add b 32
    have notEnd : ∀ c : Byte, 65 ≤ c.toNat → endsWord c = false := by
      intro c large
      simp only [endsWord, Bool.or_eq_false_iff, beq_eq_false_iff_ne]
      refine ⟨⟨⟨⟨?_, ?_⟩, ?_⟩, ?_⟩, ?_⟩ <;> rintro rfl <;> exact absurd large (by decide)
    rw [notEnd b inside.1, notEnd (b + 32) (by omega)]
  · rfl

/-- The word that `buffer` begins with ends at `n`. -/
def EndsAt (buffer : List Byte) (n : Nat) : Prop := ∀ b ∈ buffer[n]?, endsWord b = true

theorem firstWord_drop_eq_nil_iff (buffer : List Byte) (n : Nat) :
    firstWord (buffer.drop n) = [] ↔ EndsAt buffer n := by
  have head : buffer[n]? = (buffer.drop n).head? := by rw [List.head?_drop]
  rw [EndsAt, head]
  cases buffer.drop n with
  | nil => simp [firstWord_nil]
  | cons b rest =>
    cases ends : endsWord b with
    | true => simp [firstWord_cons_end ends, ends]
    | false => simp [firstWord_cons_char ends, ends]

/-- A buffer that begins with a verb has it for its first word exactly when a character
    that ends a word follows. -/
theorem firstWord_eq_verb_iff {buffer : List Byte} {verb : SMTPCommand}
    (begins : Begins buffer verb.verb) :
    (firstWord buffer).map toLower = verb.verb.map toLower ↔ EndsAt buffer verb.verb.length := by
  have whole : firstWord buffer =
      buffer.take verb.verb.length ++ firstWord (buffer.drop verb.verb.length) := by
    apply begins.takeWhile
    · intro b
      rw [endsWord_toLower]
    · intro b mem
      rw [letters_verb verb b mem]
      rfl
  rw [whole, List.map_append, show _ = _ from begins, List.append_right_eq_self, List.map_eq_nil_iff,
    firstWord_drop_eq_nil_iff]

/-- What is asked for behind a verb that is not bare ends the word. -/
theorem endsAt_of_begins {buffer : List Byte} {verb : SMTPCommand} (bare : verb ∉ bareVerbs)
    (begins : Begins buffer verb.text) : EndsAt buffer verb.verb.length := by
  obtain ⟨is, -⟩ | ⟨-, space⟩ := behind_cases verb
  · exact absurd is bare
  · rw [SMTPCommand.text, space] at begins
    obtain ⟨b, here, same⟩ := begins.getElem?
    intro c mem
    rw [here, Option.mem_some_iff] at mem
    subst mem
    rw [← endsWord_toLower, same]
    rfl

/-! ## Whole verbs -/

/-- A call of `smtp_handler` parses `buffer`. -/
def Parses (g : Globals) (t : Turn) (conn : Connection) (buffer : List Byte) : Prop :=
  ∃ parsed, .parseClientCommand buffer parsed ∈ (smtpHandler g t conn).events

/-- The call refuses a command as unrecognized, and does nothing else. -/
structure Unrecognized (conn : Connection) (handled : Handled) : Prop where
  result : handled.result = .continue
  conn : handled.conn = conn
  replies : replies handled.events = [.rejectUnrecognized]

/-- Of the buffer only a whole verb is recognised. -/
structure RecognisesWholeVerbs (buffer : List Byte) : Prop where
  verb : ∀ command, parseClientCommand buffer = some command →
    (firstWord buffer).map toLower = command.command.verb.map toLower
  unrecognized : (∀ verb : SMTPCommand, (firstWord buffer).map toLower ≠ verb.verb.map toLower) →
    ∀ g t conn, Parses g t conn buffer → Unrecognized conn (smtpHandler g t conn)

theorem parseClientCommand_notMem {events : List Event} {buffer : List Byte}
    {parsed : Option SMTPCommand} (quiet : (observe events).parsed = []) :
    .parseClientCommand buffer parsed ∉ events := by
  intro mem
  have shown : parsed ∈ (observe events).parsed := List.mem_filterMap.mpr ⟨_, mem, rfl⟩
  rw [quiet] at shown
  cases shown

/-- A buffer that is parsed is that of a read in a command state. -/
theorem Parses.read {g : Globals} {t : Turn} {conn : Connection} {buffer : List Byte}
    (parses : Parses g t conn buffer) :
    ∃ chunk, t.recv = .data chunk ∧ readBuffer chunk = buffer ∧ conn.Reading ∧
      conn.state ≠ .mailExpectData ∧ chunk.bytes.length < smallBufferSize - 1 := by
  obtain ⟨parsed, mem⟩ := parses
  have received : .parseClientCommand buffer parsed ≠ smtpReceiveMsg t conn := by
    intro same
    have none := congrArg Event.parse? same
    rw [parse?_smtpReceiveMsg] at none
    cases none
  have step := smtpHandler_step g t conn
  generalize smtpHandler g t conn = handled at step mem
  cases step with
  | unrecognized chunk reading got other short =>
    have here := List.mem_of_ne_of_mem received mem
    obtain same | rest := List.mem_cons.mp here
    · cases same
      exact ⟨chunk, got, rfl, reading, other, short⟩
    · exact absurd rest (parseClientCommand_notMem (by simp))
  | command chunk command reading got other short =>
    have here := List.mem_of_ne_of_mem received mem
    obtain same | rest := List.mem_cons.mp here
    · cases same
      exact ⟨chunk, got, rfl, reading, other, short⟩
    · obtain ⟨sent, shown, -⟩ := commandStep_move (smtpHandleCommand_step g t conn command)
      exact absurd rest (parseClientCommand_notMem (congrArg Observed.parsed shown))
  | _ => exact absurd mem (parseClientCommand_notMem (by simp))

/-- **Whole verbs.**  Only whole verbs of a buffer are recognised exactly when no longer
    word of it begins with a verb behind which `parse_client_command` asks for nothing. -/
theorem recognisesWholeVerbs_iff (buffer : List Byte) :
    RecognisesWholeVerbs buffer ↔
      ∀ verb ∈ bareVerbs, Begins buffer verb.verb → EndsAt buffer verb.verb.length := by
  constructor
  · intro recognises verb bare begins
    obtain ⟨-, nothing⟩ | ⟨longer, -⟩ := behind_cases verb
    · -- the verb is all the text there is, so the buffer is the command
      have text : Begins buffer verb.text := by
        rw [SMTPCommand.text, nothing, List.append_nil]
        exact begins
      obtain ⟨command, parsed, same⟩ := Option.map_eq_some_iff.mp
        ((command_parseClientCommand_iff buffer verb).mpr text)
      have word := recognises.verb command parsed
      rw [same] at word
      exact (firstWord_eq_verb_iff begins).mp word
    · exact absurd bare longer
  · intro ends
    have whole : ∀ command, parseClientCommand buffer = some command →
        (firstWord buffer).map toLower = command.command.verb.map toLower := by
      intro command parsed
      have begins := begins_of_parseClientCommand parsed
      apply (firstWord_eq_verb_iff begins.left).mpr
      by_cases bare : command.command ∈ bareVerbs
      · exact ends _ bare begins.left
      · exact endsAt_of_begins bare begins
    refine ⟨whole, ?_⟩
    intro other g t conn parses
    obtain ⟨chunk, got, rfl, reading, state, short⟩ := parses.read
    have handled := smtpHandler_of_command g reading state got short
    cases parsed : parseClientCommand (readBuffer chunk) with
    | some command => exact absurd (whole command parsed) (other command.command)
    | none =>
      rw [parsed] at handled
      rw [handled]
      refine ⟨rfl, rfl, ?_⟩
      rw [replies_cons, reply?_smtpReceiveMsg, replies_cons, replies_smtpSendMsg]
      rfl

/-- A word that begins with DATA. -/
def dataxChunk : Chunk := ⟨ascii "DATAX\r\n", by decide, by decide⟩

/-- The word is none of the verbs, and it starts a message. -/
theorem datax_starts_data :
    ∃ h conn, (session maileyGlobals).Reaches (smtpStart maileyGlobals) Machine.anyStep h (some conn) ∧
      ¬ RecognisesWholeVerbs (readBuffer dataxChunk) ∧
      (∀ verb : SMTPCommand, (firstWord (readBuffer dataxChunk)).map toLower ≠ verb.verb.map toLower) ∧
      let handled := smtpHandler maileyGlobals { Turn.silent with recv := .data dataxChunk } conn
      handled.conn.state = .mailExpectData ∧ replies handled.events = [.startData] := by
  have run := maileyConnection_reaches [.silent]
  refine ⟨_, _, run, ?_, ?_, by decide +kernel⟩
  · intro recognises
    have word := recognises.verb ⟨.data, none⟩ (by decide +kernel)
    exact absurd word (by decide +kernel)
  · intro verb
    cases verb <;> decide +kernel

end Femail
