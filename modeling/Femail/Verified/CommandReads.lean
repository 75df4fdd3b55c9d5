import Femail.Verified.Commands
import Femail.Verified.Session

/-! # Reading a command in its buffer

`parse_client_command` compares and `move_client_mail_domain` copies without being told
where the buffer ends.  What stops them is the NUL that `smtp_handler` keeps at its end by
refusing the longest reads: `command_reads_inside` says that no run of a connection makes
them read behind it.
-/

namespace Femail

open Foundation

/-! ## The parse -/

/-- A parse by addresses makes no read outside `block`, and finds what `parsed` says with
    its pointers near the start. -/
def ParsesAs (block : List Byte) (readings : Option (Option (SMTPCommand × Option Nat)))
    (parsed : Option SMTPClientCommand) : Prop :=
  ∃ found, readings = some found ∧
    found.map (fun command => ⟨command.1, command.2.map block.drop⟩) = parsed ∧
    ∀ command ∈ found, ∀ param ∈ command.2, param ≤ 10

/-- One branch of the chain, and those behind it. -/
theorem parsesAs_branch {block : List Byte} {compared : Int} {verb : SMTPCommand}
    {param : Option Nat} {readings : Option (Option (SMTPCommand × Option Nat))}
    {parsed : Option SMTPClientCommand} (near : ∀ p ∈ param, p ≤ 10)
    (later : ParsesAs block readings parsed) :
    ParsesAs block (if compared = 0 then some (some (verb, param)) else readings)
      (if compared = 0 then some ⟨verb, param.map block.drop⟩ else parsed) := by
  split
  · refine ⟨some (verb, param), rfl, rfl, ?_⟩
    rintro command ⟨⟩
    exact near
  · exact later

/-- In an array with a NUL every comparison stays inside. -/
theorem parsesAs_parseClientCommand {block : List Byte} (nul : 0 ∈ block) :
    ParsesAs block (parseClientCommandAt (block[·]?) 0) (parseClientCommand block) := by
  have compared : ∀ t n, strncasecmpAt (block[·]?) 0 t n = some (strncasecmp block t n) :=
    strncasecmpAt_eq nul (fun i => by rw [Nat.zero_add])
  have unknown : ParsesAs block (some none) none := ⟨none, rfl, rfl, fun _ mem => by cases mem⟩
  simp only [parseClientCommandAt, parseClientCommand, compared, Option.bind_eq_bind,
    Option.bind_some, Option.pure_def, Nat.zero_add]
  -- a branch for each command, in the order of the source
  iterate 12 refine parsesAs_branch (by simp) ?_
  exact unknown

/-! ## The name -/

/-- The loop of `move_client_mail_domain` ends after at most `max + 1` rounds, and reads
    nothing behind a NUL. -/
theorem moveClientMailDomainLoopAt_eq {block : List Byte} (nul : 0 ∈ block) {memory : Memory}
    {current : Nat} (holds : ∀ i, memory (current + i) = block[i]?) {max offset fuel : Nat}
    (bound : offset ≤ max) (enough : max - offset < fuel) :
    moveClientMailDomainLoopAt memory max fuel current offset =
      some (moveClientMailDomainLoop max block offset) := by
  induction block generalizing current offset fuel with
  | nil => cases nul
  | cons word block ih =>
    obtain ⟨fuel, rfl⟩ := Nat.exists_eq_succ_of_ne_zero (Nat.ne_of_gt (Nat.zero_lt_of_lt enough))
    have first : memory current = some word := holds 0
    have rest : ∀ i, memory (current + 1 + i) = block[i]? := by
      intro i
      rw [Nat.add_assoc, Nat.add_comm 1]
      exact holds (i + 1)
    rw [moveClientMailDomainLoopAt, moveClientMailDomainLoop, first]
    dsimp only [Option.bind_eq_bind, Option.bind_some]
    by_cases ends : endsWord word
    · rw [if_pos ends, if_pos ends]
      rfl
    · rw [if_neg ends, if_neg ends]
      by_cases full : offset = max
      · rw [if_pos full, if_pos full]
        rfl
      · rw [if_neg full, if_neg full]
        -- a NUL ends the word, so there is one behind this character
        have more : 0 ∈ block := by
          refine (List.mem_cons.mp nul).resolve_left ?_
          rintro rfl
          exact ends rfl
        rw [ih more rest (by omega) (by omega)]
        rfl

/-! ## Runs -/

/-- A read that is not refused as too long leaves a NUL at the end of the buffer. -/
theorem zero_mem_drop_readBuffer {chunk : Chunk} (short : chunk.bytes.length < smallBufferSize)
    {n : Nat} (inside : n < smallBufferSize) : 0 ∈ (readBuffer chunk).drop n := by
  have last : (readBuffer chunk)[smallBufferSize - 1]? = some 0 := by
    rw [readBuffer, List.getElem?_append_right (by omega), List.getElem?_replicate_of_lt (by omega)]
  have behind : ((readBuffer chunk).drop n)[smallBufferSize - 1 - n]? = some 0 := by
    rw [List.getElem?_drop, show n + (smallBufferSize - 1 - n) = smallBufferSize - 1 by omega]
    exact last
  exact List.mem_of_getElem? behind

theorem length_readBuffer (chunk : Chunk) : (readBuffer chunk).length = smallBufferSize := by
  have fits := chunk.fits
  rw [readBuffer, List.length_append, List.length_replicate]
  omega

/-- The command in `buffer`, and the name behind it, can be read inside the buffer. -/
structure ReadInside (buffer : List Byte) : Prop where
  length : buffer.length = smallBufferSize
  parse : ParsesAs buffer (parseClientCommandAt (buffer[·]?) 0) (parseClientCommand buffer)
  name : ∀ param ≤ 10,
    moveClientMailDomainLoopAt (buffer[·]?) domainMaxSize (domainMaxSize + 1) param 0 =
      some (moveClientMailDomainLoop domainMaxSize (buffer.drop param) 0)

theorem readInside_readBuffer {chunk : Chunk} (short : chunk.bytes.length < smallBufferSize) :
    ReadInside (readBuffer chunk) where
  length := length_readBuffer chunk
  parse := parsesAs_parseClientCommand (zero_mem_drop_readBuffer short (by decide : 0 < smallBufferSize))
  name := by
    intro param near
    have nul := zero_mem_drop_readBuffer short (Nat.lt_of_le_of_lt near (by decide : 10 < smallBufferSize))
    exact moveClientMailDomainLoopAt_eq nul (fun i => by rw [List.getElem?_drop]) (Nat.zero_le _)
      (Nat.lt_succ_self _)

theorem parse?_connectionDeinit (conn : Connection) : ∀ e ∈ connectionDeinit conn, e.parse? = none := by
  unfold connectionDeinit
  simp [Event.parse?]

/-- What a call parses can be read inside its buffer. -/
def Event.ReadsInside (e : Event) : Prop :=
  ∀ buffer parsed, e = .parseClientCommand buffer parsed → ReadInside buffer

theorem Event.readsInside_of_other {e : Event} (other : e.parse? = none) : e.ReadsInside := by
  rintro buffer parsed rfl
  cases other

/-- What a turn parses is a buffer with a NUL behind its read. -/
theorem readsInside_serveConnection (g : Globals) (t : Turn) {conn : Connection}
    (smtp : conn.type = .smtp) : ∀ e ∈ (serveConnection g t conn).2, e.ReadsInside := by
  refine forall_mem_serveConnection (fun _ => Event.readsInside_of_other rfl)
    (fun _ => Event.readsInside_of_other rfl)
    (fun conn e mem => Event.readsInside_of_other (parse?_connectionDeinit conn e mem)) ?_
  rw [connectionHandler_smtp g t smtp]
  rintro e made buffer parsed rfl
  obtain ⟨chunk, -, rfl, -, -, short⟩ := Parses.read ⟨parsed, made⟩
  exact readInside_readBuffer (Nat.lt_of_lt_of_le short (Nat.sub_le _ _))

/-- **Commands are read inside their buffer.**  In every run of an SMTP connection, whatever
    its reads bring and however its calls turn out, each buffer that is parsed is one of
    `smallBufferSize` bytes in which all the comparisons of the parse, and the copy of a name
    from wherever its parameter starts, read nothing outside, end, and find what the strings
    say; no name takes more than `domainMaxSize + 1` rounds. -/
theorem command_reads_inside {g : Globals} {h : SessionHistory} {s : Option Connection}
    (reaches : (session g).Reaches (smtpStart g) Machine.anyStep h s) :
    ∀ e ∈ h, ∀ buffer parsed, .parseClientCommand buffer parsed ∈ e.output → ReadInside buffer := by
  refine entries_of_reaches (fun t => ?_) (fun conn t smtp _ => ?_) reaches
  · intro buffer parsed mem
    cases mem
  · intro buffer parsed mem
    exact readsInside_serveConnection g t smtp _ mem buffer parsed rfl

/-- The buffer that a client's EHLO is read into. -/
def ehloBuffer : List Byte := (ascii "EHLO mail.failey.femail\r\n").rightpad smallBufferSize 0

theorem command_reads_inside_mailey :
    let last := (session maileyGlobals).trace [] maileyConnection [.silent, ehloTurn]
    (∃ e ∈ last.1, .parseClientCommand ehloBuffer (some .ehlo) ∈ e.output) ∧ ReadInside ehloBuffer := by
  intro last
  have parsed : ∃ e ∈ last.1, .parseClientCommand ehloBuffer (some .ehlo) ∈ e.output := by
    decide +kernel
  obtain ⟨e, mem, parses⟩ := parsed
  exact ⟨⟨e, mem, parses⟩,
    command_reads_inside (maileyConnection_reaches [.silent, ehloTurn]) e mem _ _ parses⟩

end Femail
