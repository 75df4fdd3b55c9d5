import Femail.Verified.Commands
import Femail.Verified.DataPhase
import Femail.Verified.Sequence

/-! # A whole conversation

What a well-behaved client gets.  It sends its greeting, any number of letters and QUIT,
waits for each answer before it goes on, and its bytes arrive in any reads that keep one
command to a read, with any number of turns between them in which nothing has arrived.
The run goes through the phases of the dialogue (`InPhase`), and each piece is answered as
it should be in the turn that reads it (`Exchange`): `conversation_answered`.
-/

namespace Femail

open Foundation

/-! ## Runs and their answers -/

/-- Nothing has arrived: the read would block. -/
def Turn.Waits (t : Turn) : Prop := ∃ errno, t.recv = .fail errno ∧ errno.getD t.errno = ewouldblock

/-- The turns read the pieces of the script in order, each in one read, and send in each of
    these the replies beside the piece.  In the turns between them nothing has arrived and
    nothing is sent. -/
inductive Exchange : List (List Byte × List Reply) → List Turn → List (List Reply) → Prop where
  | nil : Exchange [] [] []
  | waits (t : Turn) {script : List (List Byte × List Reply)} {turns : List Turn}
      {sent : List (List Reply)} : t.Waits → Exchange script turns sent →
      Exchange script (t :: turns) ([] :: sent)
  | reads (t : Turn) (chunk : Chunk) (answer : List Reply) {script : List (List Byte × List Reply)}
      {turns : List Turn} {sent : List (List Reply)} : t.recv = .data chunk →
      Exchange script turns sent →
      Exchange ((chunk.bytes, answer) :: script) (t :: turns) (answer :: sent)

section

variable {script script' : List (List Byte × List Reply)} {turns turns' : List Turn}
  {sent sent' : List (List Reply)}

theorem Exchange.append (first : Exchange script turns sent) (second : Exchange script' turns' sent') :
    Exchange (script ++ script') (turns ++ turns') (sent ++ sent') := by
  induction first with
  | nil => exact second
  | waits t waits _ ih => exact .waits t waits ih
  | reads t chunk answer got _ ih => exact .reads t chunk answer got ih

/-- Over all its turns an exchange sends the replies of its script. -/
theorem Exchange.flatten (exchange : Exchange script turns sent) :
    sent.flatten = script.flatMap Prod.snd := by
  induction exchange with
  | nil => rfl
  | waits _ _ _ ih => exact ih
  | reads _ _ _ _ _ ih => rw [List.flatten_cons, List.flatMap_cons, ih]

end

/-- A run is an exchange, and leaves the connection `last`. -/
structure Answers (g : Globals) (s : Option Connection) (turns : List Turn)
    (script : List (List Byte × List Reply)) (last : Option Connection) : Prop where
  sent : Exchange script turns (((session g).run s turns).1.map replies)
  last : ((session g).run s turns).2 = last

section

variable {g : Globals} {s s' s'' : Option Connection} {turns turns' : List Turn}
  {script script' : List (List Byte × List Reply)}

theorem answers_nil (g : Globals) (s : Option Connection) : Answers g s [] [] s := ⟨.nil, rfl⟩

theorem Answers.append (first : Answers g s turns script s')
    (second : Answers g s' turns' script' s'') :
    Answers g s (turns ++ turns') (script ++ script') s'' := by
  obtain ⟨sent, rfl⟩ := first
  obtain ⟨sent', rfl⟩ := second
  refine ⟨?_, ?_⟩
  · rw [Machine.run_append, List.map_append]
    exact sent.append sent'
  · rw [Machine.run_append]

theorem answers_turn {t : Turn} {chunk : Chunk} {conn : Connection} {answer : List Reply}
    (got : t.recv = .data chunk) (here : replies (serveConnection g t conn).2 = answer)
    (next : (serveConnection g t conn).1 = s') :
    Answers g (some conn) [t] [(chunk.bytes, answer)] s' := by
  refine ⟨?_, next⟩
  rw [← here]
  exact .reads t chunk _ got .nil

end

/-! ## Phases -/

/-- An SMTP connection in the state `s`, with its buffer in order. -/
structure InPhase (conn : Connection) (s : ConnectionState) : Prop where
  smtp : conn.type = .smtp
  live : conn.live = true
  state : conn.state = s
  buffer : ∃ h, BufferInv h conn

theorem InPhase.next {g : Globals} {t : Turn} {conn conn' : Connection} {s : ConnectionState}
    (phase : InPhase conn s) (kept : (serveConnection g t conn).1 = some conn') :
    InPhase conn' conn'.state := by
  obtain ⟨smtp, live, -, h, buffer⟩ := phase
  obtain ⟨live', type, -⟩ := serveConnection_keeps live kept
  refine ⟨type.trans smtp, live', rfl, observe (serveConnection g t conn).2 :: h, ?_⟩
  by_cases data : conn.state = .mailExpectData
  · exact buffer.step_inside smtp live data kept
  · exact buffer.step_outside smtp live data kept

/-- The turn that opens a connection greets the client, whatever it sends. -/
theorem InPhase.opened {conn : Connection} (phase : InPhase conn .mailOpened) (g : Globals) (t : Turn) :
    ∃ conn', replies (serveConnection g t conn).2 = [.acceptConnection] ∧
      (serveConnection g t conn).1 = some conn' ∧ InPhase conn' .mailExpectAny := by
  have handler : smtpHandler g t conn = ⟨.continue, { conn with state := .mailExpectAny },
      smtpSendMsg g t conn .acceptConnection⟩ := by
    simp [smtpHandler, phase.live, phase.state]
  have kept : (serveConnection g t conn).1 =
      some { conn with state := .mailExpectAny, timerefreshed := t.now } := by
    rw [serveConnection, connectionHandler_smtp g t phase.smtp, handler]
    rfl
  have sent := congrArg Observed.replies (observe_serveConnection g t conn)
  rw [connectionHandler_smtp g t phase.smtp, handler, observe_smtpSendMsg] at sent
  exact ⟨_, sent, kept, phase.next kept⟩

/-- In these states a turn begins with a read. -/
theorem InPhase.reading {conn : Connection} {s : ConnectionState} (phase : InPhase conn s)
    (opened : s ≠ .mailOpened) (negotiating : s ≠ .mailExpectTlsNeg) : conn.Reading :=
  ⟨phase.live, by rwa [phase.state], by rwa [phase.state]⟩

/-! ## Commands -/

/-- What a client sends for the command `verb`: its text in any case and anything behind it,
    as long as a read may be. -/
structure IsCommand (verb : SMTPCommand) (line : List Byte) : Prop where
  begins : Begins line verb.text
  short : line.length < smallBufferSize - 1

instance (verb : SMTPCommand) (line : List Byte) : Decidable (IsCommand verb line) :=
  decidable_of_iff (Begins line verb.text ∧ line.length < smallBufferSize - 1)
    ⟨fun ⟨begins, short⟩ => ⟨begins, short⟩, fun ⟨begins, short⟩ => ⟨begins, short⟩⟩

theorem IsCommand.parsed {verb : SMTPCommand} {chunk : Chunk} (line : IsCommand verb chunk.bytes) :
    parseClientCommand (readBuffer chunk) = some ⟨verb, verb.paramIn (readBuffer chunk)⟩ :=
  (parseClientCommand_iff _ _).mpr ⟨begins_readBuffer.mpr line.begins, rfl⟩

/-- The states in which a command is read, as the dialogue goes. -/
theorem InPhase.move {conn : Connection} {s : ConnectionState} (phase : InPhase conn s)
    (opened : s ≠ .mailOpened) (negotiating : s ≠ .mailExpectTlsNeg) (data : s ≠ .mailExpectData)
    (g : Globals) {t : Turn} {chunk : Chunk} (got : t.recv = .data chunk) {verb : SMTPCommand}
    (line : IsCommand verb chunk.bytes) :
    CommandMove s verb (replies (serveConnection g t conn).2)
      ((serveConnection g t conn).1.map Connection.state) := by
  have reading := phase.reading opened negotiating
  have other : conn.state ≠ .mailExpectData := by rwa [phase.state]
  have brings := commandFor_eq reading got other line.short line.parsed
  have parsed := parses_of_commandFor g phase.smtp brings
  have step := serveConnection_dialogue g t phase.smtp phase.live
  generalize (serveConnection g t conn).1.map Connection.state = next at step ⊢
  have shown : observe (serveConnection g t conn).2 = ⟨received (serveConnection g t conn).2,
      [some verb], replies (serveConnection g t conn).2, handshakes (serveConnection g t conn).2⟩ := by
    rw [← parsed]
    rfl
  rw [shown, phase.state] at step
  generalize replies (serveConnection g t conn).2 = sent at step ⊢
  generalize handshakes (serveConnection g t conn).2 = hands at step
  generalize received (serveConnection g t conn).2 = bytes at step
  cases step with
  | command _ _ _ _ _ _ _ move => exact move

section

variable {s : ConnectionState} {sent : List Reply} {next : Option ConnectionState}

theorem CommandMove.of_mail (move : CommandMove s .mail sent next) (known : s ≠ .mailExpectAny) :
    sent = [.acceptOk] ∧ next = some .mailMailing := by
  cases move with
  | mail => exact ⟨rfl, rfl⟩
  | mailSequence any => exact absurd any known
  | unimplemented _ kind | helloTooLong _ kind => simp at kind
  | hello _ _ kind => simp at kind

theorem CommandMove.of_rcpt (move : CommandMove s .rcpt sent next)
    (inside : s = .mailMailing ∨ s = .mailRcpt) : sent = [.acceptOk] ∧ next = some .mailRcpt := by
  cases move with
  | rcpt => exact ⟨rfl, rfl⟩
  | rcptSequence mailing rcpt => exact absurd inside (by simp [mailing, rcpt])
  | unimplemented _ kind | helloTooLong _ kind => simp at kind
  | hello _ _ kind => simp at kind

theorem CommandMove.of_data (move : CommandMove s .data sent next) :
    sent = [.startData] ∧ next = some .mailExpectData := by
  cases move with
  | data => exact ⟨rfl, rfl⟩
  | unimplemented _ kind | helloTooLong _ kind => simp at kind
  | hello _ _ kind => simp at kind

theorem CommandMove.of_quit (move : CommandMove s .quit sent next) :
    sent = [.acceptGoodbye] ∧ next = none := by
  cases move with
  | quit => exact ⟨rfl, rfl⟩
  | unimplemented _ kind | helloTooLong _ kind => simp at kind
  | hello _ _ kind => simp at kind

end

/-- A turn that moves the dialogue on. -/
theorem InPhase.moved {conn : Connection} {s next : ConnectionState} (phase : InPhase conn s)
    {g : Globals} {t : Turn} {chunk : Chunk} (got : t.recv = .data chunk) {sent : List Reply}
    (outcome : replies (serveConnection g t conn).2 = sent ∧
      (serveConnection g t conn).1.map Connection.state = some next) :
    ∃ conn', Answers g (some conn) [t] [(chunk.bytes, sent)] (some conn') ∧ InPhase conn' next := by
  obtain ⟨conn', kept, state⟩ := Option.map_eq_some_iff.mp outcome.2
  have there := phase.next kept
  rw [state] at there
  exact ⟨conn', answers_turn got outcome.1 kept, there⟩

/-- The name a greeting carries. -/
def greetingName (line : List Byte) : List Byte := firstWord (line.drop 5)

/-- A greeting whose name fits the array. -/
structure IsGreeting (verb : SMTPCommand) (accept : Reply) (line : List Byte) : Prop where
  kind : verb = .helo ∧ accept = .acceptHello ∨ verb = .ehlo ∧ accept = .acceptEhello
  command : IsCommand verb line
  fits : (greetingName line).length ≤ domainMaxSize

theorem firstWord_append_zeros (word : List Byte) (n : Nat) :
    firstWord (word ++ List.replicate n 0) = firstWord word := by
  induction word with
  | nil =>
    cases n with
    | zero => rfl
    | succ n => exact firstWord_cons_end rfl _
  | cons b word ih =>
    cases ends : endsWord b with
    | true => rw [List.cons_append, firstWord_cons_end ends, firstWord_cons_end ends]
    | false => rw [List.cons_append, firstWord_cons_char ends, firstWord_cons_char ends, ih]

/-- A name that fits is accepted. -/
theorem replies_smtpHandleHello (g : Globals) (t : Turn) (conn : Connection) {param : List Byte}
    (accept : Reply) (fits : (firstWord param).length ≤ domainMaxSize) :
    replies (smtpHandleHello g t conn param accept).events = [accept] := by
  have stored := moveClientMailDomainLoop_result param (Nat.zero_le domainMaxSize)
  rw [Nat.zero_add] at stored
  have result : (moveClientMailDomain param conn domainMaxSize).1 = 0 := stored.mpr fits
  unfold smtpHandleHello
  dsimp only
  rw [if_neg (not_not_intro result)]
  exact congrArg Observed.replies (observe_smtpSendMsg g t _ accept)

/-- The greeting is answered by its own reply, whatever the state. -/
theorem InPhase.greeting {conn : Connection} {s : ConnectionState} (phase : InPhase conn s)
    (opened : s ≠ .mailOpened) (negotiating : s ≠ .mailExpectTlsNeg) (data : s ≠ .mailExpectData)
    (g : Globals) {t : Turn} {chunk : Chunk} (got : t.recv = .data chunk) {verb : SMTPCommand}
    {accept : Reply} (greeting : IsGreeting verb accept chunk.bytes) :
    ∃ conn', Answers g (some conn) [t] [(chunk.bytes, [accept])] (some conn') ∧
      InPhase conn' .mailGreeted := by
  obtain ⟨kind, line, fits⟩ := greeting
  have move := phase.move opened negotiating data g got line
  have skips : verb.paramIn (readBuffer chunk) = some ((readBuffer chunk).drop 5) := by
    rcases kind with ⟨rfl, -⟩ | ⟨rfl, -⟩ <;> rfl
  have name : (firstWord ((readBuffer chunk).drop 5)).length ≤ domainMaxSize := by
    have long : 5 ≤ chunk.bytes.length := by
      have five : verb.text.length = 5 := by rcases kind with ⟨rfl, -⟩ | ⟨rfl, -⟩ <;> rfl
      rw [← five]
      exact line.begins.length_le
    rw [readBuffer, List.drop_append_of_le_length long, firstWord_append_zeros]
    exact fits
  have reading := phase.reading opened negotiating
  have handler := smtpHandler_of_command g reading (by rwa [phase.state]) got line.short
  have replied := congrArg Observed.replies (observe_serveConnection g t conn)
  rw [line.parsed, skips] at handler
  rw [connectionHandler_smtp g t phase.smtp, handler, observe_smtpReceiveMsg,
    observe_parseClientCommand] at replied
  have sent : replies (serveConnection g t conn).2 = [accept] := by
    refine Eq.trans replied ?_
    rcases kind with ⟨rfl, rfl⟩ | ⟨rfl, rfl⟩ <;> exact replies_smtpHandleHello g t conn _ name
  refine phase.moved got ⟨sent, ?_⟩
  -- of the two answers to a greeting the one sent tells where it leads
  rw [sent] at move
  generalize (serveConnection g t conn).1.map Connection.state = next at move ⊢
  rcases kind with ⟨rfl, rfl⟩ | ⟨rfl, rfl⟩ <;>
    · cases move with
      | hello => rfl

/-! ## Reads -/

/-- The turns deliver the pieces in order, each in one read, with any number of turns
    between them in which nothing has arrived; there is memory for message text. -/
inductive Delivers : List (List Byte) → List Turn → Prop where
  | nil : Delivers [] []
  | waits (t : Turn) {pieces : List (List Byte)} {turns : List Turn} : t.Waits →
      Delivers pieces turns → Delivers pieces (t :: turns)
  | reads (t : Turn) (chunk : Chunk) {pieces : List (List Byte)} {turns : List Turn} :
      t.recv = .data chunk → t.realloc ≠ none → Delivers pieces turns →
      Delivers (chunk.bytes :: pieces) (t :: turns)

/-- A turn that reads something delivers it. -/
theorem Delivers.turn (t : Turn) {pieces : List (List Byte)} {turns : List Turn}
    (brings : t.recv.bytes ≠ []) (memory : t.realloc ≠ none) (later : Delivers pieces turns) :
    Delivers (t.recv.bytes :: pieces) (t :: turns) := by
  cases got : t.recv with
  | data chunk => exact .reads t chunk got memory later
  | fail | eof =>
    rw [got] at brings
    exact absurd rfl brings

/-- A turn in which nothing has arrived changes nothing. -/
theorem serveConnection_waits (g : Globals) {t : Turn} {conn : Connection} (smtp : conn.type = .smtp)
    (reading : conn.Reading) (waits : t.Waits) :
    (serveConnection g t conn).1 = some { conn with timerefreshed := t.now } ∧
      replies (serveConnection g t conn).2 = [] := by
  obtain ⟨live, opened, negotiating⟩ := reading
  obtain ⟨errno, failed, would⟩ := waits
  have handler : smtpHandler g t conn = ⟨.continue, conn, [smtpReceiveMsg t conn]⟩ := by
    simp [smtpHandler, live, opened, negotiating, smtpHandleRead, failed, would]
  have replied := congrArg Observed.replies (observe_serveConnection g t conn)
  rw [connectionHandler_smtp g t smtp, handler, observe_smtpReceiveMsg] at replied
  refine ⟨?_, replied⟩
  rw [serveConnection, connectionHandler_smtp g t smtp, handler]
  rfl

/-- On a connection that is over such turns are all that is left. -/
theorem answers_none (g : Globals) {turns : List Turn} (idle : Delivers [] turns) :
    Answers g none turns [] none := by
  generalize all : ([] : List (List Byte)) = sent at idle
  induction idle with
  | nil => exact answers_nil g none
  | reads => cases all
  | waits t waits _ ih =>
    obtain ⟨sent, last⟩ := ih all
    exact ⟨.waits t waits sent, last⟩

/-- Up to the next read a connection is the same but for the time. -/
theorem Delivers.next (g : Globals) {piece : List Byte} {pieces : List (List Byte)}
    {turns : List Turn} (delivers : Delivers (piece :: pieces) turns) {conn : Connection}
    (smtp : conn.type = .smtp) (reading : conn.Reading) :
    ∃ idle t chunk rest time, turns = idle ++ t :: rest ∧ chunk.bytes = piece ∧
      t.recv = .data chunk ∧ t.realloc ≠ none ∧ Delivers pieces rest ∧
      Answers g (some conn) idle [] (some { conn with timerefreshed := time }) := by
  generalize all : piece :: pieces = sent at delivers
  induction delivers generalizing conn with
  | nil => cases all
  | reads t chunk got memory delivers =>
    cases all
    exact ⟨[], t, chunk, _, conn.timerefreshed, rfl, rfl, got, memory, delivers, answers_nil g _⟩
  | waits t waits _ ih =>
    obtain ⟨kept, silent⟩ := serveConnection_waits g smtp reading waits
    have same : Connection.type { conn with timerefreshed := t.now } = .smtp := smtp
    obtain ⟨idle, t', chunk, rest, time, rfl, bytes, got, memory, later, answers⟩ :=
      ih same reading all
    have here : Answers g (some conn) [t] [] (some { conn with timerefreshed := t.now }) := by
      refine ⟨?_, kept⟩
      have idle : ((session g).run (some conn) [t]).1.map replies = [[]] :=
        congrArg (fun sent => [sent]) silent
      rw [idle]
      exact .waits t waits .nil
    exact ⟨t :: idle, t', chunk, rest, time, rfl, bytes, got, memory, later, here.append answers⟩

theorem InPhase.later {conn : Connection} {s : ConnectionState} (phase : InPhase conn s) (time : Time) :
    InPhase { conn with timerefreshed := time } s := by
  obtain ⟨smtp, live, state, h, ok, outside, inside⟩ := phase
  refine ⟨smtp, live, state, h, ⟨ok.null, ok.block, ok.inside, ok.count⟩, outside, ?_⟩
  intro data
  have holds := inside data
  exact ⟨holds.size, holds.block⟩

/-- The states in which the dialogue reads commands. -/
structure ReadsCommands (s : ConnectionState) : Prop where
  opened : s ≠ .mailOpened
  negotiating : s ≠ .mailExpectTlsNeg
  data : s ≠ .mailExpectData

/-- A command that leads from one phase to the next. -/
theorem InPhase.line (g : Globals) {conn : Connection} {s s' : ConnectionState}
    (phase : InPhase conn s) (reads : ReadsCommands s) {verb : SMTPCommand} {line : List Byte}
    (command : IsCommand verb line) {sent : List Reply}
    (outcome : ∀ {sent' next}, CommandMove s verb sent' next → sent' = sent ∧ next = some s')
    {pieces : List (List Byte)} {turns : List Turn} (delivers : Delivers (line :: pieces) turns) :
    ∃ front back conn', turns = front ++ back ∧
      Answers g (some conn) front [(line, sent)] (some conn') ∧ InPhase conn' s' ∧
      (conn'.alloccount = 0 ∧ conn'.messagebufferend = 0) ∧ Delivers pieces back := by
  obtain ⟨opened, negotiating, data⟩ := reads
  obtain ⟨idle, t, chunk, rest, time, rfl, rfl, got, -, later, silent⟩ :=
    delivers.next g phase.smtp (phase.reading opened negotiating)
  have here := phase.later time
  obtain ⟨conn', answers, there⟩ := here.moved got
    (outcome (here.move opened negotiating data g got command))
  obtain ⟨h, buffer⟩ := here.buffer
  obtain ⟨-, empty⟩ := buffer.cleared here.smtp (by rwa [here.state]) answers.last
  refine ⟨idle ++ [t], rest, conn', by simp, ?_, there, empty, later⟩
  exact silent.append answers

/-! ## Letters -/

/-- What a client sends for one letter: MAIL, any number of RCPT, DATA, and the text in
    pieces. -/
structure Letter where
  mail : List Byte
  recipients : List (List Byte)
  data : List Byte
  text : List (List Byte)

def Letter.pieces (letter : Letter) : List (List Byte) :=
  letter.mail :: (letter.recipients ++ letter.data :: letter.text)

/-- The text has no NUL and the end marker at its end only, and comes in no more reads than
    the size limit leaves room for. -/
structure Letter.Ok (letter : Letter) : Prop where
  mail : IsCommand .mail letter.mail
  recipients : ∀ line ∈ letter.recipients, IsCommand .rcpt line
  data : IsCommand .data letter.data
  nulFree : 0 ∉ letter.text.flatten
  ends : crlfDotCrlf <:+ letter.text.flatten
  first : ∀ front, front <+: letter.text.flatten → crlfDotCrlf <:+: front →
    front = letter.text.flatten
  nonempty : ∀ piece ∈ letter.text, piece ≠ []
  count : letter.text.length ≤ maxReads

/-- How a letter should be answered: each command, and the text with its last piece. -/
def Letter.exchange (letter : Letter) : List (List Byte × List Reply) :=
  (letter.mail, [.acceptOk]) :: (letter.recipients.map fun line => (line, [.acceptOk])) ++
    (letter.data, [.startData]) :: ((letter.text.dropLast.map fun piece => (piece, [])) ++
      letter.text.getLast?.toList.map fun piece => (piece, [.acceptOk]))

/-- The replies to a letter: one for each command and one for the text. -/
def Letter.answers (letter : Letter) : List Reply :=
  .acceptOk :: (letter.recipients.map fun _ => .acceptOk) ++ [.startData, .acceptOk]

/-- Being in the data phase from its first read on. -/
theorem InPhase.collecting {conn : Connection} (phase : InPhase conn .mailExpectData)
    (empty : conn.alloccount = 0 ∧ conn.messagebufferend = 0) : Collecting conn 0 [] :=
  ⟨phase.smtp, phase.live, phase.state, empty.1, empty.2, Nat.zero_le _, List.nil_prefix⟩

/-- The next read of a text completes it, or the data phase goes on. -/
theorem Collecting.nextRead (g : Globals) {conn : Connection} {reads : Nat} {text piece : List Byte}
    {pieces : List (List Byte)} {turns : List Turn} (collecting : Collecting conn reads text)
    (phase : InPhase conn .mailExpectData) (delivers : Delivers (piece :: pieces) turns)
    (count : reads + 1 ≤ maxReads) :
    ∃ front back conn', turns = front ++ back ∧ Delivers pieces back ∧
      ((crlfDotCrlf <:+: cstring (text ++ piece) ∧ InPhase conn' .mailGreeted ∧
          Answers g (some conn) front [(piece, [.acceptOk])] (some conn')) ∨
        (¬ crlfDotCrlf <:+: cstring (text ++ piece) ∧ InPhase conn' .mailExpectData ∧
          Collecting conn' (reads + 1) (text ++ piece) ∧
          Answers g (some conn) front [(piece, [])] (some conn'))) := by
  obtain ⟨idle, t, chunk, rest, time, rfl, rfl, got, memory, later, silent⟩ :=
    delivers.next g phase.smtp (phase.reading (by decide) (by decide))
  have here : Collecting { conn with timerefreshed := time } reads text :=
    ⟨collecting.smtp, collecting.live, collecting.data, collecting.count,
      collecting.buffered.size, collecting.buffered.room, collecting.buffered.bytes⟩
  have read := here.step g got
  have bytes : t.recv.bytes = chunk.bytes := by rw [got]; rfl
  generalize stepped : (serveConnection g t { conn with timerefreshed := time }).1 = next at read
  generalize answered : replies (serveConnection g t { conn with timerefreshed := time }).2 = sent
    at read
  cases read with
  -- the number of reads and the memory rule out the two refusals
  | tooLarge _ large => exact absurd (le_maxReads_iff.mp count) (Nat.not_le_of_lt large)
  | noMemory _ failed => exact absurd failed memory
  | ended conn' _ _ found state =>
    have there := (phase.later time).next stepped
    rw [state] at there
    rw [bytes] at found
    refine ⟨idle ++ [t], rest, conn', by simp, later, Or.inl ⟨found, there, ?_⟩⟩
    exact silent.append (answers_turn got answered stepped)
  | more conn' _ _ missing collecting' =>
    have there := (phase.later time).next stepped
    rw [collecting'.data] at there
    rw [bytes] at missing collecting'
    refine ⟨idle ++ [t], rest, conn', by simp, later, Or.inr ⟨missing, there, collecting', ?_⟩⟩
    exact silent.append (answers_turn got answered stepped)

/-- The reads of a text, of which `last` brings the marker. -/
theorem Collecting.delivered (g : Globals) {pieces : List (List Byte)} {last : List Byte}
    {more : List (List Byte)} {turns : List Turn} {conn : Connection} {reads : Nat}
    {text : List Byte} (collecting : Collecting conn reads text)
    (phase : InPhase conn .mailExpectData)
    (delivers : Delivers (pieces ++ last :: more) turns)
    (count : reads + pieces.length + 1 ≤ maxReads)
    (missing : ¬ crlfDotCrlf <:+: text ++ pieces.flatten)
    (found : crlfDotCrlf <:+: cstring (text ++ pieces.flatten ++ last)) :
    ∃ front back conn', turns = front ++ back ∧
      Answers g (some conn) front ((pieces.map fun piece => (piece, [])) ++ [(last, [.acceptOk])])
        (some conn') ∧
      InPhase conn' .mailGreeted ∧ Delivers more back := by
  induction pieces generalizing conn reads text turns with
  | nil =>
    rw [List.flatten_nil, List.append_nil] at found
    obtain ⟨front, back, conn', rfl, later, ⟨-, done, answers⟩ | ⟨not', -⟩⟩ :=
      collecting.nextRead g phase delivers count
    · exact ⟨front, back, conn', rfl, answers, done, later⟩
    · exact absurd found not'
  | cons piece pieces ih =>
    rw [List.flatten_cons, ← List.append_assoc] at missing found
    rw [List.length_cons] at count
    obtain ⟨front, back, conn', rfl, later, ⟨early, -⟩ | ⟨-, goesOn, collecting', silent⟩⟩ :=
      collecting.nextRead g phase delivers (by omega)
    · -- the marker would be in the part of the text before the last piece
      refine absurd ?_ missing
      exact (early.trans (cstring_isPrefix _).isInfix).trans (List.prefix_append _ _).isInfix
    · obtain ⟨front', back', last', rfl, answers, done, others⟩ :=
        ih collecting' goesOn later (by omega) missing found
      refine ⟨front ++ front', back', last', by simp, ?_, done, others⟩
      exact silent.append answers

/-- RCPT is accepted any number of times. -/
theorem InPhase.recipients (g : Globals) {lines : List (List Byte)}
    (ok : ∀ line ∈ lines, IsCommand .rcpt line) {more : List (List Byte)} {turns : List Turn}
    {conn : Connection} {s : ConnectionState} (phase : InPhase conn s)
    (inside : s = .mailMailing ∨ s = .mailRcpt) (delivers : Delivers (lines ++ more) turns) :
    ∃ front back conn' s', turns = front ++ back ∧
      Answers g (some conn) front (lines.map fun line => (line, [.acceptOk])) (some conn') ∧
      InPhase conn' s' ∧ (s' = .mailMailing ∨ s' = .mailRcpt) ∧ Delivers more back := by
  induction lines generalizing conn s turns with
  | nil => exact ⟨[], turns, conn, s, rfl, answers_nil g _, phase, inside, delivers⟩
  | cons line lines ih =>
    obtain ⟨here, others⟩ := List.forall_mem_cons.mp ok
    have reads : ReadsCommands s := by
      rcases inside with rfl | rfl <;> exact ⟨by decide, by decide, by decide⟩
    obtain ⟨front, back, conn', rfl, answers, there, -, later⟩ :=
      phase.line g reads here (fun move => move.of_rcpt inside) delivers
    obtain ⟨front', back', conn'', s', rfl, answers', last, kind, rest⟩ :=
      ih others there (Or.inr rfl) later
    exact ⟨front ++ front', back', conn'', s', by simp, answers.append answers', last, kind, rest⟩

/-- The text of a letter in the phase that DATA has opened. -/
theorem InPhase.text (g : Globals) {letter : Letter} (ok : letter.Ok) {more : List (List Byte)}
    {turns : List Turn} {conn : Connection} (phase : InPhase conn .mailExpectData)
    (empty : conn.alloccount = 0 ∧ conn.messagebufferend = 0)
    (delivers : Delivers (letter.text ++ more) turns) :
    ∃ front back conn', turns = front ++ back ∧
      Answers g (some conn) front ((letter.text.dropLast.map fun piece => (piece, [])) ++
        letter.text.getLast?.toList.map fun piece => (piece, [.acceptOk])) (some conn') ∧
      InPhase conn' .mailGreeted ∧ Delivers more back := by
  obtain ⟨-, -, -, nulFree, ends, first, nonempty, count⟩ := ok
  generalize letter.text = text at *
  -- the marker is complete with the last piece, so the pieces before it are one group
  cases text using List.reverseRecOn with
  | nil => exact absurd ends (by decide)
  | append_singleton pieces last =>
    rw [List.append_assoc] at delivers
    rw [List.length_append, List.length_singleton] at count
    rw [List.flatten_append, List.flatten_singleton] at nulFree ends first
    rw [List.dropLast_concat, List.getLast?_concat]
    refine (phase.collecting empty).delivered g phase delivers (by omega) ?_ ?_
    · -- an earlier marker would make the last piece empty
      intro early
      have whole := first _ (List.prefix_append _ _) early
      exact nonempty last (by simp) (List.self_eq_append_right.mp whole)
    · rw [List.nil_append, cstring_eq_self nulFree]
      exact ends.isInfix

/-- A letter is answered as it should be, and leaves the client greeted. -/
theorem InPhase.letter (g : Globals) {letter : Letter} (ok : letter.Ok) {more : List (List Byte)}
    {turns : List Turn} {conn : Connection} (phase : InPhase conn .mailGreeted)
    (delivers : Delivers (letter.pieces ++ more) turns) :
    ∃ front back conn', turns = front ++ back ∧
      Answers g (some conn) front letter.exchange (some conn') ∧ InPhase conn' .mailGreeted ∧
      Delivers more back := by
  rw [Letter.pieces, List.cons_append, List.append_assoc, List.cons_append] at delivers
  obtain ⟨mail, afterMail, conn1, rfl, mailed, phase1, -, delivers⟩ :=
    phase.line g ⟨by decide, by decide, by decide⟩ ok.mail (fun move => move.of_mail (by decide))
      delivers
  obtain ⟨rcpt, afterRcpt, conn2, s, rfl, named, phase2, inside, delivers⟩ :=
    phase1.recipients g ok.recipients (Or.inl rfl) delivers
  have reads : ReadsCommands s := by
    rcases inside with rfl | rfl <;> exact ⟨by decide, by decide, by decide⟩
  obtain ⟨data, afterData, conn3, rfl, started, phase3, empty, delivers⟩ :=
    phase2.line g reads ok.data (fun move => move.of_data) delivers
  obtain ⟨text, back, conn4, rfl, accepted, phase4, delivers⟩ := phase3.text g ok empty delivers
  refine ⟨mail ++ (rcpt ++ (data ++ text)), back, conn4, by simp, ?_, phase4, delivers⟩
  exact mailed.append (named.append (started.append accepted))

theorem InPhase.letters (g : Globals) {letters : List Letter} (ok : ∀ letter ∈ letters, letter.Ok)
    {more : List (List Byte)} {turns : List Turn} {conn : Connection}
    (phase : InPhase conn .mailGreeted)
    (delivers : Delivers (letters.flatMap Letter.pieces ++ more) turns) :
    ∃ front back conn', turns = front ++ back ∧
      Answers g (some conn) front (letters.flatMap Letter.exchange) (some conn') ∧
      InPhase conn' .mailGreeted ∧ Delivers more back := by
  induction letters generalizing conn turns with
  | nil => exact ⟨[], turns, conn, rfl, answers_nil g _, phase, delivers⟩
  | cons letter letters ih =>
    obtain ⟨here, others⟩ := List.forall_mem_cons.mp ok
    rw [List.flatMap_cons, List.append_assoc] at delivers
    obtain ⟨front, rest, conn', rfl, answers, phase', delivers⟩ := phase.letter g here delivers
    obtain ⟨front', back, last, rfl, answers', done, delivers⟩ := ih others phase' delivers
    exact ⟨front ++ front', back, last, by simp, answers.append answers', done, delivers⟩

theorem inPhase_of_start {g : Globals} {conn : Connection} (start : smtpStart g (some conn)) :
    InPhase conn .mailOpened := by
  obtain ⟨a, strat, same⟩ := start
  cases same
  obtain ⟨smtp, live, buffer⟩ := bufferInv_session (.start ⟨a, strat, rfl⟩) _ rfl
  exact ⟨smtp, live, state_acceptedConnection_smtp g a strat, _, buffer⟩

theorem Letter.Ok.flatMap_exchange {letter : Letter} (ok : letter.Ok) :
    letter.exchange.flatMap Prod.snd = letter.answers := by
  obtain ⟨-, -, -, -, ends, -, -, -⟩ := ok
  unfold Letter.exchange Letter.answers
  generalize letter.text = text at ends ⊢
  cases text using List.reverseRecOn with
  | nil => exact absurd ends (by decide)
  | append_singleton pieces last =>
    have named : (letter.recipients.map fun line => (line, [Reply.acceptOk])).flatMap Prod.snd =
        letter.recipients.map fun _ => .acceptOk := by
      rw [List.flatMap_map, List.map_eq_flatMap]
    have quiet : (pieces.map fun piece => (piece, ([] : List Reply))).flatMap Prod.snd = [] := by
      rw [List.flatMap_map, List.flatMap_eq_nil_iff]
      exact fun _ _ => rfl
    rw [List.dropLast_concat, List.getLast?_concat, List.flatMap_append, List.flatMap_cons,
      List.flatMap_cons, List.flatMap_append, named, quiet]
    rfl

/-- **A whole conversation.**  A client greets the server with a name that fits, sends any
    number of letters and QUIT, each command in a read of its own and each text in reads of
    its own, with any number of turns in between in which nothing has arrived.  Then each
    command, and the last piece of each text, is answered with its accepting reply in the
    turn that reads it, nothing else is sent behind the greeting, and the connection ends
    with the 221. -/
theorem conversation_answered (g : Globals) {conn : Connection} (start : smtpStart g (some conn))
    {verb : SMTPCommand} {accept : Reply} {greeting quit : List Byte} {letters : List Letter}
    (isGreeting : IsGreeting verb accept greeting) (ok : ∀ letter ∈ letters, letter.Ok)
    (isQuit : IsCommand .quit quit) (t : Turn) {turns : List Turn}
    (delivers : Delivers (greeting :: (letters.flatMap Letter.pieces ++ [quit])) turns) :
    let run := (session g).run (some conn) (t :: turns)
    (∃ answers, run.1.map replies = [.acceptConnection] :: answers ∧
        Exchange ((greeting, [accept]) ::
          (letters.flatMap Letter.exchange ++ [(quit, [.acceptGoodbye])])) turns answers) ∧
      run.1.flatMap replies =
        .acceptConnection :: accept :: (letters.flatMap Letter.answers ++ [.acceptGoodbye]) ∧
      run.2 = none := by
  intro run
  obtain ⟨conn0, opened, kept, phase0⟩ := (inPhase_of_start start).opened g t
  obtain ⟨idle, t1, chunk, rest, time, rfl, rfl, got, -, delivers, silent⟩ :=
    delivers.next g phase0.smtp (phase0.reading (by decide) (by decide))
  obtain ⟨conn1, greeted, phase1⟩ :=
    (phase0.later time).greeting (by decide) (by decide) (by decide) g got isGreeting
  obtain ⟨front, rest, conn2, rfl, answered, phase2, delivers⟩ := phase1.letters g ok delivers
  obtain ⟨idle', t2, chunk', rest, time', rfl, rfl, got', -, delivers, silent'⟩ :=
    delivers.next g phase2.smtp (phase2.reading (by decide) (by decide))
  have phase3 := phase2.later time'
  obtain ⟨bye, gone⟩ := (phase3.move (by decide) (by decide) (by decide) g got' isQuit).of_quit
  have left := answers_turn got' bye (Option.map_eq_none_iff.mp gone)
  -- whatever turns follow, nothing is left to answer
  have whole := silent.append (greeted.append
    (answered.append (silent'.append (left.append (answers_none g delivers)))))
  rw [← kept] at whole
  obtain ⟨sent, last⟩ := whole
  have exchange : Exchange ((chunk.bytes, [accept]) ::
      (letters.flatMap Letter.exchange ++ [(chunk'.bytes, [.acceptGoodbye])])) _ _ := sent
  have answers : run.1.map replies = [.acceptConnection] ::
      ((session g).run (serveConnection g t conn).1 _).1.map replies :=
    congrArg (fun sent => sent :: _) opened
  refine ⟨⟨_, answers, exchange⟩, ?_, last⟩
  have flat : run.1.flatMap replies = .acceptConnection :: _ :=
    (congrArg List.flatten answers).trans (congrArg (List.cons _) exchange.flatten)
  have letters' : (letters.flatMap Letter.exchange).flatMap Prod.snd =
      letters.flatMap Letter.answers := by
    rw [List.flatMap_assoc]
    exact List.flatMap_congr fun letter mem => (ok letter mem).flatMap_exchange
  rw [flat, List.flatMap_cons, List.flatMap_append, letters']
  rfl

/-- One letter, in a text of two reads. -/
def maileyLetter : Letter where
  mail := mailTurn.recv.bytes
  recipients := [rcptTurn.recv.bytes, rcptTurn.recv.bytes]
  data := dataTurn.recv.bytes
  text := [textTurn.recv.bytes, markerTurn.recv.bytes]

/-- The turns of a conversation with that letter, with pauses. -/
def maileyConversation : List Turn :=
  [ehloTurn, .silent, mailTurn, rcptTurn, .silent, .silent, rcptTurn, dataTurn, textTurn, .silent,
   markerTurn, quitTurn, .silent]

theorem maileyLetter_ok : maileyLetter.Ok where
  mail := by decide +kernel
  recipients := by decide +kernel
  data := by decide +kernel
  nulFree := by decide +kernel
  ends := by decide +kernel
  first := by
    intro front inside marker
    have six : ∀ front ∈ maileyLetter.text.flatten.inits, crlfDotCrlf <:+: front →
        front = maileyLetter.text.flatten := by decide +kernel
    exact six front ((List.mem_inits _ _).mpr inside) marker
  nonempty := by decide +kernel
  count := by decide

theorem waits_silent : Turn.silent.Waits := ⟨_, rfl, rfl⟩

theorem maileyConversation_delivers :
    Delivers (ehloTurn.recv.bytes :: ([maileyLetter].flatMap Letter.pieces ++ [quitTurn.recv.bytes]))
      maileyConversation := by
  refine .turn ehloTurn (by decide) (by decide) (.waits _ waits_silent ?_)
  refine .turn mailTurn (by decide) (by decide) (.turn rcptTurn (by decide) (by decide) ?_)
  refine .waits _ waits_silent (.waits _ waits_silent ?_)
  refine .turn rcptTurn (by decide) (by decide) (.turn dataTurn (by decide) (by decide) ?_)
  refine .turn textTurn (by decide) (by decide) (.waits _ waits_silent ?_)
  refine .turn markerTurn (by decide) (by decide) (.turn quitTurn (by decide) (by decide) ?_)
  exact .waits _ waits_silent .nil

theorem conversation_answered_mailey :
    ((session maileyGlobals).run maileyConnection (.silent :: maileyConversation)).1.flatMap replies =
      [.acceptConnection, .acceptEhello, .acceptOk, .acceptOk, .acceptOk, .startData, .acceptOk,
       .acceptGoodbye] := by
  have greeting : IsGreeting .ehlo .acceptEhello ehloTurn.recv.bytes :=
    ⟨Or.inr ⟨rfl, rfl⟩, by decide +kernel, by decide +kernel⟩
  have letters : ∀ letter ∈ [maileyLetter], letter.Ok := by
    simpa using maileyLetter_ok
  exact (conversation_answered maileyGlobals maileyConnection_start greeting letters
    (by decide +kernel) .silent maileyConversation_delivers).2.1

end Femail
