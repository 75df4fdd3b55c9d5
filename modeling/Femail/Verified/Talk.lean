import Femail.Verified.Conversation

/-! # An SMTP connection without its memory

`smtp_handler` keeps a message in a block that it grows, a name in an array, and parses
commands in a zeroed buffer.  `talk` is the same connection without any of that: a phase,
whether TLS is on, the bytes of the message and the number of reads they came in, and what
is sent is a list of replies.

`session_refines_talk` says that a connection answers as `talk` does, on every sequence of
turns.  Which replies a connection will ever send is then decided by what `talk` keeps: two
connections in one phase outside a message send the same ones, whatever went on before
(`answers_of_phase`).  Replies are compared by which they are and whether they go out under
TLS, not by their bytes: an overlong reply to EHLO takes bytes from the stack.
-/

namespace Femail

open Foundation

/-! ## The abstract connection -/

/-- What a read brings. -/
inductive Arrival where
  | bytes (bytes : List Byte)
  | later
  | ended
deriving DecidableEq

inductive Handshake where
  | done
  | later
  | failed
deriving DecidableEq, Repr

/-- What the outside does in one turn. -/
structure Happening where
  arrival : Arrival
  handshake : Handshake
  memory : Bool
  object : Bool
deriving DecidableEq

structure Talk where
  phase : ConnectionState
  secure : Bool
  message : List Byte
  reads : Nat
deriving DecidableEq

/-- A reply, and whether it goes out under TLS. -/
abbrev Answer := Reply × Bool

def Talk.opened (secure : Bool) : Talk := ⟨.mailOpened, secure, [], 0⟩

/-- The message is dropped, and with it the transaction. -/
def Talk.reset (talk : Talk) : Talk :=
  { talk with
    phase := if talk.phase = .mailGreeted then .mailGreeted else .mailExpectAny
    message := []
    reads := 0 }

def Talk.enter (talk : Talk) (phase : ConnectionState) (reply : Reply) : Option Talk × List Answer :=
  (some { talk with phase := phase }, [(reply, talk.secure)])

def Talk.stay (talk : Talk) (reply : Reply) : Option Talk × List Answer :=
  (some talk, [(reply, talk.secure)])

def Talk.leave (talk : Talk) (reply : Reply) : Option Talk × List Answer :=
  (none, [(reply, talk.secure)])

/-- The command that a read begins with. -/
def commandOf (bytes : List Byte) : Option SMTPCommand :=
  verbs.find? fun verb => Begins bytes verb.text

/-- The name behind HELO and EHLO is the next word, of at most `domainMaxSize` bytes. -/
def Talk.hello (talk : Talk) (bytes : List Byte) (accept : Reply) : Option Talk × List Answer :=
  if (greetingName bytes).length ≤ domainMaxSize then talk.enter .mailGreeted accept
  else talk.stay .rejectTooLong

def Talk.command (talk : Talk) (object : Bool) (bytes : List Byte) :
    SMTPCommand → Option Talk × List Answer
  | .noop => (some talk, [])
  | .quit => talk.leave .acceptGoodbye
  | .rset => (some talk.reset, [(.acceptOk, talk.secure)])
  | .data => talk.enter .mailExpectData .startData
  | .help => talk.stay .acceptOk
  | .helo => talk.hello bytes .acceptHello
  | .ehlo => talk.hello bytes .acceptEhello
  | .mail =>
    if talk.phase = .mailExpectAny then talk.stay .rejectSequence
    else talk.enter .mailMailing .acceptOk
  | .rcpt =>
    if talk.phase = .mailMailing ∨ talk.phase = .mailRcpt then talk.enter .mailRcpt .acceptOk
    else talk.stay .rejectSequence
  | .vrfy => talk.stay .rejectUnimplemented
  | .expn => talk.stay .rejectUnimplemented
  | .starttls =>
    (some { talk with phase := .mailExpectTlsNeg, secure := object },
      [(.acceptStarttls, talk.secure)])

/-- A read outside a message. -/
def Talk.line (talk : Talk) (object : Bool) (bytes : List Byte) : Option Talk × List Answer :=
  if smallBufferSize - 1 ≤ bytes.length then talk.leave .rejectTooLong
  else
    match commandOf bytes with
    | none => talk.stay .rejectUnrecognized
    | some verb => talk.command object bytes verb

/-- A read inside a message.  It is over when the marker stands in it in front of any NUL. -/
def Talk.text (talk : Talk) (memory : Bool) (bytes : List Byte) : Option Talk × List Answer :=
  if esmtpSize < (talk.reads + 1) * smallBufferSize + 1 then
    (some talk.reset, [(.rejectTooLarge, talk.secure)])
  else if !memory then talk.leave .rejectError
  else if crlfDotCrlf <:+: cstring (talk.message ++ bytes) then
    (some ⟨.mailGreeted, talk.secure, [], 0⟩, [(.acceptOk, talk.secure)])
  else (some { talk with message := talk.message ++ bytes, reads := talk.reads + 1 }, [])

def Talk.step (talk : Talk) (happens : Happening) : Option Talk × List Answer :=
  match talk.phase with
  | .mailOpened => talk.enter .mailExpectAny .acceptConnection
  | .mailExpectTlsNeg =>
    match happens.handshake with
    | .done => (some { talk with phase := .mailExpectAny }, [])
    | .later => (some talk, [])
    | .failed => (none, [])
  | phase =>
    match happens.arrival with
    | .later => (some talk, [])
    | .ended => (none, [])
    | .bytes bytes =>
      if phase = .mailExpectData then talk.text happens.memory bytes
      else talk.line happens.object bytes

def talk : Machine (Option Talk) Happening (List Answer) where
  step
    | some talk, happens => talk.step happens
    | none, _ => (none, [])

/-! ## What a turn and its calls are to it -/

def Turn.arrival (t : Turn) : Arrival :=
  match t.recv with
  | .data chunk => .bytes chunk.bytes
  | .fail errno => if errno.getD t.errno = ewouldblock then .later else .ended
  | .eof => .ended

def Turn.handshake (t : Turn) : Handshake :=
  if t.sslAccept ≤ 0 then
    match t.sslGetError with
    | .wantRead => .later
    | .wantWrite => .later
    | .other _ => .failed
  else .done

def Turn.happening (g : Globals) (t : Turn) : Happening where
  arrival := t.arrival
  handshake := t.handshake
  memory := t.realloc.isSome
  object := (sslNewResult g t.sslNew).isSome

def Event.answer? : Event → Option Answer
  | .dprintf _ (.smtp reply) _ => some (reply, false)
  | .sslWrite _ (.smtp reply) _ => some (reply, true)
  | _ => none

/-- The answers among the calls of a turn. -/
def heard (events : List Event) : List Answer := events.filterMap Event.answer?

section

variable (e : Event) (events events' : List Event)

@[simp] theorem heard_nil : heard [] = [] := rfl

@[simp] theorem heard_append : heard (events ++ events') = heard events ++ heard events' :=
  List.filterMap_append

@[simp] theorem heard_cons : heard (e :: events) = e.answer?.toList ++ heard events := by
  cases h : e.answer? <;> simp [heard, h]

end

section

variable (g : Globals) (t : Turn) (conn : Connection)

@[simp] theorem heard_smtpSendMsg (reply : Reply) :
    heard (smtpSendMsg g t conn reply) = [(reply, conn.sslconn.isSome)] := by
  rw [smtpSendMsg_eq]
  cases conn.sslconn <;> rfl

@[simp] theorem answer?_smtpReceiveMsg : (smtpReceiveMsg t conn).answer? = none := by
  unfold smtpReceiveMsg
  cases conn.sslconn <;> rfl

@[simp] theorem heard_appendEvents (chunk : Chunk) (addr : Addr) :
    heard (appendEvents conn chunk addr) = [] := rfl

@[simp] theorem heard_connectionDeinit : heard (connectionDeinit conn) = [] := rfl

end

/-- The switch on the handler's result sends nothing. -/
theorem heard_serveConnection (g : Globals) (t : Turn) (conn : Connection) :
    heard (serveConnection g t conn).2 = heard (connectionHandler g t conn).events := by
  unfold serveConnection settleConnection
  generalize connectionHandler g t conn = handled
  obtain ⟨result, conn', events⟩ := handled
  cases result <;> simp [Event.answer?, resetConnection]

/-! ## The refinement -/

/-- `talk` is what the record is about. -/
structure Talk.Of (conn : Connection) (talk : Talk) : Prop where
  smtp : conn.type = .smtp
  live : conn.live = true
  phase : talk.phase = conn.state
  secure : talk.secure = conn.sslconn.isSome
  reads : talk.reads = conn.alloccount
  buffer : BufferOk conn
  holds : Holds conn talk.message
  idle : conn.state ≠ .mailExpectData → talk.message = [] ∧ talk.reads = 0

/-- The handler answers as the abstract connection does, and leaves what that leaves. -/
structure Agrees (handled : Handled) (outcome : Option Talk × List Answer) : Prop where
  heard : heard handled.events = outcome.2
  leaves : Option.Rel Talk.Of (settleConnection handled).1 outcome.1

section

variable {g : Globals} {t : Turn} {conn : Connection} {talk : Talk}

theorem Talk.Of.refreshed (of : Talk.Of conn talk) (now : Time) :
    Talk.Of { conn with timerefreshed := now } talk := by
  obtain ⟨smtp, live, phase, secure, reads, buffer, holds, idle⟩ := of
  exact ⟨smtp, live, phase, secure, reads, ⟨buffer.null, buffer.block, buffer.inside, buffer.count⟩,
    ⟨holds.size, holds.block⟩, idle⟩

/-- Another phase, from one outside a message. -/
theorem Talk.Of.enter (of : Talk.Of conn talk) (outside : conn.state ≠ .mailExpectData)
    (phase : ConnectionState) :
    Talk.Of { conn with state := phase } { talk with phase := phase } := by
  obtain ⟨smtp, live, -, secure, reads, buffer, holds, idle⟩ := of
  exact ⟨smtp, live, rfl, secure, reads, ⟨buffer.null, buffer.block, buffer.inside, buffer.count⟩,
    ⟨holds.size, holds.block⟩, fun _ => idle outside⟩

/-- Another name, which the abstract connection does not keep. -/
theorem Talk.Of.renamed (of : Talk.Of conn talk) (field : Vector Byte mailclientdomainRoom) :
    Talk.Of { conn with mailclientdomain := field } talk := by
  obtain ⟨smtp, live, phase, secure, reads, buffer, holds, idle⟩ := of
  exact ⟨smtp, live, phase, secure, reads, ⟨buffer.null, buffer.block, buffer.inside, buffer.count⟩,
    ⟨holds.size, holds.block⟩, idle⟩

/-- A reset record has no message. -/
theorem talkOf_reset {talk' : Talk} (smtp : conn.type = .smtp)
    (phase : talk'.phase = if conn.state = .mailGreeted then .mailGreeted else .mailExpectAny)
    (secure : talk'.secure = conn.sslconn.isSome) (none' : talk'.message = []) (zero : talk'.reads = 0) :
    Talk.Of (resetConnection conn).1 talk' := by
  obtain ⟨buffer, holds⟩ : BufferOk (resetConnection conn).1 ∧ Holds (resetConnection conn).1 [] :=
    BufferOk.empty rfl rfl rfl
  exact ⟨smtp, rfl, phase, secure, zero, buffer, none' ▸ holds, fun _ => ⟨none', zero⟩⟩

/-! ### Commands -/

theorem agrees_hello (of : Talk.Of conn talk) (outside : conn.state ≠ .mailExpectData)
    {param bytes : List Byte} (name : firstWord param = greetingName bytes) (accept : Reply) :
    Agrees (smtpHandleHello g t conn param accept) (talk.hello bytes accept) := by
  have stored : (moveClientMailDomain param conn domainMaxSize).1 = 0 ↔
      (greetingName bytes).length ≤ domainMaxSize := by
    have result := moveClientMailDomainLoop_result param (Nat.zero_le domainMaxSize)
    rw [Nat.zero_add, name] at result
    exact result
  have renamed := of.renamed
    (applyStores conn.mailclientdomain (moveClientMailDomainLoop domainMaxSize param 0).2)
  unfold smtpHandleHello Talk.hello
  dsimp only
  by_cases fits : (greetingName bytes).length ≤ domainMaxSize
  · rw [if_neg (not_not_intro (stored.mpr fits)), if_pos fits]
    refine ⟨?_, .some (renamed.enter outside _)⟩
    rw [heard_smtpSendMsg, Talk.enter, of.secure]
    rfl
  · rw [if_pos (fun moved => fits (stored.mp moved)), if_neg fits]
    refine ⟨?_, .some renamed⟩
    rw [heard_smtpSendMsg, Talk.stay, of.secure]
    rfl

theorem agrees_stay (of : Talk.Of conn talk) (reply : Reply) :
    Agrees ⟨.continue, conn, smtpSendMsg g t conn reply⟩ (talk.stay reply) :=
  ⟨by rw [heard_smtpSendMsg, Talk.stay, of.secure], .some of⟩

theorem agrees_enter (of : Talk.Of conn talk) (outside : conn.state ≠ .mailExpectData)
    (phase : ConnectionState) (reply : Reply) :
    Agrees ⟨.continue, { conn with state := phase },
      smtpSendMsg g t { conn with state := phase } reply⟩ (talk.enter phase reply) :=
  ⟨by rw [heard_smtpSendMsg, Talk.enter, of.secure], .some (of.enter outside phase)⟩

theorem agrees_leave (of : Talk.Of conn talk) {result : ConnectionHandlerResult}
    (ends : result = .done ∨ result = .error) (reply : Reply) :
    Agrees ⟨result, conn, smtpSendMsg g t conn reply⟩ (talk.leave reply) := by
  refine ⟨by rw [heard_smtpSendMsg, Talk.leave, of.secure], ?_⟩
  obtain rfl | rfl := ends <;> exact .none

theorem agrees_command (of : Talk.Of conn talk) (outside : conn.state ≠ .mailExpectData)
    {command : SMTPClientCommand} {bytes : List Byte}
    (name : command.command = .helo ∨ command.command = .ehlo →
      firstWord (command.param.getD []) = greetingName bytes) :
    Agrees (smtpHandleCommand g t conn command)
      (talk.command (sslNewResult g t.sslNew).isSome bytes command.command) := by
  obtain ⟨verb, param⟩ := command
  cases verb with
  | noop => exact ⟨rfl, .some of⟩
  | quit => exact agrees_leave of (Or.inl rfl) _
  | rset =>
    have phase : talk.reset.phase =
        if conn.state = .mailGreeted then .mailGreeted else .mailExpectAny := by
      simp [Talk.reset, of.phase]
    exact ⟨by simp [smtpHandleCommand, Talk.command, of.secure],
      .some (talkOf_reset of.smtp phase of.secure rfl rfl)⟩
  | data => exact agrees_enter of outside _ _
  | help | vrfy | expn => exact agrees_stay of _
  | helo => exact agrees_hello of outside (name (Or.inl rfl)) _
  | ehlo => exact agrees_hello of outside (name (Or.inr rfl)) _
  | mail =>
    simp only [smtpHandleCommand, Talk.command, of.phase]
    split
    · exact agrees_stay of _
    · exact agrees_enter of outside _ _
  | rcpt =>
    simp only [smtpHandleCommand, Talk.command, of.phase]
    by_cases inside : conn.state = .mailMailing ∨ conn.state = .mailRcpt
    · rw [if_neg (by tauto), if_pos inside]
      exact agrees_enter of outside _ _
    · rw [if_pos (by tauto), if_neg inside]
      exact agrees_stay of _
  | starttls =>
    -- what `SSL_new` gives, nothing included, takes the place of the object there was
    have entered := of.enter outside .mailExpectTlsNeg
    refine ⟨by simp [smtpHandleCommand, Talk.command, of.secure, Event.answer?], .some ?_⟩
    obtain ⟨smtp, live, phase, -, reads, buffer, holds, idle⟩ := entered
    exact ⟨smtp, live, phase, rfl, reads,
      ⟨buffer.null, buffer.block, buffer.inside, buffer.count⟩, ⟨holds.size, holds.block⟩, idle⟩

/-- Calls in front of those of an outcome that send nothing. -/
theorem Agrees.behind {handled : Handled} {outcome : Option Talk × List Answer}
    (agrees : Agrees handled outcome) {events : List Event} (silent : Femail.heard events = []) :
    Agrees { handled with events := events ++ handled.events } outcome := by
  refine ⟨?_, agrees.leaves⟩
  rw [heard_append, silent, agrees.heard]
  rfl

/-- The zeros behind what was read are no part of a command, and end the name in it. -/
theorem agrees_line (of : Talk.Of conn talk) (outside : conn.state ≠ .mailExpectData)
    (chunk : Chunk) :
    Agrees (smtpHandleChunk g t conn chunk)
      (talk.line (sslNewResult g t.sslNew).isSome chunk.bytes) := by
  unfold smtpHandleChunk Talk.line
  by_cases long : smallBufferSize - 1 ≤ chunk.bytes.length
  · rw [if_pos ⟨long, outside⟩, if_pos long]
    exact agrees_leave of (Or.inr rfl) _
  · rw [if_neg (fun both => long both.1), if_neg outside, if_neg long]
    -- zeros spell nothing, so the buffer begins with what the read begins with
    have same : commandOf chunk.bytes =
        (parseClientCommand (readBuffer chunk)).map SMTPClientCommand.command := by
      rw [command_parseClientCommand, commandOf]
      congr 1
      funext verb
      exact decide_eq_decide.mpr begins_readBuffer.symm
    rw [same]
    cases parsed : parseClientCommand (readBuffer chunk) with
    | none =>
      refine ⟨?_, .some of⟩
      simp [Talk.stay, of.secure, Event.answer?]
    | some command =>
      have silent : heard [.parseClientCommand (readBuffer chunk) (some command.command)] = [] := rfl
      refine (agrees_command of outside ?_).behind silent
      intro hello
      obtain ⟨begins, param⟩ := (parseClientCommand_iff _ _).mp parsed
      have five : command.command.text.length = 5 := by
        obtain is | is := hello <;> rw [is] <;> rfl
      have enough : 5 ≤ chunk.bytes.length := by
        rw [← five]
        exact (begins_readBuffer.mp begins).length_le
      have skips : command.command.skips = some 0 := by
        obtain is | is := hello <;> rw [is] <;> rfl
      rw [param, SMTPCommand.paramIn, skips, five]
      simp only [Option.map_some, Option.getD_some, Nat.add_zero]
      rw [readBuffer, List.drop_append_of_le_length enough, firstWord_append_zeros]
      rfl

/-! ### Message text -/

/-- The block holds what was read, so what is found in it is what was sent. -/
theorem agrees_text (of : Talk.Of conn talk) (data : conn.state = .mailExpectData) {chunk : Chunk}
    (got : t.recv = .data chunk) :
    Agrees (smtpHandler g t conn) (talk.text t.realloc.isSome chunk.bytes) := by
  have size : (talk.reads + 1) * smallBufferSize + 1 = conn.nextSize := by
    rw [of.reads]
    rfl
  have phase : talk.reset.phase =
      if conn.state = .mailGreeted then .mailGreeted else .mailExpectAny := by
    simp [Talk.reset, of.phase]
  have buffered := of.holds.buffered of.buffer.inside
  have step := smtpHandler_dataStep g t of.live data
  generalize smtpHandler g t conn = handled at step ⊢
  unfold Talk.text
  rw [size]
  cases step with
  | noData _ nothing => exact absurd nothing (Turn.bytes_ne_nil got)
  | tooLarge chunk' got' large =>
    rw [if_pos large]
    refine ⟨?_, .some (talkOf_reset of.smtp phase of.secure rfl rfl)⟩
    simp [of.secure]
  | noMemory chunk' got' fits failed =>
    rw [if_neg (Nat.not_lt.mpr fits), failed]
    refine ⟨?_, .none⟩
    simp only [heard_cons, answer?_smtpReceiveMsg, heard_smtpSendMsg, Talk.leave, of.secure]
    rfl
  | ends chunk' addr got' fits memory found =>
    cases got.symm.trans got'
    -- the block is scanned as a string, so the marker counts in front of any NUL
    rw [buffered.found_iff] at found
    rw [if_neg (Nat.not_lt.mpr fits), memory, if_neg (by simp), if_pos found]
    refine ⟨?_, .some (talkOf_reset of.smtp rfl of.secure rfl rfl)⟩
    simp [of.secure, Connection.appended]
  | more chunk' addr got' fits memory missing =>
    cases got.symm.trans got'
    have absent : ¬ crlfDotCrlf <:+: cstring (talk.message ++ chunk.bytes) := by
      rw [← buffered.found_iff t chunk, missing]
      exact Bool.false_ne_true
    rw [if_neg (Nat.not_lt.mpr fits), memory, if_neg (by simp), if_neg absent]
    have buffer := of.buffer.appended t chunk addr fits
    have holds := of.holds.appended of.buffer.inside t chunk addr
    refine ⟨by simp, .some ?_⟩
    refine ⟨of.smtp, of.live, of.phase, of.secure, ?_, buffer, holds, fun outside => ?_⟩
    · exact congrArg (· + 1) of.reads
    · exact absurd data outside

/-! ### Turns and runs -/

/-- A turn that reads. -/
theorem agrees_read (of : Talk.Of conn talk) (reading : conn.Reading) :
    Agrees (smtpHandler g t conn)
      (match t.arrival with
        | .later => (some talk, [])
        | .ended => (none, [])
        | .bytes bytes =>
          if conn.state = .mailExpectData then talk.text t.realloc.isSome bytes
          else talk.line (sslNewResult g t.sslNew).isSome bytes) := by
  obtain ⟨live, opened, negotiating⟩ := reading
  have reads : smtpHandler g t conn = { smtpHandleRead g t conn with
      events := [smtpReceiveMsg t conn] ++ (smtpHandleRead g t conn).events } := by
    simp [smtpHandler, live, opened, negotiating]
  have silent : heard [smtpReceiveMsg t conn] = [] := by simp
  cases got : t.recv with
  | data chunk =>
    simp only [Turn.arrival, got]
    by_cases data : conn.state = .mailExpectData
    · rw [if_pos data]
      exact agrees_text of data got
    · have line := (@agrees_line g t conn talk of data chunk).behind silent
      rw [reads, smtpHandleRead, got, if_neg data]
      exact line
  | eof =>
    simp only [Turn.arrival, got, reads, smtpHandleRead]
    exact ⟨by simp, .none⟩
  | fail errno =>
    simp only [Turn.arrival, got, reads, smtpHandleRead]
    split
    · exact ⟨by simp, .some of⟩
    · exact ⟨by simp, .none⟩

theorem agrees_smtpHandler (of : Talk.Of conn talk) :
    Agrees (smtpHandler g t conn) (talk.step (t.happening g)) := by
  unfold Talk.step
  rw [of.phase]
  -- the phases that do not read come first, as in the source
  by_cases opened : conn.state = .mailOpened
  · have greets : smtpHandler g t conn = ⟨.continue, { conn with state := .mailExpectAny },
        smtpSendMsg g t conn .acceptConnection⟩ := by
      simp [smtpHandler, of.live, opened]
    rw [opened, greets]
    exact ⟨by simp [Talk.enter, of.secure], .some (of.enter (by simp [opened]) _)⟩
  · by_cases negotiating : conn.state = .mailExpectTlsNeg
    · have negotiates : smtpHandler g t conn = smtpNegotiate t conn := by
        simp [smtpHandler, of.live, negotiating]
      rw [negotiating, negotiates]
      unfold smtpNegotiate Turn.happening Turn.handshake
      dsimp only
      split
      · cases t.sslGetError with
        | wantRead | wantWrite => exact ⟨rfl, .some of⟩
        | other => exact ⟨rfl, .none⟩
      · exact ⟨rfl, .some (of.enter (by simp [negotiating]) _)⟩
    · have read := @agrees_read g t conn talk of ⟨of.live, opened, negotiating⟩
      cases state : conn.state with
      | mailOpened => exact absurd state opened
      | mailExpectTlsNeg => exact absurd state negotiating
      | _ =>
        rw [state] at read
        exact read

theorem refines_serve (g : Globals) (t : Turn) (of : Talk.Of conn talk) :
    heard (serveConnection g t conn).2 = (talk.step (t.happening g)).2 ∧
      Option.Rel Talk.Of (serveConnection g t conn).1 (talk.step (t.happening g)).1 := by
  obtain ⟨heard, leaves⟩ := @agrees_smtpHandler g t conn talk of
  rw [heard_serveConnection, connectionHandler_smtp g t of.smtp]
  refine ⟨heard, ?_⟩
  unfold serveConnection
  rw [connectionHandler_smtp g t of.smtp]
  dsimp only
  -- the time of the next stay in the queue is nothing to the abstract connection
  generalize (settleConnection (smtpHandler g t conn)).1 = kept at leaves ⊢
  generalize (talk.step (t.happening g)).1 = next at leaves ⊢
  cases leaves with
  | some of' => exact .some (of'.refreshed t.now)
  | none => exact .none

end

theorem talkOf_start {g : Globals} {conn : Connection} (start : smtpStart g (some conn)) :
    Talk.Of conn (.opened conn.sslconn.isSome) := by
  obtain ⟨a, strat, same⟩ := start
  cases same
  obtain ⟨buffer, holds⟩ : BufferOk (acceptedConnection g a .smtp strat) ∧
      Holds (acceptedConnection g a .smtp strat) [] := BufferOk.empty rfl rfl rfl
  exact ⟨type_acceptedConnection g a _ strat, live_acceptedConnection g a _ strat,
    (state_acceptedConnection_smtp g a strat).symm, rfl, rfl, buffer, holds, fun _ => ⟨rfl, rfl⟩⟩

/-- Related connections answer alike from there on. -/
theorem refines_run (g : Globals) {record : Option Connection} {abstract : Option Talk}
    (related : Option.Rel Talk.Of record abstract) (turns : List Turn) :
    ((session g).run record turns).1.map heard =
        (talk.run abstract (turns.map (Turn.happening g))).1 ∧
      Option.Rel Talk.Of ((session g).run record turns).2
        (talk.run abstract (turns.map (Turn.happening g))).2 := by
  induction turns generalizing record abstract with
  | nil => exact ⟨rfl, related⟩
  | cons t turns ih =>
    have one : heard ((session g).step record t).2 = (talk.step abstract (t.happening g)).2 ∧
        Option.Rel Talk.Of ((session g).step record t).1 (talk.step abstract (t.happening g)).1 := by
      cases related with
      | some of => exact refines_serve g t of
      | none => exact ⟨rfl, .none⟩
    obtain ⟨same, last⟩ := ih one.2
    refine ⟨?_, last⟩
    simp only [Machine.run, List.map_cons, one.1, same]

/-- **A connection is its dialogue.**  On every sequence of turns, of any length and with any
    outcomes, an SMTP connection sends, turn by turn, the replies that the abstract
    connection sends, in clear or under TLS as that does, and it is over when that is. -/
theorem session_refines_talk (g : Globals) {conn : Connection} (start : smtpStart g (some conn))
    (turns : List Turn) :
    let abstract := talk.run (some (.opened conn.sslconn.isSome)) (turns.map (Turn.happening g))
    ((session g).run (some conn) turns).1.map heard = abstract.1 ∧
      Option.Rel Talk.Of ((session g).run (some conn) turns).2 abstract.2 :=
  refines_run g (.some (talkOf_start start)) turns

/-- A letter in three reads, and another one begun. -/
def maileyTalk : List Turn :=
  [.silent, ehloTurn, mailTurn, rcptTurn, dataTurn, textTurn, .silent, markerTurn, mailTurn]

theorem session_refines_talk_mailey :
    ((session maileyGlobals).run maileyConnection maileyTalk).1.map heard =
      [[(.acceptConnection, false)], [(.acceptEhello, false)], [(.acceptOk, false)],
        [(.acceptOk, false)], [(.startData, false)], [], [], [(.acceptOk, false)],
        [(.acceptOk, false)]] := by
  rw [maileyConnection, (session_refines_talk maileyGlobals maileyConnection_start maileyTalk).1]
  decide

/-! ## What is not kept -/

/-- Outside a message the record is about its phase and its channel. -/
theorem talkOf_reached {g : Globals} {h : SessionHistory} {conn : Connection}
    (reaches : (session g).Reaches (smtpStart g) Machine.anyStep h (some conn))
    (outside : conn.state ≠ .mailExpectData) :
    Talk.Of conn ⟨conn.state, conn.sslconn.isSome, [], 0⟩ := by
  obtain ⟨smtp, live, inv⟩ := bufferInv_session reaches conn rfl
  obtain ⟨count, size⟩ := inv.outside outside
  obtain ⟨buffer, holds⟩ := BufferOk.empty (inv.ok.null.mpr count) count size
  exact ⟨smtp, live, rfl, rfl, count.symm, buffer, holds, fun _ => ⟨rfl, rfl⟩⟩

/-- **Nothing else is kept.**  Two SMTP connections that are in the same phase, outside a
    message, and both under TLS or both not, send the same replies from there on, in clear or
    under TLS, on turns in which the same happens, whatever either of them has been sent
    before. -/
theorem answers_of_phase (g : Globals) {h h' : SessionHistory} {conn conn' : Connection}
    (reaches : (session g).Reaches (smtpStart g) Machine.anyStep h (some conn))
    (reaches' : (session g).Reaches (smtpStart g) Machine.anyStep h' (some conn'))
    (outside : conn.state ≠ .mailExpectData) (phase : conn'.state = conn.state)
    (channel : conn'.sslconn.isSome = conn.sslconn.isSome) {turns turns' : List Turn}
    (same : turns'.map (Turn.happening g) = turns.map (Turn.happening g)) :
    ((session g).run (some conn') turns').1.map heard =
      ((session g).run (some conn) turns).1.map heard := by
  have of := talkOf_reached reaches outside
  have of' := talkOf_reached reaches' (by rwa [phase])
  rw [phase, channel] at of'
  rw [(refines_run g (.some of) turns).1, (refines_run g (.some of') turns').1, same]

/-- One client has sent a letter, the other has only given its name; and the memory they get
    is not the same. -/
theorem answers_of_phase_mailey :
    let sent := (session maileyGlobals).trace [] maileyConnection (maileyTalk.take 8)
    let greeted := (session maileyGlobals).trace [] maileyConnection (maileyTalk.take 2)
    ((session maileyGlobals).run sent.2 [mailTurn, dataTurn, { textTurn with realloc := some 7 }]).1.map
        heard =
      ((session maileyGlobals).run greeted.2 [mailTurn, dataTurn, textTurn]).1.map heard := by
  intro sent greeted
  have first : ∃ conn ∈ greeted.2, conn.state = .mailGreeted ∧ conn.sslconn = none := by
    decide +kernel
  have second : ∃ conn ∈ sent.2, conn.state = .mailGreeted ∧ conn.sslconn = none := by
    decide +kernel
  obtain ⟨conn, here, state, plain⟩ := first
  obtain ⟨conn', there, state', plain'⟩ := second
  have reaches := maileyConnection_reaches (maileyTalk.take 2)
  have reaches' := maileyConnection_reaches (maileyTalk.take 8)
  rw [show ((session maileyGlobals).trace [] maileyConnection (maileyTalk.take 2)).2 = _ from here]
    at reaches
  rw [show ((session maileyGlobals).trace [] maileyConnection (maileyTalk.take 8)).2 = _ from there]
    at reaches'
  rw [here, there]
  exact answers_of_phase maileyGlobals reaches reaches' (by simp [state]) (state'.trans state.symm)
    (by rw [plain, plain']) rfl

end Femail
