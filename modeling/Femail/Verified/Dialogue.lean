import Femail.Verified.Session

/-! # The SMTP dialogue

The abstract machine behind `smtpHandler`: its states are the values of the
`state` field alone, its steps (`DialogueStep`) say what a turn shows to the
client and which state `process_connection` leaves, a reset included.
`serveConnection_dialogue` is the refinement; `dialogue_invariant` turns an
invariant of the abstract machine into one of all runs of an SMTP connection.
-/

namespace Femail

open Foundation

/-- What a turn shows: bytes read, commands parsed, replies, TLS handshakes. -/
structure Observed where
  received : List Byte
  parsed : List (Option SMTPCommand)
  replies : List Reply
  handshakes : List Int
deriving DecidableEq

def observe (events : List Event) : Observed :=
  ⟨received events, parses events, replies events, handshakes events⟩

/-- The moves of the command switch. -/
inductive CommandMove (s : ConnectionState) :
    SMTPCommand → List Reply → Option ConnectionState → Prop where
  | noop : CommandMove s .noop [] (some s)
  | quit : CommandMove s .quit [.acceptGoodbye] none
  | rset : CommandMove s .rset [.acceptOk]
      (some (if s = .mailGreeted then .mailGreeted else .mailExpectAny))
  | data : CommandMove s .data [.startData] (some .mailExpectData)
  | help : CommandMove s .help [.acceptOk] (some s)
  | unimplemented (verb : SMTPCommand) : verb = .vrfy ∨ verb = .expn →
      CommandMove s verb [.rejectUnimplemented] (some s)
  | helloTooLong (verb : SMTPCommand) : verb = .helo ∨ verb = .ehlo →
      CommandMove s verb [.rejectTooLong] (some s)
  | hello (verb : SMTPCommand) (accept : Reply) :
      verb = .helo ∧ accept = .acceptHello ∨ verb = .ehlo ∧ accept = .acceptEhello →
      CommandMove s verb [accept] (some .mailGreeted)
  | mailSequence : s = .mailExpectAny → CommandMove s .mail [.rejectSequence] (some s)
  | mail : s ≠ .mailExpectAny → CommandMove s .mail [.acceptOk] (some .mailMailing)
  | rcptSequence : s ≠ .mailMailing → s ≠ .mailRcpt →
      CommandMove s .rcpt [.rejectSequence] (some s)
  | rcpt : s = .mailMailing ∨ s = .mailRcpt → CommandMove s .rcpt [.acceptOk] (some .mailRcpt)
  | starttls : CommandMove s .starttls [.acceptStarttls] (some .mailExpectTlsNeg)

/-- The moves of one turn; `none` is the end of the connection. -/
inductive DialogueStep (s : ConnectionState) : Observed → Option ConnectionState → Prop where
  | opened : s = .mailOpened →
      DialogueStep s ⟨[], [], [.acceptConnection], []⟩ (some .mailExpectAny)
  | negotiating (ret : Int) (next : Option ConnectionState) : s = .mailExpectTlsNeg → ret ≤ 0 →
      next = none ∨ next = some s → DialogueStep s ⟨[], [], [], [ret]⟩ next
  | negotiated (ret : Int) : s = .mailExpectTlsNeg → 0 < ret →
      DialogueStep s ⟨[], [], [], [ret]⟩ (some .mailExpectAny)
  | noData (next : Option ConnectionState) : next = none ∨ next = some s →
      DialogueStep s ⟨[], [], [], []⟩ next
  | tooLong (bytes : List Byte) : s ≠ .mailExpectData →
      DialogueStep s ⟨bytes, [], [.rejectTooLong], []⟩ none
  | tooLarge (bytes : List Byte) : s = .mailExpectData →
      DialogueStep s ⟨bytes, [], [.rejectTooLarge], []⟩ (some .mailExpectAny)
  | noMemory (bytes : List Byte) : s = .mailExpectData →
      DialogueStep s ⟨bytes, [], [.rejectError], []⟩ none
  | dataEnd (bytes : List Byte) : s = .mailExpectData →
      DialogueStep s ⟨bytes, [], [.acceptOk], []⟩ (some .mailGreeted)
  | dataMore (bytes : List Byte) : s = .mailExpectData →
      DialogueStep s ⟨bytes, [], [], []⟩ (some s)
  | unrecognized (bytes : List Byte) : s ≠ .mailExpectData →
      DialogueStep s ⟨bytes, [none], [.rejectUnrecognized], []⟩ (some s)
  | command (bytes : List Byte) (verb : SMTPCommand) (sent : List Reply)
      (next : Option ConnectionState) : s ≠ .mailOpened → s ≠ .mailExpectTlsNeg →
      s ≠ .mailExpectData → CommandMove s verb sent next →
      DialogueStep s ⟨bytes, [some verb], sent, []⟩ next

/-- The state of the HTTP services is never entered. -/
theorem DialogueStep.ne_httpOpened {s next : ConnectionState} {o : Observed}
    (step : DialogueStep s o (some next)) (mail : s ≠ .httpOpened) : next ≠ .httpOpened := by
  generalize target : some next = next' at step
  cases step with
  | negotiating _ _ _ _ kind | noData _ kind =>
    subst target
    obtain rfl : next = s := by simpa using kind
    exact mail
  | command _ _ _ _ _ _ _ move =>
    subst target
    generalize target : some next = next' at move
    cases move with
    | quit => cases target
    | rset =>
      cases target
      split <;> decide
    | noop | help | unimplemented | helloTooLong | mailSequence | rcptSequence =>
      cases target
      exact mail
    | data | hello | mail | rcpt | starttls =>
      cases target
      decide
  | tooLong | noMemory => cases target
  | dataMore | unrecognized =>
    cases target
    exact mail
  | opened | negotiated | tooLarge | dataEnd =>
    cases target
    decide

/-- Only DATA is answered 354, and it begins a message. -/
theorem DialogueStep.of_startData {s : ConnectionState} {o : Observed}
    {next : Option ConnectionState} (step : DialogueStep s o next)
    (sent : .startData ∈ o.replies) : some .data ∈ o.parsed ∧ next = some .mailExpectData := by
  cases step with
  | command _ _ _ _ _ _ _ move =>
    cases move with
    | data => exact ⟨List.mem_cons_self, rfl⟩
    | hello _ accept kind => rcases kind with ⟨-, rfl⟩ | ⟨-, rfl⟩ <;> simp at sent
    | _ => simp at sent
  | _ => simp at sent

/-- In the data phase nothing is parsed. -/
theorem DialogueStep.ne_expectData_of_parsed {s : ConnectionState} {o : Observed}
    {next : Option ConnectionState} (step : DialogueStep s o next) {verb : Option SMTPCommand}
    (parsed : verb ∈ o.parsed) : s ≠ .mailExpectData := by
  cases step with
  | unrecognized _ other | command _ _ _ _ _ _ other => exact other
  | _ => cases parsed

/-- Only STARTTLS is answered with its 220. -/
theorem DialogueStep.of_acceptStarttls {s : ConnectionState} {o : Observed}
    {next : Option ConnectionState} (step : DialogueStep s o next)
    (sent : .acceptStarttls ∈ o.replies) : some .starttls ∈ o.parsed := by
  cases step with
  | command _ _ _ _ _ _ _ move =>
    cases move with
    | starttls => exact List.mem_cons_self
    | hello _ accept kind => rcases kind with ⟨-, rfl⟩ | ⟨-, rfl⟩ <;> simp at sent
    | _ => simp at sent
  | _ => simp at sent

/-! ## Refinement -/

/-- The state a handler result leaves to the next turn. -/
def settledState (s : ConnectionState) : ConnectionHandlerResult → Option ConnectionState
  | .continue => some s
  | .reset => some (if s = .mailGreeted then .mailGreeted else .mailExpectAny)
  | .done => none
  | .error => none

theorem state_serveConnection (g : Globals) (t : Turn) (conn : Connection) :
    (serveConnection g t conn).1.map Connection.state =
      settledState (connectionHandler g t conn).conn.state (connectionHandler g t conn).result := by
  unfold serveConnection
  generalize connectionHandler g t conn = handled
  obtain ⟨result, left, events⟩ := handled
  cases result <;> rfl

/-- Settling a connection shows nothing to the client. -/
theorem observe_serveConnection (g : Globals) (t : Turn) (conn : Connection) :
    observe (serveConnection g t conn).2 = observe (connectionHandler g t conn).events := by
  unfold serveConnection
  generalize connectionHandler g t conn = handled
  obtain ⟨result, left, events⟩ := handled
  cases result <;>
    simp [observe, settleConnection, resetConnection, connectionDeinit, Event.reply?,
      Event.parse?, Event.received, Event.handshake?]

section

variable (g : Globals) (t : Turn) (conn : Connection) (events : List Event)

@[simp] theorem observe_nil : observe [] = ⟨[], [], [], []⟩ := rfl

@[simp] theorem observe_smtpSendMsg (reply : Reply) :
    observe (smtpSendMsg g t conn reply) = ⟨[], [], [reply], []⟩ := by
  simp [observe]

@[simp] theorem observe_smtpReceiveMsg :
    observe (smtpReceiveMsg t conn :: events) =
      { observe events with received := t.recv.bytes ++ (observe events).received } := by
  simp [observe]

@[simp] theorem observe_parseClientCommand (buffer : List Byte) (verb : Option SMTPCommand) :
    observe (.parseClientCommand buffer verb :: events) =
      { observe events with parsed := verb :: (observe events).parsed } := rfl

@[simp] theorem observe_sslAccept (ssl : Option Ssl) (ret : Int) :
    observe (.sslAccept ssl ret :: events) =
      { observe events with handshakes := ret :: (observe events).handshakes } := rfl

@[simp] theorem observe_realloc (old new : Option Addr) (size : Nat) :
    observe (.realloc old size new :: events) = observe events := rfl

@[simp] theorem observe_appendEvents (chunk : Chunk) (addr : Addr) :
    observe (appendEvents conn chunk addr ++ events) = observe events := rfl

@[simp] theorem observe_only_appendEvents (chunk : Chunk) (addr : Addr) :
    observe (appendEvents conn chunk addr) = ⟨[], [], [], []⟩ := rfl

end

/-- The command switch moves as `CommandMove` says. -/
theorem commandStep_move {g : Globals} {t : Turn} {conn : Connection} {verb : SMTPCommand}
    {handled : Handled} (step : CommandStep g t conn verb handled) :
    ∃ sent, observe handled.events = ⟨[], [], sent, []⟩ ∧
      CommandMove conn.state verb sent (settledState handled.conn.state handled.result) := by
  cases step with
  | noop => exact ⟨_, rfl, .noop⟩
  | quit => exact ⟨_, observe_smtpSendMsg g t _ _, .quit⟩
  | rset => exact ⟨_, observe_smtpSendMsg g t _ _, .rset⟩
  | data => exact ⟨_, observe_smtpSendMsg g t _ _, .data⟩
  | help => exact ⟨_, observe_smtpSendMsg g t _ _, .help⟩
  | unimplemented _ kind => exact ⟨_, observe_smtpSendMsg g t _ _, .unimplemented verb kind⟩
  | helloTooLong _ _ kind => exact ⟨_, observe_smtpSendMsg g t _ _, .helloTooLong verb kind⟩
  | hello _ accept _ kind => exact ⟨_, observe_smtpSendMsg g t _ _, .hello verb accept kind⟩
  | mailSequence any => exact ⟨_, observe_smtpSendMsg g t _ _, .mailSequence any⟩
  | mail any => exact ⟨_, observe_smtpSendMsg g t _ _, .mail any⟩
  | rcptSequence mailing rcpt =>
    exact ⟨_, observe_smtpSendMsg g t _ _, .rcptSequence mailing rcpt⟩
  | rcpt inside => exact ⟨_, observe_smtpSendMsg g t _ _, .rcpt inside⟩
  | starttls =>
    refine ⟨_, ?_, .starttls⟩
    simp [observe, Event.reply?, Event.parse?, Event.received, Event.handshake?]

/-- **Refinement.** A turn of a live SMTP connection is a step of the dialogue. -/
theorem serveConnection_dialogue (g : Globals) (t : Turn) {conn : Connection}
    (smtp : conn.type = .smtp) (live : conn.live = true) :
    DialogueStep conn.state (observe (serveConnection g t conn).2)
      ((serveConnection g t conn).1.map Connection.state) := by
  have handler := connectionHandler_smtp g t smtp
  rw [observe_serveConnection, state_serveConnection, handler]
  have step := smtpHandler_step g t conn
  generalize smtpHandler g t conn = handled at step ⊢
  cases step with
  | dead dead =>
    rw [live] at dead
    cases dead
  | opened _ opened =>
    rw [observe_smtpSendMsg]
    exact .opened opened
  | tlsRetry _ negotiating failed => exact .negotiating _ _ negotiating failed (Or.inr rfl)
  | tlsFailed _ negotiating failed => exact .negotiating _ _ negotiating failed (Or.inl rfl)
  | tlsDone _ negotiating completed => exact .negotiated _ negotiating completed
  | noData result reading nothing kind =>
    rw [observe_smtpReceiveMsg, nothing]
    obtain rfl | rfl := kind
    · exact .noData _ (Or.inr rfl)
    · exact .noData _ (Or.inl rfl)
  | tooLong chunk reading got other =>
    rw [observe_smtpReceiveMsg, observe_smtpSendMsg]
    exact .tooLong _ other
  | tooLarge chunk reading got data =>
    -- the result is a reset, and from the data phase a reset leads to EXPECT_ANY
    rw [observe_smtpReceiveMsg, observe_smtpSendMsg, data]
    exact .tooLarge _ rfl
  | noMemory chunk reading got data =>
    rw [observe_smtpReceiveMsg, observe_realloc, observe_smtpSendMsg]
    exact .noMemory _ data
  | dataEnd chunk addr reading got data =>
    -- a reset too, but the handler has set GREETED, which it keeps
    rw [List.cons_append, observe_smtpReceiveMsg, observe_appendEvents, observe_smtpSendMsg]
    exact .dataEnd _ data
  | dataMore chunk addr reading got data =>
    rw [observe_smtpReceiveMsg, observe_only_appendEvents]
    exact .dataMore _ data
  | unrecognized chunk reading got other =>
    rw [observe_smtpReceiveMsg, observe_parseClientCommand, observe_smtpSendMsg]
    exact .unrecognized _ other
  | command chunk command reading got other =>
    obtain ⟨sent, shown, move⟩ := commandStep_move (smtpHandleCommand_step g t conn command)
    rw [observe_smtpReceiveMsg, observe_parseClientCommand, shown]
    exact .command _ _ sent _ reading.2.1 reading.2.2 other move

/-- What a turn parses is the command it brings. -/
theorem commandFor_of_parsed {g : Globals} {t : Turn} {conn : Connection} {verb : SMTPCommand}
    (smtp : conn.type = .smtp)
    (parsed : some verb ∈ (observe (serveConnection g t conn).2).parsed) :
    t.commandFor conn = some verb := by
  have handler := connectionHandler_smtp g t smtp
  rw [observe_serveConnection, handler] at parsed
  have step := smtpHandler_step g t conn
  generalize smtpHandler g t conn = handled at step parsed
  cases step with
  | command chunk command reading got other short found =>
    obtain ⟨sent, shown, -⟩ := commandStep_move (smtpHandleCommand_step g t conn command)
    rw [observe_smtpReceiveMsg, observe_parseClientCommand, shown] at parsed
    rw [List.mem_singleton] at parsed
    rw [commandFor_eq reading got other short found, parsed]
  | _ => simp at parsed

/-- A command that a turn brings is parsed. -/
theorem parses_of_commandFor (g : Globals) {t : Turn} {conn : Connection} {verb : SMTPCommand}
    (smtp : conn.type = .smtp) (brings : t.commandFor conn = some verb) :
    parses (serveConnection g t conn).2 = [some verb] := by
  obtain ⟨chunk, param, reading, got, other, short, parsed⟩ := exists_of_commandFor brings
  obtain ⟨sent, shown, -⟩ := commandStep_move (smtpHandleCommand_step g t conn ⟨verb, param⟩)
  have handler := smtpHandler_of_command g reading other got short
  rw [parsed] at handler
  have seen := congrArg Observed.parsed (observe_serveConnection g t conn)
  rw [connectionHandler_smtp g t smtp, handler, observe_smtpReceiveMsg,
    observe_parseClientCommand, shown] at seen
  exact seen

theorem commandFor_iff_parsed (g : Globals) {t : Turn} {conn : Connection} {verb : SMTPCommand}
    (smtp : conn.type = .smtp) : t.commandFor conn = some verb ↔
      some verb ∈ (observe (serveConnection g t conn).2).parsed := by
  constructor
  · intro brings
    have parsed : (observe (serveConnection g t conn).2).parsed = [some verb] :=
      parses_of_commandFor g smtp brings
    rw [parsed]
    exact List.mem_cons_self
  · exact commandFor_of_parsed smtp

/-! ## Runs -/

/-- What a history of a connection shows, newest turn first. -/
def seen (h : SessionHistory) : List Observed := h.map fun e => observe e.output

@[simp] theorem seen_cons (e : Entry (Option Connection) Turn (List Event)) (h : SessionHistory) :
    seen (e :: h) = observe e.output :: seen h := rfl

/-- A new SMTP connection. -/
def smtpStart (g : Globals) (s : Option Connection) : Prop :=
  ∃ a strat, s = some (acceptedConnection g a .smtp strat)

theorem clientsocket_serveConnection {g : Globals} {t : Turn} {conn conn' : Connection}
    (kept : (serveConnection g t conn).1 = some conn') : conn'.clientsocket = conn.clientsocket := by
  have same := (footprint_connectionHandler g t conn).clientsocket
  obtain ⟨-, rfl⟩ | ⟨-, rfl⟩ := serveConnection_of_kept kept
  · exact same
  · exact same

/-- A turn leaves a kept connection live and of its type. -/
theorem serveConnection_keeps {g : Globals} {t : Turn} {conn conn' : Connection}
    (live : conn.live = true) (kept : (serveConnection g t conn).1 = some conn') :
    conn'.live = true ∧ conn'.type = conn.type ∧ conn'.clientsocket = conn.clientsocket ∧
      conn'.sslstrat = conn.sslstrat ∧ conn'.sslconn = (connectionHandler g t conn).conn.sslconn := by
  obtain ⟨sameLive, sameType, sameSocket, sameStrat, -⟩ := footprint_connectionHandler g t conn
  obtain ⟨-, rfl⟩ | ⟨-, rfl⟩ := serveConnection_of_kept kept
  · exact ⟨sameLive.trans live, sameType, sameSocket, sameStrat, rfl⟩
  · exact ⟨rfl, sameType, sameSocket, sameStrat, rfl⟩

/-- **Invariant rule for the dialogue.**  What holds of a connection just opened and
    is kept by every allowed turn, seen as a step of the dialogue, holds along
    every run. -/
theorem dialogue_invariant {g : Globals}
    {allowed : SessionHistory → Option Connection → Turn → Prop}
    (inv : List Observed → ConnectionState → Prop) (initial : inv [] .mailOpened)
    (preserved : ∀ h conn t next, conn.type = .smtp → conn.state ≠ .httpOpened →
      inv (seen h) conn.state → allowed h (some conn) t →
      DialogueStep conn.state (observe ((session g).step (some conn) t).2) (some next) →
      inv (observe ((session g).step (some conn) t).2 :: seen h) next)
    {h : SessionHistory} {s : Option Connection}
    (reaches : (session g).Reaches (smtpStart g) allowed h s) (conn : Connection)
    (here : s = some conn) :
    conn.type = .smtp ∧ conn.live = true ∧ conn.state ≠ .httpOpened ∧ inv (seen h) conn.state := by
  revert conn
  apply Machine.Reaches.invariant
    (fun h s => ∀ conn, s = some conn → conn.type = .smtp ∧ conn.live = true ∧
      conn.state ≠ .httpOpened ∧ inv (seen h) conn.state) _ _ reaches
  · rintro s ⟨a, strat, rfl⟩ conn same
    cases same
    rw [state_acceptedConnection_smtp]
    exact ⟨type_acceptedConnection g a _ strat, live_acceptedConnection g a _ strat, by decide,
      initial⟩
  · intro h s t ih ok conn' kept
    cases s with
    | none => cases kept
    | some conn =>
      obtain ⟨smtp, live, mail, holds⟩ := ih conn rfl
      have keeps := serveConnection_keeps live kept
      have step := serveConnection_dialogue g t smtp live
      have kept' : (serveConnection g t conn).1 = some conn' := kept
      rw [kept'] at step
      exact ⟨keeps.2.1.trans smtp, keeps.1, step.ne_httpOpened mail,
        preserved h conn t conn'.state smtp mail holds ok step⟩

/-- Whatever its run, an SMTP connection that is kept is live and of its type. -/
theorem smtp_of_reaches {g : Globals} {allowed : SessionHistory → Option Connection → Turn → Prop}
    {h : SessionHistory} {conn : Connection}
    (reaches : (session g).Reaches (smtpStart g) allowed h (some conn)) :
    conn.type = .smtp ∧ conn.live = true := by
  obtain ⟨smtp, live, -⟩ := dialogue_invariant (fun _ _ => True) trivial
    (fun _ _ _ _ _ _ _ _ _ => trivial) reaches conn rfl
  exact ⟨smtp, live⟩

/-- **Rule for the entries of a run.**  What holds of every turn of a live SMTP connection,
    and of the turns behind its end, holds of each entry. -/
theorem entries_of_reaches {g : Globals} {allowed : SessionHistory → Option Connection → Turn → Prop}
    {holds : Entry (Option Connection) Turn (List Event) → Prop} (gone : ∀ t, holds ⟨none, t, []⟩)
    (turn : ∀ conn t, conn.type = .smtp → conn.live = true →
      holds ⟨some conn, t, (serveConnection g t conn).2⟩)
    {h : SessionHistory} {s : Option Connection}
    (reaches : (session g).Reaches (smtpStart g) allowed h s) : ∀ e ∈ h, holds e := by
  induction reaches with
  | start => simp
  | @step h s t reaches ok ih =>
    refine List.forall_mem_cons.mpr ⟨?_, ih⟩
    cases s with
    | none => exact gone t
    | some conn =>
      obtain ⟨smtp, live⟩ := smtp_of_reaches reaches
      exact turn conn t smtp live

/-! ## A connection to try -/

/-- A mail domain to try, without TLS. -/
def maileyGlobals : Globals := ⟨ascii "mail.mailey.femail", none⟩

/-- A connection to it, just accepted. -/
def maileyConnection : Option Connection :=
  some (acceptedConnection maileyGlobals (.onSocket 5 Connection.zero) .smtp .noSsl)

theorem maileyConnection_start : smtpStart maileyGlobals maileyConnection :=
  ⟨_, _, rfl⟩

theorem maileyConnection_reaches (turns : List Turn) :
    (session maileyGlobals).Reaches (smtpStart maileyGlobals) Machine.anyStep
      ((session maileyGlobals).trace [] maileyConnection turns).1
      ((session maileyGlobals).trace [] maileyConnection turns).2 :=
  (Machine.Reaches.start maileyConnection_start).trace turns (Machine.admits_anyStep _ _ _ _)

/-- A client that sends DATA. -/
def dataTurn : Turn := .sends (ascii "DATA\r\n") (by decide) (by decide)

def starttlsTurn : Turn := .sends (ascii "STARTTLS\r\n") (by decide) (by decide)

def ehloTurn : Turn := .sends (ascii "EHLO mail.failey.femail\r\n") (by decide) (by decide)

def quitTurn : Turn := .sends (ascii "QUIT\r\n") (by decide) (by decide)

/-- A client that sends one byte of message text. -/
def textTurn : Turn := .sends [97] (by decide) (by decide)

/-- A client that sends the end marker. -/
def markerTurn : Turn := .sends crlfDotCrlf (by decide) (by decide)

/-- The server of that domain as it starts with or without a TLS context. -/
def serverWith (sslctx : Option SslCtx) : Server where
  maildomain := ascii "mail.mailey.femail" ++ List.replicate 237 0
  sslctx := sslctx
  smtpctx := ⟨⟨true, 3, 4⟩, sslctx.isSome⟩
  smtpsctx := if sslctx.isSome then ⟨true, 3, 4⟩ else .zero
  starttlsctx := if sslctx.isSome then ⟨true, 3, 4⟩ else .zero
  httpctx := ⟨true, 3, 4⟩
  httpsctx := if sslctx.isSome then ⟨true, 3, 4⟩ else .zero

end Femail
