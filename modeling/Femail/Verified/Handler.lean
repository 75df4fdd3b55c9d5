import Femail.Server.Master

/-! # What one turn of a connection can do

`SmtpStep` lists the outcomes of one `smtpHandler` call with the conditions under
which each is taken; invariants are proved by cases on it.  A turn is observed
through the replies it sends (`replies`), the calls of `parse_client_command` it
makes (`parses`), the bytes it reads (`received`) and the results of `SSL_accept`
(`handshakes`).
-/

namespace Femail

open Foundation

/-- The turn of a client that sends nothing. -/
def Turn.silent : Turn where
  recv := .fail (some ewouldblock)
  errno := 0
  sslAccept := -1
  sslGetError := .wantRead
  sslNew := some 1
  realloc := some 1
  fresh := fun _ => 0
  spill := fun _ => 0
  now := 0

/-- The turn of a client that sends a line of text. -/
def Turn.sends (line : List Byte) (nonempty : 0 < line.length) (fits : line.length ≤ smallBufferSize) :
    Turn :=
  { Turn.silent with recv := .data ⟨line, nonempty, fits⟩ }

/-! ## Observations -/

def Event.reply? : Event → Option Reply
  | .dprintf _ (.smtp reply) _ => some reply
  | .sslWrite _ (.smtp reply) _ => some reply
  | _ => none

def Event.parse? : Event → Option (Option SMTPCommand)
  | .parseClientCommand _ parsed => some parsed
  | _ => none

def Event.received : Event → List Byte
  | .read _ (.data chunk) => chunk.bytes
  | .sslRead _ (.data chunk) => chunk.bytes
  | _ => []

def Event.handshake? : Event → Option Int
  | .sslAccept _ ret => some ret
  | _ => none

/-- The SMTP replies sent, in order. -/
def replies (events : List Event) : List Reply := events.filterMap Event.reply?

/-- The calls of `parse_client_command`, each with the verb it found. -/
def parses (events : List Event) : List (Option SMTPCommand) := events.filterMap Event.parse?

/-- The bytes read. -/
def received (events : List Event) : List Byte := events.flatMap Event.received

/-- The results of `SSL_accept`. -/
def handshakes (events : List Event) : List Int := events.filterMap Event.handshake?

section

variable (e : Event) (es es' : List Event)

@[simp] theorem replies_append : replies (es ++ es') = replies es ++ replies es' :=
  List.filterMap_append

@[simp] theorem parses_append : parses (es ++ es') = parses es ++ parses es' :=
  List.filterMap_append

@[simp] theorem received_append : received (es ++ es') = received es ++ received es' :=
  List.flatMap_append

@[simp] theorem handshakes_append : handshakes (es ++ es') = handshakes es ++ handshakes es' :=
  List.filterMap_append

@[simp] theorem replies_cons : replies (e :: es) = e.reply?.toList ++ replies es := by
  cases h : e.reply? <;> simp [replies, h]

@[simp] theorem parses_cons : parses (e :: es) = e.parse?.toList ++ parses es := by
  cases h : e.parse? <;> simp [parses, h]

@[simp] theorem received_cons : received (e :: es) = e.received ++ received es := rfl

@[simp] theorem handshakes_cons : handshakes (e :: es) = e.handshake?.toList ++ handshakes es := by
  cases h : e.handshake? <;> simp [handshakes, h]

@[simp] theorem replies_nil : replies [] = [] := rfl
@[simp] theorem parses_nil : parses [] = [] := rfl
@[simp] theorem received_nil : received [] = [] := rfl
@[simp] theorem handshakes_nil : handshakes [] = [] := rfl

end

/-! ## Sending and receiving -/

theorem Reply.length_text_pos (g : Globals) (conn : Connection) (reply : Reply) :
    0 < (reply.text g conn).length := by
  -- the texts with names in them begin with a literal
  have first : ∀ {s rest : List Byte}, s ≠ [] → 0 < (s ++ rest).length := by
    intro s rest nonempty
    have := List.length_pos_iff.mpr nonempty
    rw [List.length_append]
    omega
  cases reply with
  | acceptConnection | acceptHello | acceptEhello =>
    simp only [Reply.text, List.append_assoc]
    exact first (by decide)
  | _ =>
    simp only [Reply.text]
    decide

/-- The one event of a reply: which channel it takes is decided by `sslconn`. -/
theorem smtpSendMsg_eq (g : Globals) (t : Turn) (conn : Connection) (reply : Reply) :
    smtpSendMsg g t conn reply =
      match conn.sslconn with
      | some ssl =>
        [.sslWrite (some ssl) (.smtp reply) (snprintfPayload (reply.text g conn) t.spill)]
      | none => [.dprintf conn.clientsocket (.smtp reply) (reply.text g conn)] := by
  unfold smtpSendMsg
  cases conn.sslconn with
  | none => rfl
  | some ssl => simp [Reply.length_text_pos g conn reply]

section

variable (g : Globals) (t : Turn) (conn : Connection) (reply : Reply)

@[simp] theorem replies_smtpSendMsg : replies (smtpSendMsg g t conn reply) = [reply] := by
  rw [smtpSendMsg_eq]; cases conn.sslconn <;> rfl

@[simp] theorem parses_smtpSendMsg : parses (smtpSendMsg g t conn reply) = [] := by
  rw [smtpSendMsg_eq]; cases conn.sslconn <;> rfl

@[simp] theorem received_smtpSendMsg : received (smtpSendMsg g t conn reply) = [] := by
  rw [smtpSendMsg_eq]; cases conn.sslconn <;> rfl

@[simp] theorem handshakes_smtpSendMsg : handshakes (smtpSendMsg g t conn reply) = [] := by
  rw [smtpSendMsg_eq]; cases conn.sslconn <;> rfl

@[simp] theorem reply?_smtpReceiveMsg : (smtpReceiveMsg t conn).reply? = none := by
  unfold smtpReceiveMsg; cases conn.sslconn <;> rfl

@[simp] theorem parse?_smtpReceiveMsg : (smtpReceiveMsg t conn).parse? = none := by
  unfold smtpReceiveMsg; cases conn.sslconn <;> rfl

@[simp] theorem handshake?_smtpReceiveMsg : (smtpReceiveMsg t conn).handshake? = none := by
  unfold smtpReceiveMsg; cases conn.sslconn <;> rfl

/-- The bytes a read outcome delivers. -/
def Recv.bytes : Recv → List Byte
  | .data chunk => chunk.bytes
  | _ => []

@[simp] theorem received_smtpReceiveMsg : (smtpReceiveMsg t conn).received = t.recv.bytes := by
  unfold smtpReceiveMsg
  cases conn.sslconn <;> cases t.recv <;> rfl

end

/-! ## The outcomes of `smtpHandler` -/

/-- A live connection whose next turn reads from the client. -/
def Connection.Reading (conn : Connection) : Prop :=
  conn.live = true ∧ conn.state ≠ .mailOpened ∧ conn.state ≠ .mailExpectTlsNeg

/-- The size of the message block once `conn` has room for one more read. -/
def Connection.nextSize (conn : Connection) : Nat := (conn.alloccount + 1) * smallBufferSize + 1

/-- The record after a chunk has been appended to the message. -/
def Connection.appended (t : Turn) (conn : Connection) (chunk : Chunk) (addr : Addr) : Connection :=
  { conn with
    alloccount := conn.alloccount + 1
    messagebufferend := conn.messagebufferend + chunk.bytes.length
    messagebuffer := some ⟨addr, appendedBytes t conn chunk conn.nextSize⟩ }

/-- The heap calls of an append. -/
def appendEvents (conn : Connection) (chunk : Chunk) (addr : Addr) : List Event :=
  [.realloc (conn.messagebuffer.map Block.addr) conn.nextSize (some addr),
   .store addr conn.messagebufferend chunk.bytes.length,
   .store addr (conn.messagebufferend + chunk.bytes.length) 1]

inductive SmtpStep (g : Globals) (t : Turn) (conn : Connection) : Handled → Prop where
  | dead : conn.live = false → SmtpStep g t conn ⟨.done, conn, []⟩
  | opened : conn.live = true → conn.state = .mailOpened →
      SmtpStep g t conn ⟨.continue, { conn with state := .mailExpectAny },
        smtpSendMsg g t conn .acceptConnection⟩
  | tlsRetry : conn.live = true → conn.state = .mailExpectTlsNeg → t.sslAccept ≤ 0 →
      SmtpStep g t conn ⟨.continue, conn, [.sslAccept conn.sslconn t.sslAccept]⟩
  | tlsFailed : conn.live = true → conn.state = .mailExpectTlsNeg → t.sslAccept ≤ 0 →
      SmtpStep g t conn ⟨.error, conn, [.sslAccept conn.sslconn t.sslAccept]⟩
  | tlsDone : conn.live = true → conn.state = .mailExpectTlsNeg → 0 < t.sslAccept →
      SmtpStep g t conn ⟨.continue, { conn with state := .mailExpectAny },
        [.sslAccept conn.sslconn t.sslAccept]⟩
  | noData (result : ConnectionHandlerResult) :
      conn.Reading → t.recv.bytes = [] → result = .continue ∨ result = .error →
      SmtpStep g t conn ⟨result, conn, [smtpReceiveMsg t conn]⟩
  | tooLong (chunk : Chunk) : conn.Reading → t.recv = .data chunk →
      conn.state ≠ .mailExpectData → smallBufferSize - 1 ≤ chunk.bytes.length →
      SmtpStep g t conn ⟨.error, conn,
        smtpReceiveMsg t conn :: smtpSendMsg g t conn .rejectTooLong⟩
  | tooLarge (chunk : Chunk) : conn.Reading → t.recv = .data chunk →
      conn.state = .mailExpectData → esmtpSize < conn.nextSize →
      SmtpStep g t conn ⟨.reset, { conn with alloccount := conn.alloccount + 1 },
        smtpReceiveMsg t conn ::
          smtpSendMsg g t { conn with alloccount := conn.alloccount + 1 } .rejectTooLarge⟩
  | noMemory (chunk : Chunk) : conn.Reading → t.recv = .data chunk →
      conn.state = .mailExpectData → conn.nextSize ≤ esmtpSize → t.realloc = none →
      SmtpStep g t conn
        ⟨.error, { conn with alloccount := conn.alloccount + 1, messagebuffer := none },
          smtpReceiveMsg t conn ::
            .realloc (conn.messagebuffer.map Block.addr) conn.nextSize none ::
            smtpSendMsg g t { conn with alloccount := conn.alloccount + 1 } .rejectError⟩
  | dataEnd (chunk : Chunk) (addr : Addr) : conn.Reading → t.recv = .data chunk →
      conn.state = .mailExpectData → conn.nextSize ≤ esmtpSize → t.realloc = some addr →
      foundCrlfEnd (appendedBytes t conn chunk conn.nextSize) = true →
      SmtpStep g t conn
        ⟨.reset, { conn.appended t chunk addr with state := .mailGreeted },
          smtpReceiveMsg t conn :: appendEvents conn chunk addr ++
            smtpSendMsg g t { conn.appended t chunk addr with state := .mailGreeted } .acceptOk⟩
  | dataMore (chunk : Chunk) (addr : Addr) : conn.Reading → t.recv = .data chunk →
      conn.state = .mailExpectData → conn.nextSize ≤ esmtpSize → t.realloc = some addr →
      foundCrlfEnd (appendedBytes t conn chunk conn.nextSize) = false →
      SmtpStep g t conn ⟨.continue, conn.appended t chunk addr,
        smtpReceiveMsg t conn :: appendEvents conn chunk addr⟩
  | unrecognized (chunk : Chunk) : conn.Reading → t.recv = .data chunk →
      conn.state ≠ .mailExpectData → chunk.bytes.length < smallBufferSize - 1 →
      parseClientCommand (readBuffer chunk) = none →
      SmtpStep g t conn ⟨.continue, conn,
        smtpReceiveMsg t conn :: .parseClientCommand (readBuffer chunk) none ::
          smtpSendMsg g t conn .rejectUnrecognized⟩
  | command (chunk : Chunk) (command : SMTPClientCommand) : conn.Reading → t.recv = .data chunk →
      conn.state ≠ .mailExpectData → chunk.bytes.length < smallBufferSize - 1 →
      parseClientCommand (readBuffer chunk) = some command →
      SmtpStep g t conn
        { smtpHandleCommand g t conn command with
          events := smtpReceiveMsg t conn ::
            .parseClientCommand (readBuffer chunk) (some command.command) ::
              (smtpHandleCommand g t conn command).events }

/-- The outcomes of a read in the data phase. -/
theorem smtpHandleData_step (g : Globals) (t : Turn) (conn : Connection) (chunk : Chunk)
    (reading : conn.Reading) (got : t.recv = .data chunk) (data : conn.state = .mailExpectData) :
    SmtpStep g t conn { smtpHandleData g t conn chunk with
      events := smtpReceiveMsg t conn :: (smtpHandleData g t conn chunk).events } := by
  unfold smtpHandleData
  dsimp only
  by_cases large : (conn.alloccount + 1) * smallBufferSize + 1 > esmtpSize
  · rw [if_pos large]
    exact .tooLarge chunk reading got data large
  · rw [if_neg large]
    have fits : conn.nextSize ≤ esmtpSize := Nat.le_of_not_lt large
    cases memory : t.realloc with
    | none => exact .noMemory chunk reading got data fits memory
    | some addr =>
      dsimp only
      split
      · rename_i found
        exact .dataEnd chunk addr reading got data fits memory found
      · rename_i missing
        exact .dataMore chunk addr reading got data fits memory (Bool.eq_false_iff.mpr missing)

/-- The outcomes of a read that brings data. -/
theorem smtpHandleChunk_step (g : Globals) (t : Turn) (conn : Connection) (chunk : Chunk)
    (reading : conn.Reading) (got : t.recv = .data chunk) :
    SmtpStep g t conn { smtpHandleChunk g t conn chunk with
      events := smtpReceiveMsg t conn :: (smtpHandleChunk g t conn chunk).events } := by
  unfold smtpHandleChunk
  by_cases data : conn.state = .mailExpectData
  · -- in the data phase no read is too long
    rw [if_neg (fun long => long.2 data), if_pos data]
    exact smtpHandleData_step g t conn chunk reading got data
  · by_cases long : chunk.bytes.length ≥ smallBufferSize - 1
    · rw [if_pos ⟨long, data⟩]
      exact .tooLong chunk reading got data long
    · rw [if_neg (fun both => long both.1), if_neg data]
      cases parsed : parseClientCommand (readBuffer chunk) with
      | none => exact .unrecognized chunk reading got data (Nat.lt_of_not_le long) parsed
      | some command => exact .command chunk command reading got data (Nat.lt_of_not_le long) parsed

/-- The outcomes of a turn that reads. -/
theorem smtpHandleRead_step (g : Globals) (t : Turn) (conn : Connection) (reading : conn.Reading) :
    SmtpStep g t conn { smtpHandleRead g t conn with
      events := smtpReceiveMsg t conn :: (smtpHandleRead g t conn).events } := by
  unfold smtpHandleRead
  cases got : t.recv with
  | data chunk => exact smtpHandleChunk_step g t conn chunk reading got
  | eof => exact .noData .error reading (by simp [got, Recv.bytes]) (Or.inr rfl)
  | fail errno =>
    have nothing : t.recv.bytes = [] := by simp [got, Recv.bytes]
    dsimp only
    split
    · exact .noData .continue reading nothing (Or.inl rfl)
    · exact .noData .error reading nothing (Or.inr rfl)

theorem smtpNegotiate_step (g : Globals) (t : Turn) (conn : Connection)
    (live : conn.live = true) (negotiating : conn.state = .mailExpectTlsNeg) :
    SmtpStep g t conn (smtpNegotiate t conn) := by
  unfold smtpNegotiate
  dsimp only
  split
  · rename_i failed
    cases t.sslGetError with
    | wantRead => exact .tlsRetry live negotiating failed
    | wantWrite => exact .tlsRetry live negotiating failed
    | other code => exact .tlsFailed live negotiating failed
  · rename_i completed
    exact .tlsDone live negotiating (by omega)

/-- A turn that brings a command, or something that is none. -/
theorem smtpHandler_of_command (g : Globals) {t : Turn} {conn : Connection} {chunk : Chunk}
    (reading : conn.Reading) (other : conn.state ≠ .mailExpectData) (got : t.recv = .data chunk)
    (short : chunk.bytes.length < smallBufferSize - 1) :
    smtpHandler g t conn =
      match parseClientCommand (readBuffer chunk) with
      | none => ⟨.continue, conn, smtpReceiveMsg t conn ::
          .parseClientCommand (readBuffer chunk) none :: smtpSendMsg g t conn .rejectUnrecognized⟩
      | some command =>
        { smtpHandleCommand g t conn command with
          events := smtpReceiveMsg t conn ::
            .parseClientCommand (readBuffer chunk) (some command.command) ::
              (smtpHandleCommand g t conn command).events } := by
  obtain ⟨live, opened, negotiating⟩ := reading
  have long : ¬ (chunk.bytes.length ≥ smallBufferSize - 1 ∧ conn.state ≠ .mailExpectData) := by
    omega
  simp only [smtpHandler, live, Bool.not_true, Bool.false_eq_true, if_false, if_neg opened,
    if_neg negotiating, smtpHandleRead, got, smtpHandleChunk, if_neg long, if_neg other]
  cases parseClientCommand (readBuffer chunk) <;> rfl

theorem connectionHandler_smtp (g : Globals) (t : Turn) {conn : Connection}
    (smtp : conn.type = .smtp) : connectionHandler g t conn = smtpHandler g t conn := by
  simp only [connectionHandler, smtp]

theorem httpHandleRead_conn (t : Turn) (conn : Connection) (response : Event) :
    (httpHandleRead t conn response).conn = conn := by
  unfold httpHandleRead
  cases t.recv with
  | eof => rfl
  | fail | data => dsimp only; split <;> rfl

/-- Only SMTP keeps something in the record from turn to turn. -/
theorem connectionHandler_conn (g : Globals) (t : Turn) {conn : Connection}
    (other : conn.type ≠ .smtp) : (connectionHandler g t conn).conn = conn := by
  unfold connectionHandler
  cases type : conn.type with
  | smtp => exact absurd type other
  | smtps =>
    dsimp only [smtpsHandler]
    split
    · rfl
    · split <;> rfl
  | starttls =>
    dsimp only [starttlsHandler]
    split <;> rfl
  | http =>
    dsimp only [httpHandler]
    split
    · rfl
    · exact httpHandleRead_conn t conn _
  | https =>
    dsimp only [httpsHandler]
    split
    · rfl
    · split
      · rfl
      · exact httpHandleRead_conn t conn _

/-- Every call of `smtpHandler` has one of the outcomes of `SmtpStep`. -/
theorem smtpHandler_step (g : Globals) (t : Turn) (conn : Connection) :
    SmtpStep g t conn (smtpHandler g t conn) := by
  unfold smtpHandler
  split
  · rename_i dead
    exact .dead (by simpa using dead)
  · rename_i alive
    have live : conn.live = true := by simpa using alive
    split
    · rename_i opened
      exact .opened live opened
    · rename_i opened
      split
      · rename_i negotiating
        exact smtpNegotiate_step g t conn live negotiating
      · rename_i negotiating
        exact smtpHandleRead_step g t conn ⟨live, opened, negotiating⟩

theorem Turn.bytes_ne_nil {t : Turn} {chunk : Chunk} (got : t.recv = .data chunk) :
    t.recv.bytes ≠ [] := by
  rw [got]
  exact List.ne_nil_of_length_pos chunk.nonempty

/-- The outcomes in the data phase. -/
inductive DataStep (g : Globals) (t : Turn) (conn : Connection) : Handled → Prop where
  | noData (result : ConnectionHandlerResult) : t.recv.bytes = [] →
      result = .continue ∨ result = .error →
      DataStep g t conn ⟨result, conn, [smtpReceiveMsg t conn]⟩
  | tooLarge (chunk : Chunk) : t.recv = .data chunk → esmtpSize < conn.nextSize →
      DataStep g t conn ⟨.reset, { conn with alloccount := conn.alloccount + 1 },
        smtpReceiveMsg t conn ::
          smtpSendMsg g t { conn with alloccount := conn.alloccount + 1 } .rejectTooLarge⟩
  | noMemory (chunk : Chunk) : t.recv = .data chunk → conn.nextSize ≤ esmtpSize →
      t.realloc = none →
      DataStep g t conn
        ⟨.error, { conn with alloccount := conn.alloccount + 1, messagebuffer := none },
          smtpReceiveMsg t conn ::
            .realloc (conn.messagebuffer.map Block.addr) conn.nextSize none ::
            smtpSendMsg g t { conn with alloccount := conn.alloccount + 1 } .rejectError⟩
  | ends (chunk : Chunk) (addr : Addr) : t.recv = .data chunk → conn.nextSize ≤ esmtpSize →
      t.realloc = some addr → foundCrlfEnd (appendedBytes t conn chunk conn.nextSize) = true →
      DataStep g t conn
        ⟨.reset, { conn.appended t chunk addr with state := .mailGreeted },
          smtpReceiveMsg t conn :: appendEvents conn chunk addr ++
            smtpSendMsg g t { conn.appended t chunk addr with state := .mailGreeted } .acceptOk⟩
  | more (chunk : Chunk) (addr : Addr) : t.recv = .data chunk → conn.nextSize ≤ esmtpSize →
      t.realloc = some addr → foundCrlfEnd (appendedBytes t conn chunk conn.nextSize) = false →
      DataStep g t conn ⟨.continue, conn.appended t chunk addr,
        smtpReceiveMsg t conn :: appendEvents conn chunk addr⟩

theorem smtpHandler_dataStep (g : Globals) (t : Turn) {conn : Connection} (live : conn.live = true)
    (data : conn.state = .mailExpectData) : DataStep g t conn (smtpHandler g t conn) := by
  have step := smtpHandler_step g t conn
  generalize smtpHandler g t conn = handled at step ⊢
  cases step with
  | dead dead =>
    rw [live] at dead
    cases dead
  | opened _ state | tlsRetry _ state | tlsFailed _ state | tlsDone _ state =>
    rw [data] at state
    cases state
  | tooLong _ _ _ other | unrecognized _ _ _ other | command _ _ _ _ other => exact absurd data other
  | noData result _ nothing kind => exact .noData result nothing kind
  | tooLarge chunk _ got _ large => exact .tooLarge chunk got large
  | noMemory chunk _ got _ fits failed => exact .noMemory chunk got fits failed
  | dataEnd chunk addr _ got _ fits memory found => exact .ends chunk addr got fits memory found
  | dataMore chunk addr _ got _ fits memory missing => exact .more chunk addr got fits memory missing

/-! ## The outcomes of a command -/

/-- The outcomes of the command switch, by verb. -/
inductive CommandStep (g : Globals) (t : Turn) (conn : Connection) :
    SMTPCommand → Handled → Prop where
  | noop : CommandStep g t conn .noop ⟨.continue, conn, []⟩
  | quit : CommandStep g t conn .quit ⟨.done, conn, smtpSendMsg g t conn .acceptGoodbye⟩
  | rset : CommandStep g t conn .rset ⟨.reset, conn, smtpSendMsg g t conn .acceptOk⟩
  | data : CommandStep g t conn .data
      ⟨.continue, { conn with state := .mailExpectData },
        smtpSendMsg g t { conn with state := .mailExpectData } .startData⟩
  | help : CommandStep g t conn .help ⟨.continue, conn, smtpSendMsg g t conn .acceptOk⟩
  | unimplemented (verb : SMTPCommand) : verb = .vrfy ∨ verb = .expn →
      CommandStep g t conn verb ⟨.continue, conn, smtpSendMsg g t conn .rejectUnimplemented⟩
  | helloTooLong (verb : SMTPCommand) (field : Vector Byte mailclientdomainRoom) :
      verb = .helo ∨ verb = .ehlo →
      CommandStep g t conn verb
        ⟨.continue, { conn with mailclientdomain := field },
          smtpSendMsg g t { conn with mailclientdomain := field } .rejectTooLong⟩
  | hello (verb : SMTPCommand) (accept : Reply) (field : Vector Byte mailclientdomainRoom) :
      verb = .helo ∧ accept = .acceptHello ∨ verb = .ehlo ∧ accept = .acceptEhello →
      CommandStep g t conn verb
        ⟨.continue, { conn with mailclientdomain := field, state := .mailGreeted },
          smtpSendMsg g t { conn with mailclientdomain := field, state := .mailGreeted } accept⟩
  | mailSequence : conn.state = .mailExpectAny →
      CommandStep g t conn .mail ⟨.continue, conn, smtpSendMsg g t conn .rejectSequence⟩
  | mail : conn.state ≠ .mailExpectAny →
      CommandStep g t conn .mail
        ⟨.continue, { conn with state := .mailMailing },
          smtpSendMsg g t { conn with state := .mailMailing } .acceptOk⟩
  | rcptSequence : conn.state ≠ .mailMailing → conn.state ≠ .mailRcpt →
      CommandStep g t conn .rcpt ⟨.continue, conn, smtpSendMsg g t conn .rejectSequence⟩
  | rcpt : conn.state = .mailMailing ∨ conn.state = .mailRcpt →
      CommandStep g t conn .rcpt
        ⟨.continue, { conn with state := .mailRcpt },
          smtpSendMsg g t { conn with state := .mailRcpt } .acceptOk⟩
  | starttls :
      CommandStep g t conn .starttls
        ⟨.continue,
          { conn with state := .mailExpectTlsNeg, sslconn := sslNewResult g t.sslNew },
          smtpSendMsg g t { conn with state := .mailExpectTlsNeg } .acceptStarttls ++
            [.sslNew g.sslctx (sslNewResult g t.sslNew),
             .sslSetFd (sslNewResult g t.sslNew) conn.clientsocket]⟩

theorem smtpHandleHello_step (g : Globals) (t : Turn) (conn : Connection) (param : List Byte)
    {verb : SMTPCommand} {accept : Reply}
    (kind : verb = .helo ∧ accept = .acceptHello ∨ verb = .ehlo ∧ accept = .acceptEhello) :
    CommandStep g t conn verb (smtpHandleHello g t conn param accept) := by
  unfold smtpHandleHello moveClientMailDomain
  dsimp only
  split
  · exact .helloTooLong verb _ (kind.imp And.left And.left)
  · exact .hello verb accept _ kind

theorem smtpHandleCommand_step (g : Globals) (t : Turn) (conn : Connection)
    (command : SMTPClientCommand) :
    CommandStep g t conn command.command (smtpHandleCommand g t conn command) := by
  obtain ⟨verb, param⟩ := command
  cases verb with
  | noop => exact .noop
  | quit => exact .quit
  | rset => exact .rset
  | data => exact .data
  | help => exact .help
  | helo => exact smtpHandleHello_step g t conn _ (Or.inl ⟨rfl, rfl⟩)
  | ehlo => exact smtpHandleHello_step g t conn _ (Or.inr ⟨rfl, rfl⟩)
  | vrfy => exact .unimplemented .vrfy (Or.inl rfl)
  | expn => exact .unimplemented .expn (Or.inr rfl)
  | starttls => exact .starttls
  | mail =>
    dsimp only [smtpHandleCommand]
    by_cases any : conn.state = .mailExpectAny
    · rw [if_pos any]
      exact .mailSequence any
    · rw [if_neg any]
      exact .mail any
  | rcpt =>
    dsimp only [smtpHandleCommand]
    by_cases outside : conn.state ≠ .mailMailing ∧ conn.state ≠ .mailRcpt
    · rw [if_pos outside]
      exact .rcptSequence outside.1 outside.2
    · rw [if_neg outside]
      refine .rcpt ?_
      by_cases mailing : conn.state = .mailMailing
      · exact Or.inl mailing
      · exact Or.inr (by_contra fun other => outside ⟨mailing, other⟩)

/-! ## The footprint of a handler -/

/-- The verb of the command that a turn brings to a connection: none if the
    connection will not read, reads message text, or the read is too long or not a
    command. -/
def Turn.commandFor (t : Turn) (conn : Connection) : Option SMTPCommand :=
  match t.recv with
  | .data chunk =>
    if conn.live = true ∧ conn.state ≠ .mailOpened ∧ conn.state ≠ .mailExpectTlsNeg ∧
        conn.state ≠ .mailExpectData ∧ chunk.bytes.length < smallBufferSize - 1 then
      (parseClientCommand (readBuffer chunk)).map SMTPClientCommand.command
    else none
  | _ => none

theorem commandFor_eq {t : Turn} {conn : Connection} {chunk : Chunk} {command : SMTPClientCommand}
    (reading : conn.Reading) (got : t.recv = .data chunk) (other : conn.state ≠ .mailExpectData)
    (short : chunk.bytes.length < smallBufferSize - 1)
    (parsed : parseClientCommand (readBuffer chunk) = some command) :
    t.commandFor conn = some command.command := by
  obtain ⟨live, opened, negotiating⟩ := reading
  simp only [Turn.commandFor, got]
  rw [if_pos ⟨live, opened, negotiating, other, short⟩, parsed]
  rfl

/-- A command that a turn brings is read and parsed in a command state. -/
theorem exists_of_commandFor {t : Turn} {conn : Connection} {verb : SMTPCommand}
    (brings : t.commandFor conn = some verb) :
    ∃ chunk param, conn.Reading ∧ t.recv = .data chunk ∧ conn.state ≠ .mailExpectData ∧
      chunk.bytes.length < smallBufferSize - 1 ∧
      parseClientCommand (readBuffer chunk) = some ⟨verb, param⟩ := by
  unfold Turn.commandFor at brings
  cases got : t.recv with
  | fail | eof =>
    rw [got] at brings
    cases brings
  | data chunk =>
    rw [got] at brings
    dsimp only at brings
    split at brings
    · rename_i reads
      obtain ⟨live, opened, negotiating, other, short⟩ := reads
      obtain ⟨⟨verb, param⟩, parsed, rfl⟩ := Option.map_eq_some_iff.mp brings
      exact ⟨chunk, param, ⟨live, opened, negotiating⟩, rfl, other, short, parsed⟩
    · cases brings

/-- The calls a handler makes with what its connection has: the socket, the SSL object
    and the message block.  Only a connection that negotiates calls `SSL_accept`. -/
def Event.Within (conn : Connection) : Event → Prop
  | .read fd _ => fd = conn.clientsocket
  | .dprintf fd _ _ => fd = conn.clientsocket
  | .sslRead ssl _ => ssl = conn.sslconn
  | .sslWrite ssl _ _ => ssl = conn.sslconn
  | .sslAccept ssl _ => ssl = conn.sslconn ∧
      (conn.type = .smtps ∨ conn.type = .https ∨ conn.state = .mailExpectTlsNeg)
  | .realloc _ _ _ => True
  | .store _ _ _ => True
  | .parseClientCommand _ _ => True
  | _ => False

/-- The turn of an accepted STARTTLS: the last thing it does is to get a new SSL object
    and to bind it to the socket. -/
structure UpgradesTls (g : Globals) (t : Turn) (conn : Connection) (handled : Handled) : Prop where
  smtp : conn.type = .smtp
  brings : t.commandFor conn = some .starttls
  sslconn : handled.conn.sslconn = sslNewResult g t.sslNew
  calls : ∃ before, handled.events = before ++
      [.sslNew g.sslctx (sslNewResult g t.sslNew),
       .sslSetFd (sslNewResult g t.sslNew) conn.clientsocket] ∧
    .acceptStarttls ∈ replies before ∧ ∀ e ∈ before, e.Within conn

/-- Any other turn: the SSL object stays, and no negotiation begins. -/
structure KeepsTls (conn : Connection) (handled : Handled) : Prop where
  sslconn : handled.conn.sslconn = conn.sslconn
  negotiating : handled.conn.state = .mailExpectTlsNeg → conn.state = .mailExpectTlsNeg
  within : ∀ e ∈ handled.events, e.Within conn

/-- What a handler leaves alone, and what its calls are confined to. -/
structure Footprint (g : Globals) (t : Turn) (conn : Connection) (handled : Handled) : Prop where
  live : handled.conn.live = conn.live
  type : handled.conn.type = conn.type
  clientsocket : handled.conn.clientsocket = conn.clientsocket
  sslstrat : handled.conn.sslstrat = conn.sslstrat
  tls : KeepsTls conn handled ∨ UpgradesTls g t conn handled

theorem within_smtpSendMsg {g : Globals} {t : Turn} {conn conn' : Connection} {reply : Reply}
    {e : Event} (mem : e ∈ smtpSendMsg g t conn' reply)
    (sameSocket : conn'.clientsocket = conn.clientsocket)
    (sameSsl : conn'.sslconn = conn.sslconn) : e.Within conn := by
  rw [smtpSendMsg_eq, sameSsl] at mem
  cases ssl : conn.sslconn with
  | none =>
    rw [ssl, List.mem_singleton] at mem
    subst mem
    exact sameSocket
  | some object =>
    rw [ssl, List.mem_singleton] at mem
    subst mem
    exact ssl.symm

theorem within_smtpReceiveMsg (t : Turn) (conn : Connection) :
    (smtpReceiveMsg t conn).Within conn := by
  unfold smtpReceiveMsg
  cases ssl : conn.sslconn with
  | none => exact rfl
  | some => exact ssl.symm

theorem within_appendEvents {conn : Connection} {chunk : Chunk} {addr : Addr} {e : Event}
    (mem : e ∈ appendEvents conn chunk addr) : e.Within conn := by
  simp only [appendEvents, List.mem_cons, List.not_mem_nil, or_false] at mem
  rcases mem with rfl | rfl | rfl <;> exact trivial

/-- Calls in front of a reply. -/
theorem within_cons {conn : Connection} {e : Event} {events : List Event} (here : e.Within conn)
    (rest : ∀ e ∈ events, e.Within conn) : ∀ e' ∈ e :: events, e'.Within conn :=
  List.forall_mem_cons.mpr ⟨here, rest⟩

/-- The command switch, behind the read and the parse of the command. -/
theorem footprint_smtpHandleCommand {g : Globals} {t : Turn} {conn : Connection}
    {verb : SMTPCommand} {handled : Handled} {buffer : List Byte} {parsed : Option SMTPCommand}
    (smtp : conn.type = .smtp) (step : CommandStep g t conn verb handled)
    (brings : t.commandFor conn = some verb) :
    Footprint g t conn { handled with
      events := smtpReceiveMsg t conn :: .parseClientCommand buffer parsed :: handled.events } := by
  have behind : ∀ {events : List Event}, (∀ e ∈ events, e.Within conn) →
      ∀ e ∈ smtpReceiveMsg t conn :: .parseClientCommand buffer parsed :: events, e.Within conn :=
    fun rest => within_cons (within_smtpReceiveMsg t conn) (within_cons trivial rest)
  cases step with
  | noop => exact ⟨rfl, rfl, rfl, rfl, Or.inl ⟨rfl, id, behind (by simp)⟩⟩
  | starttls =>
    -- the reply still goes out with the old object, so it counts among the calls before
    refine ⟨rfl, rfl, rfl, rfl, Or.inr ⟨smtp, brings, rfl, ?_⟩⟩
    refine ⟨smtpReceiveMsg t conn :: .parseClientCommand buffer parsed ::
      smtpSendMsg g t { conn with state := .mailExpectTlsNeg } .acceptStarttls, rfl, by simp, ?_⟩
    exact behind fun e mem => within_smtpSendMsg mem rfl rfl
  -- the commands that set the state, none of them to a negotiation
  | data | hello | mail | rcpt =>
    exact ⟨rfl, rfl, rfl, rfl, Or.inl ⟨rfl, nofun,
      behind fun e mem => within_smtpSendMsg mem rfl rfl⟩⟩
  | _ =>
    exact ⟨rfl, rfl, rfl, rfl, Or.inl ⟨rfl, id,
      behind fun e mem => within_smtpSendMsg mem rfl rfl⟩⟩

theorem footprint_smtpHandler (g : Globals) (t : Turn) {conn : Connection}
    (smtp : conn.type = .smtp) : Footprint g t conn (smtpHandler g t conn) := by
  have received := within_smtpReceiveMsg t conn
  have step := smtpHandler_step g t conn
  generalize smtpHandler g t conn = handled at step ⊢
  cases step with
  | dead => exact ⟨rfl, rfl, rfl, rfl, Or.inl ⟨rfl, id, by simp⟩⟩
  | opened =>
    exact ⟨rfl, rfl, rfl, rfl, Or.inl ⟨rfl, nofun,
      fun e mem => within_smtpSendMsg mem rfl rfl⟩⟩
  | tlsRetry _ state | tlsFailed _ state =>
    exact ⟨rfl, rfl, rfl, rfl, Or.inl ⟨rfl, id,
      within_cons ⟨rfl, Or.inr (Or.inr state)⟩ (by simp)⟩⟩
  | tlsDone _ state =>
    exact ⟨rfl, rfl, rfl, rfl, Or.inl ⟨rfl, nofun,
      within_cons ⟨rfl, Or.inr (Or.inr state)⟩ (by simp)⟩⟩
  | noData => exact ⟨rfl, rfl, rfl, rfl, Or.inl ⟨rfl, id, within_cons received (by simp)⟩⟩
  | tooLong | tooLarge =>
    exact ⟨rfl, rfl, rfl, rfl, Or.inl ⟨rfl, id,
      within_cons received fun e mem => within_smtpSendMsg mem rfl rfl⟩⟩
  | noMemory | unrecognized =>
    exact ⟨rfl, rfl, rfl, rfl, Or.inl ⟨rfl, id,
      within_cons received (within_cons trivial fun e mem => within_smtpSendMsg mem rfl rfl)⟩⟩
  | dataEnd =>
    refine ⟨rfl, rfl, rfl, rfl, Or.inl ⟨rfl, nofun, ?_⟩⟩
    refine within_cons received ?_
    intro e mem
    obtain heap | sent := List.mem_append.mp mem
    · exact within_appendEvents heap
    · exact within_smtpSendMsg sent rfl rfl
  | dataMore =>
    exact ⟨rfl, rfl, rfl, rfl, Or.inl ⟨rfl, id,
      within_cons received fun e mem => within_appendEvents mem⟩⟩
  | command chunk command reading got other short parsed =>
    exact footprint_smtpHandleCommand smtp (smtpHandleCommand_step g t conn command)
      (commandFor_eq reading got other short parsed)

theorem mem_httpHandleRead {t : Turn} {conn : Connection} {response e : Event}
    (mem : e ∈ (httpHandleRead t conn response).events) : e = response := by
  unfold httpHandleRead at mem
  generalize t.recv = got at mem
  cases got with
  | eof => cases mem
  | fail =>
    dsimp only at mem
    split at mem <;> cases mem
  | data =>
    dsimp only at mem
    split at mem
    · cases mem
    · exact List.mem_singleton.mp mem

/-- The other handlers leave their record alone. -/
theorem within_connectionHandler (g : Globals) (t : Turn) {conn : Connection}
    (other : conn.type ≠ .smtp) : ∀ e ∈ (connectionHandler g t conn).events, e.Within conn := by
  unfold connectionHandler
  cases type : conn.type with
  | smtp => exact absurd type other
  | smtps =>
    dsimp only [smtpsHandler]
    split
    · simp
    · split
      · exact within_cons ⟨rfl, Or.inl type⟩ (by simp)
      · exact within_cons ⟨rfl, Or.inl type⟩ fun e mem => within_smtpSendMsg mem rfl rfl
  | starttls =>
    dsimp only [starttlsHandler]
    split
    · simp
    · exact fun e mem => within_smtpSendMsg mem rfl rfl
  | http =>
    dsimp only [httpHandler]
    split
    · simp
    · refine within_cons rfl ?_
      intro e mem
      rw [mem_httpHandleRead mem]
      exact rfl
  | https =>
    dsimp only [httpsHandler]
    split
    · simp
    · split
      · exact within_cons ⟨rfl, Or.inr (Or.inl type)⟩ (by simp)
      · refine within_cons ⟨rfl, Or.inr (Or.inl type)⟩ (within_cons rfl ?_)
        intro e mem
        rw [mem_httpHandleRead mem]
        exact rfl

/-- No handler touches anything but its own connection. -/
theorem footprint_connectionHandler (g : Globals) (t : Turn) (conn : Connection) :
    Footprint g t conn (connectionHandler g t conn) := by
  by_cases smtp : conn.type = .smtp
  · rw [connectionHandler_smtp g t smtp]
    exact footprint_smtpHandler g t smtp
  · -- only `smtp_handler` writes to its record
    have same := connectionHandler_conn g t smtp
    refine ⟨by rw [same], by rw [same], by rw [same], by rw [same], Or.inl ⟨by rw [same], ?_, ?_⟩⟩
    · rw [same]
      exact id
    · exact within_connectionHandler g t smtp

/-- Only an accepted STARTTLS gives a connection another SSL object. -/
theorem sslconn_connectionHandler (g : Globals) (t : Turn) (conn : Connection)
    (quiet : .acceptStarttls ∉ replies (connectionHandler g t conn).events) :
    (connectionHandler g t conn).conn.sslconn = conn.sslconn := by
  obtain keeps | upgrades := (footprint_connectionHandler g t conn).tls
  · exact keeps.sslconn
  · obtain ⟨before, calls, accepted, -⟩ := upgrades.calls
    rw [calls, replies_append] at quiet
    exact absurd (List.mem_append_left _ accepted) quiet

end Femail
