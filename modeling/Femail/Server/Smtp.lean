import Femail.Server.Types

/-! # The SMTP service

`smtp.c` and the reply macros of `smtp.h`.  `smtpHandler` is one call of
`smtp_handler`; its data branch and its command switch are the functions
`smtpHandleData` and `smtpHandleCommand`.
-/

namespace Femail

open Foundation

/-! ## Parsing -/

def parseClientCommand (buffer : List Byte) : Option SMTPClientCommand :=
  -- nothing is compared behind the first five verbs: "NOOPX" is a NOOP
  if strncasecmp buffer (ascii "NOOP") 4 = 0 then some ⟨.noop, none⟩
  else if strncasecmp buffer (ascii "QUIT") 4 = 0 then some ⟨.quit, none⟩
  else if strncasecmp buffer (ascii "RSET") 4 = 0 then some ⟨.rset, none⟩
  else if strncasecmp buffer (ascii "DATA") 4 = 0 then some ⟨.data, none⟩
  else if strncasecmp buffer (ascii "HELP") 4 = 0 then some ⟨.help, some (buffer.drop 5)⟩
  else if strncasecmp buffer (ascii "HELO ") 5 = 0 then some ⟨.helo, some (buffer.drop 5)⟩
  else if strncasecmp buffer (ascii "EHLO ") 5 = 0 then some ⟨.ehlo, some (buffer.drop 5)⟩
  else if strncasecmp buffer (ascii "MAIL FROM:") 10 = 0 then some ⟨.mail, some (buffer.drop 10)⟩
  else if strncasecmp buffer (ascii "RCPT TO:") 8 = 0 then some ⟨.rcpt, some (buffer.drop 8)⟩
  else if strncasecmp buffer (ascii "VRFY ") 5 = 0 then some ⟨.vrfy, some (buffer.drop 5)⟩
  else if strncasecmp buffer (ascii "EXPN ") 5 = 0 then some ⟨.expn, some (buffer.drop 5)⟩
  else if strncasecmp buffer (ascii "STARTTLS") 8 = 0 then some ⟨.starttls, some (buffer.drop 8)⟩
  else none

/-- `parse_client_command` read by read, on the string at `buffer`: the command and where
    its parameter is; `none` if a read is made where none may be. -/
def parseClientCommandAt (memory : Memory) (buffer : Nat) :
    Option (Option (SMTPCommand × Option Nat)) := do
  if (← strncasecmpAt memory buffer (ascii "NOOP") 4) = 0 then return some (.noop, none)
  if (← strncasecmpAt memory buffer (ascii "QUIT") 4) = 0 then return some (.quit, none)
  if (← strncasecmpAt memory buffer (ascii "RSET") 4) = 0 then return some (.rset, none)
  if (← strncasecmpAt memory buffer (ascii "DATA") 4) = 0 then return some (.data, none)
  if (← strncasecmpAt memory buffer (ascii "HELP") 4) = 0 then return some (.help, some (buffer + 5))
  if (← strncasecmpAt memory buffer (ascii "HELO ") 5) = 0 then return some (.helo, some (buffer + 5))
  if (← strncasecmpAt memory buffer (ascii "EHLO ") 5) = 0 then return some (.ehlo, some (buffer + 5))
  if (← strncasecmpAt memory buffer (ascii "MAIL FROM:") 10) = 0 then
    return some (.mail, some (buffer + 10))
  if (← strncasecmpAt memory buffer (ascii "RCPT TO:") 8) = 0 then return some (.rcpt, some (buffer + 8))
  if (← strncasecmpAt memory buffer (ascii "VRFY ") 5) = 0 then return some (.vrfy, some (buffer + 5))
  if (← strncasecmpAt memory buffer (ascii "EXPN ") 5) = 0 then return some (.expn, some (buffer + 5))
  if (← strncasecmpAt memory buffer (ascii "STARTTLS") 8) = 0 then
    return some (.starttls, some (buffer + 8))
  return none

def endsWord (word : Byte) : Bool :=
  word == 0 || word == 32 || word == 9 || word == 13 || word == 10

def crlfDotCrlf : List Byte := ascii "\r\n.\r\n"

def foundCrlfEnd : List Byte → Bool
  | [] => false
  | c :: rest =>
    -- the scan is over a C string, so text behind a NUL is not seen
    if c = 0 then false
    else if c = 13 ∧ strncmp (c :: rest) crlfDotCrlf 5 = 0 then true
    else foundCrlfEnd rest

/-- `found_crlf_end` read by read, from the string at `addr` on: `none` if a read is made
    where none may be, or the loop goes on for more than `fuel` rounds. -/
def foundCrlfEndAt (memory : Memory) : Nat → Nat → Option Bool
  | 0, _ => none
  | fuel + 1, addr => do
    let c ← memory addr
    if c = 0 then return false
    else if c = 13 then
      let compared ← strncmpAt memory addr crlfDotCrlf 5
      if compared = 0 then return true else foundCrlfEndAt memory fuel (addr + 1)
    else foundCrlfEndAt memory fuel (addr + 1)

/-- The loop of `move_client_mail_domain` from `offset` on: its result and the
    stores it makes into the array, in order. -/
def moveClientMailDomainLoop (max : Nat) : List Byte → Nat → Result × List (Nat × Byte)
  | [], offset => (0, [(offset, 0)])
  | current :: rest, offset =>
    if endsWord current then (0, [(offset, 0)])
    -- what was stored before the refusal stays in the array
    else if offset = max then (1, [])
    else
      let (result, stores) := moveClientMailDomainLoop max rest (offset + 1)
      (result, (offset, current) :: stores)

/-- The same loop read by read, from the address `current` on: `none` if a read is made
    where none may be, or the loop goes on for more than `fuel` rounds. -/
def moveClientMailDomainLoopAt (memory : Memory) (max : Nat) :
    Nat → Nat → Nat → Option (Result × List (Nat × Byte))
  | 0, _, _ => none
  | fuel + 1, current, offset => do
    let word ← memory current
    if endsWord word then return (0, [(offset, 0)])
    else if offset = max then return (1, [])
    else
      let (result, stores) ← moveClientMailDomainLoopAt memory max fuel (current + 1) (offset + 1)
      return (result, (offset, word) :: stores)

/-- Carry out stores into the domain array, and the byte behind it. -/
def applyStores (field : Vector Byte mailclientdomainRoom) (stores : List (Nat × Byte)) :
    Vector Byte mailclientdomainRoom :=
  stores.foldl (fun field store => field.setIfInBounds store.1 store.2) field

def moveClientMailDomain (param : List Byte) (conn : Connection) (max : Nat) : Result × Connection :=
  let (result, stores) := moveClientMailDomainLoop max param 0
  (result, { conn with mailclientdomain := applyStores conn.mailclientdomain stores })

/-! ## Replies -/

/-- The text of a reply with its arguments filled in, as `dprintf` writes it. -/
def Reply.text (g : Globals) (conn : Connection) : Reply → List Byte
  | .acceptConnection => ascii "220 " ++ cstring g.maildomain ++ ascii " ESMTP Femail\r\n"
  | .acceptHello => ascii "250 Hello " ++ cstring conn.mailclientdomain.toList ++ ascii "\r\n"
  | .acceptEhello =>
    ascii "250-" ++ cstring g.maildomain ++ ascii " Hello " ++
      cstring conn.mailclientdomain.toList ++ ascii "\n" ++
      ascii "250-SIZE " ++ ascii (Nat.repr esmtpSize) ++ ascii "\n" ++
      ascii "250-STARTTLS\n" ++
      ascii "250 HELP\r\n"
  | .acceptOk => ascii "250 Ok\r\n"
  | .acceptGoodbye => ascii "221 Bye\r\n"
  | .acceptStarttls => ascii "220 Go ahead\r\n"
  | .startData => ascii "354\r\n"
  | .rejectError => ascii "500 Bye\r\n"
  | .rejectSequence => ascii "503 Invalid Sequence\r\n"
  | .rejectTooLong => ascii "500 Too long\r\n"
  | .rejectTooLarge => ascii "554 5.3.4 Message Too Large\r\n"
  | .rejectUnrecognized => ascii "500 Command Unrecognized\r\n"
  | .rejectUnimplemented => ascii "502 Command Unimplemented\r\n"
  | .rejectStarttls => ascii "523 Use SMTPS instead\r\n"

def msgbufSize : Nat := 256

/-- The `len` bytes from `msgbuf` on after `snprintf` has formatted `text` there:
    `snprintf` stores at most `msgbufSize - 1` bytes and a NUL and returns the
    length of the whole text, and what follows the buffer is the stack. -/
def snprintfPayload (text : List Byte) (spill : Nat → Byte) : List Byte :=
  let len := text.length
  (text.take (msgbufSize - 1) ++ 0 :: (List.range (len - msgbufSize)).map spill).take len

def smtpSendMsg (g : Globals) (t : Turn) (conn : Connection) (reply : Reply) : List Event :=
  let text := reply.text g conn
  match conn.sslconn with
  | some ssl =>
    if 0 < text.length then
      [.sslWrite (some ssl) (.smtp reply) (snprintfPayload text t.spill)]
    else []
  | none => [.dprintf conn.clientsocket (.smtp reply) text]

def smtpReceiveMsg (t : Turn) (conn : Connection) : Event :=
  match conn.sslconn with
  | some ssl => .sslRead (some ssl) t.recv
  | none => .read conn.clientsocket t.recv

/-- The zeroed buffer of `smallBufferSize` bytes with a chunk read into it. -/
def readBuffer (chunk : Chunk) : List Byte :=
  chunk.bytes ++ List.replicate (smallBufferSize - chunk.bytes.length) 0

/-! ## Handlers -/

/-- The branch of `smtp_handler` for `MAIL_CONNECTION_EXPECT_TLS_NEG`. -/
def smtpNegotiate (t : Turn) (conn : Connection) : Handled :=
  let events := [Event.sslAccept conn.sslconn t.sslAccept]
  if t.sslAccept ≤ 0 then
    match t.sslGetError with
    | .wantRead => ⟨.continue, conn, events⟩
    | .wantWrite => ⟨.continue, conn, events⟩
    | .other _ => ⟨.error, conn, events⟩
  else ⟨.continue, { conn with state := .mailExpectAny }, events⟩

def messageBytes (conn : Connection) : List Byte :=
  match conn.messagebuffer with
  | some block => block.bytes
  | none => []

/-- The message block after `realloc` to `size` bytes, the copy of `chunk` to
    `messagebufferend` and the NUL behind it. -/
def appendedBytes (t : Turn) (conn : Connection) (chunk : Chunk) (size : Nat) : List Byte :=
  let grown := (messageBytes conn ++ (List.range size).map t.fresh).take size
  let copied := overwrite grown conn.messagebufferend chunk.bytes
  overwrite copied (conn.messagebufferend + chunk.bytes.length) [0]

/-- The branch of `smtp_handler` for `MAIL_CONNECTION_EXPECT_DATA`, after a read. -/
def smtpHandleData (g : Globals) (t : Turn) (conn : Connection) (chunk : Chunk) : Handled :=
  -- the block grows by a whole buffer per read, however little was read
  let conn := { conn with alloccount := conn.alloccount + 1 }
  let messagebuffersize := conn.alloccount * smallBufferSize + 1
  if messagebuffersize > esmtpSize then
    -- the client is still in the middle of its message
    ⟨.reset, conn, smtpSendMsg g t conn .rejectTooLarge⟩
  else
    let old := conn.messagebuffer.map Block.addr
    match t.realloc with
    | none =>
      -- the old block stays allocated, the record no longer points to it
      ⟨.error, { conn with messagebuffer := none },
        .realloc old messagebuffersize none :: smtpSendMsg g t conn .rejectError⟩
    | some addr =>
      let bytes := appendedBytes t conn chunk messagebuffersize
      let messagebufferend := conn.messagebufferend + chunk.bytes.length
      let events :=
        [.realloc old messagebuffersize (some addr),
         .store addr conn.messagebufferend chunk.bytes.length,
         .store addr messagebufferend 1]
      let conn := { conn with
        messagebufferend := messagebufferend
        messagebuffer := some ⟨addr, bytes⟩ }
      if foundCrlfEnd bytes then
        let conn := { conn with state := .mailGreeted }
        ⟨.reset, conn, events ++ smtpSendMsg g t conn .acceptOk⟩
      else ⟨.continue, conn, events⟩

/-- HELO and EHLO, which differ in the reply that accepts them. -/
def smtpHandleHello (g : Globals) (t : Turn) (conn : Connection) (param : List Byte)
    (accept : Reply) : Handled :=
  let (result, conn) := moveClientMailDomain param conn domainMaxSize
  if result ≠ 0 then ⟨.continue, conn, smtpSendMsg g t conn .rejectTooLong⟩
  else
    let conn := { conn with state := .mailGreeted }
    ⟨.continue, conn, smtpSendMsg g t conn accept⟩

/-- The switch on the parsed command. -/
def smtpHandleCommand (g : Globals) (t : Turn) (conn : Connection) (command : SMTPClientCommand) :
    Handled :=
  match command.command with
  | .noop => ⟨.continue, conn, []⟩
  | .quit => ⟨.done, conn, smtpSendMsg g t conn .acceptGoodbye⟩
  | .rset => ⟨.reset, conn, smtpSendMsg g t conn .acceptOk⟩
  | .data =>
    -- no test of the state here, unlike MAIL and RCPT
    let conn := { conn with state := .mailExpectData }
    ⟨.continue, conn, smtpSendMsg g t conn .startData⟩
  | .help => ⟨.continue, conn, smtpSendMsg g t conn .acceptOk⟩
  | .helo => smtpHandleHello g t conn (command.param.getD []) .acceptHello
  | .ehlo => smtpHandleHello g t conn (command.param.getD []) .acceptEhello
  | .mail =>
    if conn.state = .mailExpectAny then ⟨.continue, conn, smtpSendMsg g t conn .rejectSequence⟩
    else
      let conn := { conn with state := .mailMailing }
      ⟨.continue, conn, smtpSendMsg g t conn .acceptOk⟩
  | .rcpt =>
    if conn.state ≠ .mailMailing ∧ conn.state ≠ .mailRcpt then
      ⟨.continue, conn, smtpSendMsg g t conn .rejectSequence⟩
    else
      let conn := { conn with state := .mailRcpt }
      ⟨.continue, conn, smtpSendMsg g t conn .acceptOk⟩
  | .vrfy => ⟨.continue, conn, smtpSendMsg g t conn .rejectUnimplemented⟩
  | .expn => ⟨.continue, conn, smtpSendMsg g t conn .rejectUnimplemented⟩
  | .starttls =>
    -- the 220 goes out on the channel in use before the new object replaces it
    let conn := { conn with state := .mailExpectTlsNeg }
    let reply := smtpSendMsg g t conn .acceptStarttls
    let ssl := sslNewResult g t.sslNew
    ⟨.continue, { conn with sslconn := ssl },
      reply ++ [.sslNew g.sslctx ssl, .sslSetFd ssl conn.clientsocket]⟩

/-- `smtp_handler` after a read that delivered `chunk`. -/
def smtpHandleChunk (g : Globals) (t : Turn) (conn : Connection) (chunk : Chunk) : Handled :=
  -- message text may fill the buffer, a command may not
  if chunk.bytes.length ≥ smallBufferSize - 1 ∧ conn.state ≠ .mailExpectData then
    ⟨.error, conn, smtpSendMsg g t conn .rejectTooLong⟩
  else if conn.state = .mailExpectData then smtpHandleData g t conn chunk
  else
    match parseClientCommand (readBuffer chunk) with
    | none =>
      ⟨.continue, conn, .parseClientCommand (readBuffer chunk) none ::
        smtpSendMsg g t conn .rejectUnrecognized⟩
    | some command =>
      let handled := smtpHandleCommand g t conn command
      { handled with
        events := .parseClientCommand (readBuffer chunk) (some command.command) :: handled.events }

/-- `smtp_handler` from its read on. -/
def smtpHandleRead (g : Globals) (t : Turn) (conn : Connection) : Handled :=
  match t.recv with
  | .data chunk => smtpHandleChunk g t conn chunk
  | .fail errno =>
    if errno.getD t.errno = ewouldblock then ⟨.continue, conn, []⟩ else ⟨.error, conn, []⟩
  | .eof => ⟨.error, conn, []⟩

def smtpHandler (g : Globals) (t : Turn) (conn : Connection) : Handled :=
  if !conn.live then ⟨.done, conn, []⟩
  else if conn.state = .mailOpened then
    ⟨.continue, { conn with state := .mailExpectAny }, smtpSendMsg g t conn .acceptConnection⟩
  else if conn.state = .mailExpectTlsNeg then smtpNegotiate t conn
  else
    let handled := smtpHandleRead g t conn
    { handled with events := smtpReceiveMsg t conn :: handled.events }

def smtpsHandler (g : Globals) (t : Turn) (conn : Connection) : Handled :=
  if !conn.live then ⟨.done, conn, []⟩
  -- a negotiation that needs more turns counts as failed
  else if t.sslAccept ≤ 0 then ⟨.error, conn, [.sslAccept conn.sslconn t.sslAccept]⟩
  else
    ⟨.done, conn,
      .sslAccept conn.sslconn t.sslAccept :: smtpSendMsg g t conn .rejectUnimplemented⟩

def starttlsHandler (g : Globals) (t : Turn) (conn : Connection) : Handled :=
  if !conn.live then ⟨.done, conn, []⟩
  else ⟨.done, conn, smtpSendMsg g t conn .rejectStarttls⟩

end Femail
