import Femail.Foundation.CString

/-! # The data model

The records and enumerations of `femail.h`, `smtp.h` and `master.h`, and the
boundary of the program: what a handler call may be told by the outside
(`Turn`), and the calls it makes (`Event`).

Every handler call makes at most one call of each kind (one read, one
`SSL_accept`, one `SSL_new`, one `realloc`), so one record of outcomes per call
covers everything the outside can answer.  Lines sent to `syslog` are left out.
-/

namespace Femail

open Foundation

/-- `Result` of `femail.h`: 0 is success, anything else a failure. -/
abbrev Result := Int

abbrev Fd := Int
abbrev Errno := Int
abbrev Time := Int

/-- The address of a heap block. -/
abbrev Addr := Nat

/-- The address of an `SSL` object; an `SSL *` is an `Option Ssl`. -/
abbrev Ssl := Nat

/-- The address of an `SSL_CTX` object. -/
abbrev SslCtx := Nat

def domainMaxSize : Nat := 255
def smallBufferSize : Nat := 1024
def esmtpSize : Nat := 10485760
def connectionQueueCapacity : Nat := 512
def ewouldblock : Errno := 11

/-- The bytes the record has for `mailclientdomain`: the array of `domainMaxSize`
    bytes and the padding byte in front of the aligned `alloccount`. -/
def mailclientdomainRoom : Nat := domainMaxSize + 1

/-! ## Enumerations -/

inductive ConnectionHandlerResult where
  | done
  | continue
  | reset
  | error
deriving DecidableEq, Repr

inductive ConnectionType where
  | smtp
  | smtps
  | starttls
  | http
  | https
deriving DecidableEq, Repr

inductive ConnectionState where
  | mailOpened
  | mailExpectAny
  | mailGreeted
  | mailMailing
  | mailRcpt
  | mailExpectTlsNeg
  | mailExpectData
  | httpOpened
deriving DecidableEq, Repr

inductive SslStrategy where
  | noSsl
  | opportunisticTls
  | implicitTls
deriving DecidableEq, Repr

inductive SMTPCommand where
  | noop
  | quit
  | rset
  | data
  | help
  | helo
  | ehlo
  | mail
  | rcpt
  | vrfy
  | expn
  | starttls
deriving DecidableEq, Repr

/-- A parsed command and the text behind the verb (`none` for a null `param`). -/
structure SMTPClientCommand where
  command : SMTPCommand
  param : Option (List Byte)
deriving DecidableEq

/-! ## Connections -/

/-- A heap block: its address and its bytes, as many as were allocated. -/
structure Block where
  addr : Addr
  bytes : List Byte
deriving DecidableEq

/-- The `Connection` record; a null pointer is `none`. -/
structure Connection where
  timeinitialized : Time
  timerefreshed : Time
  live : Bool
  type : ConnectionType
  state : ConnectionState
  clientsocket : Fd
  sslstrat : SslStrategy
  sslconn : Option Ssl
  mailclientdomain : Vector Byte mailclientdomainRoom
  alloccount : Nat
  messagebuffersize : Nat
  messagebufferend : Nat
  messagebuffer : Option Block
deriving DecidableEq

/-- The record with every byte zero, as `{0}` and `memset` leave it. -/
def Connection.zero : Connection where
  timeinitialized := 0
  timerefreshed := 0
  live := false
  type := .smtp
  state := .mailOpened
  clientsocket := 0
  sslstrat := .noSsl
  sslconn := none
  mailclientdomain := Vector.replicate _ 0
  alloccount := 0
  messagebuffersize := 0
  messagebufferend := 0
  messagebuffer := none

/-! ## What the outside answers -/

/-- The bytes one successful read delivers into a buffer of `smallBufferSize`. -/
structure Chunk where
  bytes : List Byte
  nonempty : 0 < bytes.length
  fits : bytes.length ≤ smallBufferSize
deriving DecidableEq

/-- The outcome of `read` or `SSL_read`.  A failing call returns -1 and may leave
    `errno` as it was. -/
inductive Recv where
  | fail (errno : Option Errno)
  | eof
  | data (chunk : Chunk)
deriving DecidableEq

/-- The codes of `SSL_get_error` the program tells apart. -/
inductive SslError where
  | wantRead
  | wantWrite
  | other (code : Int)
deriving DecidableEq, Repr

/-- The outcomes of the calls one handler call may make. -/
structure Turn where
  recv : Recv
  /-- `errno` as earlier calls left it. -/
  errno : Errno
  sslAccept : Int
  sslGetError : SslError
  sslNew : Option Ssl
  realloc : Option Addr
  /-- The contents of memory obtained by this call's `realloc`. -/
  fresh : Nat → Byte
  /-- The stack behind the buffer of `smtp_send_msg`. -/
  spill : Nat → Byte
  /-- The clock when the connection is queued again. -/
  now : Time

/-- The globals that handlers read: the mail domain array and the TLS context. -/
structure Globals where
  maildomain : List Byte
  sslctx : Option SslCtx

/-- `SSL_new`, which has no object to give without a context. -/
def sslNewResult (g : Globals) (outcome : Option Ssl) : Option Ssl :=
  g.sslctx.bind fun _ => outcome

/-! ## The calls the program makes -/

/-- The replies of `smtp.h`, one for each `smtpsmsg_*` macro. -/
inductive Reply where
  | acceptConnection
  | acceptHello
  | acceptEhello
  | acceptOk
  | acceptGoodbye
  | acceptStarttls
  | startData
  | rejectError
  | rejectSequence
  | rejectTooLong
  | rejectTooLarge
  | rejectUnrecognized
  | rejectUnimplemented
  | rejectStarttls
deriving DecidableEq, Repr

/-- What a write sends: an SMTP reply or one of the two responses of `http.h`. -/
inductive Message where
  | smtp (reply : Reply)
  | redirectHttps
  | noContent
deriving DecidableEq, Repr

/-- A call with an effect outside the record, with its arguments and outcome. -/
inductive Event where
  | socket (fd : Fd)
  | accept (fd : Fd)
  | read (fd : Fd) (got : Recv)
  | sslRead (ssl : Option Ssl) (got : Recv)
  | dprintf (fd : Fd) (msg : Message) (text : List Byte)
  | sslWrite (ssl : Option Ssl) (msg : Message) (text : List Byte)
  | sslNew (ctx : Option SslCtx) (ssl : Option Ssl)
  | sslSetFd (ssl : Option Ssl) (fd : Fd)
  | sslAccept (ssl : Option Ssl) (ret : Int)
  | sslFree (ssl : Option Ssl)
  | realloc (old : Option Addr) (size : Nat) (new : Option Addr)
  | store (addr : Addr) (offset len : Nat)
  | free (addr : Option Addr)
  | close (fd : Fd)
  | parseClientCommand (buffer : List Byte) (parsed : Option SMTPCommand)
  | handlerReturned (result : ConnectionHandlerResult)
deriving DecidableEq

/-- What one handler call does: its result, the record it leaves and its calls. -/
structure Handled where
  result : ConnectionHandlerResult
  conn : Connection
  events : List Event
deriving DecidableEq

end Femail
