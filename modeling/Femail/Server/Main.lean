import Femail.Server.Master

/-! # Start-up and shutdown

`dns.c` and `main` before and after the master thread: the mail domain, the TLS
context and the five services.
-/

namespace Femail

open Foundation

/-- `dns_init` on the value of `MAIL_DOMAIN` (`none` if it is not set): the
    contents of the static `maildomain` array when it returns 0. -/
def dnsInit (domain : Option (List Byte)) : Option (List Byte) :=
  match domain with
  | none => none
  | some domain =>
    if domain.length = 0 then none
    else if domain.length > domainMaxSize - 1 then none
    else
      -- snprintf of "%s" into the zeroed array
      some (overwrite (List.replicate domainMaxSize 0) 0 (domain.take (domainMaxSize - 1) ++ [0]))

/-- The size of the arrays `certfile` and `privfile` of `main`. -/
def certfileSize : Nat := 256

/-- What `sprintf` stores for a file beside the certificates: the formatted path and a
    NUL, whatever the size of the array. -/
def certificatePath (maildomain ending : List Byte) : List Byte :=
  ascii "/usr/local/share/ca-certificates/" ++ cstring maildomain ++ ending ++ [0]

def certfile (maildomain : List Byte) : List Byte := certificatePath maildomain (ascii ".crt")

def privfile (maildomain : List Byte) : List Byte := certificatePath maildomain (ascii ".key")

/-- The outcomes of the calls `main` makes. -/
structure StartTurn where
  domain : Option (List Byte)
  sslCtxNew : Option SslCtx
  certificate : Int
  privateKey : Int
  socket4 : ConnectionType → SocketTurn
  socket6 : ConnectionType → SocketTurn

/-- The TLS context `main` goes on with: each failed load drops it. -/
def loadSslctx (s : StartTurn) : Option SslCtx :=
  let sslctx := s.sslCtxNew
  let sslctx := if s.certificate ≤ 0 then none else sslctx
  -- the key is loaded into whatever context is left
  if s.privateKey ≤ 0 then none else sslctx

/-- `check_communications`, which aborts when it does not hold. -/
def checkCommunications (smtp : SmtpContext) (smtps starttls : ListenContext) : Bool :=
  smtp.active || smtps.active || starttls.active

/-- The server the master thread runs with, if `main` gets that far. -/
def startServer (s : StartTurn) : Option Server := do
  let maildomain ← dnsInit s.domain
  let sslctx := loadSslctx s
  let (_, smtpctx, _) := startSmtp sslctx SmtpContext.zero (s.socket4 .smtp) (s.socket6 .smtp)
  let (_, smtpsctx, _) :=
    startSmtps sslctx ListenContext.zero (s.socket4 .smtps) (s.socket6 .smtps)
  let (_, starttlsctx, _) :=
    startStarttls sslctx ListenContext.zero (s.socket4 .starttls) (s.socket6 .starttls)
  let (_, httpctx, _) := startHttp ListenContext.zero (s.socket4 .http) (s.socket6 .http)
  let (_, httpsctx, _) :=
    startHttps sslctx ListenContext.zero (s.socket4 .https) (s.socket6 .https)
  if checkCommunications smtpctx smtpsctx starttlsctx then
    some { maildomain, sslctx, smtpctx, smtpsctx, starttlsctx, httpctx, httpsctx }
  else none

/-- The calls each start function makes when `main` starts the services. -/
def startCalls (s : StartTurn) (type : ConnectionType) : List Event :=
  let sslctx := loadSslctx s
  match type with
  | .smtp => (startSmtp sslctx SmtpContext.zero (s.socket4 .smtp) (s.socket6 .smtp)).2.2
  | .smtps => (startSmtps sslctx ListenContext.zero (s.socket4 .smtps) (s.socket6 .smtps)).2.2
  | .starttls =>
    (startStarttls sslctx ListenContext.zero (s.socket4 .starttls) (s.socket6 .starttls)).2.2
  | .http => (startHttp ListenContext.zero (s.socket4 .http) (s.socket6 .http)).2.2
  | .https => (startHttps sslctx ListenContext.zero (s.socket4 .https) (s.socket6 .https)).2.2

/-- The calls each stop function makes behind the `pthread_join` of the master thread,
    which leaves the contexts as they are. -/
def stopCalls (srv : Server) : ConnectionType → List Event
  | .smtp => (stopSmtp srv.smtpctx).2
  | .smtps => (stopSmtps srv.smtpsctx).2
  | .starttls => (stopStarttls srv.starttlsctx).2
  | .http => (stopHttp srv.httpctx).2
  | .https => (stopHttps srv.httpsctx).2

end Femail
