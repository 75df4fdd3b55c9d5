import Femail.Server.Types

/-! # Listeners

`comm.c`: the five listening services.  Their start functions differ in the
guard on the TLS context and in the `starttls` flag of SMTP; what they do with
the two address families is `startListeners`.  The outcome of `setsockopt` is
only logged, so it is no part of the model.
-/

namespace Femail

open Foundation

/-- `smtpscontext`, `starttlscontext`, `httpcontext` and `httpscontext`. -/
structure ListenContext where
  active : Bool
  socket4 : Fd
  socket6 : Fd
deriving DecidableEq, Repr

/-- `smtpcontext`, which also says whether STARTTLS is on offer. -/
structure SmtpContext extends ListenContext where
  starttls : Bool
deriving DecidableEq, Repr

/-- A context of static storage, before any start function has run. -/
def ListenContext.zero : ListenContext := ⟨false, 0, 0⟩

def SmtpContext.zero : SmtpContext := ⟨ListenContext.zero, false⟩

/-- What the `init_*` functions leave. -/
def initListeners : ListenContext := ⟨false, -1, -1⟩

def initSmtp : SmtpContext := ⟨initListeners, false⟩

def initSmtps := initListeners

def initStarttls := initListeners

def initHttp := initListeners

def initHttps := initListeners

/-- The outcomes of `socket`, `bind` and `listen` for one address family. -/
structure SocketTurn where
  socket : Fd
  bind : Int
  listen : Int

/-- Open one listening socket: the descriptor to keep (-1 if there is none) and
    whether it listens. -/
def startSocket (t : SocketTurn) : (Fd × Bool) × List Event :=
  if t.socket = -1 then ((-1, false), [])
  else if t.bind ≠ 0 then ((-1, false), [.socket t.socket, .close t.socket])
  else if t.listen ≠ 0 then ((-1, false), [.socket t.socket, .close t.socket])
  else ((t.socket, true), [.socket t.socket])

def startListeners (ctx : ListenContext) (t4 t6 : SocketTurn) :
    Result × ListenContext × List Event :=
  let ((socket4, up4), events4) := startSocket t4
  let ctx := { ctx with socket4 := socket4, active := ctx.active || up4 }
  let ((socket6, up6), events6) := startSocket t6
  let ctx := { ctx with socket6 := socket6, active := ctx.active || up6 }
  (if ctx.active then 0 else 1, ctx, events4 ++ events6)

def startSmtp (sslctx : Option SslCtx) (ctx : SmtpContext) (t4 t6 : SocketTurn) :
    Result × SmtpContext × List Event :=
  if ctx.active then (0, ctx, [])
  else
    -- without a context the service starts all the same, with the flag cleared
    let starttls := sslctx.isSome
    let (result, listen, events) := startListeners ctx.toListenContext t4 t6
    (result, ⟨listen, starttls⟩, events)

/-- The services that refuse to start without a TLS context. -/
def startGuarded (sslctx : Option SslCtx) (ctx : ListenContext) (t4 t6 : SocketTurn) :
    Result × ListenContext × List Event :=
  if ctx.active then (0, ctx, [])
  else if sslctx = none then (1, ctx, [])
  else startListeners ctx t4 t6

def startSmtps := startGuarded

def startStarttls := startGuarded

def startHttp (ctx : ListenContext) (t4 t6 : SocketTurn) : Result × ListenContext × List Event :=
  if ctx.active then (0, ctx, [])
  else startListeners ctx t4 t6

def startHttps := startGuarded

/-- Close one listening socket, if there is one: the descriptor to keep. -/
def stopSocket (fd : Fd) : Fd × List Event :=
  if fd ≠ -1 then (-1, [.close fd]) else (fd, [])

def stopListeners (ctx : ListenContext) : ListenContext × List Event :=
  let (socket4, events4) := stopSocket ctx.socket4
  let (socket6, events6) := stopSocket ctx.socket6
  (⟨false, socket4, socket6⟩, events4 ++ events6)

def stopSmtp (ctx : SmtpContext) : SmtpContext × List Event :=
  let (listen, events) := stopListeners ctx.toListenContext
  (⟨listen, false⟩, events)

def stopSmtps := stopListeners

def stopStarttls := stopListeners

def stopHttp := stopListeners

def stopHttps := stopListeners

end Femail
