import Femail.Server.Main

/-! # The program

`main` from its first call to its last: the mail domain, the TLS context, the five
services, the master thread until a stop is requested, and the shutdown.

`Event` has no place for the calls on the TLS context, and says of an `accept` only what
it returned.  A `Call` is an event or one of these.  The five settings `main` makes on a
loaded context are one call here.
-/

namespace Femail

open Foundation

inductive Call where
  | sslCtxNew (ctx : Option SslCtx)
  | sslCtxSetOptions (ctx : Option SslCtx)
  | sslCtxUseCertificateChainFile (ctx : Option SslCtx) (ret : Int)
  | sslCtxUsePrivateKeyFile (ctx : Option SslCtx) (ret : Int)
  | sslCtxConfigure (ctx : SslCtx)
  | sslCtxFree (ctx : Option SslCtx)
  | accept (listener : Fd)
  | event (e : Event)
deriving DecidableEq

/-! ## The TLS context -/

/-- The calls behind `loadSslctx`. -/
def loadCalls (s : StartTurn) : List Call :=
  let created := s.sslCtxNew
  -- a failed load frees the context, and the key is tried all the same
  let (certified, dropped) :=
    if s.certificate ≤ 0 then (none, [Call.sslCtxFree created]) else (created, [])
  let (keyed, dropped') :=
    if s.privateKey ≤ 0 then (none, [Call.sslCtxFree certified]) else (certified, [])
  [.sslCtxNew created, .sslCtxSetOptions created,
    .sslCtxUseCertificateChainFile created s.certificate] ++ dropped ++
    [.sslCtxUsePrivateKeyFile certified s.privateKey] ++ dropped' ++
    keyed.toList.map .sslCtxConfigure

/-! ## The master thread -/

def Server.context (srv : Server) : ConnectionType → ListenContext
  | .smtp => srv.smtpctx.toListenContext
  | .smtps => srv.smtpsctx
  | .starttls => srv.starttlsctx
  | .http => srv.httpctx
  | .https => srv.httpsctx

/-- `handle_connection` on what `accept` returns for a listener. -/
def acceptFrom (srv : Server) (listener : Fd) (type : ConnectionType) (strat : SslStrategy)
    (a : AcceptTurn) (queue : ConnectionQueue) : ConnectionQueue × List Call :=
  let (_, queue, events) := handleConnection srv.toGlobals a type strat queue
  (queue, .accept listener :: events.map .event)

/-- `acceptService` with the calls of `accept`. -/
def acceptBoth (srv : Server) (type : ConnectionType) (strat : SslStrategy) (l : LoopTurn)
    (queue : ConnectionQueue) : ConnectionQueue × List Call :=
  if srv.active type then
    let (queue, calls4) :=
      acceptFrom srv (srv.context type).socket4 type strat (l.accept4 type) queue
    let (queue, calls6) :=
      acceptFrom srv (srv.context type).socket6 type strat (l.accept6 type) queue
    (queue, calls4 ++ calls6)
  else (queue, [])

/-- The body of the `while` of `start_master_service`, with all its calls. -/
def masterPass (srv : Server) (l : LoopTurn) (queue : ConnectionQueue) :
    ConnectionQueue × List Call :=
  let strat := if srv.smtpctx.starttls then SslStrategy.opportunisticTls else .noSsl
  let (queue, smtp) := acceptBoth srv .smtp strat l queue
  let (queue, smtps) := acceptBoth srv .smtps .implicitTls l queue
  let (queue, starttls) := acceptBoth srv .starttls .opportunisticTls l queue
  let (queue, http) := acceptBoth srv .http .noSsl l queue
  let (queue, https) := acceptBoth srv .https .implicitTls l queue
  let (queue, processed) := processConnection srv.toGlobals l.process queue
  (queue, smtp ++ smtps ++ starttls ++ http ++ https ++ processed.map .event)

/-- The `while`: a pass for each time `is_stopped` is asked and finds no stop requested. -/
def masterPasses (srv : Server) : List LoopTurn → ConnectionQueue → ConnectionQueue × List Call
  | [], queue => (queue, [])
  | l :: passes, queue =>
    let (queue, calls) := masterPass srv l queue
    let (queue, later) := masterPasses srv passes queue
    (queue, calls ++ later)

def startMasterService (srv : Server) (passes : List LoopTurn) : ConnectionQueue × List Call :=
  masterPasses srv passes connQueueInit

/-! ## `main` -/

/-- The order in which `main` starts and stops the services. -/
def services : List ConnectionType := [.smtp, .smtps, .starttls, .http, .https]

inductive Exit where
  | returned (status : Int)
  | aborted
deriving DecidableEq, Repr

/-- How `main` ends, with the connections that still wait then, and the calls made. -/
structure Ended where
  exit : Exit
  queue : ConnectionQueue
  calls : List Call

/-- The calls up to `check_communications`. -/
def startupCalls (s : StartTurn) : List Call :=
  loadCalls s ++ (services.flatMap (startCalls s)).map .event

/-- The calls behind the `pthread_join`. -/
def shutdownCalls (srv : Server) : List Call :=
  (services.flatMap (stopCalls srv)).map .event ++ [.sslCtxFree srv.sslctx]

/-- `created` is what `pthread_create` returns, `passes` the passes of the master thread
    until a stop is requested. -/
def main (s : StartTurn) (created : Int) (passes : List LoopTurn) : Ended :=
  match dnsInit s.domain with
  | none => ⟨.returned 1, connQueueInit, []⟩
  | some _ =>
    match startServer s with
    -- `check_communications` finds no mail service
    | none => ⟨.aborted, connQueueInit, startupCalls s⟩
    | some srv =>
      if created ≠ 0 then ⟨.aborted, connQueueInit, startupCalls s⟩
      else
        let (queue, calls) := startMasterService srv passes
        -- the connections that wait are left as they are
        ⟨.returned 0, queue, startupCalls s ++ calls ++ shutdownCalls srv⟩

end Femail
