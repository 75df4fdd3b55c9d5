import Femail.Foundation.History
import Femail.Foundation.Ring
import Femail.Server.Comm
import Femail.Server.Http
import Femail.Server.Smtp

/-! # The master service

`master.c`: the life of a connection record, the connection queue, accepting and
processing connections, and the loop that drives both.

`session` is the life of one connection as its own machine (one input per turn),
`master` the queue with all of them.
-/

namespace Femail

open Foundation

/-! ## Connections -/

/-- The outcomes of the calls made while one `accept` result is handled. -/
structure AcceptTurn where
  ret : Fd
  errno : Errno
  /-- What the stack holds in the place of the uninitialised local record. -/
  leftover : Connection
  timeinitialized : Time
  timerefreshed : Time
  sslNew : Option Ssl
  lock : Bool
  unlock : Bool
  now : Time

def connectionInit (g : Globals) (a : AcceptTurn) (conn : Connection) : Connection × List Event :=
  let conn := { conn with
    timeinitialized := a.timeinitialized
    timerefreshed := a.timerefreshed
    live := true }
  let (conn, events) :=
    match conn.sslstrat with
    | .implicitTls =>
      let ssl := sslNewResult g a.sslNew
      ({ conn with sslconn := ssl }, [Event.sslNew g.sslctx ssl, .sslSetFd ssl conn.clientsocket])
    -- `sslconn` stays as it was found
    | .opportunisticTls => (conn, [])
    | .noSsl => (conn, [])
  let conn :=
    match conn.type with
    | .smtp | .smtps | .starttls => { conn with state := .mailOpened }
    | .http | .https => { conn with state := .httpOpened }
  ({ conn with
      alloccount := 0
      messagebuffersize := 0
      messagebufferend := 0
      messagebuffer := none }, events)

def resetConnection (conn : Connection) : Connection × List Event :=
  ({ conn with
      live := true
      state := if conn.state = .mailGreeted then .mailGreeted else .mailExpectAny
      alloccount := 0
      messagebuffersize := 0
      messagebufferend := 0
      messagebuffer := none },
    [.free (conn.messagebuffer.map Block.addr)])

def connectionDeinit (conn : Connection) : List Event :=
  [.sslFree conn.sslconn, .free (conn.messagebuffer.map Block.addr), .close conn.clientsocket]

/-! ## The queue -/

instance : NeZero connectionQueueCapacity := ⟨by decide⟩

abbrev ConnectionQueue := Ring Connection connectionQueueCapacity

def connQueueInit : ConnectionQueue := Ring.cleared Connection.zero

/-- `lock` and `unlock` say whether the mutex calls succeed. -/
def connQueueEnqueue (lock unlock : Bool) (now : Time) (queue : ConnectionQueue)
    (conn : Connection) : Result × ConnectionQueue :=
  if !lock then (1, queue)
  else if queue.count = connectionQueueCapacity then
    if !unlock then (1, queue) else (1, queue)
  else
    let queue := queue.put { conn with timerefreshed := now }
    -- the failure of the unlock is reported after the update
    if !unlock then (1, queue) else (0, queue)

def connQueueDequeue (lock unlock : Bool) (queue : ConnectionQueue) (conn : Connection) :
    Result × ConnectionQueue × Connection :=
  if !lock then (1, queue, conn)
  else if queue.count = 0 then
    if !unlock then (1, queue, conn) else (1, queue, conn)
  else
    let conn := queue.slot queue.tail
    let queue := queue.take
    -- here too, and `conn` has been written
    if !unlock then (1, queue, conn) else (0, queue, conn)

/-! ## Accepting -/

inductive AcceptState where
  | content
  | unblock
  | error
deriving DecidableEq, Repr

def getAcceptState (acceptresult : Fd) (errno : Errno) : AcceptState :=
  if acceptresult = -1 then
    if errno = ewouldblock then .unblock else .error
  else .content

/-- The record of a new connection: three fields are assigned, the rest is what
    the stack held, and `connection_init` runs on that. -/
def newConnection (g : Globals) (a : AcceptTurn) (type : ConnectionType) (strat : SslStrategy) :
    Connection × List Event :=
  connectionInit g a { a.leftover with type := type, clientsocket := a.ret, sslstrat := strat }

def handleConnection (g : Globals) (a : AcceptTurn) (type : ConnectionType) (strat : SslStrategy)
    (queue : ConnectionQueue) : Result × ConnectionQueue × List Event :=
  match getAcceptState a.ret a.errno with
  | .unblock => (0, queue, [])
  | .error => (1, queue, [])
  | .content =>
    let (conn, events) := newConnection g a type strat
    let (result, queue) := connQueueEnqueue a.lock a.unlock a.now queue conn
    -- every failure is taken for a full queue
    if result ≠ 0 then (0, queue, .accept a.ret :: events ++ connectionDeinit conn)
    else (0, queue, .accept a.ret :: events)

/-! ## Processing -/

/-- The switch of `process_connection` on the connection's type. -/
def connectionHandler (g : Globals) (t : Turn) (conn : Connection) : Handled :=
  match conn.type with
  | .smtp => smtpHandler g t conn
  | .smtps => smtpsHandler g t conn
  | .starttls => starttlsHandler g t conn
  | .http => httpHandler g t conn
  | .https => httpsHandler t conn

/-- The switch on the handler's result: the record to queue again, if any. -/
def settleConnection (handled : Handled) : Option Connection × List Event :=
  match handled.result with
  | .continue => (some handled.conn, [])
  | .reset =>
    -- the message block is freed, the socket and the SSL object are kept
    let (conn, events) := resetConnection handled.conn
    (some conn, events)
  | .done => (none, connectionDeinit handled.conn)
  | .error => (none, connectionDeinit handled.conn)

/-- The outcomes of the calls made by one `process_connection`. -/
structure ProcessTurn where
  turn : Turn
  dequeueLock : Bool
  dequeueUnlock : Bool
  enqueueLock : Bool
  enqueueUnlock : Bool

def processConnection (g : Globals) (p : ProcessTurn) (queue : ConnectionQueue) :
    ConnectionQueue × List Event :=
  let (result, queue, conn) :=
    connQueueDequeue p.dequeueLock p.dequeueUnlock queue Connection.zero
  if result ≠ 0 then (queue, [])
  else
    let handled := connectionHandler g p.turn conn
    let (kept, settled) := settleConnection handled
    let events := handled.events ++ .handlerReturned handled.result :: settled
    match kept with
    | some conn =>
      let (result, queue) :=
        connQueueEnqueue p.enqueueLock p.enqueueUnlock p.turn.now queue conn
      if result ≠ 0 then (queue, events ++ connectionDeinit conn) else (queue, events)
    | none => (queue, events)

/-- `process_connection` behind its dequeue. -/
def finishConnection (g : Globals) (p : ProcessTurn) (queue : ConnectionQueue) (conn : Connection) :
    ConnectionQueue × List Event :=
  let handled := connectionHandler g p.turn conn
  let (kept, settled) := settleConnection handled
  let events := handled.events ++ .handlerReturned handled.result :: settled
  match kept with
  | some conn =>
    let (result, queue) :=
      connQueueEnqueue p.enqueueLock p.enqueueUnlock p.turn.now queue conn
    if result ≠ 0 then (queue, events ++ connectionDeinit conn) else (queue, events)
  | none => (queue, events)

theorem processConnection_eq (g : Globals) (p : ProcessTurn) (queue : ConnectionQueue) :
    processConnection g p queue =
      let (result, queue, conn) :=
        connQueueDequeue p.dequeueLock p.dequeueUnlock queue Connection.zero
      if result ≠ 0 then (queue, []) else finishConnection g p queue conn := rfl

/-- One turn of a connection whose re-enqueue succeeds: what `process_connection`
    does to it between two stays in the queue. -/
def serveConnection (g : Globals) (t : Turn) (conn : Connection) : Option Connection × List Event :=
  let handled := connectionHandler g t conn
  let (kept, settled) := settleConnection handled
  (kept.map fun conn => { conn with timerefreshed := t.now },
    handled.events ++ .handlerReturned handled.result :: settled)

/-- The life of one connection; `none` once it has been deinitialised. -/
def session (g : Globals) : Machine (Option Connection) Turn (List Event) where
  step
    | some conn, t => serveConnection g t conn
    | none, _ => (none, [])

/-! ## The loop -/

structure Server extends Globals where
  smtpctx : SmtpContext
  smtpsctx : ListenContext
  starttlsctx : ListenContext
  httpctx : ListenContext
  httpsctx : ListenContext

def Server.active (srv : Server) : ConnectionType → Bool
  | .smtp => srv.smtpctx.active
  | .smtps => srv.smtpsctx.active
  | .starttls => srv.starttlsctx.active
  | .http => srv.httpctx.active
  | .https => srv.httpsctx.active

/-- The strategy `start_master_service` passes for each service. -/
def Server.strategy (srv : Server) : ConnectionType → SslStrategy
  | .smtp => if srv.smtpctx.starttls then .opportunisticTls else .noSsl
  | .smtps => .implicitTls
  | .starttls => .opportunisticTls
  | .http => .noSsl
  | .https => .implicitTls

/-- A step of the master thread: one `accept` on a listener of a service, or one
    `process_connection`. -/
inductive MasterInput where
  | accept (type : ConnectionType) (a : AcceptTurn)
  | process (p : ProcessTurn)

def masterStep (srv : Server) (queue : ConnectionQueue) :
    MasterInput → ConnectionQueue × List Event
  | .accept type a =>
    if srv.active type then
      let (_, queue, events) := handleConnection srv.toGlobals a type (srv.strategy type) queue
      (queue, events)
    else (queue, [])
  | .process p => processConnection srv.toGlobals p queue

def master (srv : Server) : Machine ConnectionQueue MasterInput (List Event) where
  step := masterStep srv

/-- The outcomes of one pass of the loop: an `accept` for each address family of
    each service, and one `process_connection`. -/
structure LoopTurn where
  accept4 : ConnectionType → AcceptTurn
  accept6 : ConnectionType → AcceptTurn
  process : ProcessTurn

/-- The block of the loop for one service. -/
def acceptService (srv : Server) (type : ConnectionType) (strat : SslStrategy) (l : LoopTurn)
    (queue : ConnectionQueue) : ConnectionQueue × List Event :=
  if srv.active type then
    let (_, queue, events4) := handleConnection srv.toGlobals (l.accept4 type) type strat queue
    let (_, queue, events6) := handleConnection srv.toGlobals (l.accept6 type) type strat queue
    (queue, events4 ++ events6)
  else (queue, [])

/-- The body of the `while` of `start_master_service`. -/
def masterLoopBody (srv : Server) (l : LoopTurn) (queue : ConnectionQueue) :
    ConnectionQueue × List Event :=
  let strat := if srv.smtpctx.starttls then SslStrategy.opportunisticTls else .noSsl
  let (queue, smtp) := acceptService srv .smtp strat l queue
  let (queue, smtps) := acceptService srv .smtps .implicitTls l queue
  let (queue, starttls) := acceptService srv .starttls .opportunisticTls l queue
  let (queue, http) := acceptService srv .http .noSsl l queue
  let (queue, https) := acceptService srv .https .implicitTls l queue
  let (queue, processed) := processConnection srv.toGlobals l.process queue
  (queue, smtp ++ smtps ++ starttls ++ http ++ https ++ processed)

/-- The steps one pass of the loop takes, in order. -/
def LoopTurn.inputs (l : LoopTurn) : List MasterInput :=
  [.accept .smtp (l.accept4 .smtp), .accept .smtp (l.accept6 .smtp),
   .accept .smtps (l.accept4 .smtps), .accept .smtps (l.accept6 .smtps),
   .accept .starttls (l.accept4 .starttls), .accept .starttls (l.accept6 .starttls),
   .accept .http (l.accept4 .http), .accept .http (l.accept6 .http),
   .accept .https (l.accept4 .https), .accept .https (l.accept6 .https),
   .process l.process]

theorem acceptService_eq_run (srv : Server) (type : ConnectionType) (l : LoopTurn)
    (queue : ConnectionQueue) :
    let steps := (master srv).run queue [.accept type (l.accept4 type), .accept type (l.accept6 type)]
    acceptService srv type (srv.strategy type) l queue = (steps.2, steps.1.flatten) := by
  cases up : srv.active type with
  | false => simp [acceptService, master, Machine.run, masterStep, up]
  | true => simp [acceptService, master, Machine.run, masterStep, up]

/-- A pass of the loop is a run of `master` over its steps. -/
theorem masterLoopBody_eq_run (srv : Server) (l : LoopTurn) (queue : ConnectionQueue) :
    masterLoopBody srv l queue =
      (((master srv).run queue l.inputs).2, ((master srv).run queue l.inputs).1.flatten) := by
  have smtp := acceptService_eq_run srv .smtp l
  have smtps := acceptService_eq_run srv .smtps l
  have starttls := acceptService_eq_run srv .starttls l
  have http := acceptService_eq_run srv .http l
  have https := acceptService_eq_run srv .https l
  simp only [Server.strategy] at smtp smtps starttls http https
  simp only [masterLoopBody, smtp, smtps, starttls, http, https]
  simp [LoopTurn.inputs, master, Machine.run, masterStep]

end Femail
