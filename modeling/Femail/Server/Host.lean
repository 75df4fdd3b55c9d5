import Mathlib.Logic.Function.Basic
import Femail.Server.Main

/-! # The server as a Linux process

Two things about a run are decided outside the source.  Whether a call waits for the
peer is up to the mode of its descriptor (`thread`).  Whether a call ends the process is up
to the signals, where it writes to a connection that the peer has reset, and to OpenSSL,
where it is given a null object (`process`).  Both machines take the steps of `master`.
-/

namespace Femail

open Foundation

/-! ## Calls that wait -/

/-- The mode of each descriptor (`true` for `O_NONBLOCK`), and the descriptor of each SSL
    object. -/
structure Descriptors where
  nonblock : Fd → Bool
  bound : Ssl → Fd

/-- Listeners are opened with `SOCK_NONBLOCK`.  The flag of what `accept` returns is clear,
    and no call of the program sets it. -/
def Descriptors.after (descriptors : Descriptors) : Event → Descriptors
  | .socket fd => { descriptors with nonblock := Function.update descriptors.nonblock fd true }
  | .accept fd => { descriptors with nonblock := Function.update descriptors.nonblock fd false }
  | .sslSetFd (some ssl) fd =>
    { descriptors with bound := Function.update descriptors.bound ssl fd }
  | _ => descriptors

/-- Whether by the time of the call enough has come for `SSL_accept` and the read to return:
    some data (under TLS a whole record, or all of the client's next flight), the end of the
    connection or an error.  Writes are taken to return. -/
structure Arrived where
  accept : Bool
  read : Bool
deriving DecidableEq

/-- The peer has sent nothing. -/
def Arrived.nothing : Arrived := ⟨false, false⟩

/-- The descriptor on which a call has to wait. -/
def Event.waitsOn (descriptors : Descriptors) (arrived : Arrived) : Event → Option Fd
  | .sslAccept (some ssl) _ => if arrived.accept then none else some (descriptors.bound ssl)
  | .read fd _ => if arrived.read then none else some fd
  | .sslRead (some ssl) _ => if arrived.read then none else some (descriptors.bound ssl)
  | _ => none

/-- What the calls return that find nothing and may not wait. -/
def Turn.wouldBlock (t : Turn) (arrived : Arrived) : Turn :=
  { t with
    recv := if arrived.read then t.recv else .fail (some ewouldblock)
    sslAccept := if arrived.accept then t.sslAccept else -1
    sslGetError := if arrived.accept then t.sslGetError else .wantRead }

/-- The master thread. -/
structure Thread where
  queue : ConnectionQueue
  descriptors : Descriptors
  /-- The connection, out of the queue, in one of whose calls the thread waits. -/
  inside : Option Connection

inductive ThreadInput where
  | accept (type : ConnectionType) (a : AcceptTurn)
  | process (p : ProcessTurn) (arrived : Arrived)

def Thread.finish (srv : Server) (thread : Thread) (p : ProcessTurn) (queue : ConnectionQueue)
    (conn : Connection) : Thread × List Event :=
  let (queue, events) := finishConnection srv.toGlobals p queue conn
  (⟨queue, events.foldl Descriptors.after thread.descriptors, none⟩, events)

/-- The turn of a connection: its first call that finds nothing waits, or fails, by the
    mode of its descriptor. -/
def Thread.serve (srv : Server) (thread : Thread) (p : ProcessTurn) (arrived : Arrived)
    (queue : ConnectionQueue) (conn : Connection) : Thread × List Event :=
  let calls := (connectionHandler srv.toGlobals p.turn conn).events
  match calls.findSome? (Event.waitsOn thread.descriptors arrived) with
  | none => thread.finish srv p queue conn
  | some fd =>
    if thread.descriptors.nonblock fd then
      thread.finish srv { p with turn := p.turn.wouldBlock arrived } queue conn
    else ({ thread with queue := queue, inside := some conn }, [])

def threadStep (srv : Server) (thread : Thread) : ThreadInput → Thread × List Event
  | .accept type a =>
    match thread.inside with
    | some _ => (thread, [])
    | none =>
      let (queue, events) := masterStep srv thread.queue (.accept type a)
      (⟨queue, events.foldl Descriptors.after thread.descriptors, none⟩, events)
  | .process p arrived =>
    match thread.inside with
    -- the call returns, or goes on waiting
    | some conn => thread.serve srv p arrived thread.queue conn
    | none =>
      let (result, queue, conn) :=
        connQueueDequeue p.dequeueLock p.dequeueUnlock thread.queue Connection.zero
      if result ≠ 0 then ({ thread with queue := queue }, [])
      else thread.serve srv p arrived queue conn

def thread (srv : Server) : Machine Thread ThreadInput (List Event) where
  step := threadStep srv

/-! ## Calls that end the process -/

inductive Signal where
  | sigint
  | sigterm
  | sigpipe
deriving DecidableEq, Repr

inductive Disposition where
  | default
  | requestStop
deriving DecidableEq, Repr

/-- The calls of `signal` in `main`. -/
def mainSignals : List (Signal × Disposition) :=
  [(.sigint, .requestStop), (.sigterm, .requestStop)]

/-- The last call for a signal decides. -/
def disposition (calls : List (Signal × Disposition)) (signal : Signal) : Disposition :=
  ((calls.reverse.find? fun call => call.1 = signal).map Prod.snd).getD .default

def Event.isWrite : Event → Bool
  | .dprintf _ _ _ => true
  | .sslWrite _ _ _ => true
  | _ => false

/-- For each call of a turn with which it may write to the client, whether it does so on a
    connection that the peer has reset: the reply, and `SSL_accept` and `SSL_read` where the
    TLS library has something to send. -/
structure Hangup where
  accept : Bool
  read : Bool
  reply : Bool
deriving DecidableEq, Repr

def Hangup.none : Hangup := ⟨false, false, false⟩

/-- The call writes to a connection that the peer has reset. -/
def Event.isBroken (hangup : Hangup) : Event → Bool
  | .sslAccept _ _ => hangup.accept
  | .sslRead _ _ => hangup.read
  | .dprintf _ _ _ => hangup.reply
  | .sslWrite _ _ _ => hangup.reply
  | _ => false

/-- The call gives OpenSSL a null object to work on.  `SSL_free` may be given one. -/
def Event.onNull : Event → Bool
  | .sslSetFd ssl _ => ssl.isNone
  | .sslAccept ssl _ => ssl.isNone
  | .sslRead ssl _ => ssl.isNone
  | .sslWrite ssl _ _ => ssl.isNone
  | _ => false

/-- The call ends the process: a null object is read through, and a write to a connection
    that the peer has reset raises `SIGPIPE`, which by default does the same. -/
def Event.isFatal (hangup : Hangup) (e : Event) : Bool :=
  e.onNull || (e.isBroken hangup && disposition mainSignals .sigpipe = .default)

/-- The process. -/
structure Process where
  queue : ConnectionQueue
  alive : Bool

inductive ProcessInput where
  | accept (type : ConnectionType) (a : AcceptTurn)
  | process (p : ProcessTurn) (hangup : Hangup)

/-- A step of `master` as the process makes it: up to a call that ends it, if there is one. -/
def Process.perform (process : Process) (hangup : Hangup) (next : ConnectionQueue × List Event) :
    Process × List Event :=
  if next.2.any (Event.isFatal hangup) then
    ({ process with alive := false }, next.2.takeWhile fun e => !e.isFatal hangup)
  else (⟨next.1, true⟩, next.2)

def processStep (srv : Server) (process : Process) (input : ProcessInput) :
    Process × List Event :=
  if !process.alive then (process, [])
  else
    match input with
    | .accept type a => process.perform .none (masterStep srv process.queue (.accept type a))
    | .process p hangup => process.perform hangup (masterStep srv process.queue (.process p))

def process (srv : Server) : Machine Process ProcessInput (List Event) where
  step := processStep srv

end Femail
