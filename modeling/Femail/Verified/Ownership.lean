import Femail.Verified.Conservation
import Femail.Verified.Tickets

/-! # SSL objects and message blocks are released once

What a connection holds besides its socket: the SSL object in `sslconn` and the block
`messagebuffer` points to.  For each of the two the calls made for one connection are read
as uses of that resource, and the law is `Sole`: what was obtained and not given back is
what the record points to.

Both laws have an exception in the program.  A STARTTLS overwrites `sslconn`, so an
object that is there already is lost; and a `realloc` that fails leaves the old block
allocated while the record forgets it.
-/

namespace Femail

open Foundation

/-! ## SSL objects -/

/-- What the calls of a connection did to SSL objects. -/
def objectUses (calls : List Event) : List (Use Ssl) := calls.flatMap Event.objectUses

@[simp] theorem objectUses_append (calls events : List Event) :
    objectUses (calls ++ events) = objectUses calls ++ objectUses events := List.flatMap_append

theorem use_notMem_objectUses (calls : List Event) (ssl : Ssl) : .use ssl ∉ objectUses calls := by
  intro mem
  obtain ⟨e, -, uses⟩ := List.mem_flatMap.mp mem
  cases e with
  | sslNew ctx new => cases new <;> simp [Event.objectUses] at uses
  | sslFree old => cases old <;> simp [Event.objectUses] at uses
  | _ => cases uses

theorem objectUses_within {conn : Connection} {events : List Event}
    (within : ∀ e ∈ events, e.Within conn) : objectUses events = [] :=
  List.flatMap_eq_nil_iff.mpr fun e mem => objectUses_of_within (within e mem)

theorem objectUses_upgrade (ctx : Option SslCtx) (ssl : Option Ssl) (fd : Fd) :
    objectUses [.sslNew ctx ssl, .sslSetFd ssl fd] = ssl.toList.map .acquire := by
  cases ssl <;> rfl

theorem objectUses_connectionDeinit (conn : Connection) :
    objectUses (connectionDeinit conn) = conn.sslconn.toList.map .release := by
  cases ssl : conn.sslconn <;> simp [objectUses, connectionDeinit, Event.objectUses, ssl]

/-- The law: the objects made for a connection and not freed are the one in its record. -/
def OwnsObject (calls : List Event) (record : Option Connection) : Prop :=
  Sole (objectUses calls) (record.bind Connection.sslconn)

theorem OwnsObject.deinit {calls : List Event} {conn : Connection}
    (owns : OwnsObject calls (some conn)) : OwnsObject (calls ++ connectionDeinit conn) none := by
  rw [OwnsObject, objectUses_append, objectUses_connectionDeinit]
  exact Sole.release owns

theorem ownsObject_accepted (g : Globals) {a : AcceptTurn} (type : ConnectionType)
    {strat : SslStrategy} (clean : strat ≠ .implicitTls → a.leftover.sslconn = none) :
    OwnsObject (.accept a.ret :: (newConnection g a type strat).2)
      (some (acceptedConnection g a type strat)) := by
  have quiet : ∀ events, objectUses (.accept a.ret :: events) = objectUses events := fun _ => rfl
  rw [OwnsObject, quiet, events_newConnection, Option.bind_some, sslconn_acceptedConnection]
  by_cases implicit : strat = .implicitTls
  · rw [if_pos implicit, if_pos implicit, objectUses_upgrade]
    exact sole_nil.acquire _
  · rw [if_neg implicit, if_neg implicit, clean implicit]
    exact sole_nil

/-- A STARTTLS comes to a connection that has no SSL object yet. -/
def Turn.StartsTlsOnce (t : Turn) (conn : Connection) : Prop :=
  conn.type = .smtp → t.commandFor conn = some .starttls → conn.sslconn = none

instance (t : Turn) (conn : Connection) : Decidable (t.StartsTlsOnce conn) :=
  inferInstanceAs (Decidable (_ → _ → _))

theorem OwnsObject.handle {g : Globals} {t : Turn} {calls : List Event} {conn : Connection}
    (once : t.StartsTlsOnce conn) (owns : OwnsObject calls (some conn)) :
    OwnsObject (calls ++ (connectionHandler g t conn).events)
      (some (connectionHandler g t conn).conn) := by
  have footprint := footprint_connectionHandler g t conn
  rw [OwnsObject, objectUses_append, Option.bind_some]
  cases footprint.tls with
  | inl keeps =>
    rw [objectUses_within keeps.within, keeps.sslconn, List.append_nil]
    exact owns
  | inr upgrades =>
    obtain ⟨before, events, -, within⟩ := upgrades.calls
    have empty : Sole (objectUses calls) none := by
      rw [← once upgrades.smtp upgrades.brings]
      exact owns
    rw [events, objectUses_append, objectUses_within within, objectUses_upgrade, upgrades.sslconn]
    exact empty.acquire _

theorem OwnsObject.serve {g : Globals} {t : Turn} {calls : List Event} {conn : Connection}
    (once : t.StartsTlsOnce conn) (owns : OwnsObject calls (some conn)) :
    OwnsObject (calls ++ (serveConnection g t conn).2) (serveConnection g t conn).1 := by
  -- neither the return of the handler nor the `free` of a reset is about SSL objects
  have quiet : ∀ {calls : List Event} {record : Option Connection} {e : Event},
      e.objectUses = [] → OwnsObject calls record → OwnsObject (calls ++ [e]) record := by
    intro calls record e silent owns
    simpa [OwnsObject, objectUses, silent] using owns
  refine serveConnection_law (quiet rfl (owns.handle once)) ?_ ?_ ?_
  · intro calls conn now owns
    exact owns
  · intro calls conn owns
    have reset : OwnsObject calls (some (resetConnection conn).1) := owns
    refine quiet ?_ reset
    cases conn.messagebuffer <;> rfl
  · intro calls conn owns
    exact owns.deinit

/-- Every object that `SSL_new` gave for the connection with ticket `n` is the one in its
    record or was freed once, and none is left when its record is gone. -/
def ObjectsReleasedOnce (srv : Server) (h : MasterHistory) (queue : ConnectionQueue) (n : Nat) :
    Prop :=
  let uses := objectUses (callsFor srv n h)
  let record := (line srv h queue).lookup n
  (∀ before ssl after, uses = before ++ .acquire ssl :: after →
    (life ssl after = [] ∧ record.bind Connection.sslconn = some ssl) ∨
      life ssl after = [.release ssl]) ∧
  (record = none → heldAfter ∅ uses = ∅)

/-- The locks are released, records without implicit TLS begin with no SSL object, and a
    STARTTLS comes only to a connection without one. -/
def startsTlsOnce (srv : Server) : MasterHistory → ConnectionQueue → MasterInput → Prop :=
  fun _ queue input =>
    unlocks queue input ∧ cleanRecord srv input ∧ turnOk Turn.StartsTlsOnce queue input

instance (srv : Server) : ∀ h queue input, Decidable (startsTlsOnce srv h queue input) :=
  fun _ _ _ => inferInstanceAs (Decidable (_ ∧ _ ∧ _))

/-- **SSL objects are released once**, in every run that gives no connection a second one
    while it has one. -/
theorem objects_released_once {srv : Server} {h : MasterHistory} {queue : ConnectionQueue}
    (reaches : (master srv).Reaches (· = connQueueInit) (startsTlsOnce srv) h queue) (n : Nat) :
    ObjectsReleasedOnce srv h queue n := by
  have laws : InLine (ticketsAfter srv h) queue ∧
      ∀ n, OwnsObject (callsFor srv n h) ((line srv h queue).lookup n) := by
    refine connection_law (fun _ _ _ ok => ok.1) sole_nil ?_ ?_ ?_ reaches
    · intro h queue type a ok up given
      exact ownsObject_accepted srv.toGlobals type (ok.2.1 up given)
    · intro h queue p conn calls ok lock front owns
      exact owns.serve (ok.2.2 lock conn front)
    · intro calls conn owns
      exact owns.deinit
  have owns := laws.2 n
  refine ⟨?_, ?_⟩
  · intro before ssl after split
    exact Sole.fate owns (use_notMem_objectUses _) split
  · intro gone
    rw [gone] at owns
    exact Sole.empty owns

/-- A client that starts TLS and leaves, and one of HTTPS that comes meanwhile. -/
def tlsInputs : List MasterInput :=
  [.accept .smtp (.onSocket 5 Connection.zero), .process (.serves .silent),
   .process (.serves starttlsTurn),
   .accept .https { AcceptTurn.onSocket 6 Connection.zero with sslNew := some 2 },
   .process (.serves { Turn.silent with sslAccept := 1 }), .process (.serves { Turn.silent with sslAccept := 1 }),
   .process (.serves quitTurn)]

theorem objects_released_once_tls :
    let srv := serverWith (some 1)
    let last := (master srv).trace [] connQueueInit tlsInputs
    objectUses (callsFor srv 0 last.1) = [.acquire 1, .release 1] ∧
      objectUses (callsFor srv 1 last.1) = [.acquire 2] ∧
      ((line srv last.1 last.2).lookup 1).bind Connection.sslconn = some 2 := by
  intro srv last
  have admitted : (master srv).Admits (startsTlsOnce srv) [] connQueueInit tlsInputs := by
    decide +kernel
  have idle : (master srv).Reaches (· = connQueueInit) (startsTlsOnce srv) [] connQueueInit :=
    .start rfl
  have uses : objectUses (callsFor srv 1 last.1) = [] ++ .acquire 2 :: [] := by decide +kernel
  have released : ObjectsReleasedOnce srv last.1 last.2 1 :=
    objects_released_once (idle.trace _ admitted) 1
  refine ⟨by decide +kernel, uses, ?_⟩
  obtain ⟨-, current⟩ | freed := released.1 _ _ _ uses
  · exact current
  · cases freed

/-- A client that starts TLS again inside TLS, and fails the second negotiation. -/
def tlsAgainInputs : List MasterInput :=
  [.accept .smtp (.onSocket 5 Connection.zero), .process (.serves .silent),
   .process (.serves starttlsTurn), .process (.serves { Turn.silent with sslAccept := 1 }),
   .process (.serves { starttlsTurn with sslNew := some 2 }),
   .process (.serves { Turn.silent with sslGetError := .other 1 })]

/-- The first of its objects is never freed. -/
theorem starttls_again_loses_object :
    let srv := serverWith (some 1)
    let last := (master srv).trace [] connQueueInit tlsAgainInputs
    (master srv).Reaches (· = connQueueInit) (soundAndClean srv) last.1 last.2 ∧
      (∀ e ∈ calls last.1, e ≠ .sslNew srv.sslctx none) ∧
      ¬ ObjectsReleasedOnce srv last.1 last.2 0 := by
  intro srv last
  have admitted : (master srv).Admits (soundAndClean srv) [] connQueueInit tlsAgainInputs := by
    decide +kernel
  have idle : (master srv).Reaches (· = connQueueInit) (soundAndClean srv) [] connQueueInit :=
    .start rfl
  have uses : objectUses (callsFor srv 0 last.1) = [] ++ .acquire 1 :: [.acquire 2, .release 2] := by
    decide +kernel
  have gone : (line srv last.1 last.2).lookup 0 = none := by decide +kernel
  refine ⟨idle.trace _ admitted, ?_, ?_⟩
  · decide +kernel
  · rintro ⟨fate, -⟩
    obtain ⟨-, current⟩ | freed := fate _ _ _ uses
    · rw [gone] at current
      cases current
    · revert freed
      decide

/-! ## Message blocks -/

/-- A `realloc` that succeeds gives the old block back and obtains the new one; one that
    fails does neither. -/
def Event.blockUses : Event → List (Use Addr)
  | .realloc old _ (some new) => old.toList.map .release ++ [.acquire new]
  | .free old => old.toList.map .release
  | _ => []

def blockUses (calls : List Event) : List (Use Addr) := calls.flatMap Event.blockUses

@[simp] theorem blockUses_nil : blockUses [] = [] := rfl

@[simp] theorem blockUses_cons (e : Event) (events : List Event) :
    blockUses (e :: events) = e.blockUses ++ blockUses events := rfl

@[simp] theorem blockUses_append (calls events : List Event) :
    blockUses (calls ++ events) = blockUses calls ++ blockUses events := List.flatMap_append

/-- A read is no use of a block. -/
theorem blockUses_read (t : Turn) (conn : Connection) (events : List Event) :
    blockUses (smtpReceiveMsg t conn :: events) = blockUses events := by
  unfold smtpReceiveMsg
  cases conn.sslconn <;> rfl

@[simp] theorem blockUses_smtpSendMsg (g : Globals) (t : Turn) (conn : Connection) (reply : Reply) :
    blockUses (smtpSendMsg g t conn reply) = [] := by
  rw [smtpSendMsg_eq]
  cases conn.sslconn <;> rfl

theorem use_notMem_blockUses (calls : List Event) (addr : Addr) : .use addr ∉ blockUses calls := by
  intro mem
  obtain ⟨e, -, uses⟩ := List.mem_flatMap.mp mem
  cases e with
  | realloc old size new => cases new <;> simp [Event.blockUses] at uses
  | free old => simp [Event.blockUses] at uses
  | _ => cases uses

/-- The block a record points to. -/
def Connection.block (conn : Connection) : Option Addr := conn.messagebuffer.map Block.addr

/-- A read of message text for which `realloc` fails while there is a block. -/
def Turn.LosesBlock (t : Turn) (conn : Connection) : Prop :=
  conn.type = .smtp ∧ conn.live = true ∧ conn.state = .mailExpectData ∧ t.recv.bytes ≠ [] ∧
    conn.nextSize ≤ esmtpSize ∧ t.realloc = none ∧ conn.messagebuffer ≠ none

instance (t : Turn) (conn : Connection) : Decidable (t.LosesBlock conn) :=
  inferInstanceAs (Decidable (_ ∧ _ ∧ _ ∧ _ ∧ _ ∧ _ ∧ _))

theorem blockUses_appendEvents (conn : Connection) (chunk : Chunk) (addr : Addr) :
    blockUses (appendEvents conn chunk addr) = conn.block.toList.map .release ++ [.acquire addr] := by
  simp [appendEvents, Event.blockUses, Connection.block]

/-- What a handler does to the block of its connection. -/
inductive BlockStep (t : Turn) (conn : Connection) (handled : Handled) : Prop where
  | kept : blockUses handled.events = [] → handled.conn.block = conn.block → BlockStep t conn handled
  | moved (addr : Addr) :
      blockUses handled.events = conn.block.toList.map .release ++ [.acquire addr] →
      handled.conn.block = some addr → BlockStep t conn handled
  | lost : t.LosesBlock conn → BlockStep t conn handled

theorem smtpHandleCommand_block (g : Globals) (t : Turn) (conn : Connection)
    (command : SMTPClientCommand) :
    blockUses (smtpHandleCommand g t conn command).events = [] ∧
      (smtpHandleCommand g t conn command).conn.block = conn.block := by
  have step := smtpHandleCommand_step g t conn command
  generalize smtpHandleCommand g t conn command = handled at step ⊢
  generalize command.command = verb at step
  cases step with
  | noop => exact ⟨rfl, rfl⟩
  | starttls => exact ⟨by simp [Event.blockUses], rfl⟩
  | _ => exact ⟨blockUses_smtpSendMsg _ _ _ _, rfl⟩

theorem smtpHandler_block (g : Globals) {t : Turn} {conn : Connection} (smtp : conn.type = .smtp) :
    BlockStep t conn (smtpHandler g t conn) := by
  have step := smtpHandler_step g t conn
  generalize smtpHandler g t conn = handled at step ⊢
  cases step with
  | dead | tlsRetry | tlsFailed | tlsDone => exact .kept rfl rfl
  | opened => exact .kept (blockUses_smtpSendMsg _ _ _ _) rfl
  | noData => exact .kept (blockUses_read _ _ _) rfl
  | tooLong | tooLarge =>
    exact .kept (by rw [blockUses_read, blockUses_smtpSendMsg]) rfl
  | unrecognized =>
    refine .kept ?_ rfl
    rw [blockUses_read, blockUses_cons, blockUses_smtpSendMsg]
    rfl
  | noMemory chunk reading got data fits failed =>
    by_cases held : conn.messagebuffer = none
    · -- there is nothing to lose before the first read
      refine .kept ?_ ?_
      · rw [blockUses_read, blockUses_cons, blockUses_smtpSendMsg]
        rfl
      · simp [Connection.block, held]
    · exact .lost ⟨smtp, reading.1, data, t.bytes_ne_nil got, fits, failed, held⟩
  | dataEnd chunk addr =>
    refine .moved addr ?_ rfl
    rw [List.cons_append, blockUses_read, blockUses_append, blockUses_smtpSendMsg, List.append_nil]
    exact blockUses_appendEvents conn chunk addr
  | dataMore chunk addr =>
    refine .moved addr ?_ rfl
    rw [blockUses_read]
    exact blockUses_appendEvents conn chunk addr
  | command chunk command =>
    obtain ⟨uses, same⟩ := smtpHandleCommand_block g t conn command
    refine .kept ?_ same
    rw [blockUses_read, blockUses_cons, uses]
    rfl

theorem httpHandleRead_block {t : Turn} {conn : Connection} {response : Event}
    (silent : response.blockUses = []) : blockUses (httpHandleRead t conn response).events = [] := by
  apply List.flatMap_eq_nil_iff.mpr
  intro e mem
  rw [mem_httpHandleRead mem]
  exact silent

/-- The other services have no message. -/
theorem connectionHandler_block (g : Globals) (t : Turn) (conn : Connection) :
    BlockStep t conn (connectionHandler g t conn) := by
  by_cases smtp : conn.type = .smtp
  · rw [connectionHandler_smtp g t smtp]
    exact smtpHandler_block g smtp
  · refine .kept ?_ (by rw [connectionHandler_conn g t smtp])
    unfold connectionHandler
    cases type : conn.type with
    | smtp => exact absurd type smtp
    | smtps =>
      dsimp only [smtpsHandler]
      split
      · rfl
      · split <;> simp [Event.blockUses]
    | starttls =>
      dsimp only [starttlsHandler]
      split <;> simp
    | http =>
      dsimp only [httpHandler]
      split
      · rfl
      · rw [blockUses_cons, httpHandleRead_block rfl]
        rfl
    | https =>
      dsimp only [httpsHandler]
      split
      · rfl
      · split
        · rfl
        · rw [blockUses_cons, blockUses_cons, httpHandleRead_block rfl]
          rfl

/-- The law: the blocks obtained for a connection and not freed are the one its record
    points to; and behind the `free` of a reset there is none. -/
structure OwnsBlock (calls : List Event) (record : Option Connection) : Prop where
  sole : Sole (blockUses calls) (record.bind Connection.block)
  reset : ∀ addr, calls.getLast? = some (.free addr) → record.bind Connection.block = none

theorem OwnsBlock.release {calls : List Event} {conn : Connection}
    (owns : OwnsBlock calls (some conn)) : Sole (blockUses (calls ++ [.free conn.block])) none := by
  rw [blockUses_append, blockUses_cons, blockUses_nil, List.append_nil]
  exact owns.sole.release

theorem OwnsBlock.deinit {calls : List Event} {conn : Connection}
    (owns : OwnsBlock calls (some conn)) : OwnsBlock (calls ++ connectionDeinit conn) none := by
  refine ⟨?_, fun _ _ => rfl⟩
  have freed := owns.release
  simpa [connectionDeinit, Event.blockUses, Connection.block] using freed

theorem OwnsBlock.handle {g : Globals} {t : Turn} {calls : List Event} {conn : Connection}
    (keeps : ¬ t.LosesBlock conn) (owns : OwnsBlock calls (some conn)) :
    let handled := connectionHandler g t conn
    Sole (blockUses (calls ++ handled.events)) handled.conn.block := by
  intro handled
  have step : BlockStep t conn handled := connectionHandler_block g t conn
  rw [blockUses_append]
  cases step with
  | kept quiet same =>
    rw [quiet, same, List.append_nil]
    exact owns.sole
  | moved addr uses moved =>
    rw [uses, moved, ← List.append_assoc]
    exact owns.sole.release.acquire (some addr)
  | lost loses => exact absurd loses keeps

theorem OwnsBlock.serve {g : Globals} {t : Turn} {calls : List Event} {conn : Connection}
    (keeps : ¬ t.LosesBlock conn) (owns : OwnsBlock calls (some conn)) :
    OwnsBlock (calls ++ (serveConnection g t conn).2) (serveConnection g t conn).1 := by
  refine serveConnection_law ?_ ?_ ?_ ?_
  · refine ⟨?_, ?_⟩
    · rw [blockUses_append, show ∀ result, blockUses [.handlerReturned result] = [] from fun _ => rfl,
        List.append_nil]
      exact owns.handle keeps
    · intro addr last
      rw [List.getLast?_append_cons] at last
      cases last
  · intro calls conn now owns
    exact ⟨owns.sole, owns.reset⟩
  · intro calls conn owns
    exact ⟨owns.release, fun _ _ => rfl⟩
  · intro calls conn owns
    exact owns.deinit

/-- The blocks obtained for the connection with ticket `n` and not freed are the one its
    record points to; each was freed once or is that one, none that was not held was freed;
    and none is left behind a reset or when the record is gone. -/
structure BlocksReleasedOnce (srv : Server) (h : MasterHistory) (queue : ConnectionQueue) (n : Nat) :
    Prop where
  held : heldAfter ∅ (blockUses (callsFor srv n h)) =
    {addr | ((line srv h queue).lookup n).bind Connection.block = some addr}
  safe : Safe ∅ (blockUses (callsFor srv n h))
  fate : ∀ before addr after, blockUses (callsFor srv n h) = before ++ .acquire addr :: after →
    (life addr after = [] ∧ ((line srv h queue).lookup n).bind Connection.block = some addr) ∨
      life addr after = [.release addr]
  reset : ∀ addr, (callsFor srv n h).getLast? = some (.free addr) →
    heldAfter ∅ (blockUses (callsFor srv n h)) = ∅
  gone : (line srv h queue).lookup n = none → heldAfter ∅ (blockUses (callsFor srv n h)) = ∅

/-- The locks are released, and no `realloc` fails for a message that has a block. -/
def keepsBlocks : MasterHistory → ConnectionQueue → MasterInput → Prop :=
  fun _ queue input => unlocks queue input ∧ turnOk (fun t conn => ¬ t.LosesBlock conn) queue input

instance : ∀ h queue input, Decidable (keepsBlocks h queue input) :=
  fun _ _ _ => inferInstanceAs (Decidable (_ ∧ _))

/-- **Message blocks are released once**, in every run in which no `realloc` fails for a
    message that has a block. -/
theorem blocks_released_once {srv : Server} {h : MasterHistory} {queue : ConnectionQueue}
    (reaches : (master srv).Reaches (· = connQueueInit) keepsBlocks h queue) (n : Nat) :
    BlocksReleasedOnce srv h queue n := by
  have laws : InLine (ticketsAfter srv h) queue ∧
      ∀ n, OwnsBlock (callsFor srv n h) ((line srv h queue).lookup n) := by
    refine connection_law (fun _ _ _ ok => ok.1) ⟨sole_nil, fun _ _ => rfl⟩ ?_ ?_ ?_ reaches
    · intro h queue type a ok up given
      have calls := events_newConnection srv.toGlobals a type (srv.strategy type)
      refine ⟨?_, fun _ _ => rfl⟩
      rw [calls]
      split
      · exact sole_nil
      · exact sole_nil
    · intro h queue p conn calls ok lock front owns
      exact owns.serve (ok.2 lock conn front)
    · intro calls conn owns
      exact owns.deinit
  obtain ⟨sole, reset⟩ := laws.2 n
  refine ⟨sole.held, sole.safe, ?_, ?_, ?_⟩
  · intro before addr after split
    exact sole.fate (use_notMem_blockUses _) split
  · intro addr last
    rw [reset addr last] at sole
    exact sole.empty
  · intro gone
    rw [gone] at sole
    exact sole.empty

/-- A client that has sent a message of two reads and begins another. -/
def messageInputs : List MasterInput :=
  [.accept .smtp (.onSocket 5 Connection.zero), .process (.serves .silent),
   .process (.serves dataTurn), .process (.serves { textTurn with realloc := some 7 }),
   .process (.serves { markerTurn with realloc := some 8 }),
   .process (.serves dataTurn), .process (.serves { textTurn with realloc := some 7 })]

theorem blocks_released_once_message :
    let srv := serverWith none
    let last := (master srv).trace [] connQueueInit messageInputs
    blockUses (callsFor srv 0 last.1) =
        [.acquire 7, .release 7, .acquire 8, .release 8, .acquire 7] ∧
      ((line srv last.1 last.2).lookup 0).bind Connection.block = some 7 := by
  intro srv last
  have admitted : (master srv).Admits keepsBlocks [] connQueueInit messageInputs := by
    decide +kernel
  have idle : (master srv).Reaches (· = connQueueInit) keepsBlocks [] connQueueInit := .start rfl
  have uses : blockUses (callsFor srv 0 last.1) =
      [.acquire 7, .release 7, .acquire 8, .release 8] ++ .acquire 7 :: [] := by
    decide +kernel
  have released : BlocksReleasedOnce srv last.1 last.2 0 :=
    blocks_released_once (idle.trace _ admitted) 0
  refine ⟨uses, ?_⟩
  obtain ⟨-, current⟩ | freed := released.fate _ _ _ uses
  · exact current
  · cases freed

/-- A client for whose second piece of text there is no memory. -/
def noMemoryInputs : List MasterInput :=
  [.accept .smtp (.onSocket 5 Connection.zero), .process (.serves .silent),
   .process (.serves dataTurn), .process (.serves { textTurn with realloc := some 7 }),
   .process (.serves { textTurn with realloc := none })]

/-- The block of the first piece is never freed. -/
theorem failed_realloc_loses_block :
    let srv := serverWith none
    let last := (master srv).trace [] connQueueInit noMemoryInputs
    (master srv).Reaches (· = connQueueInit) mutexOk last.1 last.2 ∧
      ¬ BlocksReleasedOnce srv last.1 last.2 0 := by
  intro srv last
  have admitted : (master srv).Admits mutexOk [] connQueueInit noMemoryInputs := by
    decide +kernel
  have idle : (master srv).Reaches (· = connQueueInit) mutexOk [] connQueueInit := .start rfl
  have uses : blockUses (callsFor srv 0 last.1) = [.acquire 7] := by decide +kernel
  have gone : (line srv last.1 last.2).lookup 0 = none := by decide +kernel
  refine ⟨idle.trace _ admitted, ?_⟩
  intro released
  have nothing := released.gone gone
  have held : 7 ∈ heldAfter ∅ [Use.acquire 7] := Set.mem_insert 7 ∅
  rw [← uses, nothing] at held
  exact held

end Femail
