import Femail.Server.Host
import Femail.Verified.Calls
import Femail.Verified.TlsDiscipline
import Femail.Verified.TlsRead

/-! # A client that hangs up

`main` changes what SIGINT and SIGTERM do and leaves SIGPIPE at its default, so a write to
a connection that the peer has reset ends the process (`processStep`).  `Connection.Breaks`
says which turns make one.  The other way for a client to end it is to ask for TLS where
`SSL_new` gives no object.  Every other turn survives: the connection it is for is queued
again or deinitialised, and the others stay as they are.
-/

namespace Femail

open Foundation

abbrev ProcessHistory := List (Entry Process ProcessInput (List Event))

/-! ## The turns that write -/

/-- The read adds to a message that it does not end. -/
def Connection.collects (t : Turn) (conn : Connection) : Bool :=
  match t.recv, t.realloc with
  | .data chunk, some _ =>
    conn.nextSize ≤ esmtpSize && !foundCrlfEnd (appendedBytes t conn chunk conn.nextSize)
  | _, _ => false

/-- A request that the HTTP handlers answer. -/
def Recv.Short (got : Recv) : Prop := got.bytes ≠ [] ∧ got.bytes.length < smallBufferSize - 1

/-- A turn of a live connection of that type writes to the client. -/
def Connection.WritesAs (t : Turn) (conn : Connection) : ConnectionType → Prop
  | .smtp => conn.state = .mailOpened ∨ conn.state ≠ .mailExpectTlsNeg ∧ t.recv.bytes ≠ [] ∧
      if conn.state = .mailExpectData then conn.collects t = false
      else t.commandFor conn ≠ some .noop
  | .smtps => 0 < t.sslAccept
  | .starttls => True
  | .http => t.recv.Short
  | .https => 0 < t.sslAccept ∧ t.recv.Short

/-- The turn writes to the client. -/
def Connection.Writes (t : Turn) (conn : Connection) : Prop :=
  conn.live = true ∧ conn.WritesAs t conn.type

instance (got : Recv) : Decidable got.Short := inferInstanceAs (Decidable (_ ∧ _))

instance (t : Turn) (conn : Connection) : ∀ type, Decidable (conn.WritesAs t type)
  | .smtp => inferInstanceAs (Decidable (_ ∨ _))
  | .smtps => inferInstanceAs (Decidable (0 < t.sslAccept))
  | .starttls => inferInstanceAs (Decidable True)
  | .http => inferInstanceAs (Decidable t.recv.Short)
  | .https => inferInstanceAs (Decidable (_ ∧ _))

instance (t : Turn) (conn : Connection) : Decidable (conn.Writes t) :=
  inferInstanceAs (Decidable (_ ∧ _))

/-- There is a write among the calls. -/
def hasWrite (events : List Event) : Bool := events.any Event.isWrite

section

variable (g : Globals) (t : Turn) (conn : Connection)

@[simp] theorem hasWrite_nil : hasWrite [] = false := rfl

@[simp] theorem hasWrite_append (events events' : List Event) :
    hasWrite (events ++ events') = (hasWrite events || hasWrite events') := List.any_append

@[simp] theorem hasWrite_cons (e : Event) (events : List Event) :
    hasWrite (e :: events) = (e.isWrite || hasWrite events) := rfl

@[simp] theorem hasWrite_smtpSendMsg (reply : Reply) :
    hasWrite (smtpSendMsg g t conn reply) = true := by
  rw [smtpSendMsg_eq]
  cases conn.sslconn <;> rfl

@[simp] theorem isWrite_smtpReceiveMsg : (smtpReceiveMsg t conn).isWrite = false := by
  unfold smtpReceiveMsg
  cases conn.sslconn <;> rfl

@[simp] theorem isWrite_parseClientCommand (buffer : List Byte) (verb : Option SMTPCommand) :
    (Event.parseClientCommand buffer verb).isWrite = false := rfl

@[simp] theorem hasWrite_appendEvents (chunk : Chunk) (addr : Addr) :
    hasWrite (appendEvents conn chunk addr) = false := rfl

@[simp] theorem hasWrite_connectionDeinit : hasWrite (connectionDeinit conn) = false := rfl

@[simp] theorem hasWrite_smtpHandleCommand (command : SMTPClientCommand) :
    hasWrite (smtpHandleCommand g t conn command).events = decide (command.command ≠ .noop) := by
  have step := smtpHandleCommand_step g t conn command
  generalize smtpHandleCommand g t conn command = handled at step ⊢
  generalize command.command = verb at step ⊢
  cases step with
  | unimplemented _ kind | helloTooLong _ _ kind => rcases kind with rfl | rfl <;> simp
  | hello _ _ _ kind => rcases kind with ⟨rfl, -⟩ | ⟨rfl, -⟩ <;> simp
  | _ => simp

/-- The clean-up behind a handler writes nothing. -/
theorem hasWrite_serveConnection :
    hasWrite (serveConnection g t conn).2 = hasWrite (connectionHandler g t conn).events := by
  unfold serveConnection
  generalize connectionHandler g t conn = handled
  obtain ⟨result, left, events⟩ := handled
  cases result <;> simp [settleConnection, resetConnection, Event.isWrite]

theorem hasWrite_smtpHandler (smtp : conn.type = .smtp) :
    hasWrite (smtpHandler g t conn).events = true ↔ conn.Writes t := by
  have writes : conn.Writes t ↔ conn.live = true ∧ (conn.state = .mailOpened ∨
      conn.state ≠ .mailExpectTlsNeg ∧ t.recv.bytes ≠ [] ∧
        if conn.state = .mailExpectData then conn.collects t = false
        else t.commandFor conn ≠ some .noop) := by
    rw [Connection.Writes, smtp]
    rfl
  rw [writes]
  have step := smtpHandler_step g t conn
  generalize smtpHandler g t conn = handled at step ⊢
  cases step with
  | dead dead => simp [dead]
  | opened live state => simp [live, state]
  | tlsRetry live state | tlsFailed live state | tlsDone live state =>
    simp [state, Event.isWrite]
  | noData _ reading nothing => simp [reading.2.1, nothing]
  | tooLong chunk reading got other long =>
    have nothing : t.commandFor conn = none := by
      simp [Turn.commandFor, got, Nat.not_lt.mpr long]
    simp [reading.1, reading.2.2, Turn.bytes_ne_nil got, other, nothing]
  | unrecognized chunk reading got other short unparsed =>
    have nothing : t.commandFor conn = none := by
      simp [Turn.commandFor, got, unparsed]
    simp [reading.1, reading.2.2, Turn.bytes_ne_nil got, other, nothing]
  | tooLarge chunk reading got data large =>
    have ends : conn.collects t = false := by
      unfold Connection.collects
      rw [got]
      cases t.realloc <;> simp [Nat.not_le.mpr large]
    simp [reading.1, Turn.bytes_ne_nil got, data, ends]
  | noMemory chunk reading got data room memory =>
    have ends : conn.collects t = false := by
      simp [Connection.collects, got, memory]
    simp [reading.1, Turn.bytes_ne_nil got, data, ends]
  | dataEnd chunk addr reading got data room memory found =>
    have ends : conn.collects t = false := by
      simp [Connection.collects, got, memory, found]
    simp [reading.1, Turn.bytes_ne_nil got, data, ends]
  | dataMore chunk addr reading got data room memory found =>
    have goesOn : conn.collects t = true := by
      simp [Connection.collects, got, memory, found, room]
    simp [reading.1, data, goesOn]
  | command chunk command reading got other short parsed =>
    have brings := commandFor_eq reading got other short parsed
    simp [reading.1, reading.2.1, reading.2.2, Turn.bytes_ne_nil got, other, brings]

theorem hasWrite_httpHandleRead {response : Event} (write : response.isWrite = true) :
    hasWrite (httpHandleRead t conn response).events = true ↔ t.recv.Short := by
  unfold httpHandleRead Recv.Short
  cases t.recv with
  | data chunk =>
    have nonempty : chunk.bytes ≠ [] := List.ne_nil_of_length_pos chunk.nonempty
    by_cases long : chunk.bytes.length ≥ smallBufferSize - 1
    · simp [Recv.bytes, long, Nat.not_lt.mpr long]
    · simp [Recv.bytes, long, nonempty, write, Nat.lt_of_not_le long]
  | fail errno =>
    dsimp only
    split <;> simp [Recv.bytes]
  | eof => simp [Recv.bytes]

/-- **The turns that write.** -/
theorem hasWrite_iff : hasWrite (serveConnection g t conn).2 = true ↔ conn.Writes t := by
  rw [hasWrite_serveConnection]
  unfold connectionHandler
  cases type : conn.type with
  | smtp => exact hasWrite_smtpHandler g t conn type
  | smtps =>
    unfold smtpsHandler Connection.Writes
    cases conn.live with
    | false => simp
    | true =>
      by_cases failed : t.sslAccept ≤ 0
      · simp [type, Connection.WritesAs, failed, Event.isWrite]
      · simp [type, Connection.WritesAs, failed, Int.not_le.mp failed]
  | starttls =>
    unfold starttlsHandler Connection.Writes
    cases conn.live <;> simp [type, Connection.WritesAs]
  | http =>
    have response := @hasWrite_httpHandleRead t conn (httpmsgRedirectHttps g conn) rfl
    unfold httpHandler Connection.Writes
    cases conn.live <;> simp [type, Connection.WritesAs, response, Event.isWrite]
  | https =>
    have response := @hasWrite_httpHandleRead t conn (httpsmsgNoContent conn) rfl
    unfold httpsHandler Connection.Writes
    cases conn.live with
    | false => simp
    | true =>
      by_cases failed : t.sslAccept ≤ 0
      · simp [type, Connection.WritesAs, failed, Event.isWrite]
      · simp [type, Connection.WritesAs, failed, Int.not_le.mp failed, response, Event.isWrite]

end

/-! ## The turns that end the process -/

/-- A call of the turn writes to a connection that the peer has reset. -/
def Connection.Breaks (hangup : Hangup) (t : Turn) (conn : Connection) : Prop :=
  hangup.accept = true ∧ conn.Negotiates ∨ hangup.read = true ∧ conn.ReceivesTls t ∨
    hangup.reply = true ∧ conn.Writes t

instance (hangup : Hangup) (t : Turn) (conn : Connection) : Decidable (conn.Breaks hangup t) :=
  inferInstanceAs (Decidable (_ ∨ _))

/-- `main` leaves SIGPIPE alone. -/
theorem disposition_sigpipe : disposition mainSignals .sigpipe = .default := rfl

theorem isFatal_eq (hangup : Hangup) (e : Event) :
    e.isFatal hangup = (e.onNull || e.isBroken hangup) := by
  simp [Event.isFatal, disposition_sigpipe]

/-- There is a call among them that ends the process. -/
def hasFatal (hangup : Hangup) (events : List Event) : Bool := events.any (Event.isFatal hangup)

@[simp] theorem hasFatal_nil (hangup : Hangup) : hasFatal hangup [] = false := rfl

@[simp] theorem hasFatal_cons (hangup : Hangup) (e : Event) (events : List Event) :
    hasFatal hangup (e :: events) = (e.isFatal hangup || hasFatal hangup events) := rfl

@[simp] theorem hasFatal_append (hangup : Hangup) (events events' : List Event) :
    hasFatal hangup (events ++ events') = (hasFatal hangup events || hasFatal hangup events') :=
  List.any_append

/-- The clean-up gives a null object to `SSL_free` at most. -/
@[simp] theorem hasFatal_connectionDeinit (hangup : Hangup) (conn : Connection) :
    hasFatal hangup (connectionDeinit conn) = false := rfl

section

variable {g : Globals} {t : Turn} {conn : Connection} {hangup : Hangup}

theorem isBroken_iff {channel : Channel} (on : conn.On channel) :
    (∃ e ∈ (connectionHandler g t conn).events, e.isBroken hangup = true) ↔ conn.Breaks hangup t := by
  have writes := hasWrite_iff g t conn
  rw [hasWrite_serveConnection] at writes
  constructor
  · rintro ⟨e, mem, broken⟩
    obtain ⟨negotiates, receives⟩ := eq_of_mem_calls g t conn mem
    cases e with
    | sslAccept ssl ret => exact Or.inl ⟨broken, (negotiates rfl).1⟩
    | sslRead ssl got =>
      obtain ⟨receives, same⟩ := receives rfl
      refine Or.inr (Or.inl ⟨broken, receives, ?_⟩)
      obtain ⟨-, http | ⟨https, -⟩ | ⟨smtp, -⟩⟩ := receives
      · simp [receiveEvent, http] at same
      · -- HTTPS has had its object since it was accepted
        refine ⟨by simp [https], ?_⟩
        cases on with
        | plain _ _ other => exact absurd https other
        | bound ssl object | secure ssl object => simp [object]
      · refine ⟨by simp [smtp], fun none => ?_⟩
        simp [receiveEvent, smtp, smtpReceiveMsg, none] at same
    | dprintf | sslWrite =>
      exact Or.inr (Or.inr ⟨broken, writes.mp (List.any_eq_true.mpr ⟨_, mem, rfl⟩)⟩)
    | _ => cases broken
  · rintro (⟨broken, negotiates⟩ | ⟨broken, receives, tls, object⟩ | ⟨broken, replies⟩)
    · exact ⟨_, sslAccept_mem g t conn negotiates, broken⟩
    · refine ⟨_, receiveEvent_mem g t conn receives, ?_⟩
      obtain ⟨-, http | ⟨https, -⟩ | ⟨smtp, -⟩⟩ := receives
      · exact absurd http tls
      · rw [receiveEvent, https]
        exact broken
      · obtain ⟨ssl, some⟩ := Option.ne_none_iff_exists'.mp object
        rw [receiveEvent, smtp, smtpReceiveMsg, some]
        exact broken
    · obtain ⟨e, mem, write⟩ := List.any_eq_true.mp (writes.mpr replies)
      refine ⟨e, mem, ?_⟩
      cases e with
      | dprintf | sslWrite => exact broken
      | _ => cases write

/-- A connection that is somewhere has an object wherever a call needs one, so OpenSSL is
    given null only by a STARTTLS for which there is none. -/
theorem onNull_iff {channel : Channel} (on : conn.On channel) :
    (∃ e ∈ (connectionHandler g t conn).events, e.onNull = true) ↔ ¬ t.SslNewWorks g conn := by
  constructor
  · rintro ⟨e, mem, null⟩ works
    obtain ⟨channel', keeps, -⟩ := keeps_connectionHandler on works.given
    have object : ∀ channel (e : Event) channel', ChannelStep channel e channel' → e.onNull = false := by
      intro channel e channel' step
      cases step with
      | off _ off => cases e <;> first | rfl | exact off.elim
      | _ => rfl
    rw [keeps.forall_mem object e mem] at null
    cases null
  · intro fails
    simp only [Turn.SslNewWorks, Classical.not_imp, not_not] at fails
    obtain ⟨smtp, brings, none⟩ := fails
    have makes := ((makesCalls_serveConnection g t conn).2 .sslNew).mpr ⟨smtp, brings⟩
    rw [callKinds_serveConnection] at makes
    obtain ⟨e, mem, call⟩ := List.mem_filterMap.mp makes
    obtain keeps | upgrades := (footprint_connectionHandler g t conn).tls
    · -- the call is `SSL_new`, which only an upgrade makes
      have within := keeps.within e mem
      cases e with
      | sslNew => exact within.elim
      | _ => cases call
    · obtain ⟨before, calls, -⟩ := upgrades.calls
      rw [none] at calls
      exact ⟨.sslSetFd Option.none conn.clientsocket, by simp [calls], rfl⟩

theorem hasFatal_serveConnection (g : Globals) (t : Turn) (conn : Connection) (hangup : Hangup) :
    hasFatal hangup (serveConnection g t conn).2 =
      hasFatal hangup (connectionHandler g t conn).events := by
  unfold serveConnection
  generalize connectionHandler g t conn = handled
  obtain ⟨result, left, events⟩ := handled
  cases result <;>
    simp [settleConnection, resetConnection, isFatal_eq, Event.onNull, Event.isBroken]

/-- **The turns that end the process.** -/
theorem hasFatal_iff {channel : Channel} (on : conn.On channel) :
    hasFatal hangup (serveConnection g t conn).2 = false ↔
      t.SslNewWorks g conn ∧ ¬ conn.Breaks hangup t := by
  have split : hasFatal hangup (connectionHandler g t conn).events = true ↔
      (∃ e ∈ (connectionHandler g t conn).events, e.onNull = true) ∨
        ∃ e ∈ (connectionHandler g t conn).events, e.isBroken hangup = true := by
    simp only [hasFatal, List.any_eq_true, isFatal_eq, Bool.or_eq_true, and_or_left, exists_or]
  rw [hasFatal_serveConnection, ← Bool.not_eq_true, split, onNull_iff on, isBroken_iff on, not_or,
    not_not]

end

/-- An `accept` ends the process if implicit TLS gets no object. -/
theorem hasFatal_newConnection (g : Globals) (a : AcceptTurn) (type : ConnectionType)
    (strat : SslStrategy) :
    hasFatal .none (.accept a.ret :: (newConnection g a type strat).2) = false ↔
      (strat = .implicitTls → sslNewResult g a.sslNew ≠ none) := by
  rw [events_newConnection]
  by_cases implicit : strat = .implicitTls
  · rw [if_pos implicit]
    cases sslNewResult g a.sslNew <;>
      simp [implicit, isFatal_eq, Event.onNull, Event.isBroken, Hangup.none]
  · rw [if_neg implicit]
    simp [implicit, isFatal_eq, Event.onNull, Event.isBroken]

/-! ## What becomes of the connections -/

/-- A `process_connection` that has taken no connection, or has dealt with the first one:
    it is queued again, or deinitialised. -/
inductive Settled (held held' : List Connection) (events : List Event) : Prop where
  | idle : held' = held → events = [] → Settled held held' events
  | requeued (conn conn' : Connection) (rest : List Connection) : held = conn :: rest →
      conn'.clientsocket = conn.clientsocket → held' = rest ++ [conn'] →
      (∀ fd, .close fd ∉ events) → Settled held held' events
  | deinitialised (conn : Connection) (rest : List Connection) : held = conn :: rest →
      held' = rest → .close conn.clientsocket ∈ events → Settled held held' events

/-- The process lives, and no other connection is changed. -/
structure Survives (before : Process) (next : Process × List Event) : Prop where
  alive : next.1.alive = true
  settled : Settled before.queue.contents next.1.queue.contents next.2

/-- A connection that is not kept has been closed. -/
theorem close_mem_of_finished {g : Globals} {t : Turn} {conn : Connection}
    (finished : (serveConnection g t conn).1 = none) :
    .close conn.clientsocket ∈ (serveConnection g t conn).2 := by
  have socket := (footprint_connectionHandler g t conn).clientsocket
  unfold serveConnection at finished ⊢
  generalize connectionHandler g t conn = handled at finished socket ⊢
  obtain ⟨result, left, events⟩ := handled
  cases result with
  | «continue» | reset => cases finished
  | done | error =>
    dsimp only at socket
    simp [settleConnection, connectionDeinit, socket]

/-- One that is kept has not. -/
theorem close_notMem_of_kept {g : Globals} {t : Turn} {conn conn' : Connection}
    (kept : (serveConnection g t conn).1 = some conn') (fd : Fd) :
    .close fd ∉ (serveConnection g t conn).2 := by
  have handler : .close fd ∉ (connectionHandler g t conn).events := by
    intro mem
    obtain keeps | upgrades := (footprint_connectionHandler g t conn).tls
    · exact keeps.within _ mem
    · obtain ⟨before, calls, -, within⟩ := upgrades.calls
      rw [calls, List.mem_append] at mem
      obtain early | late := mem
      · exact within _ early
      · simp at late
  unfold serveConnection at kept ⊢
  generalize connectionHandler g t conn = handled at kept handler ⊢
  obtain ⟨result, left, events⟩ := handled
  cases result with
  | «continue» | reset =>
    simpa [settleConnection, resetConnection] using handler
  | done | error => cases kept

/-- With the locks released, the connection that is taken is queued again or deinitialised. -/
theorem settled_process {srv : Server} {queue : ConnectionQueue} (wf : queue.Wf) {p : ProcessTurn}
    (released : unlocks queue (.process p)) :
    Settled queue.contents (masterStep srv queue (.process p)).1.contents
      (masterStep srv queue (.process p)).2 := by
  obtain ⟨nothing, -⟩ | ⟨front, rest, -, contents, ⟨kept, calls⟩ | ⟨conn, served, -, kept, calls⟩⟩ :=
    processStep_cases srv wf p released
  · rw [nothing]
    exact .idle rfl rfl
  · rw [contents, kept, calls]
    cases served : (serveConnection srv.toGlobals p.turn front).1 with
    | none => exact .deinitialised front rest rfl (List.append_nil _) (close_mem_of_finished served)
    | some conn =>
      exact .requeued front conn rest rfl (clientsocket_serveConnection served) rfl
        (close_notMem_of_kept served)
  · rw [contents, kept, calls]
    refine .deinitialised front rest rfl rfl ?_
    rw [← clientsocket_serveConnection served]
    exact List.mem_append_right _ (by simp [connectionDeinit])

/-- A connection that is taken off the queue, with the lock not released, is lost. -/
theorem not_settled_lost {conn : Connection} {rest : List Connection} :
    ¬ Settled (conn :: rest) rest [] := by
  intro settled
  cases settled with
  | idle same => exact absurd (congrArg List.length same) (by simp)
  | requeued first conn' others front socket same =>
    cases front
    exact absurd (congrArg List.length same) (by simp)
  | deinitialised first others front same closed => cases closed

/-! ## One step -/

/-- The step without what may end the process. -/
def ProcessInput.master : ProcessInput → MasterInput
  | .accept type a => .accept type a
  | .process p _ => .process p

/-- Locks are released, and records without implicit TLS begin with no SSL object. -/
def releasing (srv : Server) : ProcessHistory → Process → ProcessInput → Prop :=
  fun _ s input => unlocks s.queue input.master ∧ cleanRecord srv input.master

/-- Besides, `SSL_new` gives an object wherever it is called, and no call writes to a
    connection that the peer has reset. -/
def survivable (srv : Server) : ProcessHistory → Process → ProcessInput → Prop
  | _, s, .accept type a =>
    (unlocks s.queue (.accept type a) ∧ cleanRecord srv (.accept type a)) ∧
      sslNewWorks srv s.queue (.accept type a)
  | _, s, .process p hangup =>
    unlocks s.queue (.process p) ∧
      turnOk (fun t conn => t.SslNewWorks srv.toGlobals conn ∧ ¬ conn.Breaks hangup t) s.queue
        (.process p)

instance (srv : Server) : ∀ h s input, Decidable (survivable srv h s input)
  | _, _, .accept _ _ => inferInstanceAs (Decidable (_ ∧ _))
  | _, s, .process _ _ =>
    inferInstanceAs (Decidable (_ ∧ (_ → ∀ conn ∈ s.queue.contents.head?, _)))

theorem releasing_of_survivable {srv : Server} {h : ProcessHistory} {s : Process}
    {input : ProcessInput} (ok : survivable srv h s input) : releasing srv h s input := by
  cases input with
  | accept type a => exact ok.1
  | process p hangup => exact ⟨ok.1, trivial⟩

theorem perform_of_safe {s : Process} {hangup : Hangup} {next : ConnectionQueue × List Event}
    (safe : hasFatal hangup next.2 = false) : s.perform hangup next = (⟨next.1, true⟩, next.2) := by
  unfold Process.perform
  rw [show next.2.any (Event.isFatal hangup) = false from safe]
  rfl

theorem alive_perform (s : Process) (hangup : Hangup) (next : ConnectionQueue × List Event) :
    (s.perform hangup next).1.alive = true ↔ hasFatal hangup next.2 = false := by
  unfold Process.perform hasFatal
  cases next.2.any (Event.isFatal hangup) <;> simp

theorem processStep_accept {srv : Server} {s : Process} (alive : s.alive = true)
    (type : ConnectionType) (a : AcceptTurn) :
    processStep srv s (.accept type a) = s.perform .none (masterStep srv s.queue (.accept type a)) := by
  simp [processStep, alive]

theorem processStep_process {srv : Server} {s : Process} (alive : s.alive = true) (p : ProcessTurn)
    (hangup : Hangup) :
    processStep srv s (.process p hangup) =
      s.perform hangup (masterStep srv s.queue (.process p)) := by
  simp [processStep, alive]

/-- A step after which the process lives is a step of `master`. -/
theorem processStep_of_alive {srv : Server} {s : Process} {input : ProcessInput}
    (alive : (processStep srv s input).1.alive = true) :
    s.alive = true ∧ processStep srv s input =
      (⟨(masterStep srv s.queue input.master).1, true⟩, (masterStep srv s.queue input.master).2) := by
  cases before : s.alive with
  | false => simp [processStep, before] at alive
  | true =>
    refine ⟨rfl, ?_⟩
    cases input with
    | accept type a =>
      rw [processStep_accept before] at alive ⊢
      exact perform_of_safe ((alive_perform _ _ _).mp alive)
    | process p hangup =>
      rw [processStep_process before] at alive ⊢
      exact perform_of_safe ((alive_perform _ _ _).mp alive)

section

variable {srv : Server} {s : Process}

/-- **One `accept`.** -/
theorem alive_accept_iff (alive : s.alive = true) (type : ConnectionType) (a : AcceptTurn) :
    (processStep srv s (.accept type a)).1.alive = true ↔ sslNewWorks srv s.queue (.accept type a) := by
  rw [processStep_accept alive, alive_perform]
  by_cases up : srv.active type = true
  · have handled : (masterStep srv s.queue (.accept type a)).2 =
        (handleConnection srv.toGlobals a type (srv.strategy type) s.queue).2.2 := by
      simp [masterStep, up]
    rw [handled, events_handleConnection]
    by_cases failed : a.ret = -1
    · rw [if_pos failed]
      exact iff_of_true rfl fun _ given => absurd failed given
    · have works : sslNewWorks srv s.queue (.accept type a) ↔
          (srv.strategy type = .implicitTls → sslNewResult srv.toGlobals a.sslNew ≠ none) :=
        ⟨fun works => works up failed, fun works _ _ => works⟩
      rw [if_neg failed, works, ← hasFatal_newConnection srv.toGlobals a type]
      -- a connection that is turned away is cleaned up
      split <;> simp
  · have quiet : masterStep srv s.queue (.accept type a) = (s.queue, []) := by
      simp [masterStep, up]
    rw [quiet]
    exact iff_of_true rfl fun active => absurd active up

/-- The calls that may end the process are those of the turn. -/
theorem hasFatal_process {queue : ConnectionQueue} (wf : queue.Wf)
    (on : ∀ conn ∈ queue.contents, ∃ channel, conn.On channel) {p : ProcessTurn}
    (released : unlocks queue (.process p)) (hangup : Hangup) :
    hasFatal hangup (masterStep srv queue (.process p)).2 = false ↔
      turnOk (fun t conn => t.SslNewWorks srv.toGlobals conn ∧ ¬ conn.Breaks hangup t) queue
        (.process p) := by
  obtain ⟨nothing, idle⟩ | ⟨front, rest, lock, contents, outcome⟩ := processStep_cases srv wf p released
  · rw [nothing]
    refine iff_of_true rfl fun lock conn first => ?_
    obtain unlocked | empty := idle
    · rw [lock] at unlocked
      cases unlocked
    · have none : queue.contents = [] :=
        List.eq_nil_of_length_eq_zero ((Ring.length_contents queue).trans empty)
      rw [none] at first
      cases first
  · obtain ⟨channel, here⟩ := on front (by simp [contents])
    have condition : turnOk (fun t conn => t.SslNewWorks srv.toGlobals conn ∧
        ¬ conn.Breaks hangup t) queue (.process p) ↔
          p.turn.SslNewWorks srv.toGlobals front ∧ ¬ front.Breaks hangup p.turn := by
      simp [turnOk, lock, contents]
    rw [condition, ← hasFatal_iff here]
    obtain ⟨-, calls⟩ | ⟨conn, -, -, -, calls⟩ := outcome
    · rw [calls]
    · rw [calls, hasFatal_append, hasFatal_connectionDeinit, Bool.or_false]

/-- **One `process_connection`.** -/
theorem survives_iff (wf : s.queue.Wf) (alive : s.alive = true)
    (on : ∀ conn ∈ s.queue.contents, ∃ channel, conn.On channel) (h : ProcessHistory)
    {p : ProcessTurn} (relocks : Releases p.enqueueLock p.enqueueUnlock False) (hangup : Hangup) :
    Survives s (processStep srv s (.process p hangup)) ↔ survivable srv h s (.process p hangup) := by
  rw [processStep_process alive]
  by_cases released : Releases p.dequeueLock p.dequeueUnlock (s.queue.count = 0)
  · have unlocked : unlocks s.queue (.process p) := ⟨released, relocks⟩
    have safe := @hasFatal_process srv s.queue wf on p unlocked hangup
    constructor
    · intro survives
      exact ⟨unlocked, safe.mp ((alive_perform _ _ _).mp survives.alive)⟩
    · rintro ⟨-, ok⟩
      rw [perform_of_safe (safe.mpr ok)]
      exact ⟨rfl, settled_process wf unlocked⟩
  · refine iff_of_false ?_ fun ok => released ok.1.1
    simp only [Releases, Classical.not_imp, Bool.not_eq_true] at released
    obtain ⟨lock, nonempty, locked⟩ := released
    have dequeue := connQueueDequeue_eq p.dequeueLock p.dequeueUnlock s.queue Connection.zero
    rw [if_pos ⟨lock, nonempty⟩, locked] at dequeue
    have lost : masterStep srv s.queue (.process p) = (s.queue.take, []) := by
      rw [masterStep, processConnection_eq, locked, dequeue]
      rfl
    rw [lost, perform_of_safe rfl]
    intro survives
    have settled := survives.settled
    rw [Ring.contents_take nonempty] at settled
    exact not_settled_lost settled

end

/-! ## Runs -/

structure Process.Starts (s : Process) : Prop where
  queue : s.queue = connQueueInit
  alive : s.alive = true

/-- While the process lives its run is one of `master`, in which `SSL_new` has always given
    an object. -/
theorem process_refines_master {srv : Server} {h : ProcessHistory} {s : Process}
    (reaches : (process srv).Reaches Process.Starts (releasing srv) h s) (alive : s.alive = true) :
    (master srv).Reaches (· = connQueueInit) (objectsGiven srv)
      (h.map fun e => ⟨e.before.queue, e.input.master, e.output⟩) s.queue := by
  induction reaches with
  | start starts => exact .start starts.queue
  | @step h s input _ ok ih =>
    obtain ⟨before, step⟩ := processStep_of_alive alive
    have run := ih before
    have works : sslNewWorks srv s.queue input.master := by
      cases input with
      | accept type a => exact (alive_accept_iff before type a).mp alive
      | process p hangup =>
        have lives : (processStep srv s (.process p hangup)).1.alive = true := alive
        rw [processStep_process before, alive_perform] at lives
        have wf := (inOrder_of_reaches run).1.wf
        have turn := (hasFatal_process wf (fun _ => on_of_reaches run) ok.1 hangup).mp lives
        exact fun lock conn first => (turn lock conn first).1
    have next := run.step (i := input.master) ⟨ok.1, ok.2, works⟩
    rw [show (process srv).step s input = _ from step]
    exact next

theorem survives_of_reaches {srv : Server} {h : ProcessHistory} {s : Process}
    (reaches : (process srv).Reaches Process.Starts (releasing srv) h s) (alive : s.alive = true)
    {p : ProcessTurn} (relocks : Releases p.enqueueLock p.enqueueUnlock False) (hangup : Hangup) :
    Survives s ((process srv).step s (.process p hangup)) ↔
      survivable srv h s (.process p hangup) := by
  have run := process_refines_master reaches alive
  exact survives_iff (inOrder_of_reaches run).1.wf alive (fun _ => on_of_reaches run) h relocks hangup

theorem releasing_run {srv : Server} {h : ProcessHistory} {s : Process}
    (reaches : (process srv).Reaches Process.Starts (survivable srv) h s) :
    (process srv).Reaches Process.Starts (releasing srv) h s :=
  reaches.mono fun _ _ _ => releasing_of_survivable

theorem alive_of_survivable {srv : Server} {h : ProcessHistory} {s : Process}
    (reaches : (process srv).Reaches Process.Starts (survivable srv) h s) : s.alive = true := by
  induction reaches with
  | start starts => exact starts.alive
  | step reaches ok alive =>
    rename_i input
    cases input with
    | accept type a => exact (alive_accept_iff alive type a).mpr ok.2
    | process p hangup =>
      exact ((survives_of_reaches (releasing_run reaches) alive ok.1.2 hangup).mpr ok).alive

/-- **A client that hangs up.**  Take any run in which locks are released and records without
    implicit TLS begin with no SSL object, and a state of it in which the process lives.  An
    `accept` leaves the process alive exactly if implicit TLS gets its object.  A
    `process_connection` survives, with the first connection queued again or deinitialised
    and the others as they were, exactly if a STARTTLS in it gets its object, it does not
    write to a connection that the peer has reset, and the dequeue releases its lock.  In
    every run of such steps the process lives, and each of them is survived. -/
theorem hangup_survived_iff (srv : Server) :
    (∀ h s, (process srv).Reaches Process.Starts (releasing srv) h s → s.alive = true →
      (∀ type a, releasing srv h s (.accept type a) →
        (((process srv).step s (.accept type a)).1.alive = true ↔
          survivable srv h s (.accept type a))) ∧
      ∀ p hangup, Releases p.enqueueLock p.enqueueUnlock False →
        (Survives s ((process srv).step s (.process p hangup)) ↔
          survivable srv h s (.process p hangup))) ∧
    ∀ h s, (process srv).Reaches Process.Starts (survivable srv) h s → s.alive = true ∧
      ∀ e ∈ h, ∀ p hangup, e.input = .process p hangup →
        Survives e.before ((process srv).step e.before (.process p hangup)) := by
  constructor
  · intro h s reaches alive
    refine ⟨fun type a ok => ?_, fun p hangup relocks => ?_⟩
    · exact (alive_accept_iff alive type a).trans ⟨fun works => ⟨ok, works⟩, fun ok => ok.2⟩
    · exact survives_of_reaches reaches alive relocks hangup
  · intro h s reaches
    refine ⟨alive_of_survivable reaches, ?_⟩
    induction reaches with
    | start => simp
    | @step h s input reaches ok ih =>
      refine List.forall_mem_cons.mpr ⟨?_, ih⟩
      rintro p hangup rfl
      exact (survives_of_reaches (releasing_run reaches) (alive_of_survivable reaches) ok.1.2
        hangup).mpr ok

/-! ## Clients to try -/

def idleProcess : Process := ⟨connQueueInit, true⟩

theorem idleProcess_starts : idleProcess.Starts := ⟨rfl, rfl⟩

/-- Two clients are accepted and greeted. -/
def greetedClients : List ProcessInput :=
  [.accept .smtp (.onSocket 5 Connection.zero), .accept .smtp (.onSocket 6 Connection.zero),
   .process (.serves .silent) .none, .process (.serves .silent) .none]

/-- The first one is gone before it has sent anything. -/
def leftClients : List ProcessInput :=
  greetedClients ++ [.process (.serves { Turn.silent with recv := .eof }) ⟨true, true, true⟩]

theorem hangup_survived_mailey :
    let last := (process (serverWith none)).trace [] idleProcess leftClients
    last.2.alive = true ∧ ∀ e ∈ last.1, ∀ p hangup, e.input = .process p hangup →
      Survives e.before ((process (serverWith none)).step e.before (.process p hangup)) := by
  intro last
  have admitted : (process (serverWith none)).Admits (survivable (serverWith none)) [] idleProcess
      leftClients := by
    decide +kernel
  exact (hangup_survived_iff (serverWith none)).2 _ _
    ((Machine.Reaches.start idleProcess_starts).trace leftClients admitted)

/-- A client that sends DATA and is gone before the 354 takes the process with it. -/
theorem hangup_kills_process :
    let inputs := greetedClients ++ [.process (.serves dataTurn) ⟨false, false, true⟩]
    let last := (process (serverWith none)).trace [] idleProcess inputs
    (process (serverWith none)).Reaches Process.Starts Machine.anyStep last.1 last.2 ∧
      last.2.alive = false := by
  intro inputs last
  refine ⟨?_, by decide +kernel⟩
  exact (Machine.Reaches.start idleProcess_starts).trace inputs
    (Machine.admits_anyStep (process (serverWith none)) _ _ _)

end Femail
