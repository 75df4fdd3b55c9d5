import Femail.Verified.Buffer
import Femail.Verified.Calls
import Femail.Verified.Replies

/-! # Two turns told the same

A handler call is decided by the record it is given and by what the calls it makes
return.  `Twins` are two records of one connection that differ in nothing the handlers
look at: the time of the last refresh, and the memory behind the NUL of the message
block.  `twins_connectionHandler` takes twins to twins, if the two turns agree on the
calls that are made (`ToldSame`).  One thing more gets into a reply: the stack behind
`msgbuf`, when the reply is too long for it (`Turn.ReplyFits`).
-/

namespace Femail

open Foundation

/-! ## Records -/

/-- A record with another block and another time. -/
def Connection.twin (conn : Connection) (block : Option Block) (time : Time) : Connection :=
  { conn with messagebuffer := block, timerefreshed := time }

/-- The same record, but for the time, with blocks at the same address that hold the
    same message. -/
structure Twins (conn conn' : Connection) : Prop where
  record : ∃ block time, conn' = conn.twin block time
  addr : conn'.messagebuffer.map Block.addr = conn.messagebuffer.map Block.addr
  inside : conn.messagebufferend ≤ conn.alloccount * smallBufferSize
  text : ∃ text, Holds conn text ∧ Holds conn' text

/-- Twins after a change to fields that are not the buffer's. -/
theorem Twins.update {conn conn' : Connection} (twins : Twins conn conn')
    (f : Connection → Connection)
    (commutes : ∀ block time, f (conn.twin block time) = (f conn).twin block time)
    (buffer : ∀ conn, (f conn).messagebuffer = conn.messagebuffer ∧
      (f conn).messagebufferend = conn.messagebufferend ∧ (f conn).alloccount = conn.alloccount) :
    Twins (f conn) (f conn') := by
  obtain ⟨⟨block, time, rfl⟩, addr, inside, text, here, there⟩ := twins
  obtain ⟨block', size, count⟩ := buffer conn
  obtain ⟨block'', size', -⟩ := buffer (conn.twin block time)
  refine ⟨⟨block, time, commutes block time⟩, ?_, ?_, text, ?_, ?_⟩
  · rw [block', block'']
    exact addr
  · rw [size, count]
    exact inside
  · exact ⟨size.trans here.size, by rw [block']; exact here.block⟩
  · exact ⟨size'.trans there.size, by rw [block'']; exact there.block⟩

/-! ## Outcomes of calls -/

/-- What a read returns, with the `errno` its caller finds. -/
def Turn.readOutcome (t : Turn) : Recv :=
  match t.recv with
  | .fail errno => .fail (some (errno.getD t.errno))
  | got => got

/-- Two reads with the same outcome: the same bytes, or the same failure. -/
theorem Turn.recv_cases {t t' : Turn} (same : t'.readOutcome = t.readOutcome) :
    (∃ chunk, t.recv = .data chunk ∧ t'.recv = .data chunk) ∨ (t.recv = .eof ∧ t'.recv = .eof) ∨
      ∃ errno errno', t.recv = .fail errno ∧ t'.recv = .fail errno' ∧
        errno'.getD t'.errno = errno.getD t.errno := by
  unfold Turn.readOutcome at same
  cases here : t.recv with
  | data chunk =>
    rw [here] at same
    cases there : t'.recv with
    | data chunk' =>
      rw [there] at same
      exact Or.inl ⟨chunk, rfl, same⟩
    | eof | fail =>
      rw [there] at same
      cases same
  | eof =>
    rw [here] at same
    cases there : t'.recv with
    | eof => exact Or.inr (Or.inl ⟨rfl, rfl⟩)
    | data | fail =>
      rw [there] at same
      cases same
  | fail errno =>
    rw [here] at same
    cases there : t'.recv with
    | fail errno' =>
      rw [there] at same
      simp only [Recv.fail.injEq, Option.some.injEq] at same
      exact Or.inr (Or.inr ⟨errno, errno', rfl, rfl, same⟩)
    | data | eof =>
      rw [there] at same
      cases same

/-- What `SSL_accept` returns, with the error `SSL_get_error` gives for a failure. -/
def Turn.acceptOutcome (t : Turn) : Int × Option SslError :=
  (t.sslAccept, if t.sslAccept ≤ 0 then some t.sslGetError else none)

/-- Two turns that return the same from the calls the first one makes. -/
structure ToldSame (g : Globals) (conn : Connection) (t t' : Turn) : Prop where
  accept : conn.Negotiates → t'.acceptOutcome = t.acceptOutcome
  read : conn.Receives t → t'.readOutcome = t.readOutcome
  memory : conn.Allocates t → t'.realloc = t.realloc
  sslNew : conn.Upgrades t → sslNewResult g t'.sslNew = sslNewResult g t.sslNew

/-- Where the reply goes out over TLS, it fits in `msgbuf`. -/
structure Turn.ReplyFits (g : Globals) (conn : Connection) (t : Turn) : Prop where
  opened : conn.sslconn ≠ none → conn.state = .mailOpened →
    Reply.acceptConnection.fitsMsgbuf (cstring g.maildomain).length 0
  hello : conn.sslconn ≠ none → ∀ chunk command, t.recv = .data chunk →
    parseClientCommand (readBuffer chunk) = some command →
    t.commandFor conn = some command.command →
    let name := (firstWord (command.param.getD [])).length
    name ≤ domainMaxSize →
      (command.command = .helo →
        Reply.acceptHello.fitsMsgbuf (cstring g.maildomain).length name) ∧
      (command.command = .ehlo →
        Reply.acceptEhello.fitsMsgbuf (cstring g.maildomain).length name)

/-! ## Handler calls -/

/-- What others see of a handler call: the bytes it sends and its result. -/
def Event.shown : Event → Bool
  | .dprintf _ _ _ => true
  | .sslWrite _ _ _ => true
  | .handlerReturned _ => true
  | _ => false

structure SameHandled (handled handled' : Handled) : Prop where
  result : handled'.result = handled.result
  shown : handled'.events.filter Event.shown = handled.events.filter Event.shown
  record : ∃ block time, handled'.conn = handled.conn.twin block time
  kept : handled.result = .continue → Twins handled.conn handled'.conn

/-- A call in front that shows nothing. -/
theorem SameHandled.cons {handled handled' : Handled} {e e' : Event}
    (same : SameHandled handled handled') (hidden : e.shown = false) (hidden' : e'.shown = false) :
    SameHandled { handled with events := e :: handled.events }
      { handled' with events := e' :: handled'.events } := by
  refine ⟨same.result, ?_, same.record, same.kept⟩
  rw [List.filter_cons_of_neg (by simp [hidden']), List.filter_cons_of_neg (by simp [hidden])]
  exact same.shown

section

variable {g : Globals} {t t' : Turn} {conn conn' : Connection}

theorem smtpSendMsg_twin {reply : Reply} (block : Option Block) (time : Time)
    (fits : conn.sslconn ≠ none → (reply.text g conn).length < msgbufSize) :
    smtpSendMsg g t' (conn.twin block time) reply = smtpSendMsg g t conn reply := by
  have text : reply.text g (conn.twin block time) = reply.text g conn := by cases reply <;> rfl
  have channel : (conn.twin block time).sslconn = conn.sslconn := rfl
  rw [smtpSendMsg_eq, smtpSendMsg_eq, text, channel]
  cases ssl : conn.sslconn with
  | none => rfl
  | some object =>
    have nulFree := Reply.zero_notMem_text g conn reply
    have short := fits (by simp [ssl])
    rw [(snprintfPayload_eq_iff nulFree _).mpr short, (snprintfPayload_eq_iff nulFree _).mpr short]

/-- A reply that quotes nobody fits. -/
theorem Reply.short {reply : Reply} (plain : ∀ domain client, reply.fitsMsgbuf domain client) :
    (reply.text g conn).length < msgbufSize := by
  rw [Reply.length_text, Reply.fitsMsgbuf_iff]
  exact plain _ _

/-- A turn that ends with a reply. -/
theorem sameHandled_reply {result : ConnectionHandlerResult} {reply : Reply} (twins : Twins conn conn')
    (fits : conn.sslconn ≠ none → (reply.text g conn).length < msgbufSize) :
    SameHandled ⟨result, conn, smtpSendMsg g t conn reply⟩
      ⟨result, conn', smtpSendMsg g t' conn' reply⟩ := by
  obtain ⟨block, time, rfl⟩ := twins.record
  refine ⟨rfl, ?_, ⟨block, time, rfl⟩, fun _ => twins⟩
  rw [smtpSendMsg_twin block time fits]

/-- A reply that quotes nobody, after the state has been set. -/
theorem sameHandled_setState {result : ConnectionHandlerResult} {reply : Reply}
    (twins : Twins conn conn') (state : ConnectionState)
    (plain : ∀ domain client, reply.fitsMsgbuf domain client) :
    SameHandled ⟨result, { conn with state := state },
        smtpSendMsg g t { conn with state := state } reply⟩
      ⟨result, { conn' with state := state },
        smtpSendMsg g t' { conn' with state := state } reply⟩ := by
  refine sameHandled_reply ?_ (fun _ => Reply.short plain)
  exact twins.update (fun conn => { conn with state := state }) (fun _ _ => rfl)
    (fun _ => ⟨rfl, rfl, rfl⟩)

/-- The reply to a greeting that is accepted. -/
theorem sameHandled_hello {param : List Byte} {accept : Reply} (twins : Twins conn conn')
    (fits : conn.sslconn ≠ none → (firstWord param).length ≤ domainMaxSize →
      accept.fitsMsgbuf (cstring g.maildomain).length (firstWord param).length) :
    SameHandled (smtpHandleHello g t conn param accept)
      (smtpHandleHello g t' conn' param accept) := by
  have moved := twins.update (fun conn => (moveClientMailDomain param conn domainMaxSize).2)
    (fun _ _ => rfl) (fun _ => ⟨rfl, rfl, rfl⟩)
  refine rel_ite Iff.rfl (fun _ => ?_) (fun accepted => ?_)
  · exact sameHandled_reply moved (fun _ => Reply.short fun _ _ => trivial)
  · have result : (moveClientMailDomain param conn domainMaxSize).1 = 0 := not_not.mp accepted
    have short : (firstWord param).length ≤ domainMaxSize := by
      have bound := (moveClientMailDomainLoop_result param (Nat.zero_le _)).mp result
      rwa [Nat.zero_add] at bound
    refine sameHandled_reply ?_ ?_
    · exact moved.update (fun conn => { conn with state := .mailGreeted }) (fun _ _ => rfl)
        (fun _ => ⟨rfl, rfl, rfl⟩)
    · intro tls
      rw [Reply.length_text, Reply.fitsMsgbuf_iff]
      have name := cstring_moveClientMailDomain result
      change accept.fitsMsgbuf _ (cstring
        (moveClientMailDomain param conn domainMaxSize).2.mailclientdomain.toList).length
      rw [name]
      exact fits tls short

theorem sameHandled_command {command : SMTPClientCommand} (twins : Twins conn conn')
    (sslNew : command.command = .starttls →
      sslNewResult g t'.sslNew = sslNewResult g t.sslNew)
    (helo : conn.sslconn ≠ none → (firstWord (command.param.getD [])).length ≤ domainMaxSize →
      command.command = .helo → Reply.acceptHello.fitsMsgbuf (cstring g.maildomain).length
        (firstWord (command.param.getD [])).length)
    (ehlo : conn.sslconn ≠ none → (firstWord (command.param.getD [])).length ≤ domainMaxSize →
      command.command = .ehlo → Reply.acceptEhello.fitsMsgbuf (cstring g.maildomain).length
        (firstWord (command.param.getD [])).length) :
    SameHandled (smtpHandleCommand g t conn command) (smtpHandleCommand g t' conn' command) := by
  have reply : ∀ {result : ConnectionHandlerResult} {reply : Reply},
      (∀ domain client, reply.fitsMsgbuf domain client) →
      SameHandled ⟨result, conn, smtpSendMsg g t conn reply⟩
        ⟨result, conn', smtpSendMsg g t' conn' reply⟩ :=
    fun plain => sameHandled_reply twins fun _ => Reply.short plain
  obtain ⟨block, time, rfl⟩ := twins.record
  obtain ⟨verb, param⟩ := command
  cases verb with
  | noop => exact ⟨rfl, rfl, ⟨block, time, rfl⟩, fun _ => twins⟩
  | quit | rset | help | vrfy | expn => exact reply fun _ _ => trivial
  | data => exact sameHandled_setState twins _ fun _ _ => trivial
  | helo => exact sameHandled_hello twins fun tls short => helo tls short rfl
  | ehlo => exact sameHandled_hello twins fun tls short => ehlo tls short rfl
  | mail =>
    refine rel_ite Iff.rfl (fun _ => reply fun _ _ => trivial) (fun _ => ?_)
    exact sameHandled_setState twins _ fun _ _ => trivial
  | rcpt =>
    refine rel_ite Iff.rfl (fun _ => reply fun _ _ => trivial) (fun _ => ?_)
    exact sameHandled_setState twins _ fun _ _ => trivial
  | starttls =>
    have sent := @sameHandled_setState g t t' conn _ .continue .acceptStarttls twins
      .mailExpectTlsNeg fun _ _ => trivial
    have upgraded := sent.kept rfl
    have object := sslNew rfl
    refine ⟨rfl, ?_, ⟨block, time, ?_⟩, fun _ => ?_⟩
    · simp only [smtpHandleCommand, List.filter_append]
      exact congrArg₂ (· ++ ·) sent.shown rfl
    · simp only [smtpHandleCommand, object]
      rfl
    · simp only [smtpHandleCommand, object]
      exact upgraded.update (fun conn => { conn with sslconn := sslNewResult g t.sslNew })
        (fun _ _ => rfl) (fun _ => ⟨rfl, rfl, rfl⟩)

/-- A turn that does not just go on. -/
theorem SameHandled.final {result : ConnectionHandlerResult} {events events' : List Event}
    (final : result ≠ .continue) (record : ∃ block time, conn' = conn.twin block time)
    (shown : events'.filter Event.shown = events.filter Event.shown) :
    SameHandled ⟨result, conn, events⟩ ⟨result, conn', events'⟩ :=
  ⟨rfl, shown, record, fun kept => absurd kept final⟩

/-- Reads of message text into twins: the fresh memory makes no difference. -/
theorem Twins.appended (twins : Twins conn conn') (chunk : Chunk) (addr : Addr) :
    Twins (conn.appended t chunk addr) (conn'.appended t' chunk addr) ∧
      foundCrlfEnd (appendedBytes t' conn' chunk conn'.nextSize) =
        foundCrlfEnd (appendedBytes t conn chunk conn.nextSize) := by
  obtain ⟨⟨block, time, rfl⟩, -, inside, text, here, there⟩ := twins
  have fits := chunk.fits
  constructor
  · refine ⟨⟨_, time, rfl⟩, rfl, ?_, text ++ chunk.bytes, ?_, ?_⟩
    · simp only [Connection.appended, smallBufferSize] at inside fits ⊢
      omega
    · exact here.appended inside t chunk addr
    · exact there.appended inside t' chunk addr
  · rw [Bool.eq_iff_iff, (there.buffered inside).found_iff, (here.buffered inside).found_iff]

theorem sameHandled_data {chunk : Chunk} (twins : Twins conn conn')
    (memory : conn.nextSize ≤ esmtpSize → t'.realloc = t.realloc) :
    SameHandled (smtpHandleData g t conn chunk) (smtpHandleData g t' conn' chunk) := by
  obtain ⟨block, time, rfl⟩ := twins.record
  have short : ∀ {reply : Reply} {conn : Connection},
      (∀ domain client, reply.fitsMsgbuf domain client) →
      conn.sslconn ≠ none → (reply.text g conn).length < msgbufSize :=
    fun plain _ => Reply.short plain
  refine rel_ite Iff.rfl (fun _ => ?_) (fun fits => ?_)
  · refine .final (by decide) ⟨block, time, rfl⟩ ?_
    exact congrArg _ (@smtpSendMsg_twin g t t' { conn with alloccount := conn.alloccount + 1 } .rejectTooLarge
      block time (short fun _ _ => trivial))
  · rw [memory (Nat.le_of_not_lt fits)]
    cases t.realloc with
    | none =>
      refine .cons (.final (by decide) ⟨none, time, rfl⟩ ?_) rfl rfl
      exact congrArg _ (@smtpSendMsg_twin g t t' { conn with alloccount := conn.alloccount + 1 } .rejectError
        block time (short fun _ _ => trivial))
    | some addr =>
      obtain ⟨longer, found⟩ := @Twins.appended t t' _ _ twins chunk addr
      refine rel_ite (by rw [← Bool.eq_iff_iff]; exact found.symm) (fun _ => ?_) (fun _ => ?_)
      · let block' : Option Block :=
          some ⟨addr, appendedBytes t' (conn.twin block time) chunk conn.nextSize⟩
        refine .cons (.cons (.cons (.final (by decide) ⟨block', time, rfl⟩ ?_) rfl rfl) rfl rfl) rfl rfl
        exact congrArg _ (@smtpSendMsg_twin g t t'
          { conn.appended t chunk addr with state := .mailGreeted } .acceptOk block' time
          (short fun _ _ => trivial))
      · exact ⟨rfl, rfl, longer.record, fun _ => longer⟩

theorem sameHandled_chunk {chunk : Chunk} (twins : Twins conn conn') (reading : conn.Reading)
    (got : t.recv = .data chunk) (smtp : conn.type = .smtp) (told : ToldSame g conn t t')
    (fits : t.ReplyFits g conn) :
    SameHandled (smtpHandleChunk g t conn chunk) (smtpHandleChunk g t' conn' chunk) := by
  have short : ∀ {reply : Reply}, (∀ domain client, reply.fitsMsgbuf domain client) →
      conn.sslconn ≠ none → (reply.text g conn).length < msgbufSize :=
    fun plain _ => Reply.short plain
  obtain ⟨block, time, rfl⟩ := twins.record
  refine rel_ite Iff.rfl (fun _ => ?_) (fun long => ?_)
  · exact sameHandled_reply twins (short fun _ _ => trivial)
  refine rel_ite Iff.rfl (fun data => ?_) (fun other => ?_)
  · exact sameHandled_data twins fun room =>
      told.memory ⟨smtp, reading.1, data, Turn.bytes_ne_nil got, room⟩
  · cases parsed : parseClientCommand (readBuffer chunk) with
    | none =>
      have sent := @sameHandled_reply g t t' conn _ .continue .rejectUnrecognized twins
        (short fun _ _ => trivial)
      exact sent.cons rfl rfl
    | some command =>
      have brings : t.commandFor conn = some command.command :=
        commandFor_eq reading got other (Nat.lt_of_not_le fun many => long ⟨many, other⟩) parsed
      have hello := fun tls => fits.hello tls chunk command got parsed brings
      refine .cons (sameHandled_command twins ?_ ?_ ?_) rfl rfl
      · intro starttls
        exact told.sslNew ⟨smtp, by rw [brings, starttls]⟩
      · exact fun tls name => (hello tls name).1
      · exact fun tls name => (hello tls name).2

/-- A read that failed and a read that would block. -/
theorem sameHandled_fail {errno errno' : Errno} (twins : Twins conn conn') (same : errno' = errno) :
    SameHandled (if errno = ewouldblock then ⟨.continue, conn, []⟩ else ⟨.error, conn, []⟩)
      (if errno' = ewouldblock then ⟨.continue, conn', []⟩ else ⟨.error, conn', []⟩) := by
  subst same
  refine rel_ite Iff.rfl (fun _ => ?_) (fun _ => ?_)
  · exact ⟨rfl, rfl, twins.record, fun _ => twins⟩
  · exact .final (by decide) twins.record rfl

theorem sameHandled_read (twins : Twins conn conn') (reading : conn.Reading)
    (smtp : conn.type = .smtp) (told : ToldSame g conn t t') (fits : t.ReplyFits g conn) :
    SameHandled (smtpHandleRead g t conn) (smtpHandleRead g t' conn') := by
  have receives : conn.Receives t := ⟨reading.1, Or.inr (Or.inr ⟨smtp, reading.2⟩)⟩
  unfold smtpHandleRead
  obtain ⟨chunk, here, there⟩ | ⟨here, there⟩ | ⟨errno, errno', here, there, same⟩ :=
    Turn.recv_cases (told.read receives)
  · rw [here, there]
    exact sameHandled_chunk twins reading here smtp told fits
  · rw [here, there]
    exact .final (by decide) twins.record rfl
  · rw [here, there]
    exact sameHandled_fail twins same

theorem sameHandled_negotiate (twins : Twins conn conn')
    (same : t'.acceptOutcome = t.acceptOutcome) :
    SameHandled (smtpNegotiate t conn) (smtpNegotiate t' conn') := by
  obtain ⟨ret, error⟩ := Prod.mk.inj same
  unfold smtpNegotiate
  dsimp only
  rw [ret] at error ⊢
  refine rel_ite Iff.rfl (fun failed => ?_) (fun _ => ?_)
  · rw [if_pos failed, if_pos failed, Option.some.injEq] at error
    rw [error]
    cases t.sslGetError with
    | wantRead | wantWrite => exact ⟨rfl, rfl, twins.record, fun _ => twins⟩
    | other => exact .final (by decide) twins.record rfl
  · have moved := twins.update (fun conn => { conn with state := .mailExpectAny }) (fun _ _ => rfl)
      (fun _ => ⟨rfl, rfl, rfl⟩)
    exact ⟨rfl, rfl, moved.record, fun _ => moved⟩

theorem shown_smtpReceiveMsg (t : Turn) (conn : Connection) :
    (smtpReceiveMsg t conn).shown = false := by
  unfold smtpReceiveMsg
  cases conn.sslconn <;> rfl

theorem sameHandled_smtp (twins : Twins conn conn') (smtp : conn.type = .smtp)
    (told : ToldSame g conn t t') (fits : t.ReplyFits g conn) :
    SameHandled (smtpHandler g t conn) (smtpHandler g t' conn') := by
  obtain ⟨block, time, rfl⟩ := twins.record
  refine rel_ite Iff.rfl (fun _ => .final (by decide) ⟨block, time, rfl⟩ rfl) (fun alive => ?_)
  have live : conn.live = true := by simpa using alive
  refine rel_ite Iff.rfl (fun opened => ?_) (fun opened => ?_)
  · -- the reply is made from the record before the state is set
    have moved := twins.update (fun conn => { conn with state := .mailExpectAny }) (fun _ _ => rfl)
      (fun _ => ⟨rfl, rfl, rfl⟩)
    refine ⟨rfl, ?_, moved.record, fun _ => moved⟩
    have sent : smtpSendMsg g t' (conn.twin block time) .acceptConnection =
        smtpSendMsg g t conn .acceptConnection := by
      refine smtpSendMsg_twin block time fun tls => ?_
      rw [Reply.length_text, Reply.fitsMsgbuf_iff]
      exact fits.opened tls opened
    exact congrArg (List.filter Event.shown) sent
  refine rel_ite Iff.rfl (fun negotiating => ?_) (fun negotiating => ?_)
  · exact sameHandled_negotiate twins
      (told.accept ⟨live, Or.inr (Or.inr ⟨smtp, negotiating⟩)⟩)
  · exact (sameHandled_read twins ⟨live, opened, negotiating⟩ smtp told fits).cons
      (shown_smtpReceiveMsg t conn) (shown_smtpReceiveMsg t' _)

theorem sameHandled_smtps (twins : Twins conn conn') (type : conn.type = .smtps)
    (told : ToldSame g conn t t') : SameHandled (smtpsHandler g t conn) (smtpsHandler g t' conn') := by
  obtain ⟨block, time, rfl⟩ := twins.record
  refine rel_ite Iff.rfl (fun _ => .final (by decide) ⟨block, time, rfl⟩ rfl) (fun alive => ?_)
  have live : conn.live = true := by simpa using alive
  obtain ⟨ret, -⟩ := Prod.mk.inj (told.accept ⟨live, Or.inl type⟩)
  refine rel_ite (by rw [ret]) (fun _ => ?_) (fun _ => ?_)
  · exact .final (by decide) ⟨block, time, rfl⟩ rfl
  · have sent := @sameHandled_reply g t t' conn _ .done .rejectUnimplemented twins
      (fun _ => Reply.short fun _ _ => trivial)
    exact sent.cons rfl rfl

theorem sameHandled_starttls (twins : Twins conn conn') :
    SameHandled (starttlsHandler g t conn) (starttlsHandler g t' conn') := by
  obtain ⟨block, time, rfl⟩ := twins.record
  refine rel_ite Iff.rfl (fun _ => .final (by decide) ⟨block, time, rfl⟩ rfl) (fun _ => ?_)
  exact sameHandled_reply twins fun _ => Reply.short fun _ _ => trivial

theorem sameHandled_httpRead {response : Event} (twins : Twins conn conn')
    (same : t'.readOutcome = t.readOutcome) :
    SameHandled (httpHandleRead t conn response) (httpHandleRead t' conn' response) := by
  unfold httpHandleRead
  obtain ⟨chunk, here, there⟩ | ⟨here, there⟩ | ⟨errno, errno', here, there, same⟩ :=
    Turn.recv_cases same
  · rw [here, there]
    refine rel_ite Iff.rfl (fun _ => ?_) (fun _ => ?_)
    · exact ⟨rfl, rfl, twins.record, fun _ => twins⟩
    · exact .final (by decide) twins.record rfl
  · rw [here, there]
    exact .final (by decide) twins.record rfl
  · rw [here, there]
    exact sameHandled_fail twins same

theorem sameHandled_http (twins : Twins conn conn') (type : conn.type = .http)
    (told : ToldSame g conn t t') : SameHandled (httpHandler g t conn) (httpHandler g t' conn') := by
  obtain ⟨block, time, rfl⟩ := twins.record
  refine rel_ite Iff.rfl (fun _ => .final (by decide) ⟨block, time, rfl⟩ rfl) (fun alive => ?_)
  have live : conn.live = true := by simpa using alive
  exact (sameHandled_httpRead twins (told.read ⟨live, Or.inl type⟩)).cons rfl rfl

theorem sameHandled_https (twins : Twins conn conn') (type : conn.type = .https)
    (told : ToldSame g conn t t') : SameHandled (httpsHandler t conn) (httpsHandler t' conn') := by
  obtain ⟨block, time, rfl⟩ := twins.record
  refine rel_ite Iff.rfl (fun _ => .final (by decide) ⟨block, time, rfl⟩ rfl) (fun alive => ?_)
  have live : conn.live = true := by simpa using alive
  obtain ⟨ret, -⟩ := Prod.mk.inj (told.accept ⟨live, Or.inr (Or.inl type)⟩)
  refine rel_ite (by rw [ret]) (fun _ => ?_) (fun completed => ?_)
  · exact .final (by decide) ⟨block, time, rfl⟩ rfl
  · have receives : conn.Receives t := ⟨live, Or.inr (Or.inl ⟨type, Int.not_le.mp completed⟩)⟩
    exact ((sameHandled_httpRead twins (told.read receives)).cons rfl rfl).cons rfl rfl

/-- Every handler takes twins to twins and shows the same. -/
theorem sameHandled_connectionHandler (twins : Twins conn conn') (told : ToldSame g conn t t')
    (fits : t.ReplyFits g conn) :
    SameHandled (connectionHandler g t conn) (connectionHandler g t' conn') := by
  have type' : conn'.type = conn.type := by
    obtain ⟨block, time, rfl⟩ := twins.record
    rfl
  unfold connectionHandler
  rw [type']
  cases type : conn.type with
  | smtp => exact sameHandled_smtp twins type told fits
  | smtps => exact sameHandled_smtps twins type told
  | starttls => exact sameHandled_starttls twins
  | http => exact sameHandled_http twins type told
  | https => exact sameHandled_https twins type told

/-- One turn of twins. -/
theorem twins_serveConnection (twins : Twins conn conn') (told : ToldSame g conn t t')
    (fits : t.ReplyFits g conn) :
    (serveConnection g t' conn').2.filter Event.shown =
        (serveConnection g t conn).2.filter Event.shown ∧
      Option.Rel Twins (serveConnection g t conn).1 (serveConnection g t' conn').1 := by
  have same := sameHandled_connectionHandler twins told fits
  unfold serveConnection
  generalize connectionHandler g t conn = handled at same ⊢
  generalize connectionHandler g t' conn' = handled' at same ⊢
  obtain ⟨result, left, events⟩ := handled
  obtain ⟨result', left', events'⟩ := handled'
  obtain ⟨sameResult, shown, ⟨block, time, record⟩, kept⟩ := same
  dsimp only at sameResult shown record kept ⊢
  subst sameResult record
  constructor
  · rw [List.filter_append, List.filter_append, shown]
    cases result' <;> rfl
  · cases result' with
    | done | error => exact .none
    | «continue» =>
      obtain ⟨-, addr, inside, text, here, there⟩ := kept rfl
      refine .some ⟨⟨block, t'.now, rfl⟩, addr, inside, text, ?_, ?_⟩
      · exact ⟨here.size, here.block⟩
      · exact ⟨there.size, there.block⟩
    | reset =>
      refine .some ⟨⟨none, t'.now, rfl⟩, rfl, Nat.zero_le _, [], ?_, ?_⟩
      · exact ⟨rfl, Or.inl ⟨rfl, rfl⟩⟩
      · exact ⟨rfl, Or.inl ⟨rfl, rfl⟩⟩

end

end Femail
