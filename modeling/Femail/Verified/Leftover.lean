import Femail.Verified.Replies
import Femail.Verified.Session

/-! # Leftover stack memory in a new connection

`handle_connection` declares its record without initialising it.  Two fields keep
what the stack held: `mailclientdomain`, which is always written before it is
read (`agree_connectionHandler`), and, unless TLS is implicit, `sslconn`, which
decides the channel of the first read and reply.
-/

namespace Femail

open Foundation

def Connection.withDomain (conn : Connection) (field : Vector Byte mailclientdomainRoom) :
    Connection :=
  { conn with mailclientdomain := field }

/-- Two handler calls that differ at most in the domain array they leave. -/
def Agree (handled handled' : Handled) : Prop :=
  handled.result = handled'.result ∧ handled.events = handled'.events ∧
    ∃ field, handled'.conn = handled.conn.withDomain field

/-- Both calls may be told to make one more call in front. -/
theorem Agree.cons {handled handled' : Handled} {e e' : Event} (same : e = e')
    (agree : Agree handled handled') :
    Agree { handled with events := e :: handled.events }
      { handled' with events := e' :: handled'.events } := by
  obtain ⟨result, events, left⟩ := agree
  exact ⟨result, congrArg₂ List.cons same events, left⟩

/-- The replies that quote the client's domain. -/
def Reply.namesClient : Reply → Bool
  | .acceptHello | .acceptEhello => true
  | _ => false

theorem smtpSendMsg_withDomain (g : Globals) (t : Turn) (conn : Connection)
    (field : Vector Byte mailclientdomainRoom) {reply : Reply} (plain : reply.namesClient = false) :
    smtpSendMsg g t conn reply = smtpSendMsg g t (conn.withDomain field) reply := by
  have text : reply.text g (conn.withDomain field) = reply.text g conn := by
    cases reply with
    | acceptHello | acceptEhello => cases plain
    | _ => rfl
  rw [smtpSendMsg_eq, smtpSendMsg_eq, text]
  rfl

/-- A record whose domain array is the only difference gives the same reply, if
    the array holds the same string. -/
theorem smtpSendMsg_sameDomain (g : Globals) (t : Turn) (conn : Connection)
    (field : Vector Byte mailclientdomainRoom) (reply : Reply)
    (same : cstring field.toList = cstring conn.mailclientdomain.toList) :
    smtpSendMsg g t (conn.withDomain field) reply = smtpSendMsg g t conn reply := by
  have text : reply.text g (conn.withDomain field) = reply.text g conn := by
    cases reply with
    | acceptHello | acceptEhello => simp only [Reply.text, Connection.withDomain, same]
    | _ => rfl
  rw [smtpSendMsg_eq, smtpSendMsg_eq, text]
  rfl

/-! ## Every handler agrees with itself -/

section

variable (g : Globals) (t : Turn) (conn : Connection) (field : Vector Byte mailclientdomainRoom)

/-- A turn that ends with a reply which does not quote the client. -/
theorem agree_reply {result : ConnectionHandlerResult} {reply : Reply}
    (plain : reply.namesClient = false) :
    Agree ⟨result, conn, smtpSendMsg g t conn reply⟩
      ⟨result, conn.withDomain field, smtpSendMsg g t (conn.withDomain field) reply⟩ :=
  ⟨rfl, smtpSendMsg_withDomain g t conn field plain, field, rfl⟩

theorem agree_smtpHandleHello (param : List Byte) (accept : Reply) :
    Agree (smtpHandleHello g t conn param accept)
      (smtpHandleHello g t (conn.withDomain field) param accept) := by
  by_cases moved : (moveClientMailDomainLoop domainMaxSize param 0).1 = 0
  · -- both arrays now hold the word of the parameter
    have here := @cstring_moveClientMailDomain param conn moved
    have there := @cstring_moveClientMailDomain param (conn.withDomain field) moved
    simp only [smtpHandleHello, moveClientMailDomain, moved, ne_eq, not_true_eq_false, if_false]
    refine ⟨rfl, ?_, _, rfl⟩
    exact (smtpSendMsg_sameDomain g t _ _ accept (there.trans here.symm)).symm
  · -- the arrays differ behind what was stored, but the refusal quotes neither
    simp only [smtpHandleHello, moveClientMailDomain, ne_eq, moved, not_false_eq_true, if_true]
    refine ⟨rfl, ?_, _, rfl⟩
    exact smtpSendMsg_withDomain g t _ _ rfl

theorem agree_smtpHandleCommand (command : SMTPClientCommand) :
    Agree (smtpHandleCommand g t conn command)
      (smtpHandleCommand g t (conn.withDomain field) command) := by
  obtain ⟨verb, param⟩ := command
  cases verb with
  | noop => exact ⟨rfl, rfl, field, rfl⟩
  | quit | rset | help | vrfy | expn => exact agree_reply g t conn field rfl
  | data => exact agree_reply g t { conn with state := .mailExpectData } field rfl
  | helo => exact agree_smtpHandleHello g t conn field _ _
  | ehlo => exact agree_smtpHandleHello g t conn field _ _
  | mail =>
    refine rel_ite Iff.rfl (fun _ => ?_) (fun _ => ?_)
    · exact agree_reply g t conn field rfl
    · exact agree_reply g t { conn with state := .mailMailing } field rfl
  | rcpt =>
    refine rel_ite Iff.rfl (fun _ => ?_) (fun _ => ?_)
    · exact agree_reply g t conn field rfl
    · exact agree_reply g t { conn with state := .mailRcpt } field rfl
  | starttls =>
    refine ⟨rfl, ?_, field, rfl⟩
    simp only [smtpHandleCommand]
    rw [smtpSendMsg_withDomain g t { conn with state := .mailExpectTlsNeg } field rfl]
    rfl

theorem agree_smtpHandleData (chunk : Chunk) :
    Agree (smtpHandleData g t conn chunk)
      (smtpHandleData g t (conn.withDomain field) chunk) := by
  refine rel_ite Iff.rfl (fun _ => ?_) (fun _ => ?_)
  · exact agree_reply g t { conn with alloccount := conn.alloccount + 1 } field rfl
  · dsimp only
    cases t.realloc with
    | none =>
      refine ⟨rfl, congrArg (List.cons _) ?_, field, rfl⟩
      exact smtpSendMsg_withDomain g t { conn with alloccount := conn.alloccount + 1 } field rfl
    | some addr =>
      refine rel_ite Iff.rfl (fun _ => ?_) (fun _ => ⟨rfl, rfl, field, rfl⟩)
      refine ⟨rfl, congrArg (appendEvents conn chunk addr ++ ·) ?_, field, rfl⟩
      exact smtpSendMsg_withDomain g t { conn.appended t chunk addr with state := .mailGreeted } field rfl

theorem agree_smtpHandleRead :
    Agree (smtpHandleRead g t conn) (smtpHandleRead g t (conn.withDomain field)) := by
  unfold smtpHandleRead
  cases t.recv with
  | eof => exact ⟨rfl, rfl, field, rfl⟩
  | fail errno =>
    exact rel_ite Iff.rfl (fun _ => ⟨rfl, rfl, field, rfl⟩) (fun _ => ⟨rfl, rfl, field, rfl⟩)
  | data chunk =>
    refine rel_ite Iff.rfl (fun _ => ?_) (fun _ => rel_ite Iff.rfl (fun _ => ?_) (fun _ => ?_))
    · exact agree_reply g t conn field rfl
    · exact agree_smtpHandleData g t conn field chunk
    · cases parseClientCommand (readBuffer chunk) with
      | none => exact Agree.cons rfl (agree_reply g t conn field rfl)
      | some command => exact Agree.cons rfl (agree_smtpHandleCommand g t conn field command)

theorem agree_smtpNegotiate :
    Agree (smtpNegotiate t conn) (smtpNegotiate t (conn.withDomain field)) := by
  refine rel_ite Iff.rfl (fun _ => ?_) (fun _ => ⟨rfl, rfl, field, rfl⟩)
  cases t.sslGetError with
  | wantRead | wantWrite | other => exact ⟨rfl, rfl, field, rfl⟩

theorem agree_smtpHandler :
    Agree (smtpHandler g t conn) (smtpHandler g t (conn.withDomain field)) := by
  refine rel_ite Iff.rfl (fun _ => ⟨rfl, rfl, field, rfl⟩) (fun _ => ?_)
  refine rel_ite Iff.rfl (fun _ => ?_) (fun _ => ?_)
  · exact ⟨rfl, smtpSendMsg_withDomain g t conn field rfl, field, rfl⟩
  · refine rel_ite Iff.rfl (fun _ => agree_smtpNegotiate t conn field) (fun _ => ?_)
    exact Agree.cons rfl (agree_smtpHandleRead g t conn field)

theorem agree_httpHandleRead (response : Event) :
    Agree (httpHandleRead t conn response) (httpHandleRead t (conn.withDomain field) response) := by
  unfold httpHandleRead
  cases t.recv with
  | eof => exact ⟨rfl, rfl, field, rfl⟩
  | fail | data =>
    exact rel_ite Iff.rfl (fun _ => ⟨rfl, rfl, field, rfl⟩) (fun _ => ⟨rfl, rfl, field, rfl⟩)

/-- No handler looks at the domain array before it has written it. -/
theorem agree_connectionHandler :
    Agree (connectionHandler g t conn) (connectionHandler g t (conn.withDomain field)) := by
  unfold connectionHandler
  rw [show (conn.withDomain field).type = conn.type from rfl]
  cases conn.type with
  | smtp => exact agree_smtpHandler g t conn field
  | smtps =>
    refine rel_ite Iff.rfl (fun _ => ⟨rfl, rfl, field, rfl⟩) (fun _ => ?_)
    refine rel_ite Iff.rfl (fun _ => ⟨rfl, rfl, field, rfl⟩) (fun _ => ?_)
    exact Agree.cons rfl (agree_reply g t conn field rfl)
  | starttls =>
    exact rel_ite Iff.rfl (fun _ => ⟨rfl, rfl, field, rfl⟩) (fun _ => agree_reply g t conn field rfl)
  | http =>
    refine rel_ite Iff.rfl (fun _ => ⟨rfl, rfl, field, rfl⟩) (fun _ => ?_)
    exact Agree.cons rfl (agree_httpHandleRead t conn field _)
  | https =>
    refine rel_ite Iff.rfl (fun _ => ⟨rfl, rfl, field, rfl⟩) (fun _ => ?_)
    refine rel_ite Iff.rfl (fun _ => ⟨rfl, rfl, field, rfl⟩) (fun _ => ?_)
    exact Agree.cons rfl (Agree.cons rfl (agree_httpHandleRead t conn field _))

end

/-! ## Two runs side by side -/

/-- Session states that differ at most in the domain array. -/
def UpToDomain : Option Connection → Option Connection → Prop :=
  Option.Rel fun conn conn' => ∃ field, conn' = conn.withDomain field

/-- The step of the lockstep argument. -/
theorem upToDomain_step (g : Globals) (s s' : Option Connection) (t : Turn)
    (related : UpToDomain s s') :
    ((session g).step s t).2 = ((session g).step s' t).2 ∧
      UpToDomain ((session g).step s t).1 ((session g).step s' t).1 := by
  cases related with
  | none => exact ⟨rfl, .none⟩
  | @some conn conn' same =>
    obtain ⟨field, rfl⟩ := same
    have agree := agree_connectionHandler g t conn field
    simp only [session, serveConnection]
    generalize connectionHandler g t conn = handled at agree ⊢
    generalize connectionHandler g t (conn.withDomain field) = handled' at agree ⊢
    obtain ⟨result, left, events⟩ := handled
    obtain ⟨result', left', events'⟩ := handled'
    obtain ⟨sameResult, sameEvents, field', sameConn⟩ := agree
    dsimp only at sameResult sameEvents sameConn
    subst sameResult sameEvents sameConn
    cases result with
    | done | error => exact ⟨rfl, .none⟩
    | «continue» | reset => exact ⟨rfl, .some ⟨field', rfl⟩⟩

/-! ## Independence from the leftover record -/

/-- The life of a new connection over `turns`: the calls of each turn, and the
    record it ends with. -/
def newSession (g : Globals) (a : AcceptTurn) (type : ConnectionType) (strat : SslStrategy)
    (turns : List Turn) : List (List Event) × Option Connection :=
  (session g).run (some (acceptedConnection g a type strat)) turns

/-- Nothing a connection does tells the two leftover records apart, and neither
    passes for an SSL object of the connection. -/
structure Independent (g : Globals) (a : AcceptTurn) (type : ConnectionType) (strat : SslStrategy)
    (leftover leftover' : Connection) : Prop where
  accepting : ∀ queue,
    (handleConnection g { a with leftover := leftover } type strat queue).2.2 =
      (handleConnection g { a with leftover := leftover' } type strat queue).2.2
  serving : ∀ turns,
    (newSession g { a with leftover := leftover } type strat turns).1 =
      (newSession g { a with leftover := leftover' } type strat turns).1
  plain : strat ≠ .implicitTls → ∀ record, record = leftover ∨ record = leftover' →
    ∀ turns conn,
      let life := newSession g { a with leftover := record } type strat turns
      life.2 = some conn → .acceptStarttls ∉ replies life.1.flatten → conn.sslconn = none
  rejecting : ∀ record, record = leftover ∨ record = leftover' → ∀ queue ssl,
    let events := (handleConnection g { a with leftover := record } type strat queue).2.2
    .sslFree (some ssl) ∈ events → ∃ ctx, .sslNew ctx (some ssl) ∈ events

/-- The SSL object of a connection over a run without STARTTLS. -/
theorem sslconn_session (g : Globals) (turns : List Turn) (conn conn' : Connection)
    (last : ((session g).run (some conn) turns).2 = some conn')
    (quiet : .acceptStarttls ∉ replies ((session g).run (some conn) turns).1.flatten) :
    conn'.sslconn = conn.sslconn := by
  induction turns generalizing conn with
  | nil =>
    have same : some conn = some conn' := last
    cases same
    rfl
  | cons t turns ih =>
    simp only [Machine.run, List.flatten_cons, replies_append, List.mem_append, not_or] at last quiet
    obtain ⟨now, later⟩ := quiet
    have handler : .acceptStarttls ∉ replies (connectionHandler g t conn).events := by
      intro sent
      refine now ?_
      simp [session, serveConnection, sent]
    have kept := sslconn_connectionHandler g t conn handler
    -- what the turn leaves: nothing, or a record with the same SSL object
    cases next : ((session g).step (some conn) t).1 with
    | none =>
      rw [next, run_session_none] at last
      cases last
    | some conn₁ =>
      rw [next] at last later
      refine (ih conn₁ last later).trans ?_
      rw [← kept]
      obtain ⟨-, rfl⟩ | ⟨-, rfl⟩ := serveConnection_of_kept next
      · rfl
      · rfl

section

variable {g : Globals} {a : AcceptTurn} {type : ConnectionType} {strat : SslStrategy}

/-- The records of two new connections whose leftovers differ in nothing that is read. -/
theorem upToDomain_acceptedConnection {leftover leftover' : Connection}
    (harmless : strat = .implicitTls ∨ (leftover.sslconn = none ∧ leftover'.sslconn = none)) :
    UpToDomain (some (acceptedConnection g { a with leftover := leftover } type strat))
      (some (acceptedConnection g { a with leftover := leftover' } type strat)) := by
  refine .some ⟨leftover'.mailclientdomain, ?_⟩
  cases strat with
  | implicitTls => cases type <;> rfl
  | noSsl | opportunisticTls =>
    obtain ⟨here, there⟩ := harmless.resolve_left (by decide)
    cases type <;>
      simp [acceptedConnection, newConnection, connectionInit, Connection.withDomain, here, there]

theorem events_handleConnection_leftover {leftover leftover' : Connection}
    (harmless : strat = .implicitTls ∨ (leftover.sslconn = none ∧ leftover'.sslconn = none))
    (queue : ConnectionQueue) :
    (handleConnection g { a with leftover := leftover } type strat queue).2.2 =
      (handleConnection g { a with leftover := leftover' } type strat queue).2.2 := by
  simp only [events_handleConnection, connectionDeinit_newConnection, events_newConnection,
    sslconn_acceptedConnection]
  obtain implicit | ⟨here, there⟩ := harmless
  · simp only [implicit, if_true]
  · simp only [here, there]

/-- The rejection path frees the object `connection_init` made, or none. -/
theorem sslNew_of_sslFree (harmless : strat = .implicitTls ∨ a.leftover.sslconn = none)
    {queue : ConnectionQueue} {ssl : Ssl}
    (freed : .sslFree (some ssl) ∈ (handleConnection g a type strat queue).2.2) :
    ∃ ctx, .sslNew ctx (some ssl) ∈ (handleConnection g a type strat queue).2.2 := by
  simp only [events_handleConnection, connectionDeinit_newConnection, events_newConnection,
    sslconn_acceptedConnection] at freed ⊢
  by_cases failed : a.ret = -1
  · simp [failed] at freed
  · refine ⟨g.sslctx, ?_⟩
    by_cases implicit : strat = .implicitTls
    · simp only [failed, implicit, if_false, if_true] at freed ⊢
      split at freed
      · simp at freed
      · simp at freed
        simp [freed]
    · have empty := harmless.resolve_left implicit
      simp only [failed, implicit, empty, if_false] at freed
      split at freed
      · simp at freed
      · simp at freed

end

/-- **Leftover memory.**  A new connection behaves the same over two leftover
    records, with no SSL object but its own, exactly when TLS is implicit or
    neither record has something in the place of `sslconn`. -/
theorem independent_of_leftover_iff (g : Globals) (a : AcceptTurn) (type : ConnectionType)
    (strat : SslStrategy) (leftover leftover' : Connection) :
    Independent g a type strat leftover leftover' ↔
      strat = .implicitTls ∨ (leftover.sslconn = none ∧ leftover'.sslconn = none) := by
  have held : strat ≠ .implicitTls → ∀ record,
      (acceptedConnection g { a with leftover := record } type strat).sslconn = record.sslconn := by
    intro explicit record
    rw [sslconn_acceptedConnection, if_neg explicit]
  constructor
  · intro independent
    by_cases implicit : strat = .implicitTls
    · exact Or.inl implicit
    · -- before its first turn the record still has what the stack held
      have start : ∀ record, record = leftover ∨ record = leftover' → record.sslconn = none := by
        intro record either
        have none := independent.plain implicit record either [] _ rfl (by simp [newSession, Machine.run])
        rwa [held implicit record] at none
      exact Or.inr ⟨start leftover (Or.inl rfl), start leftover' (Or.inr rfl)⟩
  · intro harmless
    have each : ∀ record, record = leftover ∨ record = leftover' →
        strat = .implicitTls ∨ record.sslconn = none := by
      rintro record (rfl | rfl)
      · exact harmless.imp_right And.left
      · exact harmless.imp_right And.right
    refine ⟨?_, ?_, ?_, ?_⟩
    · exact events_handleConnection_leftover harmless
    · intro turns
      exact (Machine.run_lockstep (upToDomain_step g) (upToDomain_acceptedConnection harmless) turns).1
    · intro explicit record either turns conn life last quiet
      rw [sslconn_session g turns _ conn last quiet, held explicit record]
      exact (each record either).resolve_left explicit
    · intro record either queue ssl events freed
      have own : strat = .implicitTls ∨ { a with leftover := record }.leftover.sslconn = none :=
        each record either
      exact sslNew_of_sslFree own freed

/-- A stale pointer in the place of `sslconn` takes the greeting of a connection
    that never negotiated TLS. -/
theorem leftover_sslconn_takes_greeting :
    let g : Globals := ⟨ascii "mail.mailey.femail", none⟩
    let clean := Connection.zero
    let stale := { Connection.zero with sslconn := some 7 }
    let greeting := ascii "220 mail.mailey.femail ESMTP Femail\r\n"
    (newSession g (.onSocket 5 stale) .smtp .noSsl [Turn.silent]).1 =
        [[.sslWrite (some 7) (.smtp .acceptConnection) greeting, .handlerReturned .continue]] ∧
      (newSession g (.onSocket 5 clean) .smtp .noSsl [Turn.silent]).1 =
        [[.dprintf 5 (.smtp .acceptConnection) greeting, .handlerReturned .continue]] ∧
      ¬ Independent g (.onSocket 5 clean) .smtp .noSsl stale clean := by
  refine ⟨by decide +kernel, by decide +kernel, ?_⟩
  intro independent
  exact absurd (independent.serving [Turn.silent]) (by decide +kernel)

end Femail
