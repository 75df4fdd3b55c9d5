import Femail.Foundation.Discipline
import Femail.Verified.Ownership
import Femail.Verified.WellFormed

/-! # The order of the calls on a connection

OpenSSL asks for an order: an object is made, bound to a descriptor and negotiated before
anything is read or written through it, and what goes through the descriptor meanwhile is
not to go around it.  `ChannelStep` is that order, for all the calls made for one
connection from its `accept` to its `close`.

The program does not keep the place it is at in a field of its own.  It follows from the
type, the state and `sslconn`, up to one case: an HTTPS connection negotiates again in
every turn, so its record does not say whether it has (`Connection.On`).
-/

namespace Femail

open Foundation

/-! ## The discipline -/

/-- Where a connection is between its `accept` and its `close`. -/
inductive Channel where
  | closed
  | plain (fd : Fd)
  | made (fd : Fd) (ssl : Ssl)
  | bound (fd : Fd) (ssl : Ssl)
  | secure (fd : Fd) (ssl : Ssl)
  | freed (fd : Fd)
deriving DecidableEq, Repr

/-- The calls that go neither through the socket nor to the TLS library. -/
def Event.OffChannel : Event → Prop
  | .realloc _ _ _ => True
  | .store _ _ _ => True
  | .free _ => True
  | .parseClientCommand _ _ => True
  | .handlerReturned _ => True
  | _ => False

inductive ChannelStep : Channel → Event → Channel → Prop where
  | off (channel : Channel) {e : Event} : e.OffChannel → ChannelStep channel e channel
  | accept (fd : Fd) : ChannelStep .closed (.accept fd) (.plain fd)
  | read (fd : Fd) (got : Recv) : ChannelStep (.plain fd) (.read fd got) (.plain fd)
  | dprintf (fd : Fd) (msg : Message) (text : List Byte) :
      ChannelStep (.plain fd) (.dprintf fd msg text) (.plain fd)
  | sslNew (ctx : Option SslCtx) (fd : Fd) (ssl : Ssl) :
      ChannelStep (.plain fd) (.sslNew ctx (some ssl)) (.made fd ssl)
  /-- A second STARTTLS, inside TLS. -/
  | sslNewAgain (ctx : Option SslCtx) (fd : Fd) (old ssl : Ssl) :
      ChannelStep (.secure fd old) (.sslNew ctx (some ssl)) (.made fd ssl)
  | sslSetFd (fd : Fd) (ssl : Ssl) :
      ChannelStep (.made fd ssl) (.sslSetFd (some ssl) fd) (.bound fd ssl)
  | waits (fd : Fd) (ssl : Ssl) {ret : Int} : ret ≤ 0 →
      ChannelStep (.bound fd ssl) (.sslAccept (some ssl) ret) (.bound fd ssl)
  | negotiated (fd : Fd) (ssl : Ssl) {ret : Int} : 0 < ret →
      ChannelStep (.bound fd ssl) (.sslAccept (some ssl) ret) (.secure fd ssl)
  | negotiatedAgain (fd : Fd) (ssl : Ssl) (ret : Int) :
      ChannelStep (.secure fd ssl) (.sslAccept (some ssl) ret) (.secure fd ssl)
  | sslRead (fd : Fd) (ssl : Ssl) (got : Recv) :
      ChannelStep (.secure fd ssl) (.sslRead (some ssl) got) (.secure fd ssl)
  | sslWrite (fd : Fd) (ssl : Ssl) (msg : Message) (text : List Byte) :
      ChannelStep (.secure fd ssl) (.sslWrite (some ssl) msg text) (.secure fd ssl)
  | freeNothing (fd : Fd) : ChannelStep (.plain fd) (.sslFree none) (.freed fd)
  | freeBound (fd : Fd) (ssl : Ssl) :
      ChannelStep (.bound fd ssl) (.sslFree (some ssl)) (.freed fd)
  | freeSecure (fd : Fd) (ssl : Ssl) :
      ChannelStep (.secure fd ssl) (.sslFree (some ssl)) (.freed fd)
  | close (fd : Fd) : ChannelStep (.freed fd) (.close fd) .closed

/-- What has been made for a connection and where that leaves it. -/
abbrev Keeps (channel : Channel) (events : List Event) (channel' : Channel) : Prop :=
  Follows ChannelStep channel events channel'

/-! ## Records and channels -/

/-- A connection that can be read from and written to. -/
inductive Connection.Talks (conn : Connection) : Channel → Prop where
  | plain : conn.sslconn = none → Talks conn (.plain conn.clientsocket)
  | secure (ssl : Ssl) : conn.sslconn = some ssl → Talks conn (.secure conn.clientsocket ssl)

/-- Where the connection of a record is. -/
inductive Connection.On (conn : Connection) : Channel → Prop where
  | plain : conn.sslconn = none → conn.type ≠ .smtps → conn.type ≠ .https →
      conn.state ≠ .mailExpectTlsNeg → On conn (.plain conn.clientsocket)
  | bound (ssl : Ssl) : conn.sslconn = some ssl →
      conn.type = .smtps ∨ conn.type = .https ∨
        conn.type = .smtp ∧ conn.state = .mailExpectTlsNeg →
      On conn (.bound conn.clientsocket ssl)
  | secure (ssl : Ssl) : conn.sslconn = some ssl →
      conn.type = .smtps ∨ conn.type = .https ∨
        conn.type = .smtp ∧ conn.state ≠ .mailExpectTlsNeg →
      On conn (.secure conn.clientsocket ssl)

section

variable {g : Globals} {t : Turn} {conn conn' : Connection} {channel : Channel} {reply : Reply}

theorem Connection.Talks.receive (talks : conn.Talks channel) :
    ChannelStep channel (smtpReceiveMsg t conn) channel := by
  unfold smtpReceiveMsg
  cases talks with
  | plain none => rw [none]; exact .read _ _
  | secure ssl object => rw [object]; exact .sslRead _ _ _

theorem Connection.Talks.send (talks : conn.Talks channel)
    (sameSocket : conn'.clientsocket = conn.clientsocket) (sameSsl : conn'.sslconn = conn.sslconn) :
    ∀ e ∈ smtpSendMsg g t conn' reply, ChannelStep channel e channel := by
  rw [smtpSendMsg_eq, sameSsl, sameSocket]
  cases talks with
  | plain none =>
    rw [none]
    exact List.forall_mem_singleton.mpr (.dprintf _ _ _)
  | secure ssl object =>
    rw [object]
    exact List.forall_mem_singleton.mpr (.sslWrite _ _ _ _)

theorem channelStep_appendEvents {chunk : Chunk} {addr : Addr} :
    ∀ e ∈ appendEvents conn chunk addr, ChannelStep channel e channel := by
  intro e mem
  simp only [appendEvents, List.mem_cons, List.not_mem_nil, or_false] at mem
  rcases mem with rfl | rfl | rfl <;> exact .off _ trivial

theorem Connection.On.deinit (on : conn.On channel) : Keeps channel (connectionDeinit conn) .closed := by
  have behind : Keeps (.freed conn.clientsocket)
      [.free (conn.messagebuffer.map Block.addr), .close conn.clientsocket] .closed :=
    .cons (.off _ trivial) (.cons (.close _) (.nil _))
  unfold connectionDeinit
  cases on with
  | plain none => rw [none]; exact .cons (.freeNothing _) behind
  | bound ssl object => rw [object]; exact .cons (.freeBound _ _) behind
  | secure ssl object => rw [object]; exact .cons (.freeSecure _ _) behind

/-- `SSL_new` and `SSL_set_fd`, in this order. -/
theorem keeps_upgrade {fd : Fd} {ssl : Ssl} {ctx : Option SslCtx}
    (open' : channel = .plain fd ∨ ∃ old, channel = .secure fd old) :
    Keeps channel [.sslNew ctx (some ssl), .sslSetFd (some ssl) fd] (.bound fd ssl) := by
  have bound : Keeps (.made fd ssl) [.sslSetFd (some ssl) fd] (.bound fd ssl) :=
    .cons (.sslSetFd _ _) (.nil _)
  obtain rfl | ⟨old, rfl⟩ := open'
  · exact .cons (.sslNew _ _ _) bound
  · exact .cons (.sslNewAgain _ _ _ _) bound

theorem Connection.Talks.open (talks : conn.Talks channel) :
    channel = .plain conn.clientsocket ∨ ∃ old, channel = .secure conn.clientsocket old := by
  cases talks with
  | plain => exact Or.inl rfl
  | secure ssl => exact Or.inr ⟨ssl, rfl⟩

/-- A connection of SMTP outside a negotiation can talk, and is where it talks. -/
theorem on_iff_talks (smtp : conn.type = .smtp) (outside : conn.state ≠ .mailExpectTlsNeg) :
    conn.On channel ↔ conn.Talks channel := by
  constructor
  · intro on
    cases on with
    | plain none => exact .plain none
    | bound ssl object kind => simp [smtp, outside] at kind
    | secure ssl object => exact .secure ssl object
  · intro talks
    cases talks with
    | plain none => exact .plain none (by simp [smtp]) (by simp [smtp]) outside
    | secure ssl object => exact .secure ssl object (Or.inr (Or.inr ⟨smtp, outside⟩))

/-- A turn that only talks, and leaves the record where it was. -/
theorem Connection.Talks.stays {events : List Event} (talks : conn.Talks channel)
    (loops : ∀ e ∈ events, ChannelStep channel e channel) (smtp : conn'.type = .smtp)
    (outside : conn'.state ≠ .mailExpectTlsNeg)
    (sameSocket : conn'.clientsocket = conn.clientsocket) (sameSsl : conn'.sslconn = conn.sslconn) :
    ∃ channel', Keeps channel events channel' ∧ conn'.On channel' := by
  refine ⟨channel, follows_of_loops loops, (on_iff_talks smtp outside).mpr ?_⟩
  cases talks with
  | plain none => exact sameSocket ▸ .plain (sameSsl.trans none)
  | secure ssl object => exact sameSocket ▸ .secure ssl (sameSsl.trans object)

/-! ## The handlers -/

theorem keeps_command {verb : SMTPCommand} {handled : Handled}
    (step : CommandStep g t conn verb handled) (talks : conn.Talks channel)
    (smtp : conn.type = .smtp) (outside : conn.state ≠ .mailExpectTlsNeg)
    (given : ∀ ctx, .sslNew ctx none ∉ handled.events) :
    ∃ channel', Keeps channel handled.events channel' ∧ handled.conn.On channel' := by
  cases step with
  | noop => exact talks.stays (by simp) smtp outside rfl rfl
  | starttls =>
    -- the reply goes out on the channel there is, then comes the new object
    have answered : Keeps channel
        (smtpSendMsg g t { conn with state := .mailExpectTlsNeg } .acceptStarttls) channel :=
      follows_of_loops (talks.send rfl rfl)
    cases object : sslNewResult g t.sslNew with
    | none =>
      rw [object] at given
      exact absurd (by simp) (given g.sslctx)
    | some ssl =>
      refine ⟨.bound conn.clientsocket ssl, answered.append (keeps_upgrade talks.open), ?_⟩
      exact .bound ssl rfl (Or.inr (Or.inr ⟨smtp, rfl⟩))
  | data | hello | mail | rcpt =>
    exact talks.stays (talks.send rfl rfl) smtp (by simp) rfl rfl
  | _ => exact talks.stays (talks.send rfl rfl) smtp outside rfl rfl

theorem keeps_smtpHandler (smtp : conn.type = .smtp) (on : conn.On channel)
    (given : ∀ ctx, .sslNew ctx none ∉ (smtpHandler g t conn).events) :
    ∃ channel', Keeps channel (smtpHandler g t conn).events channel' ∧
      (smtpHandler g t conn).conn.On channel' := by
  -- between the answer to STARTTLS and the end of the handshake nothing is read or written
  have talks : conn.state ≠ .mailExpectTlsNeg → conn.Talks channel := fun outside =>
    (on_iff_talks smtp outside).mp on
  have negotiates : conn.state = .mailExpectTlsNeg →
      ∃ ssl, channel = .bound conn.clientsocket ssl ∧ conn.sslconn = some ssl := by
    intro inside
    cases on with
    | plain _ _ _ outside => exact absurd inside outside
    | bound ssl object => exact ⟨ssl, rfl, object⟩
    | secure _ _ kind => simp [smtp, inside] at kind
  have step := smtpHandler_step g t conn
  generalize smtpHandler g t conn = handled at step given ⊢
  cases step with
  | dead => exact ⟨channel, .nil _, on⟩
  | opened _ state =>
    exact (talks (by simp [state])).stays ((talks (by simp [state])).send rfl rfl) smtp
      (by simp) rfl rfl
  | tlsRetry _ state failed | tlsFailed _ state failed =>
    obtain ⟨ssl, rfl, object⟩ := negotiates state
    rw [object]
    exact ⟨_, .cons (.waits _ _ failed) (.nil _), on⟩
  | tlsDone _ state completed =>
    obtain ⟨ssl, rfl, object⟩ := negotiates state
    rw [object]
    exact ⟨_, .cons (.negotiated _ _ completed) (.nil _),
      .secure ssl rfl (Or.inr (Or.inr ⟨smtp, by simp⟩))⟩
  | noData _ reading =>
    have talks := talks reading.2.2
    exact talks.stays (List.forall_mem_singleton.mpr talks.receive) smtp reading.2.2 rfl rfl
  | tooLong _ reading | tooLarge _ reading =>
    have talks := talks reading.2.2
    exact talks.stays (List.forall_mem_cons.mpr ⟨talks.receive, talks.send rfl rfl⟩) smtp
      reading.2.2 rfl rfl
  | noMemory _ reading | unrecognized _ reading =>
    have talks := talks reading.2.2
    exact talks.stays (List.forall_mem_cons.mpr ⟨talks.receive,
      List.forall_mem_cons.mpr ⟨.off _ trivial, talks.send rfl rfl⟩⟩) smtp reading.2.2 rfl rfl
  | dataEnd _ _ reading =>
    have talks := talks reading.2.2
    exact talks.stays (List.forall_mem_cons.mpr ⟨talks.receive,
      List.forall_mem_append.mpr ⟨channelStep_appendEvents, talks.send rfl rfl⟩⟩) smtp
      (by simp) rfl rfl
  | dataMore _ _ reading =>
    have talks := talks reading.2.2
    exact talks.stays (List.forall_mem_cons.mpr ⟨talks.receive, channelStep_appendEvents⟩) smtp
      reading.2.2 rfl rfl
  | command chunk command reading =>
    have talks := talks reading.2.2
    obtain ⟨channel', keeps, on'⟩ := keeps_command (smtpHandleCommand_step g t conn command) talks
      smtp reading.2.2 fun ctx mem => given ctx (by simp [mem])
    exact ⟨channel', .cons talks.receive (.cons (.off _ trivial) keeps), on'⟩

/-- The handshake that the handlers of implicit TLS make in each turn. -/
theorem keeps_sslAccept (on : conn.On channel) (implicit : conn.type = .smtps ∨ conn.type = .https)
    (ret : Int) :
    ∃ channel', Keeps channel [.sslAccept conn.sslconn ret] channel' ∧ conn.On channel' ∧
      (0 < ret → ∃ ssl, channel' = .secure conn.clientsocket ssl ∧ conn.sslconn = some ssl) := by
  have kind : conn.type = .smtps ∨ conn.type = .https ∨
      conn.type = .smtp ∧ conn.state ≠ .mailExpectTlsNeg := by
    obtain smtps | https := implicit
    · exact Or.inl smtps
    · exact Or.inr (Or.inl https)
  cases on with
  -- under implicit TLS the object was made when the connection was accepted
  | plain _ smtps https =>
    obtain is | is := implicit
    · exact absurd is smtps
    · exact absurd is https
  | bound ssl object still =>
    rw [object]
    by_cases completed : 0 < ret
    · exact ⟨_, .cons (.negotiated _ _ completed) (.nil _), .secure ssl object kind,
        fun _ => ⟨ssl, rfl, rfl⟩⟩
    · exact ⟨_, .cons (.waits _ _ (Int.not_lt.mp completed)) (.nil _), .bound ssl object still,
        fun ok => absurd ok completed⟩
  | secure ssl object =>
    -- every turn calls `SSL_accept`, which does nothing once it has succeeded
    rw [object]
    exact ⟨_, .cons (.negotiatedAgain _ _ _) (.nil _), .secure ssl object kind,
      fun _ => ⟨ssl, rfl, rfl⟩⟩

theorem keeps_connectionHandler (on : conn.On channel)
    (given : ∀ ctx, .sslNew ctx none ∉ (connectionHandler g t conn).events) :
    ∃ channel', Keeps channel (connectionHandler g t conn).events channel' ∧
      (connectionHandler g t conn).conn.On channel' := by
  by_cases smtp : conn.type = .smtp
  · rw [connectionHandler_smtp g t smtp] at given ⊢
    exact keeps_smtpHandler smtp on given
  · rw [connectionHandler_conn g t smtp]
    clear given
    -- without implicit TLS these are in clear
    have clear' : conn.type ≠ .smtps → conn.type ≠ .https →
        channel = .plain conn.clientsocket ∧ conn.sslconn = none := by
      intro smtps https
      cases on with
      | plain none => exact ⟨rfl, none⟩
      | bound _ _ kind | secure _ _ kind => simp [smtp, smtps, https] at kind
    unfold connectionHandler
    cases type : conn.type with
    | smtp => exact absurd type smtp
    | smtps =>
      dsimp only [smtpsHandler]
      split
      · exact ⟨channel, .nil _, on⟩
      · obtain ⟨channel', keeps, on', completes⟩ := keeps_sslAccept on (Or.inl type) t.sslAccept
        split
        · exact ⟨channel', keeps, on'⟩
        · rename_i completed
          obtain ⟨ssl, rfl, object⟩ := completes (Int.not_le.mp completed)
          have talks : conn.Talks (.secure conn.clientsocket ssl) := .secure ssl object
          exact ⟨_, keeps.append (follows_of_loops (talks.send rfl rfl)), on'⟩
    | starttls =>
      dsimp only [starttlsHandler]
      obtain ⟨rfl, none⟩ := clear' (by simp [type]) (by simp [type])
      have talks : conn.Talks (.plain conn.clientsocket) := .plain none
      split
      · exact ⟨_, .nil _, on⟩
      · exact ⟨_, follows_of_loops (talks.send rfl rfl), on⟩
    | http =>
      dsimp only [httpHandler]
      obtain ⟨rfl, none⟩ := clear' (by simp [type]) (by simp [type])
      split
      · exact ⟨_, .nil _, on⟩
      · refine ⟨_, follows_of_loops (List.forall_mem_cons.mpr ⟨.read _ _, ?_⟩), on⟩
        intro e mem
        rw [mem_httpHandleRead mem]
        exact .dprintf _ _ _
    | https =>
      dsimp only [httpsHandler]
      split
      · exact ⟨channel, .nil _, on⟩
      · obtain ⟨channel', keeps, on', completes⟩ := keeps_sslAccept on (Or.inr type) t.sslAccept
        split
        · exact ⟨channel', keeps, on'⟩
        · rename_i completed
          obtain ⟨ssl, rfl, object⟩ := completes (Int.not_le.mp completed)
          refine ⟨_, keeps.append (follows_of_loops (List.forall_mem_cons.mpr ⟨?_, ?_⟩)), on'⟩
          · rw [object]
            exact .sslRead _ _ _
          · intro e mem
            rw [mem_httpHandleRead mem, httpsmsgNoContent, object]
            exact .sslWrite _ _ _ _

/-- No connection is reset while it negotiates. -/
theorem state_of_reset (reset : (connectionHandler g t conn).result = .reset) :
    (connectionHandler g t conn).conn.state ≠ .mailExpectTlsNeg := by
  have smtp := smtp_of_reset reset
  rw [connectionHandler_smtp g t smtp] at reset ⊢
  have step := smtpHandler_step g t conn
  generalize smtpHandler g t conn = handled at step reset ⊢
  cases step with
  | tooLarge _ reading => exact reading.2.2
  | dataEnd => simp
  | command chunk command reading =>
    have step := smtpHandleCommand_step g t conn command
    generalize smtpHandleCommand g t conn command = handled at step reset ⊢
    generalize command.command = verb at step
    cases step with
    | rset => exact reading.2.2
    | _ => cases reset
  | noData _ _ _ kind =>
    obtain rfl | rfl := kind <;> cases reset
  | _ => cases reset

/-- A record that goes back to the queue after a reset. -/
theorem Connection.On.reset (on : conn.On channel) (smtp : conn.type = .smtp)
    (outside : conn.state ≠ .mailExpectTlsNeg) : (resetConnection conn).1.On channel := by
  have outside' : (resetConnection conn).1.state ≠ .mailExpectTlsNeg := by
    simp only [resetConnection]
    split <;> simp
  have talks := (on_iff_talks smtp outside).mp on
  have smtp' : (resetConnection conn).1.type = .smtp := smtp
  refine (on_iff_talks smtp' outside').mpr ?_
  cases talks with
  | plain none => exact .plain none
  | secure ssl object => exact .secure ssl object

theorem Connection.On.refreshed (on : conn.On channel) (now : Time) :
    { conn with timerefreshed := now }.On channel := by
  cases on with
  | plain none smtps https outside => exact .plain none smtps https outside
  | bound ssl object kind => exact .bound ssl object kind
  | secure ssl object kind => exact .secure ssl object kind

end

/-! ## Connections -/

/-- The law: the calls made for a connection keep the order, up to where its record is. -/
def InOrder (calls : List Event) (record : Option Connection) : Prop :=
  ∃ channel, Keeps .closed calls channel ∧
    match record with
    | some conn => conn.On channel
    | none => channel = .closed

theorem InOrder.deinit {calls : List Event} {conn : Connection} (inOrder : InOrder calls (some conn)) :
    InOrder (calls ++ connectionDeinit conn) none := by
  obtain ⟨channel, keeps, on⟩ := inOrder
  exact ⟨.closed, keeps.append on.deinit, rfl⟩

theorem InOrder.serve {g : Globals} {t : Turn} {calls : List Event} {conn : Connection}
    (given : ∀ ctx, .sslNew ctx none ∉ (connectionHandler g t conn).events)
    (inOrder : InOrder calls (some conn)) :
    InOrder (calls ++ (serveConnection g t conn).2) (serveConnection g t conn).1 := by
  obtain ⟨channel, keeps, on⟩ := inOrder
  obtain ⟨channel', handles, on'⟩ := keeps_connectionHandler on given
  have kind := @smtp_of_reset g t conn
  have outside := @state_of_reset g t conn
  rw [← (footprint_connectionHandler g t conn).type] at kind
  simp only [serveConnection, settleConnection]
  rw [List.append_cons, ← List.append_assoc, ← List.append_assoc]
  generalize connectionHandler g t conn = handled at handles on' kind outside ⊢
  have returned : InOrder (calls ++ handled.events ++ [.handlerReturned handled.result])
      (some handled.conn) :=
    ⟨channel', (keeps.append handles).append (.cons (.off _ trivial) (.nil _)), on'⟩
  obtain ⟨result, conn', events⟩ := handled
  cases result with
  | «continue» =>
    obtain ⟨channel, keeps, on⟩ := returned
    rw [List.append_nil]
    exact ⟨channel, keeps, on.refreshed _⟩
  | reset =>
    obtain ⟨channel, keeps, on⟩ := returned
    -- a reset frees the message block and leaves the object
    refine ⟨channel, keeps.append (.cons (.off _ trivial) (.nil _)), ?_⟩
    exact (on.reset (kind rfl) (outside rfl)).refreshed _
  | done | error => exact returned.deinit

theorem inOrder_accepted {srv : Server} {a : AcceptTurn} {type : ConnectionType}
    (clean : srv.strategy type ≠ .implicitTls → a.leftover.sslconn = none)
    (given : srv.strategy type = .implicitTls → sslNewResult srv.toGlobals a.sslNew ≠ none) :
    InOrder (.accept a.ret :: (newConnection srv.toGlobals a type (srv.strategy type)).2)
      (some (acceptedConnection srv.toGlobals a type (srv.strategy type))) := by
  have socket := clientsocket_acceptedConnection srv.toGlobals a type (srv.strategy type)
  have ssl := sslconn_acceptedConnection srv.toGlobals a type (srv.strategy type)
  have kind := type_acceptedConnection srv.toGlobals a type (srv.strategy type)
  have state := state_acceptedConnection srv.toGlobals a type (srv.strategy type)
  have accepted : ChannelStep .closed (.accept a.ret) (.plain a.ret) := .accept _
  rw [events_newConnection]
  generalize acceptedConnection srv.toGlobals a type (srv.strategy type) = conn at *
  by_cases implicit : srv.strategy type = .implicitTls
  · rw [if_pos implicit] at ssl ⊢
    cases object : sslNewResult srv.toGlobals a.sslNew with
    | none => exact absurd object (given implicit)
    | some new =>
      rw [object] at ssl
      refine ⟨.bound a.ret new, .cons accepted (keeps_upgrade (Or.inl rfl)), ?_⟩
      rw [← socket]
      refine .bound new ssl ?_
      rw [kind]
      -- only the services of implicit TLS have this strategy
      cases type with
      | smtp =>
        simp only [Server.strategy] at implicit
        split at implicit <;> cases implicit
      | smtps => exact Or.inl rfl
      | https => exact Or.inr (Or.inl rfl)
      | starttls | http => cases implicit
  · -- in clear the record keeps the object of its leftover bytes, here none
    rw [if_neg implicit] at ssl ⊢
    refine ⟨.plain a.ret, .cons accepted (.nil _), ?_⟩
    rw [← socket]
    refine .plain (ssl.trans (clean implicit)) ?_ ?_ ?_
    · intro smtps
      rw [← kind, smtps] at implicit
      exact implicit rfl
    · intro https
      rw [← kind, https] at implicit
      exact implicit rfl
    · rw [state]
      cases type <;> simp

/-! ## Runs -/

/-- `SSL_new` gives an object to a connection that asks for TLS. -/
def Turn.SslNewWorks (g : Globals) (t : Turn) (conn : Connection) : Prop :=
  conn.type = .smtp → t.commandFor conn = some .starttls → sslNewResult g t.sslNew ≠ none

instance (g : Globals) (t : Turn) (conn : Connection) : Decidable (t.SslNewWorks g conn) :=
  inferInstanceAs (Decidable (_ → _ → _))

theorem Turn.SslNewWorks.given {g : Globals} {t : Turn} {conn : Connection}
    (works : t.SslNewWorks g conn) :
    ∀ ctx, .sslNew ctx none ∉ (connectionHandler g t conn).events := by
  intro ctx mem
  obtain keeps | upgrades := (footprint_connectionHandler g t conn).tls
  · exact keeps.within _ mem
  · obtain ⟨before, calls, -, within⟩ := upgrades.calls
    have object := works upgrades.smtp upgrades.brings
    rw [calls, List.mem_append] at mem
    obtain early | late := mem
    · exact within _ early
    · simp [object.symm] at late

/-- Wherever a step calls `SSL_new`, it gives an object. -/
def sslNewWorks (srv : Server) (queue : ConnectionQueue) : MasterInput → Prop
  | .accept type a => srv.active type = true → a.ret ≠ -1 → srv.strategy type = .implicitTls →
      sslNewResult srv.toGlobals a.sslNew ≠ none
  | .process p => turnOk (Turn.SslNewWorks srv.toGlobals) queue (.process p)

instance (srv : Server) (queue : ConnectionQueue) : DecidablePred (sslNewWorks srv queue)
  | .accept _ _ => inferInstanceAs (Decidable (_ → _))
  | .process p => inferInstanceAs (Decidable (turnOk (Turn.SslNewWorks srv.toGlobals) queue (.process p)))

/-- The locks are released, records without implicit TLS begin with no SSL object, and
    `SSL_new` works. -/
def objectsGiven (srv : Server) : MasterHistory → ConnectionQueue → MasterInput → Prop :=
  fun _ queue input => unlocks queue input ∧ cleanRecord srv input ∧ sslNewWorks srv queue input

instance (srv : Server) : ∀ h queue input, Decidable (objectsGiven srv h queue input) :=
  fun _ _ _ => inferInstanceAs (Decidable (_ ∧ _ ∧ _))

/-- The call reads or writes through the object. -/
def Event.Through (ssl : Ssl) : Event → Prop
  | .sslRead object _ => object = some ssl
  | .sslWrite object _ _ => object = some ssl
  | _ => False

instance (ssl : Ssl) : DecidablePred (Event.Through ssl)
  | .sslRead _ _ | .sslWrite _ _ _ => inferInstanceAs (Decidable (_ = _))
  | .socket _ | .accept _ | .read _ _ | .dprintf _ _ _ | .sslNew _ _ | .sslSetFd _ _
  | .sslAccept _ _ | .sslFree _ | .realloc _ _ _ | .store _ _ _ | .free _ | .close _
  | .parseClientCommand _ _ | .handlerReturned _ => .isFalse id

/-- The call neither makes nor frees an object. -/
def Event.KeepsObject : Event → Prop
  | .sslNew _ _ => False
  | .sslFree _ => False
  | _ => True

/-- The call is a handshake that succeeds. -/
def Event.Negotiates (ssl : Ssl) (e : Event) : Prop := ∃ ret, 0 < ret ∧ e = .sslAccept (some ssl) ret

/-- The calls made for each connection follow the discipline, and lead to where it is. -/
theorem inOrder_of_reaches {srv : Server} {h : MasterHistory} {queue : ConnectionQueue}
    (reaches : (master srv).Reaches (· = connQueueInit) (objectsGiven srv) h queue) :
    InLine (ticketsAfter srv h) queue ∧
      ∀ n, InOrder (callsFor srv n h) ((line srv h queue).lookup n) := by
  refine connection_law (fun _ _ _ ok => ok.1) ⟨.closed, .nil _, rfl⟩ ?_ ?_ ?_ reaches
  · intro h queue type a ok up given
    exact inOrder_accepted (ok.2.1 up given) (ok.2.2 up given)
  · intro h queue p conn calls ok lock front inOrder
    exact inOrder.serve (ok.2.2 lock conn front).given
  · intro calls conn inOrder
    exact inOrder.deinit

/-- With one place in a line for each ticket, what stands there is what is found there. -/
theorem lookup_of_mem {line : List (Nat × Connection)} (single : (line.map Prod.fst).Nodup)
    {n : Nat} {conn : Connection} (mem : (n, conn) ∈ line) : line.lookup n = some conn := by
  obtain ⟨ahead, behind, rfl⟩ := List.append_of_mem mem
  refine List.lookup_eq_some_iff.mpr ⟨ahead, behind, rfl, ?_⟩
  intro place here
  rw [List.map_append, List.nodup_append] at single
  have apart := single.2.2 place.1 (List.mem_map_of_mem here) n (by simp)
  simpa using apart.symm

/-- Each waiting connection is somewhere. -/
theorem on_of_reaches {srv : Server} {h : MasterHistory} {queue : ConnectionQueue}
    (reaches : (master srv).Reaches (· = connQueueInit) (objectsGiven srv) h queue)
    {conn : Connection} (waits : conn ∈ queue.contents) : ∃ channel, conn.On channel := by
  obtain ⟨inLine, laws⟩ := inOrder_of_reaches reaches
  have places : (line srv h queue).map Prod.snd = queue.contents :=
    List.map_snd_zip (by rw [inLine.aligned, Ring.length_contents])
  rw [← places] at waits
  obtain ⟨⟨n, conn'⟩, mem, rfl⟩ := List.mem_map.mp waits
  have tickets : (line srv h queue).map Prod.fst = (ticketsAfter srv h).waiting := inLine.map_line
  have single : ((line srv h queue).map Prod.fst).Nodup := by
    rw [tickets]
    exact inLine.single
  have law := laws n
  rw [lookup_of_mem single mem] at law
  obtain ⟨channel, -, on⟩ := law
  exact ⟨channel, on⟩

/-- What is secure has been negotiated. -/
theorem since_of_secure {calls : List Event} {fd : Fd} {ssl : Ssl}
    (keeps : Keeps .closed calls (.secure fd ssl)) :
    Since Event.KeepsObject (fun e _ => e.Negotiates ssl) calls.reverse := by
  refine Follows.since (fun channel => ∃ fd, channel = .secure fd ssl) ?_ ?_ keeps ⟨fd, rfl⟩
  · rintro s e s' step ⟨fd, rfl⟩
    cases step with
    | negotiated _ _ completed => exact Or.inl ⟨_, completed, rfl⟩
    | negotiatedAgain | sslRead | sslWrite => exact Or.inr ⟨trivial, fd, rfl⟩
    | off _ off =>
      refine Or.inr ⟨?_, fd, rfl⟩
      cases e <;> first | exact trivial | exact off
  · rintro ⟨fd, closed⟩
    cases closed

/-- **The order of the calls.**  In every run in which locks are released, records without
    implicit TLS begin with no SSL object and `SSL_new` works, the calls made for every
    connection keep the order of `ChannelStep`, whatever its client and the handshakes do.
    So nothing is read or written through an SSL object before a handshake on it has
    succeeded. -/
theorem calls_in_order {srv : Server} {h : MasterHistory} {queue : ConnectionQueue}
    (reaches : (master srv).Reaches (· = connQueueInit) (objectsGiven srv) h queue) (n : Nat) :
    InOrder (callsFor srv n h) ((line srv h queue).lookup n) ∧
    ∀ before e after ssl, callsFor srv n h = before ++ e :: after → e.Through ssl →
      Since Event.KeepsObject (fun e _ => e.Negotiates ssl) before.reverse := by
  have laws := inOrder_of_reaches reaches
  refine ⟨laws.2 n, ?_⟩
  intro before e after ssl split through
  obtain ⟨channel, keeps, -⟩ := laws.2 n
  rw [split] at keeps
  obtain ⟨here, next, first, step⟩ := keeps.at
  have secure : ∃ fd, here = .secure fd ssl := by
    cases step with
    | sslRead fd | sslWrite fd =>
      cases through
      exact ⟨fd, rfl⟩
    | off _ off => cases e <;> first | exact off.elim | exact through.elim
    | _ => exact through.elim
  obtain ⟨fd, rfl⟩ := secure
  exact since_of_secure first

theorem calls_in_order_tls :
    let srv := serverWith (some 1)
    let last := (master srv).trace [] connQueueInit tlsInputs
    ∃ before e after, callsFor srv 0 last.1 = before ++ e :: after ∧ e.Through 1 ∧
      Since Event.KeepsObject (fun e _ => e.Negotiates 1) before.reverse := by
  intro srv last
  have admitted : (master srv).Admits (objectsGiven srv) [] connQueueInit tlsInputs := by
    decide +kernel
  have idle : (master srv).Reaches (· = connQueueInit) (objectsGiven srv) [] connQueueInit :=
    .start rfl
  have spoke : ∃ e ∈ callsFor srv 0 last.1, e.Through 1 := by decide +kernel
  obtain ⟨e, mem, through⟩ := spoke
  obtain ⟨before, after, split⟩ := List.append_of_mem mem
  have ordered := calls_in_order (idle.trace _ admitted) 0
  exact ⟨before, e, after, split, through, ordered.2 before e after 1 split through⟩

end Femail
