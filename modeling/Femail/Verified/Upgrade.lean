import Femail.Verified.Buffer

/-! # The upgrade to TLS

What STARTTLS leaves behind of the clear text before it.  The turn that sends the 220
gives the record a new SSL object and a state in which nothing is read, and nothing
else of that turn is kept (`serveConnection_of_acceptStarttls`); from there on every
read and every reply takes the object's channel.
-/

namespace Femail

open Foundation

/-- A read or a write on the socket itself. -/
def Event.InClear : Event → Prop
  | .read _ _ => True
  | .dprintf _ _ _ => True
  | _ => False

/-- `SSL_new` has an object to give. -/
def sslNewSucceeds (g : Globals) : SessionHistory → Option Connection → Turn → Prop :=
  fun _ _ t => sslNewResult g t.sslNew ≠ none

instance (g : Globals) : ∀ h s t, Decidable (sslNewSucceeds g h s t) :=
  fun _ _ _ => inferInstanceAs (Decidable (_ ≠ _))

/-! ## One turn -/

/-- Only STARTTLS is answered with its 220. -/
theorem CommandMove.of_acceptStarttls {s : ConnectionState} {verb : SMTPCommand}
    {sent : List Reply} {next : Option ConnectionState} (move : CommandMove s verb sent next)
    (mem : .acceptStarttls ∈ sent) : verb = .starttls := by
  cases move with
  | starttls => rfl
  | hello _ _ kind => rcases kind with ⟨-, rfl⟩ | ⟨-, rfl⟩ <;> simp at mem
  | _ => simp at mem

/-- The record after a 220 Go ahead: the read of the turn is not in it. -/
theorem serveConnection_of_acceptStarttls {g : Globals} {t : Turn} {conn : Connection}
    (smtp : conn.type = .smtp)
    (sent : .acceptStarttls ∈ (observe (serveConnection g t conn).2).replies) :
    (serveConnection g t conn).1 = some { conn with
        state := .mailExpectTlsNeg, sslconn := sslNewResult g t.sslNew, timerefreshed := t.now } ∧
      (observe (serveConnection g t conn).2).parsed = [some .starttls] ∧
      ∀ ctx ssl, .sslNew ctx ssl ∈ (serveConnection g t conn).2 → ssl = sslNewResult g t.sslNew := by
  rw [observe_serveConnection] at sent ⊢
  unfold serveConnection
  rw [connectionHandler_smtp g t smtp] at sent ⊢
  have step := smtpHandler_step g t conn
  generalize smtpHandler g t conn = handled at step sent ⊢
  cases step with
  | command chunk command =>
    have outcome := smtpHandleCommand_step g t conn command
    obtain ⟨answer, shown, move⟩ := commandStep_move outcome
    rw [observe_smtpReceiveMsg, observe_parseClientCommand, shown] at sent ⊢
    have verb := move.of_acceptStarttls sent
    rw [verb] at outcome ⊢
    generalize smtpHandleCommand g t conn command = handled at outcome ⊢
    cases outcome with
    | starttls =>
      refine ⟨rfl, rfl, ?_⟩
      intro ctx ssl mem
      -- the read and the reply are not calls of `SSL_new`
      have receive : .sslNew ctx ssl ≠ smtpReceiveMsg t conn := by
        intro same
        have within := within_smtpReceiveMsg t conn
        rw [← same] at within
        exact within
      have send : .sslNew ctx ssl ∉
          smtpSendMsg g t { conn with state := .mailExpectTlsNeg } .acceptStarttls :=
        fun mem => within_smtpSendMsg mem rfl rfl
      simp only [settleConnection, List.cons_append, List.append_assoc, List.mem_cons,
        List.mem_append, receive, send, reduceCtorEq, false_or, Event.sslNew.injEq,
        List.not_mem_nil, or_false] at mem
      exact mem.2
    | unimplemented _ kind | helloTooLong _ _ kind => simp at kind
    | hello _ _ _ kind => simp at kind
  | _ => simp at sent

theorem inClear_smtpSendMsg {g : Globals} {t : Turn} {conn : Connection} {reply : Reply}
    {e : Event} (mem : e ∈ smtpSendMsg g t conn reply) (tls : conn.sslconn ≠ none) :
    ¬ e.InClear := by
  rw [smtpSendMsg_eq] at mem
  cases ssl : conn.sslconn with
  | none => exact absurd ssl tls
  | some object =>
    rw [ssl, List.mem_singleton] at mem
    rw [mem]
    exact id

theorem inClear_smtpReceiveMsg {t : Turn} {conn : Connection} (tls : conn.sslconn ≠ none) :
    ¬ (smtpReceiveMsg t conn).InClear := by
  unfold smtpReceiveMsg
  cases ssl : conn.sslconn with
  | none => exact absurd ssl tls
  | some object => exact id

theorem inClear_smtpHandleCommand {g : Globals} {t : Turn} {conn : Connection}
    {command : SMTPClientCommand} (tls : conn.sslconn ≠ none) :
    ∀ e ∈ (smtpHandleCommand g t conn command).events, ¬ e.InClear := by
  have step := smtpHandleCommand_step g t conn command
  generalize smtpHandleCommand g t conn command = handled at step ⊢
  generalize command.command = verb at step
  cases step with
  | noop => simp
  | starttls =>
    intro e mem
    obtain sent | calls := List.mem_append.mp mem
    · exact inClear_smtpSendMsg sent tls
    · simp only [List.mem_cons, List.not_mem_nil, or_false] at calls
      rcases calls with rfl | rfl <;> exact id
  | _ => exact fun e sent => inClear_smtpSendMsg sent tls

/-- With an SSL object nothing is read or sent in clear. -/
theorem inClear_smtpHandler {g : Globals} {t : Turn} {conn : Connection}
    (tls : conn.sslconn ≠ none) : ∀ e ∈ (smtpHandler g t conn).events, ¬ e.InClear := by
  have receive := @inClear_smtpReceiveMsg t conn tls
  have heap : ∀ chunk addr, ∀ e ∈ appendEvents conn chunk addr, ¬ e.InClear := by
    simp [appendEvents, Event.InClear]
  have step := smtpHandler_step g t conn
  generalize smtpHandler g t conn = handled at step ⊢
  cases step with
  | dead => simp
  | opened => exact fun e sent => inClear_smtpSendMsg sent tls
  | tlsRetry | tlsFailed | tlsDone => simp [Event.InClear]
  | noData => simp [receive]
  | tooLong | tooLarge =>
    exact List.forall_mem_cons.mpr ⟨receive, fun e sent => inClear_smtpSendMsg sent tls⟩
  | noMemory | unrecognized =>
    exact List.forall_mem_cons.mpr ⟨receive,
      List.forall_mem_cons.mpr ⟨id, fun e sent => inClear_smtpSendMsg sent tls⟩⟩
  | dataMore => exact List.forall_mem_cons.mpr ⟨receive, heap _ _⟩
  | dataEnd =>
    exact List.forall_mem_cons.mpr ⟨receive,
      List.forall_mem_append.mpr ⟨heap _ _, fun e sent => inClear_smtpSendMsg sent tls⟩⟩
  | command =>
    exact List.forall_mem_cons.mpr
      ⟨receive, List.forall_mem_cons.mpr ⟨id, inClear_smtpHandleCommand tls⟩⟩

theorem inClear_serveConnection {g : Globals} {t : Turn} {conn : Connection}
    (smtp : conn.type = .smtp) (tls : conn.sslconn ≠ none) :
    ∀ e ∈ (serveConnection g t conn).2, ¬ e.InClear := by
  unfold serveConnection
  rw [connectionHandler_smtp g t smtp]
  refine List.forall_mem_append.mpr ⟨inClear_smtpHandler tls, ?_⟩
  cases result : (smtpHandler g t conn).result <;>
    simp [settleConnection, result, resetConnection, connectionDeinit, Event.InClear]

/-- A turn of a connection that negotiates: one `SSL_accept` on its object, and if that
    does not succeed the connection waits on. -/
theorem serveConnection_negotiating {g : Globals} {t : Turn} {conn : Connection}
    (smtp : conn.type = .smtp) (live : conn.live = true) (state : conn.state = .mailExpectTlsNeg) :
    (observe (serveConnection g t conn).2).parsed = [] ∧
      .sslAccept conn.sslconn t.sslAccept ∈ (serveConnection g t conn).2 ∧
      ∀ conn', (serveConnection g t conn).1 = some conn' → t.sslAccept ≤ 0 →
        conn'.state = .mailExpectTlsNeg ∧ conn'.sslconn = conn.sslconn := by
  rw [observe_serveConnection]
  unfold serveConnection
  rw [connectionHandler_smtp g t smtp]
  have step := smtpHandler_step g t conn
  generalize smtpHandler g t conn = handled at step ⊢
  cases step with
  | dead dead =>
    rw [live] at dead
    cases dead
  | opened _ opened =>
    rw [state] at opened
    cases opened
  | tlsRetry =>
    refine ⟨rfl, by simp, ?_⟩
    intro conn' kept _
    cases kept
    exact ⟨state, rfl⟩
  | tlsFailed =>
    refine ⟨rfl, by simp, ?_⟩
    intro conn' kept
    cases kept
  | tlsDone _ _ completed => exact ⟨rfl, by simp, fun _ _ failed => absurd completed (by omega)⟩
  | noData _ reading | tooLong _ reading | tooLarge _ reading | noMemory _ reading
  | dataEnd _ _ reading | dataMore _ _ reading | unrecognized _ reading | command _ _ reading =>
    exact absurd state reading.2.2

/-! ## Runs -/

abbrev SessionEntry := Entry (Option Connection) Turn (List Event)

/-- The turn sends the 220 and makes the object `ssl`. -/
def UpgradesTo (ssl : Ssl) (e : SessionEntry) : Prop :=
  .acceptStarttls ∈ replies e.output ∧ ∃ ctx, .sslNew ctx (some ssl) ∈ e.output

/-- A handshake on the object `ssl` succeeds. -/
def CompletesTls (ssl : Ssl) (e : SessionEntry) : Prop :=
  ∃ ret, 0 < ret ∧ .sslAccept (some ssl) ret ∈ e.output

/-- A handshake has succeeded, and no command has come since. -/
def SecuredNoCommand (h : List Observed) : Prop :=
  Since (fun o => ∀ verb, some verb ∉ o.parsed) (fun o _ => ∃ ret ∈ o.handshakes, 0 < ret) h

/-- What a turn after `h` owes to the upgrades in `h`, and what it keeps if it makes one. -/
structure CleanUpgrade (g : Globals) (h : SessionHistory) (s : Option Connection) (t : Turn) :
    Prop where
  /-- After a 220 nothing is read or sent in clear. -/
  hidden : (∃ e ∈ h, .acceptStarttls ∈ replies e.output) →
    ∀ e ∈ ((session g).step s t).2, ¬ e.InClear
  /-- Nothing is parsed between a 220 and the handshake on its object. -/
  negotiated : ∀ ssl, Since (fun e => ¬ CompletesTls ssl e) (fun e _ => UpgradesTo ssl e) h →
    parses ((session g).step s t).2 = []
  /-- Of the read that brought STARTTLS nothing else is parsed, and nothing is kept. -/
  dropped : .acceptStarttls ∈ replies ((session g).step s t).2 →
    parses ((session g).step s t).2 = [some .starttls] ∧
      ∀ recv, .acceptStarttls ∈ replies ((session g).step s { t with recv := recv }).2 →
        ((session g).step s { t with recv := recv }).1 = ((session g).step s t).1
  /-- The first command behind the handshake finds a connection like a new one. -/
  restarted : SecuredNoCommand (seen h) → ∀ conn, s = some conn →
    conn.state = .mailExpectAny ∧ conn.alloccount = 0 ∧ conn.messagebufferend = 0 ∧
      conn.messagebuffer = none

/-- A turn that sends no 220 keeps the SSL object. -/
theorem sslconn_serveConnection {g : Globals} {t : Turn} {conn conn' : Connection}
    (live : conn.live = true) (kept : (serveConnection g t conn).1 = some conn')
    (quiet : .acceptStarttls ∉ (observe (serveConnection g t conn).2).replies) :
    conn'.sslconn = conn.sslconn := by
  obtain ⟨-, -, -, -, same⟩ := serveConnection_keeps live kept
  rw [same]
  rw [observe_serveConnection] at quiet
  exact sslconn_connectionHandler g t conn quiet

/-- One step behind the handshake. -/
theorem DialogueStep.expectAny_of_secured {h : List Observed} {s next : ConnectionState}
    {o : Observed} (step : DialogueStep s o (some next))
    (inv : SecuredNoCommand h → s = .mailExpectAny) (secured : SecuredNoCommand (o :: h)) :
    next = .mailExpectAny := by
  generalize target : some next = next' at step
  cases step with
  | tooLong | noMemory => cases target
  | opened | negotiated | tooLarge =>
    cases target
    rfl
  | negotiating ret _ state failed =>
    obtain ⟨ret', mem, completed⟩ | ⟨-, before⟩ := secured
    · rw [List.mem_singleton] at mem
      omega
    · exact absurd (state.symm.trans (inv before)) (by decide)
  | dataEnd _ state | dataMore _ state =>
    obtain ⟨_, mem, -⟩ | ⟨-, before⟩ := secured
    · cases mem
    · exact absurd (state.symm.trans (inv before)) (by decide)
  | noData _ kind =>
    subst target
    obtain rfl : next = s := by simpa using kind
    obtain ⟨_, mem, -⟩ | ⟨-, before⟩ := secured
    · cases mem
    · exact inv before
  | unrecognized =>
    cases target
    obtain ⟨_, mem, -⟩ | ⟨-, before⟩ := secured
    · cases mem
    · exact inv before
  | command _ verb =>
    obtain ⟨_, mem, -⟩ | ⟨calm, -⟩ := secured
    · cases mem
    · exact absurd List.mem_cons_self (calm verb)

section

variable {g : Globals} {h : SessionHistory} {s : Option Connection}

/-- A connection that has sent a 220 has an SSL object. -/
theorem sslconn_of_upgraded (reaches : (session g).Reaches (smtpStart g) (sslNewSucceeds g) h s) :
    ∀ conn, s = some conn → (∃ e ∈ h, .acceptStarttls ∈ replies e.output) →
      conn.sslconn ≠ none := by
  induction reaches with
  | start => simp
  | @step h s t reaches ok ih =>
    intro conn' kept upgraded
    cases s with
    | none => cases kept
    | some conn =>
      obtain ⟨smtp, live⟩ := smtp_of_reaches reaches
      by_cases now : .acceptStarttls ∈ replies ((session g).step (some conn) t).2
      · have next := kept.symm.trans (serveConnection_of_acceptStarttls smtp now).1
        rw [Option.some.injEq] at next
        rw [next]
        exact ok
      · have before : ∃ e ∈ h, .acceptStarttls ∈ replies e.output := by
          obtain ⟨e, mem, sent⟩ := upgraded
          obtain rfl | older := List.mem_cons.mp mem
          · exact absurd sent now
          · exact ⟨e, older, sent⟩
        rw [sslconn_serveConnection live kept now]
        exact ih conn rfl before

/-- Between a 220 and the handshake the connection waits with the new object. -/
theorem negotiating_of_upgraded
    (reaches : (session g).Reaches (smtpStart g) (sslNewSucceeds g) h s) (ssl : Ssl) :
    Since (fun e => ¬ CompletesTls ssl e) (fun e _ => UpgradesTo ssl e) h →
      ∀ conn, s = some conn → conn.state = .mailExpectTlsNeg ∧ conn.sslconn = some ssl := by
  induction reaches with
  | start => exact False.elim
  | @step h s t reaches ok ih =>
    intro since conn' kept
    cases s with
    | none => cases kept
    | some conn =>
      obtain ⟨smtp, live⟩ := smtp_of_reaches reaches
      obtain ⟨sent, ctx, made⟩ | ⟨pending, before⟩ := since
      · obtain ⟨next, -, only⟩ := serveConnection_of_acceptStarttls smtp sent
        rw [kept.symm.trans next |> Option.some.inj]
        exact ⟨rfl, (only ctx _ made).symm⟩
      · -- in this state a turn makes one more attempt, or completes the handshake
        obtain ⟨state, object⟩ := ih before conn rfl
        obtain ⟨-, attempt, waits⟩ := @serveConnection_negotiating g t conn smtp live state
        rw [object] at attempt waits
        refine waits conn' kept (Int.not_lt.mp fun completed => pending ?_)
        exact ⟨t.sslAccept, completed, attempt⟩

/-- Behind the handshake, until a command comes, the state is EXPECT_ANY. -/
theorem expectAny_of_secured {allowed : SessionHistory → Option Connection → Turn → Prop}
    (reaches : (session g).Reaches (smtpStart g) allowed h s) (secured : SecuredNoCommand (seen h)) :
    ∀ conn, s = some conn → conn.state = .mailExpectAny := by
  intro conn here
  obtain ⟨-, -, -, inv⟩ := dialogue_invariant
    (fun h s => SecuredNoCommand h → s = .mailExpectAny) (fun never => never.elim)
    (fun h conn t next smtp http inv ok step => step.expectAny_of_secured inv)
    reaches conn here
  exact inv secured

end

/-- **A clean upgrade.**  In every run of an SMTP connection in which `SSL_new` gives an
    object, nothing that was sent in clear survives STARTTLS. -/
theorem starttls_cleanUpgrade (g : Globals) {h : SessionHistory} {s : Option Connection}
    (reaches : (session g).Reaches (smtpStart g) (sslNewSucceeds g) h s) (t : Turn) :
    CleanUpgrade g h s t := by
  cases s with
  | none =>
    -- the connection is over, and a turn does nothing
    refine ⟨?_, fun _ _ => rfl, ?_, ?_⟩
    · intro _ e mem
      cases mem
    · intro sent
      cases sent
    · intro _ conn here
      cases here
  | some conn =>
    obtain ⟨smtp, live⟩ := smtp_of_reaches reaches
    refine ⟨?_, ?_, ?_, ?_⟩
    · intro upgraded
      exact inClear_serveConnection smtp (sslconn_of_upgraded reaches conn rfl upgraded)
    · intro ssl since
      obtain ⟨state, -⟩ := negotiating_of_upgraded reaches ssl since conn rfl
      exact (serveConnection_negotiating smtp live state).1
    · intro sent
      obtain ⟨next, parsed, -⟩ := serveConnection_of_acceptStarttls smtp sent
      refine ⟨parsed, ?_⟩
      intro recv sent'
      obtain ⟨next', -⟩ := serveConnection_of_acceptStarttls smtp sent'
      exact next'.trans next.symm
    · rintro secured conn ⟨⟩
      have state := expectAny_of_secured reaches secured conn rfl
      obtain ⟨-, -, inv⟩ := bufferInv_session (reaches.mono fun _ _ _ _ => trivial) conn rfl
      obtain ⟨count, size⟩ := inv.outside (by rw [state]; decide)
      exact ⟨state, count, size, inv.ok.null.mpr count⟩

/-- A STARTTLS with a command behind it in the same read, and the handshake. -/
def maileyUpgrade : List Turn :=
  [.silent, ehloTurn,
   .sends (ascii "STARTTLS\r\nRSET\r\n") (by decide) (by decide),
   { Turn.silent with sslAccept := 1 }]

theorem starttls_cleanUpgrade_mailey :
    let g : Globals := ⟨ascii "mail.mailey.femail", some 1⟩
    let start := some (acceptedConnection g (.onSocket 5 Connection.zero) .smtp .opportunisticTls)
    let last := (session g).trace [] start maileyUpgrade
    (∃ e ∈ last.1, .acceptStarttls ∈ replies e.output) ∧
      ∀ e ∈ ((session g).step last.2 dataTurn).2, ¬ e.InClear := by
  intro g start last
  have admitted : (session g).Admits (sslNewSucceeds g) [] start maileyUpgrade := by decide +kernel
  have opened : smtpStart g start := ⟨_, _, rfl⟩
  have run := (Machine.Reaches.start opened).trace maileyUpgrade admitted
  have upgraded : ∃ e ∈ last.1, .acceptStarttls ∈ replies e.output := by decide +kernel
  have clean : CleanUpgrade g last.1 last.2 dataTurn := starttls_cleanUpgrade g run dataTurn
  exact ⟨upgraded, clean.hidden upgraded⟩

end Femail
