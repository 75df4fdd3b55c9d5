import Femail.Verified.Dialogue
import Femail.Verified.Replies

/-! # TLS only when it is available

Without a TLS context the services that need one do not start, and `start_smtp`
clears the flag from which the accept loop takes the strategy of its connections.
The STARTTLS branch looks at neither.  Where the client does not send STARTTLS to a
connection with strategy `NO_SSL`, no null pointer reaches OpenSSL.
-/

namespace Femail

open Foundation

/-- The call gives OpenSSL no null pointer. -/
def Event.NonNull : Event → Prop
  | .sslNew ctx _ => ctx ≠ none
  | .sslSetFd ssl _ => ssl ≠ none
  | .sslAccept ssl _ => ssl ≠ none
  | _ => True

/-! ## The certificate files -/

theorem length_certificatePath (maildomain ending : List Byte) :
    (certificatePath maildomain ending).length = 34 + (cstring maildomain).length + ending.length := by
  simp only [certificatePath, List.length_append]
  rw [show (ascii "/usr/local/share/ca-certificates/").length = 33 from rfl, List.length_singleton]
  omega

/-- **The paths of the certificate and the key.**  For every mail domain that `dns_init`
    accepts, both paths fit in their arrays exactly if the domain has at most 218 bytes. -/
theorem certificate_paths_fit_iff {domain maildomain : List Byte} (nulFree : 0 ∉ domain)
    (accepted : dnsInit (some domain) = some maildomain) :
    (certfile maildomain).length ≤ certfileSize ∧ (privfile maildomain).length ≤ certfileSize ↔
      domain.length ≤ 218 := by
  rw [certfile, privfile, length_certificatePath, length_certificatePath,
    cstring_dnsInit nulFree accepted]
  have crt : (ascii ".crt").length = 4 := rfl
  have key : (ascii ".key").length = 4 := rfl
  rw [crt, key, certfileSize]
  omega

theorem certificate_paths_fit_mailey :
    ∃ maildomain, dnsInit (some (ascii "mail.mailey.femail")) = some maildomain ∧
      (certfile maildomain).length ≤ certfileSize ∧ (privfile maildomain).length ≤ certfileSize := by
  have nulFree : 0 ∉ ascii "mail.mailey.femail" := by decide
  exact ⟨_, rfl, (certificate_paths_fit_iff nulFree rfl).mpr (by decide)⟩

/-- With the longest mail domain that is accepted, `sprintf` writes 36 bytes behind each
    array. -/
theorem certificate_paths_overrun :
    ∃ maildomain, dnsInit (some (List.replicate 254 97)) = some maildomain ∧
      (certfile maildomain).length = certfileSize + 36 ∧
      (privfile maildomain).length = certfileSize + 36 := by
  obtain ⟨maildomain, accepted, name⟩ := dnsInit_longest
  refine ⟨maildomain, accepted, ?_, ?_⟩
  · rw [certfile, length_certificatePath, name, List.length_replicate]
    rfl
  · rw [privfile, length_certificatePath, name, List.length_replicate]
    rfl

/-! ## Start-up -/

/-- A service whose strategy is not `NO_SSL` runs only with a TLS context. -/
theorem startServer_available {s : StartTurn} {srv : Server} (started : startServer s = some srv)
    {type : ConnectionType} (up : srv.active type = true) (tls : srv.strategy type ≠ .noSsl) :
    srv.sslctx ≠ none := by
  intro missing
  unfold startServer at started
  cases domain : dnsInit s.domain with
  | none => simp [domain] at started
  | some maildomain =>
    simp only [domain, Option.bind_eq_bind, Option.bind_some] at started
    split at started
    · cases started
      dsimp only at missing
      cases type with
      -- SMTP starts, but its flag is cleared; the other three do not start
      | smtp => simp [Server.strategy, startSmtp, SmtpContext.zero, ListenContext.zero, missing] at tls
      | smtps => simp [Server.active, startSmtps, startGuarded, ListenContext.zero, missing] at up
      | starttls => simp [Server.active, startStarttls, startGuarded, ListenContext.zero, missing] at up
      | http => exact tls rfl
      | https => simp [Server.active, startHttps, startGuarded, ListenContext.zero, missing] at up
    · cases started

/-! ## Records that fit the server -/

/-- The record of a connection fits the server it belongs to. -/
structure TlsReady (srv : Server) (conn : Connection) : Prop where
  live : conn.live = true
  active : srv.active conn.type = true
  strategy : conn.sslstrat = srv.strategy conn.type
  implicit : conn.sslstrat = .implicitTls → conn.sslconn ≠ none
  negotiating : conn.state = .mailExpectTlsNeg → conn.sslconn ≠ none ∧ conn.sslstrat ≠ .noSsl

/-- STARTTLS comes to connections that offer it, and `SSL_new` has an object to give
    when it is given a context. -/
def tlsOffered (srv : Server) : MasterHistory → ConnectionQueue → MasterInput → Prop
  | _, _, .accept type a => srv.strategy type = .implicitTls → a.sslNew ≠ none
  | _, queue, .process p =>
    p.dequeueLock = true → p.dequeueUnlock = true → ∀ conn ∈ queue.contents.head?,
      conn.type = .smtp → p.turn.commandFor conn = some .starttls →
        conn.sslstrat ≠ .noSsl ∧ p.turn.sslNew ≠ none

instance (srv : Server) : ∀ h queue input, Decidable (tlsOffered srv h queue input)
  | _, _, .accept _ _ => inferInstanceAs (Decidable (_ → _))
  | _, queue, .process _ => inferInstanceAs (Decidable (_ → _ → ∀ conn ∈ queue.contents.head?, _))

theorem sslNewResult_ne_none {g : Globals} {outcome : Option Ssl} (ctx : g.sslctx ≠ none)
    (given : outcome ≠ none) : sslNewResult g outcome ≠ none := by
  cases context : g.sslctx with
  | none => exact absurd context ctx
  | some => simpa [sslNewResult, context] using given

theorem nonNull_connectionDeinit (conn : Connection) : ∀ e ∈ connectionDeinit conn, e.NonNull := by
  intro e mem
  simp only [connectionDeinit, List.mem_cons, List.not_mem_nil, or_false] at mem
  rcases mem with rfl | rfl | rfl <;> exact trivial

theorem nonNull_serveConnection {g : Globals} {t : Turn} {conn : Connection}
    (handler : ∀ e ∈ (connectionHandler g t conn).events, e.NonNull) :
    ∀ e ∈ (serveConnection g t conn).2, e.NonNull :=
  forall_mem_serveConnection (fun _ => trivial) (fun _ => trivial) nonNull_connectionDeinit handler

section

variable {srv : Server}
  (available : ∀ type, srv.active type = true → srv.strategy type ≠ .noSsl → srv.sslctx ≠ none)

include available

/-- What STARTTLS finds on a connection that offers it. -/
theorem TlsReady.starttls {conn : Connection} (ready : TlsReady srv conn) {outcome : Option Ssl}
    (offered : conn.sslstrat ≠ .noSsl ∧ outcome ≠ none) :
    srv.sslctx ≠ none ∧ sslNewResult srv.toGlobals outcome ≠ none := by
  have ctx : srv.sslctx ≠ none := by
    refine available conn.type ready.active ?_
    rw [← ready.strategy]
    exact offered.1
  exact ⟨ctx, sslNewResult_ne_none ctx offered.2⟩

theorem nonNull_connectionHandler {conn : Connection} (ready : TlsReady srv conn) {t : Turn}
    (offered : conn.type = .smtp → t.commandFor conn = some .starttls →
      conn.sslstrat ≠ .noSsl ∧ t.sslNew ≠ none) :
    ∀ e ∈ (connectionHandler srv.toGlobals t conn).events, e.NonNull := by
  have negotiates : ∀ e : Event, e.Within conn → e.NonNull := by
    intro e within
    cases e with
    | sslAccept ssl ret =>
      -- implicit TLS, or the negotiation of an accepted STARTTLS
      obtain ⟨rfl, kind⟩ := within
      obtain smtps | https | negotiating := kind
      · exact ready.implicit (by rw [ready.strategy, smtps]; rfl)
      · exact ready.implicit (by rw [ready.strategy, https]; rfl)
      · exact (ready.negotiating negotiating).1
    | sslNew | sslSetFd => cases within
    | _ => exact trivial
  intro e mem
  obtain keeps | upgrades := (footprint_connectionHandler srv.toGlobals t conn).tls
  · exact negotiates e (keeps.within e mem)
  · obtain ⟨ctx, object⟩ := ready.starttls available (offered upgrades.smtp upgrades.brings)
    obtain ⟨before, calls, -, within⟩ := upgrades.calls
    rw [calls] at mem
    simp only [List.mem_append, List.mem_cons, List.not_mem_nil, or_false] at mem
    obtain early | rfl | rfl := mem
    · exact negotiates e (within e early)
    · exact ctx
    · exact object

/-- The record after a turn still fits. -/
theorem TlsReady.serve {conn conn' : Connection} (ready : TlsReady srv conn) {t : Turn}
    (offered : conn.type = .smtp → t.commandFor conn = some .starttls →
      conn.sslstrat ≠ .noSsl ∧ t.sslNew ≠ none)
    (kept : (serveConnection srv.toGlobals t conn).1 = some conn') : TlsReady srv conn' := by
  obtain ⟨live, type, -, strat, ssl⟩ := serveConnection_keeps ready.live kept
  -- a reset leaves no negotiation behind
  have state : conn'.state = .mailExpectTlsNeg →
      (connectionHandler srv.toGlobals t conn).conn.state = .mailExpectTlsNeg := by
    intro negotiating
    obtain ⟨-, rfl⟩ | ⟨-, rfl⟩ := serveConnection_of_kept kept
    · exact negotiating
    · simp only [resetConnection] at negotiating
      split at negotiating <;> cases negotiating
  refine ⟨live, by rw [type]; exact ready.active, by rw [strat, type]; exact ready.strategy, ?_, ?_⟩
  · intro implicit
    rw [strat] at implicit
    rw [ssl]
    obtain keeps | upgrades := (footprint_connectionHandler srv.toGlobals t conn).tls
    · rw [keeps.sslconn]
      exact ready.implicit implicit
    · rw [upgrades.sslconn]
      exact (ready.starttls available (offered upgrades.smtp upgrades.brings)).2
  · intro negotiating
    rw [ssl, strat]
    obtain keeps | upgrades := (footprint_connectionHandler srv.toGlobals t conn).tls
    · rw [keeps.sslconn]
      exact ready.negotiating (keeps.negotiating (state negotiating))
    · have here := offered upgrades.smtp upgrades.brings
      rw [upgrades.sslconn]
      exact ⟨(ready.starttls available here).2, here.1⟩

/-- The record of a new connection fits. -/
theorem tlsReady_acceptedConnection {type : ConnectionType} {a : AcceptTurn}
    (up : srv.active type = true) (given : srv.strategy type = .implicitTls → a.sslNew ≠ none) :
    TlsReady srv (acceptedConnection srv.toGlobals a type (srv.strategy type)) := by
  have opened : (acceptedConnection srv.toGlobals a type (srv.strategy type)).state ≠
      .mailExpectTlsNeg := by
    rw [state_acceptedConnection]
    cases type <;> decide
  refine ⟨by simp, by simpa using up, by simp, ?_, fun state => absurd state opened⟩
  intro implicit
  rw [sslstrat_acceptedConnection] at implicit
  rw [sslconn_acceptedConnection, if_pos implicit]
  exact sslNewResult_ne_none (available type up (by rw [implicit]; decide)) (given implicit)

theorem nonNull_newConnection {type : ConnectionType} {a : AcceptTurn}
    (up : srv.active type = true) (given : srv.strategy type = .implicitTls → a.sslNew ≠ none) :
    ∀ e ∈ (newConnection srv.toGlobals a type (srv.strategy type)).2, e.NonNull := by
  intro e mem
  rw [events_newConnection] at mem
  split at mem
  · rename_i implicit
    have ctx := available type up (by rw [implicit]; decide)
    simp only [List.mem_cons, List.not_mem_nil, or_false] at mem
    obtain rfl | rfl := mem
    · exact ctx
    · exact sslNewResult_ne_none ctx (given implicit)
  · cases mem

/-- The step of the run: the records fit, and no call has a null pointer. -/
theorem TlsReady.step {h : MasterHistory} {queue : ConnectionQueue} {input : MasterInput}
    (wf : queue.Wf) (ready : ∀ conn ∈ queue.contents, TlsReady srv conn)
    (offered : tlsOffered srv h queue input) :
    (∀ conn ∈ (masterStep srv queue input).1.contents, TlsReady srv conn) ∧
      ∀ e ∈ (masterStep srv queue input).2, e.NonNull := by
  cases input with
  | accept type a =>
    unfold masterStep
    by_cases up : srv.active type = true
    · simp only [up, if_true]
      constructor
      · intro conn mem
        obtain old | rfl := mem_handleConnection wf mem
        · exact ready conn old
        · exact tlsReady_acceptedConnection available up offered
      · intro e mem
        rw [events_handleConnection] at mem
        split at mem
        · cases mem
        · simp only [List.cons_append, List.mem_cons, List.mem_append] at mem
          obtain rfl | new | late := mem
          · exact trivial
          · exact nonNull_newConnection available up offered e new
          · split at late
            · cases late
            · exact nonNull_connectionDeinit _ e late
    · simp only [up]
      exact ⟨ready, fun e mem => by cases mem⟩
  | process p =>
    rcases processConnection_outcome srv.toGlobals p wf with ⟨quiet, kept⟩ |
      ⟨front, first, lock, unlock, ⟨late, calls, deinit⟩, kept⟩
    · refine ⟨fun conn mem => ready conn (kept conn mem), ?_⟩
      intro e mem
      rw [show (masterStep srv queue (.process p)).2 = [] from quiet] at mem
      cases mem
    · have fits := ready front (List.mem_of_mem_head? first)
      have here := offered lock unlock front first
      constructor
      · intro conn mem
        obtain old | served := kept conn mem
        · exact ready conn old
        · exact fits.serve available here served
      · intro e mem
        rw [show (masterStep srv queue (.process p)).2 = _ from calls] at mem
        obtain served | settled := List.mem_append.mp mem
        · exact nonNull_serveConnection (nonNull_connectionHandler available fits here) e served
        · obtain rfl | ⟨conn, rfl⟩ := deinit
          · cases settled
          · exact nonNull_connectionDeinit conn e settled

theorem tlsReady_run {h : MasterHistory} {queue : ConnectionQueue}
    (reaches : (master srv).Reaches (· = connQueueInit) (tlsOffered srv) h queue) :
    queue.Wf ∧ (∀ conn ∈ queue.contents, TlsReady srv conn) ∧
      ∀ entry ∈ h, ∀ e ∈ entry.output, e.NonNull := by
  apply Machine.Reaches.invariant (fun h queue => queue.Wf ∧
    (∀ conn ∈ queue.contents, TlsReady srv conn) ∧ ∀ entry ∈ h, ∀ e ∈ entry.output, e.NonNull)
    _ _ reaches
  · rintro queue rfl
    exact ⟨Ring.wf_cleared _, by simp [connQueueInit], by simp⟩
  · intro h queue input inv offered
    obtain ⟨wf, ready, calls⟩ := inv
    obtain ⟨ready', calls'⟩ := TlsReady.step available wf ready offered
    exact ⟨wf_masterStep srv wf input, ready', List.forall_mem_cons.mpr ⟨calls', calls⟩⟩

end

/-- **TLS only when it is available.**  However the server has started, in every run
    in which STARTTLS comes to connections that offer it and `SSL_new` succeeds on a
    context: no null context is given to `SSL_new` and no null object to `SSL_set_fd`
    or `SSL_accept`, and an SMTP connection with strategy `NO_SSL` is never in a TLS
    negotiation and never answers STARTTLS with 220. -/
theorem tls_only_when_available {start : StartTurn} {srv : Server}
    (started : startServer start = some srv) {h : MasterHistory} {queue : ConnectionQueue}
    (reaches : (master srv).Reaches (· = connQueueInit) (tlsOffered srv) h queue) :
    (∀ entry ∈ h, ∀ e ∈ entry.output, e.NonNull) ∧
    (∀ conn ∈ queue.contents, conn.type = .smtp → conn.sslstrat = .noSsl →
      conn.state ≠ .mailExpectTlsNeg) ∧
    ∀ p conn, tlsOffered srv h queue (.process p) → queue.contents.head? = some conn →
      conn.type = .smtp → conn.sslstrat = .noSsl →
      .acceptStarttls ∉ replies ((master srv).step queue (.process p)).2 := by
  have available : ∀ type, srv.active type = true → srv.strategy type ≠ .noSsl →
      srv.sslctx ≠ none := fun _ up tls => startServer_available started up tls
  obtain ⟨wf, ready, calls⟩ := tlsReady_run available reaches
  refine ⟨calls, ?_, ?_⟩
  · intro conn mem smtp plain negotiating
    exact ((ready conn mem).negotiating negotiating).2 plain
  · intro p conn offered first smtp plain sent
    have fits := ready conn (List.mem_of_mem_head? first)
    rcases processConnection_outcome srv.toGlobals p wf with ⟨quiet, -⟩ |
      ⟨front, first', lock, unlock, ⟨late, output, deinit⟩, -⟩
    · rw [show ((master srv).step queue (.process p)).2 = [] from quiet] at sent
      cases sent
    · rw [first] at first'
      cases first'
      rw [show ((master srv).step queue (.process p)).2 = _ from output, replies_append] at sent
      -- a late deinitialisation sends nothing
      have silent : replies late = [] := by
        rcases deinit with rfl | ⟨conn, rfl⟩ <;> rfl
      rw [silent, List.append_nil] at sent
      have parsed := (serveConnection_dialogue srv.toGlobals p.turn smtp fits.live).of_acceptStarttls sent
      exact (offered lock unlock conn first smtp (commandFor_of_parsed smtp parsed)).1 plain

/-! ## A server to try -/

/-- A start on free ports, with the outcomes of loading the certificate and the key. -/
def startWith (certificate privateKey : Int) : StartTurn where
  domain := some (ascii "mail.mailey.femail")
  sslCtxNew := some 1
  certificate := certificate
  privateKey := privateKey
  socket4 := fun _ => ⟨3, 0, 0⟩
  socket6 := fun _ => ⟨4, 0, 0⟩

theorem startServer_withTls : startServer (startWith 1 1) = some (serverWith (some 1)) := by
  rfl

theorem startServer_withoutTls : startServer (startWith 0 0) = some (serverWith none) := by
  rfl

/-- A client on the SMTP port that sends STARTTLS, and the negotiation that follows. -/
def starttlsInputs : List MasterInput :=
  [.accept .smtp (.onSocket 5 Connection.zero), .process (.serves .silent),
   .process (.serves starttlsTurn), .process (.serves .silent)]

theorem tls_only_when_available_mailey :
    let last := (master (serverWith (some 1))).trace [] connQueueInit starttlsInputs
    startServer (startWith 1 1) = some (serverWith (some 1)) ∧
      ∀ entry ∈ last.1, ∀ e ∈ entry.output, e.NonNull := by
  intro last
  have admitted : (master (serverWith (some 1))).Admits (tlsOffered (serverWith (some 1))) []
      connQueueInit starttlsInputs := by
    decide +kernel
  have idle : (master (serverWith (some 1))).Reaches (· = connQueueInit)
      (tlsOffered (serverWith (some 1))) [] connQueueInit := .start rfl
  exact ⟨startServer_withTls,
    (tls_only_when_available startServer_withTls (idle.trace _ admitted)).1⟩

/-- With no certificate the server still answers STARTTLS with 220, asks for an object
    without a context, and waits for a negotiation. -/
theorem starttls_without_context :
    let last := (master (serverWith none)).trace [] connQueueInit (starttlsInputs.take 3)
    startServer (startWith 0 0) = some (serverWith none) ∧
      (∃ entry ∈ last.1, Event.sslNew none none ∈ entry.output ∧
        Event.sslSetFd none 5 ∈ entry.output ∧ .acceptStarttls ∈ replies entry.output) ∧
      last.2.contents.map Connection.sslstrat = [.noSsl] ∧
      last.2.contents.map Connection.state = [.mailExpectTlsNeg] := by
  refine ⟨startServer_withoutTls, ?_, ?_, ?_⟩
  · decide +kernel
  · decide +kernel
  · decide +kernel

end Femail
