import Femail.Verified.Calls

/-! # Failing reads over TLS

`smtp_handler` and `https_handler` tell a failed `SSL_read` that may be repeated from
one that ends the connection by `errno`, where the negotiation asks `SSL_get_error`.
`errno` belongs to the read only if the read has set it: otherwise it is what an
earlier call left, such as the `accept` of an idle listener.
-/

namespace Femail

open Foundation

/-- The errors after which a call over TLS is to be repeated. -/
def SslError.retryable : SslError → Bool
  | .wantRead => true
  | .wantWrite => true
  | .other _ => false

/-- The turn of `t` with a read that fails: `SSL_get_error` gives `err` for it, and it
    sets `errno` or leaves the value `stale` there. -/
def Turn.failsRead (t : Turn) (set : Option Errno) (err : SslError) (stale : Errno) : Turn :=
  { t with recv := .fail set, sslGetError := err, errno := stale }

/-- The turn calls `SSL_read`. -/
def Connection.ReceivesTls (t : Turn) (conn : Connection) : Prop :=
  conn.Receives t ∧ conn.type ≠ .http ∧ conn.sslconn ≠ none

instance (t : Turn) (conn : Connection) : Decidable (conn.ReceivesTls t) :=
  inferInstanceAs (Decidable (_ ∧ _))

section

variable (g : Globals) {t : Turn} {conn : Connection} (set : Option Errno) (err : SslError)
  (stale : Errno)

/-- The call ends with an `SSL_read` of the connection's object, and what it returns is
    decided by the `errno` found behind that. -/
theorem connectionHandler_failsRead (receives : conn.ReceivesTls t) :
    ∃ before, connectionHandler g (t.failsRead set err stale) conn =
      ⟨if set.getD stale = ewouldblock then .continue else .error, conn,
        before ++ [.sslRead conn.sslconn (.fail set)]⟩ := by
  obtain ⟨⟨live, kind⟩, http, tls⟩ := receives
  obtain plain | ⟨https, accepted⟩ | ⟨smtp, opened, negotiating⟩ := kind
  · exact absurd plain http
  · have completed : ¬ (t.failsRead set err stale).sslAccept ≤ 0 := Int.not_le.mpr accepted
    refine ⟨[.sslAccept conn.sslconn t.sslAccept], ?_⟩
    simp only [connectionHandler, https, httpsHandler, live, Bool.not_true, Bool.false_eq_true,
      if_false, if_neg completed, httpHandleRead]
    by_cases block : set.getD stale = ewouldblock <;> simp [Turn.failsRead, block]
  · obtain ⟨ssl, object⟩ := Option.ne_none_iff_exists'.mp tls
    refine ⟨[], ?_⟩
    simp only [connectionHandler, smtp, smtpHandler, live, Bool.not_true, Bool.false_eq_true,
      if_false, if_neg opened, if_neg negotiating, smtpHandleRead, smtpReceiveMsg, object]
    by_cases block : set.getD stale = ewouldblock <;> simp [Turn.failsRead, block]

/-- With one value of `errno` left by earlier calls, the result is that of the error
    exactly when the `errno` found says the same. -/
theorem result_failsRead_eq_iff (receives : conn.ReceivesTls t) :
    (connectionHandler g (t.failsRead set err stale) conn).result =
        (if err.retryable then .continue else .error) ↔
      (set.getD stale = ewouldblock ↔ err.retryable = true) := by
  obtain ⟨before, handled⟩ := connectionHandler_failsRead g set err stale receives
  rw [handled]
  by_cases block : set.getD stale = ewouldblock <;> cases err.retryable <;> simp [block]

end

/-- A failing read is classified by its own error, whatever earlier calls left in
    `errno`. -/
structure ClassifiedByTls (g : Globals) (t : Turn) (conn : Connection) (set : Option Errno)
    (err : SslError) : Prop where
  result : ∀ stale, (connectionHandler g (t.failsRead set err stale) conn).result =
    if err.retryable then .continue else .error
  sameResult : ∀ stale stale',
    (connectionHandler g (t.failsRead set err stale) conn).result =
      (connectionHandler g (t.failsRead set err stale') conn).result

/-- **Failing reads over TLS.**  A failure is classified by its error exactly when the
    read sets `errno` itself, and to `EWOULDBLOCK` just for the errors to retry. -/
theorem tlsRead_classified_iff (g : Globals) (t : Turn) (conn : Connection) (set : Option Errno)
    (err : SslError) (receives : conn.ReceivesTls t) :
    ClassifiedByTls g t conn set err ↔
      ∃ errno, set = some errno ∧ (errno = ewouldblock ↔ err.retryable = true) := by
  constructor
  · intro classified
    have found : ∀ stale, set.getD stale = ewouldblock ↔ err.retryable = true :=
      fun stale => (result_failsRead_eq_iff g set err stale receives).mp (classified.result stale)
    cases set with
    | some errno => exact ⟨errno, rfl, found 0⟩
    | none =>
      -- one stale value says that the read would block, another that it failed
      have retry : err.retryable = true := (found ewouldblock).mp rfl
      exact absurd ((found 0).mpr retry) (by decide)
  · rintro ⟨errno, rfl, agrees⟩
    have result : ∀ stale, (connectionHandler g (t.failsRead (some errno) err stale) conn).result =
        if err.retryable then .continue else .error :=
      fun stale => (result_failsRead_eq_iff g (some errno) err stale receives).mpr agrees
    exact ⟨result, fun stale stale' => (result stale).trans (result stale').symm⟩

/-! ## A connection over TLS -/

def tlsGlobals : Globals := ⟨ascii "mail.mailey.femail", some 1⟩

/-- A greeting, a STARTTLS and its handshake. -/
def tlsTurns : List Turn := [.silent, starttlsTurn, { Turn.silent with sslAccept := 1 }]

/-- The run of a new connection over them. -/
def tlsRun : SessionHistory × Option Connection :=
  (session tlsGlobals).trace []
    (some (acceptedConnection tlsGlobals (.onSocket 5 Connection.zero) .smtp .opportunisticTls))
    tlsTurns

theorem tlsRun_reaches :
    (session tlsGlobals).Reaches (smtpStart tlsGlobals) Machine.anyStep tlsRun.1 tlsRun.2 :=
  (Machine.Reaches.start ⟨_, _, rfl⟩).trace tlsTurns (Machine.admits_anyStep _ _ _ _)

theorem tlsRead_classified_wantRead :
    ∃ conn, tlsRun.2 = some conn ∧ conn.ReceivesTls .silent ∧
      ClassifiedByTls tlsGlobals .silent conn (some ewouldblock) .wantRead := by
  obtain ⟨conn, here, receives⟩ : ∃ conn ∈ tlsRun.2, conn.ReceivesTls .silent := by decide +kernel
  refine ⟨conn, here, receives, ?_⟩
  exact (tlsRead_classified_iff tlsGlobals .silent conn _ _ receives).mpr
    ⟨ewouldblock, rfl, by decide⟩

/-- A connection broken by a protocol error is kept if the last `accept` found no client,
    and dropped if it found one. -/
theorem stale_errno_keeps_broken_connection :
    ∃ h conn, (session tlsGlobals).Reaches (smtpStart tlsGlobals) Machine.anyStep h (some conn) ∧
      conn.ReceivesTls .silent ∧ ¬ ClassifiedByTls tlsGlobals .silent conn none (.other 1) ∧
      (connectionHandler tlsGlobals (Turn.silent.failsRead none (.other 1) ewouldblock) conn).result =
        .continue ∧
      (connectionHandler tlsGlobals (Turn.silent.failsRead none (.other 1) 0) conn).result =
        .error := by
  have run := tlsRun_reaches
  obtain ⟨conn, here, receives⟩ : ∃ conn ∈ tlsRun.2, conn.ReceivesTls .silent := by decide +kernel
  rw [Option.mem_def.mp here] at run
  obtain ⟨_, kept⟩ := connectionHandler_failsRead tlsGlobals none (.other 1) ewouldblock receives
  obtain ⟨_, dropped⟩ := connectionHandler_failsRead tlsGlobals none (.other 1) 0 receives
  refine ⟨_, conn, run, receives, ?_, by rw [kept]; rfl, by rw [dropped]; rfl⟩
  intro classified
  have error := classified.result ewouldblock
  rw [kept] at error
  cases error

/-- Such a connection stays in the queue for as long as the stale value does. -/
theorem broken_connection_stays (g : Globals) {turns : List Turn}
    (broken : ∀ t ∈ turns, t.recv = .fail none ∧ t.errno = ewouldblock) {conn : Connection}
    (smtp : conn.type = .smtp) (reading : conn.Reading) :
    ∃ conn', ((session g).run (some conn) turns).2 = some conn' ∧ conn'.type = .smtp ∧
      conn'.Reading := by
  induction turns generalizing conn with
  | nil => exact ⟨conn, rfl, smtp, reading⟩
  | cons t turns ih =>
    obtain ⟨nothing, block⟩ := broken t List.mem_cons_self
    have kept : (serveConnection g t conn).1 = some { conn with timerefreshed := t.now } := by
      obtain ⟨live, opened, negotiating⟩ := reading
      simp [serveConnection, connectionHandler, smtp, smtpHandler, live, opened, negotiating,
        smtpHandleRead, nothing, block, settleConnection]
    have step : ((session g).run (some conn) (t :: turns)).2 =
        ((session g).run (serveConnection g t conn).1 turns).2 := rfl
    rw [step, kept]
    exact ih (fun t mem => broken t (List.mem_cons_of_mem _ mem)) smtp reading

end Femail
