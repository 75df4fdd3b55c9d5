import Femail.Server.Host
import Femail.Verified.DataPhase

/-! # The answer to a web request

Neither of the two handlers looks at what it reads: a read that fills the buffer, up to
one byte, is taken for a part of the request, and any other for the end of it.
`serveConnection_web` is one read, and `run_web` all those of a request.
-/

namespace Femail

open Foundation

def Event.result? : Event → Option ConnectionHandlerResult
  | .handlerReturned result => some result
  | _ => none

/-- The writes among the calls. -/
def writes (events : List Event) : List Event := events.filter Event.isWrite

/-- What the handlers returned. -/
def results (events : List Event) : List ConnectionHandlerResult := events.filterMap Event.result?

@[simp] theorem writes_append (events more : List Event) :
    writes (events ++ more) = writes events ++ writes more := List.filter_append _ _

@[simp] theorem results_append (events more : List Event) :
    results (events ++ more) = results events ++ results more := List.filterMap_append

/-- A live connection of one of the two services. -/
structure IsWeb (conn : Connection) : Prop where
  live : conn.live = true
  type : conn.type = .http ∨ conn.type = .https

/-- The answer of its service: the redirect, or the 204 under TLS. -/
def webResponse (g : Globals) (conn : Connection) : Event :=
  if conn.type = .https then httpsmsgNoContent conn else httpmsgRedirectHttps g conn

/-- A read that leaves two bytes of the buffer or more. -/
def Turn.ShortRead (t : Turn) : Prop := t.recv.bytes.length < smallBufferSize - 1

instance (t : Turn) : Decidable t.ShortRead := inferInstanceAs (Decidable (_ < _))

/-- The handshake of the turn, where there is one, succeeds. -/
def Turn.Negotiated (conn : Connection) (t : Turn) : Prop := conn.type = .https → 0 < t.sslAccept

/-! ## One read -/

/-- What the handler of a web connection makes of a read. -/
theorem connectionHandler_web (g : Globals) {conn : Connection} (web : IsWeb conn) {t : Turn}
    (negotiated : t.Negotiated conn) :
    ∃ calls, writes calls = [] ∧ results calls = [] ∧
      connectionHandler g t conn =
        { httpHandleRead t conn (webResponse g conn) with
          events := calls ++ (httpHandleRead t conn (webResponse g conn)).events } := by
  obtain ⟨live, http | https⟩ := web
  · refine ⟨[.read conn.clientsocket t.recv], rfl, rfl, ?_⟩
    simp [connectionHandler, http, httpHandler, live, webResponse]
  · have accepted : ¬ t.sslAccept ≤ 0 := Int.not_le.mpr (negotiated https)
    refine ⟨[.sslAccept conn.sslconn t.sslAccept, .sslRead conn.sslconn t.recv], rfl, rfl, ?_⟩
    simp [connectionHandler, https, httpsHandler, live, webResponse, accepted]

theorem webResponse_isWrite (g : Globals) (conn : Connection) :
    writes [webResponse g conn] = [webResponse g conn] ∧ results [webResponse g conn] = [] := by
  unfold webResponse
  split <;> exact ⟨rfl, rfl⟩

/-- One read of a web connection: a short one is answered, and the connection is over;
    any other is not, and the connection waits for the next. -/
theorem serveConnection_web (g : Globals) {conn : Connection} (web : IsWeb conn) {t : Turn}
    {chunk : Chunk} (got : t.recv = .data chunk) (negotiated : t.Negotiated conn) :
    let next := serveConnection g t conn
    if t.ShortRead then
      next.1 = none ∧ writes next.2 = [webResponse g conn] ∧ results next.2 = [.done]
    else next.1 = some { conn with timerefreshed := t.now } ∧ writes next.2 = [] ∧
      results next.2 = [.continue] := by
  obtain ⟨calls, silent, none', handled⟩ := connectionHandler_web g web negotiated
  obtain ⟨written, unreturned⟩ := webResponse_isWrite g conn
  have bytes : t.recv.bytes = chunk.bytes := by rw [got]; rfl
  by_cases short : t.ShortRead
  · have read : httpHandleRead t conn (webResponse g conn) = ⟨.done, conn, [webResponse g conn]⟩ := by
      rw [Turn.ShortRead, bytes] at short
      rw [httpHandleRead, got]
      exact if_neg (Nat.not_le_of_lt short)
    dsimp only
    rw [if_pos short, serveConnection, handled, read]
    refine ⟨rfl, ?_, ?_⟩
    · simp only [writes_append, silent, written]
      rfl
    · simp only [results_append, none', unreturned]
      rfl
  · have read : httpHandleRead t conn (webResponse g conn) = ⟨.continue, conn, []⟩ := by
      rw [Turn.ShortRead, bytes] at short
      rw [httpHandleRead, got]
      exact if_pos (Nat.le_of_not_lt short)
    dsimp only
    rw [if_neg short, serveConnection, handled, read]
    refine ⟨rfl, ?_, ?_⟩
    · simp only [writes_append, silent]
      rfl
    · simp only [results_append, none']
      rfl

/-! ## A request -/

/-- The calls made for the reads of a request, until the connection is over. -/
def requestCalls (g : Globals) (conn : Connection) (turns : List Turn) : List Event :=
  ((session g).run (some conn) turns).1.flatten

/-- The request has been answered once, and the connection is done. -/
def AnsweredOnce (g : Globals) (conn : Connection) (turns : List Turn) : Prop :=
  writes (requestCalls g conn turns) = [webResponse g conn] ∧
    (results (requestCalls g conn turns)).getLast? = some .done

theorem not_answeredOnce_of_silent {g : Globals} {conn : Connection} {turns : List Turn}
    (silent : writes (requestCalls g conn turns) = []) : ¬ AnsweredOnce g conn turns := by
  rintro ⟨written, -⟩
  rw [silent] at written
  cases written

theorem requestCalls_of_finished {g : Globals} {conn : Connection} {t : Turn}
    (finished : (serveConnection g t conn).1 = none) (turns : List Turn) :
    requestCalls g conn (t :: turns) = (serveConnection g t conn).2 := by
  have step : (session g).step (some conn) t = (none, (serveConnection g t conn).2) :=
    Prod.ext finished rfl
  simp [requestCalls, Machine.run, step, run_session_none]

theorem requestCalls_of_kept {g : Globals} {conn conn' : Connection} {t : Turn}
    (kept : (serveConnection g t conn).1 = some conn') (turns : List Turn) :
    requestCalls g conn (t :: turns) =
      (serveConnection g t conn).2 ++ requestCalls g conn' turns := by
  have step : (session g).step (some conn) t = (some conn', (serveConnection g t conn).2) :=
    Prod.ext kept rfl
  simp [requestCalls, Machine.run, step]

/-- All the reads of a request: the first short one is answered, and without one there is
    no answer. -/
theorem run_web (g : Globals) {conn : Connection} (web : IsWeb conn) {turns : List Turn}
    (allRead : AllRead turns) (negotiated : ∀ t ∈ turns, t.Negotiated conn) :
    (AnsweredOnce g conn turns ∧ ∃ t ∈ turns, t.ShortRead) ∨
      (writes (requestCalls g conn turns) = [] ∧ ¬ ∃ t ∈ turns, t.ShortRead) := by
  induction turns generalizing conn with
  | nil => exact Or.inr ⟨rfl, by simp⟩
  | cons t turns ih =>
    obtain ⟨⟨chunk, got⟩, allRead⟩ := List.forall_mem_cons.mp allRead
    obtain ⟨now, negotiated⟩ := List.forall_mem_cons.mp negotiated
    have read := serveConnection_web g web got now
    dsimp only at read
    by_cases short : t.ShortRead
    · rw [if_pos short] at read
      obtain ⟨finished, written, returned⟩ := read
      refine Or.inl ⟨?_, t, List.mem_cons_self, short⟩
      unfold AnsweredOnce
      rw [requestCalls_of_finished finished, written, returned]
      exact ⟨rfl, rfl⟩
    · rw [if_neg short] at read
      obtain ⟨kept, written, returned⟩ := read
      -- the next reads are those of the same connection, later
      have rest := @ih { conn with timerefreshed := t.now } ⟨web.live, web.type⟩ allRead negotiated
      unfold AnsweredOnce at rest ⊢
      rw [requestCalls_of_kept kept, writes_append, written, results_append, returned,
        List.nil_append]
      obtain ⟨⟨answered, last⟩, t', mem, short'⟩ | ⟨silent, long⟩ := rest
      · refine Or.inl ⟨⟨answered, ?_⟩, t', List.mem_cons_of_mem t mem, short'⟩
        rw [List.getLast?_append, last]
        rfl
      · exact Or.inr ⟨silent, by simp [short, long]⟩

/-- **Answered or left waiting.**  For every request to either service, in whatever reads,
    the request is answered once and the connection done exactly if one of its reads is
    short. -/
theorem answeredOnce_iff (g : Globals) {conn : Connection} (web : IsWeb conn) {turns : List Turn}
    (allRead : AllRead turns) (negotiated : ∀ t ∈ turns, t.Negotiated conn) :
    AnsweredOnce g conn turns ↔ ∃ t ∈ turns, t.ShortRead := by
  obtain ⟨answered, short⟩ | ⟨silent, long⟩ := run_web g web allRead negotiated
  · exact iff_of_true answered short
  · exact iff_of_false (not_answeredOnce_of_silent silent) long

/-- A new connection to port 80. -/
def httpConnection : Connection :=
  acceptedConnection maileyGlobals (.onSocket 5 .zero) .http .noSsl

theorem isWeb_httpConnection : IsWeb httpConnection := ⟨rfl, Or.inl rfl⟩

/-- A read that fills the buffer. -/
def fullRead : Turn :=
  .sends (List.replicate smallBufferSize 97) (by rw [List.length_replicate]; decide)
    (by rw [List.length_replicate])

theorem not_shortRead_fullRead : ¬ fullRead.ShortRead := by
  have length : fullRead.recv.bytes.length = smallBufferSize := List.length_replicate
  rw [Turn.ShortRead, length]
  decide

/-- A request of 1028 bytes, in a read that fills the buffer and another. -/
theorem answeredOnce_iff_http : AnsweredOnce maileyGlobals httpConnection
    [fullRead, .sends (ascii "\r\n\r\n") (by decide) (by decide)] := by
  refine (answeredOnce_iff _ isWeb_httpConnection ?_ ?_).mpr ?_
  · exact List.forall_mem_cons.mpr ⟨⟨_, rfl⟩, List.forall_mem_singleton.mpr ⟨_, rfl⟩⟩
  · intro t _ https
    cases https
  · exact ⟨_, List.mem_cons_of_mem _ List.mem_cons_self, by decide⟩

/-- A request of 1024 bytes in one read has no answer. -/
theorem not_answeredOnce_of_full : ¬ AnsweredOnce maileyGlobals httpConnection [fullRead] := by
  have allRead : AllRead [fullRead] := List.forall_mem_singleton.mpr ⟨_, rfl⟩
  have negotiated : ∀ t ∈ [fullRead], t.Negotiated httpConnection := by
    intro t _ https
    cases https
  obtain ⟨-, t, mem, short⟩ | ⟨silent, -⟩ :=
    run_web maileyGlobals isWeb_httpConnection allRead negotiated
  · rw [List.mem_singleton.mp mem] at short
    exact absurd short not_shortRead_fullRead
  · exact not_answeredOnce_of_silent silent

/-! ## Requests that have arrived in full -/

/-- The reads of a request that has arrived in full: each but the last fills the buffer. -/
def Greedy (turns : List Turn) : Prop :=
  ∀ before t, turns = before ++ [t] → ∀ t' ∈ before, t'.recv.bytes.length = smallBufferSize

theorem length_textRead_of_full {turns : List Turn}
    (full : ∀ t ∈ turns, t.recv.bytes.length = smallBufferSize) :
    (textRead turns).length = turns.length * smallBufferSize := by
  induction turns with
  | nil => rfl
  | cons t turns ih =>
    obtain ⟨now, rest⟩ := List.forall_mem_cons.mp full
    rw [textRead_cons, List.length_append, now, ih rest, List.length_cons, Nat.succ_mul, Nat.add_comm]

/-- Such reads have a short one by the length of the request alone. -/
theorem Greedy.shortRead_iff {turns : List Turn} (greedy : Greedy turns) (allRead : AllRead turns) :
    (∃ t ∈ turns, t.ShortRead) ↔
      0 < (textRead turns).length % smallBufferSize ∧
        (textRead turns).length % smallBufferSize < smallBufferSize - 1 := by
  cases turns using List.reverseRecOn with
  | nil => simp
  | append_singleton before t =>
    have full := greedy before t rfl
    obtain ⟨chunk, got⟩ := allRead t (by simp)
    have bytes : t.recv.bytes = chunk.bytes := by rw [got]; rfl
    -- only the last read can be short
    have last : (∃ t' ∈ before ++ [t], t'.ShortRead) ↔ chunk.bytes.length < smallBufferSize - 1 := by
      constructor
      · rintro ⟨t', mem, short⟩
        obtain early | here := List.mem_append.mp mem
        · rw [Turn.ShortRead, full t' early] at short
          exact absurd short (by decide)
        · rw [List.mem_singleton.mp here, Turn.ShortRead, bytes] at short
          exact short
      · intro short
        refine ⟨t, by simp, ?_⟩
        rw [Turn.ShortRead, bytes]
        exact short
    have length : (textRead (before ++ [t])).length =
        before.length * smallBufferSize + chunk.bytes.length := by
      simp [length_textRead_of_full full, bytes]
    have nonempty := chunk.nonempty
    have fits := chunk.fits
    rw [last, length]
    simp only [smallBufferSize] at fits ⊢
    omega

/-- A request that has arrived in full is answered or not by its length alone: it must not
    end where a buffer ends, or one byte before. -/
theorem answeredOnce_of_greedy (g : Globals) {conn : Connection} (web : IsWeb conn)
    {turns : List Turn} (allRead : AllRead turns) (negotiated : ∀ t ∈ turns, t.Negotiated conn)
    (greedy : Greedy turns) :
    AnsweredOnce g conn turns ↔
      0 < (textRead turns).length % smallBufferSize ∧
        (textRead turns).length % smallBufferSize < smallBufferSize - 1 := by
  rw [← greedy.shortRead_iff allRead]
  obtain ⟨answered, short⟩ | ⟨silent, long⟩ := run_web g web allRead negotiated
  · exact iff_of_true answered short
  · exact iff_of_false (not_answeredOnce_of_silent silent) long

end Femail
