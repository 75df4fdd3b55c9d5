import Femail.Foundation.Head
import Femail.Verified.HttpAnswer
import Femail.Verified.ReplyGrammar

/-! # What a web client reads

The two responses are heads of HTTP messages with nothing behind them.  Whatever a client
of either service does, in any number of turns, it is sent nothing, or one of them and the
connection is over (`web_response_decodes`).
-/

namespace Femail

open Foundation

/-- The redirect to the same host under TLS. -/
def redirectHead (g : Globals) : Head where
  version := ascii "HTTP/1.1"
  code := ascii "301"
  reason := ascii "Moved Permanently"
  fields :=
    [(ascii "Server", ascii "Femail"),
     (ascii "Location", ascii "https://" ++ cstring g.maildomain ++ ascii "/"),
     (ascii "Connection", ascii "close")]

def noContentHead : Head where
  version := ascii "HTTP/1.1"
  code := ascii "204"
  reason := ascii "No Content"
  fields :=
    [(ascii "Server", ascii "Femail"),
     (ascii "Connection", ascii "close"),
     (ascii "Cache-Control", ascii "no-store")]

/-- What a client of each service is to read. -/
def webHead (g : Globals) (type : ConnectionType) : Head :=
  if type = .https then noContentHead else redirectHead g

theorem noContentHead_write : noContentHead.write = nocontentresponse := by decide

/-- The text of the redirect, cut at the host. -/
theorem redirectHead_write (g : Globals) (conn : Connection) :
    (httpmsgRedirectHttps g conn).sent = (redirectHead g).write := by
  have front : ascii "HTTP/1.1 301 Moved Permanently\r\n" ++ ascii "Server: Femail\r\n" ++
      ascii "Location: https://" =
        writeLine (ascii "HTTP/1.1" ++ 32 :: ascii "301" ++ 32 :: ascii "Moved Permanently") ++
          writeField (ascii "Server", ascii "Femail") ++
            (ascii "Location" ++ 58 :: 32 :: ascii "https://") := by
    decide
  have back : ascii "/\r\n" ++ ascii "Connection: close\r\n" ++ ascii "\r\n" =
      ascii "/" ++ [13, 10] ++ writeField (ascii "Connection", ascii "close") ++ writeLine [] := by
    decide
  have head : (redirectHead g).write =
      writeLine (ascii "HTTP/1.1" ++ 32 :: ascii "301" ++ 32 :: ascii "Moved Permanently") ++
        writeField (ascii "Server", ascii "Femail") ++
          (ascii "Location" ++ 58 :: 32 :: ascii "https://") ++ cstring g.maildomain ++
        (ascii "/" ++ [13, 10] ++ writeField (ascii "Connection", ascii "close") ++ writeLine []) := by
    simp [Head.write, redirectHead, writeField, writeLine]
  rw [head, ← front, ← back]
  simp only [httpmsgRedirectHttps, Event.sent, List.append_assoc]

theorem sent_webResponse (g : Globals) (conn : Connection) :
    (webResponse g conn).sent = (webHead g conn.type).write := by
  unfold webResponse webHead
  split
  · exact noContentHead_write.symm
  · exact redirectHead_write g conn

/-- With a host free of line ends both are heads whose parts can be told apart. -/
theorem text_webHead {g : Globals} (clean : ReplyText (cstring g.maildomain)) (type : ConnectionType) :
    (webHead g type).Text := by
  unfold webHead
  split
  · refine ⟨by decide, by decide, by decide, ?_⟩
    intro field mem
    simp only [noContentHead, List.mem_cons, List.not_mem_nil, or_false] at mem
    obtain rfl | rfl | rfl := mem <;> exact ⟨by decide, by decide, by decide⟩
  · have version : 32 ∉ ascii "HTTP/1.1" ∧ 13 ∉ ascii "HTTP/1.1" := by decide
    have code : 32 ∉ ascii "301" ∧ 13 ∉ ascii "301" := by decide
    have reason : 13 ∉ ascii "Moved Permanently" := by decide
    have name : 58 ∉ ascii "Location" ∧ 13 ∉ ascii "Location" := by decide
    have around : 13 ∉ ascii "https://" ∧ 13 ∉ ascii "/" := by decide
    refine ⟨version, code, reason, ?_⟩
    intro field mem
    simp only [redirectHead, List.mem_cons, List.not_mem_nil, or_false] at mem
    obtain rfl | rfl | rfl := mem
    · exact ⟨by decide, by decide, by decide⟩
    · refine ⟨name.1, ?_, name.2, ?_⟩
      · rw [List.append_assoc]
        exact (by decide : (104 : Byte) ≠ 32) ∘ Option.some.inj
      · simp [around.1, around.2, clean.1]
    · exact ⟨by decide, by decide, by decide⟩

/-! ## One turn -/

section

variable {g : Globals} {t : Turn} {conn : Connection}

theorem httpHandleRead_cases (t : Turn) (conn : Connection) (response : Event) :
    httpHandleRead t conn response = ⟨.continue, conn, []⟩ ∨
      httpHandleRead t conn response = ⟨.error, conn, []⟩ ∨
      httpHandleRead t conn response = ⟨.done, conn, [response]⟩ := by
  unfold httpHandleRead
  cases t.recv with
  | eof => exact Or.inr (Or.inl rfl)
  | fail errno =>
    dsimp only
    split
    · exact Or.inl rfl
    · exact Or.inr (Or.inl rfl)
  | data chunk =>
    dsimp only
    split
    · exact Or.inl rfl
    · exact Or.inr (Or.inr rfl)

/-- A handler of the web reads, or gives up before. -/
theorem connectionHandler_webCases (g : Globals) (t : Turn) (web : IsWeb conn) :
    ∃ calls, sentBytes calls = [] ∧
      (connectionHandler g t conn = ⟨.error, conn, calls⟩ ∨
        connectionHandler g t conn =
          { httpHandleRead t conn (webResponse g conn) with
            events := calls ++ (httpHandleRead t conn (webResponse g conn)).events }) := by
  by_cases negotiated : t.Negotiated conn
  · obtain ⟨calls, silent, -, handled⟩ := connectionHandler_web g web negotiated
    refine ⟨calls, ?_, Or.inr handled⟩
    apply List.flatMap_eq_nil_iff.mpr
    intro e mem
    have quiet : e.isWrite = false := by
      by_contra writes
      have written : e ∈ Femail.writes calls := List.mem_filter.mpr ⟨mem, by simpa using writes⟩
      rw [silent] at written
      cases written
    cases e <;> first | rfl | cases quiet
  · obtain ⟨https, failed⟩ : conn.type = .https ∧ t.sslAccept ≤ 0 := by
      simpa [Turn.Negotiated] using negotiated
    refine ⟨[.sslAccept conn.sslconn t.sslAccept], rfl, Or.inl ?_⟩
    simp [connectionHandler, https, httpsHandler, web.live, failed]

theorem sentBytes_append (events more : List Event) :
    sentBytes (events ++ more) = sentBytes events ++ sentBytes more := List.flatMap_append

/-- What a turn writes is the response, on the channel of the connection. -/
theorem write_serveConnection_web (t : Turn) (web : IsWeb conn) :
    ∀ call ∈ (serveConnection g t conn).2, call.isWrite = true → call = webResponse g conn := by
  refine forall_mem_serveConnection (fun _ => nofun) (fun _ => nofun) ?_ ?_
  · intro conn' call mem write
    simp only [connectionDeinit, List.mem_cons, List.not_mem_nil, or_false] at mem
    rcases mem with rfl | rfl | rfl <;> cases write
  · intro call mem write
    unfold connectionHandler at mem
    obtain http | https := web.type
    · simp only [http, httpHandler, web.live, Bool.not_true, Bool.false_eq_true, if_false,
        List.mem_cons] at mem
      obtain rfl | read := mem
      · cases write
      · rw [mem_httpHandleRead read, webResponse, if_neg (by simp [http])]
    · simp only [https, httpsHandler, web.live, Bool.not_true, Bool.false_eq_true, if_false] at mem
      split at mem
      · rw [List.mem_singleton.mp mem] at write
        cases write
      · simp only [List.mem_cons] at mem
        obtain rfl | rfl | read := mem
        · cases write
        · cases write
        · rw [mem_httpHandleRead read, webResponse, if_pos https]

/-- Whatever a turn brings: the connection waits on and nothing is sent, or it is over, and
    the answer may have been sent. -/
theorem sent_serveConnection_web (t : Turn) (web : IsWeb conn) :
    let next := serveConnection g t conn
    (∃ conn', next.1 = some conn' ∧ IsWeb conn' ∧ conn'.type = conn.type ∧
        webResponse g conn' = webResponse g conn ∧ sentBytes next.2 = []) ∨
      (next.1 = none ∧ (sentBytes next.2 = [] ∨ sentBytes next.2 = (webHead g conn.type).write)) := by
  intro next
  have closing : ∀ calls result,
      sentBytes (calls ++ .handlerReturned result :: connectionDeinit conn) = sentBytes calls := by
    intro calls result
    rw [sentBytes_append]
    exact List.append_nil _
  obtain ⟨calls, silent, gaveUp | reads⟩ := connectionHandler_webCases g t web
  · -- the handshake failed, and the connection goes without a response
    refine Or.inr ⟨by simp [next, serveConnection, gaveUp, settleConnection], Or.inl ?_⟩
    simp only [next, serveConnection, gaveUp, settleConnection]
    exact (closing _ _).trans silent
  · obtain read | read | read := httpHandleRead_cases t conn (webResponse g conn)
    · -- nothing came yet
      rw [read, List.append_nil] at reads
      refine Or.inl ⟨{ conn with timerefreshed := t.now },
        by simp [next, serveConnection, reads, settleConnection], ⟨web.live, web.type⟩, rfl, rfl, ?_⟩
      simp only [next, serveConnection, reads, settleConnection, sentBytes_append, silent]
      rfl
    · rw [read, List.append_nil] at reads
      refine Or.inr ⟨by simp [next, serveConnection, reads, settleConnection], Or.inl ?_⟩
      simp only [next, serveConnection, reads, settleConnection]
      exact (closing _ _).trans silent
    · rw [read] at reads
      refine Or.inr ⟨by simp [next, serveConnection, reads, settleConnection], Or.inr ?_⟩
      simp only [next, serveConnection, reads, settleConnection]
      rw [closing, sentBytes_append, silent, ← sent_webResponse]
      exact List.append_nil _

end

/-! ## Whole runs -/

/-- All that a run has sent, oldest first. -/
def sentIn (h : SessionHistory) : List Byte := h.reverse.flatMap fun e => sentBytes e.output

theorem sentIn_cons (e : Entry (Option Connection) Turn (List Event)) (h : SessionHistory) :
    sentIn (e :: h) = sentIn h ++ sentBytes e.output := by
  simp [sentIn]

/-- **A web client reads one response or nothing.**  In every run of a connection to either
    service, with a mail domain free of line ends: as long as the connection waits it has
    been sent nothing, and once it is over, nothing or bytes that read as the one head for
    its service, with nothing left over.  What is written at all is `webResponse`: through
    the SSL object of the accepted connection for HTTPS, to its socket for HTTP. -/
theorem web_response_decodes {g : Globals} (clean : ReplyText (cstring g.maildomain))
    {type : ConnectionType} (web : type = .http ∨ type = .https) {a : AcceptTurn}
    {strat : SslStrategy} {h : SessionHistory} {s : Option Connection}
    (reaches : (session g).Reaches (· = some (acceptedConnection g a type strat)) Machine.anyStep h s) :
    (sentIn h = [] ∨ s = none ∧ readHead (sentIn h) = some (webHead g type, [])) ∧
      ∀ e ∈ h, ∀ call ∈ e.output, call.isWrite = true →
        call = webResponse g (acceptedConnection g a type strat) := by
  have invariant : (∀ conn, s = some conn → IsWeb conn ∧ conn.type = type ∧
        webResponse g conn = webResponse g (acceptedConnection g a type strat) ∧ sentIn h = []) ∧
      (sentIn h = [] ∨ s = none ∧ sentIn h = (webHead g type).write) ∧
      ∀ e ∈ h, ∀ call ∈ e.output, call.isWrite = true →
        call = webResponse g (acceptedConnection g a type strat) := by
    induction reaches with
    | start here =>
      refine ⟨?_, Or.inl rfl, by simp⟩
      rintro conn rfl
      cases here
      refine ⟨⟨live_acceptedConnection g a type strat, ?_⟩, type_acceptedConnection g a type strat,
        rfl, rfl⟩
      rw [type_acceptedConnection]
      exact web
    | @step h s t _ _ ih =>
      obtain ⟨waiting, sent, written⟩ := ih
      rw [sentIn_cons]
      cases s with
      | none =>
        -- a connection that is over sends nothing more
        refine ⟨(fun conn here => nomatch here), ?_, List.forall_mem_cons.mpr ⟨nofun, written⟩⟩
        rw [show sentBytes ((session g).step none t).2 = [] from rfl, List.append_nil]
        exact sent.imp_right fun ⟨_, same⟩ => ⟨rfl, same⟩
      | some conn =>
        obtain ⟨here, kind, response, silent⟩ := waiting conn rfl
        rw [silent, List.nil_append]
        have writes := write_serveConnection_web (g := g) t here
        rw [response] at writes
        have turn := sent_serveConnection_web (g := g) t here
        rw [kind] at turn
        obtain ⟨conn', kept, next, same, response', quiet⟩ | ⟨finished, answered⟩ := turn
        · refine ⟨?_, Or.inl quiet, List.forall_mem_cons.mpr ⟨writes, written⟩⟩
          intro conn'' here''
          obtain rfl : conn' = conn'' := Option.some.inj (kept.symm.trans here'')
          exact ⟨next, same, response'.trans response, quiet⟩
        · refine ⟨?_, answered.imp_right fun same => ⟨finished, same⟩,
            List.forall_mem_cons.mpr ⟨writes, written⟩⟩
          intro conn' here'
          cases finished.symm.trans here'
  obtain ⟨-, silent | ⟨finished, sent⟩, written⟩ := invariant
  · exact ⟨Or.inl silent, written⟩
  · have decoded := readHead_write (text_webHead clean type) []
    rw [List.append_nil, ← sent] at decoded
    exact ⟨Or.inr ⟨finished, decoded⟩, written⟩

/-- A request in two reads, and one that comes too late. -/
theorem web_response_decodes_http :
    let turns := [fullRead, Turn.sends (ascii "\r\n\r\n") (by decide) (by decide), fullRead]
    let last := (session maileyGlobals).trace [] (some httpConnection) turns
    readHead (sentIn last.1) = some (redirectHead maileyGlobals, []) := by
  intro turns last
  have clean : ReplyText (cstring maileyGlobals.maildomain) := by decide
  have start : (session maileyGlobals).Reaches (· = some httpConnection) Machine.anyStep []
      (some httpConnection) := .start rfl
  have some' : sentIn last.1 ≠ [] := by decide +kernel
  obtain ⟨decoded, -⟩ := web_response_decodes clean (Or.inl rfl)
    (start.trace turns (Machine.admits_anyStep _ _ _ _))
  exact (decoded.resolve_left some').2

end Femail
