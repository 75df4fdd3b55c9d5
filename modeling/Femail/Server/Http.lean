import Femail.Server.Types

/-! # The HTTP services

`http.c` and the two responses of `http.h`.
-/

namespace Femail

open Foundation

def nocontentresponse : List Byte :=
  ascii "HTTP/1.1 204 No Content\r\n" ++
    ascii "Server: Femail\r\n" ++
    ascii "Connection: close\r\n" ++
    ascii "Cache-Control: no-store\r\n" ++
    ascii "\r\n"

def httpmsgRedirectHttps (g : Globals) (conn : Connection) : Event :=
  .dprintf conn.clientsocket .redirectHttps
    (ascii "HTTP/1.1 301 Moved Permanently\r\n" ++
      ascii "Server: Femail\r\n" ++
      ascii "Location: https://" ++ cstring g.maildomain ++ ascii "/\r\n" ++
      ascii "Connection: close\r\n" ++
      ascii "\r\n")

def httpsmsgNoContent (conn : Connection) : Event :=
  .sslWrite conn.sslconn .noContent nocontentresponse

/-- The classification of a read that both handlers share: a read that fills the
    buffer, up to one byte, and one that would block ask for another turn. -/
def httpHandleRead (t : Turn) (conn : Connection) (response : Event) : Handled :=
  match t.recv with
  | .data chunk =>
    if chunk.bytes.length ≥ smallBufferSize - 1 then ⟨.continue, conn, []⟩
    else ⟨.done, conn, [response]⟩
  | .fail errno =>
    if errno.getD t.errno = ewouldblock then ⟨.continue, conn, []⟩ else ⟨.error, conn, []⟩
  | .eof => ⟨.error, conn, []⟩

def httpHandler (g : Globals) (t : Turn) (conn : Connection) : Handled :=
  if !conn.live then ⟨.done, conn, []⟩
  else
    let handled := httpHandleRead t conn (httpmsgRedirectHttps g conn)
    { handled with events := .read conn.clientsocket t.recv :: handled.events }

def httpsHandler (t : Turn) (conn : Connection) : Handled :=
  if !conn.live then ⟨.done, conn, []⟩
  -- the negotiation is made in one turn or not at all
  else if t.sslAccept ≤ 0 then ⟨.error, conn, [.sslAccept conn.sslconn t.sslAccept]⟩
  else
    let handled := httpHandleRead t conn (httpsmsgNoContent conn)
    { handled with
      events := .sslAccept conn.sslconn t.sslAccept :: .sslRead conn.sslconn t.recv :: handled.events }

end Femail
