import Femail.Server.Main
import Femail.Verified.Handler

/-! # Replies over TLS and in clear

`smtp_send_msg` formats a reply twice over: `dprintf` writes the whole text, the
TLS path formats it into `msgbuf` and hands `SSL_write` the length the whole text
would have.  The two send the same bytes exactly when the text and its NUL fit in
`msgbuf` (`snprintfPayload_eq_iff`); how long a text gets is decided by the mail
domain and by what `move_client_mail_domain` stored.
-/

namespace Femail

open Foundation

/-! ## What `move_client_mail_domain` stores -/

/-- The longest prefix without a character that ends a word. -/
def firstWord (param : List Byte) : List Byte := param.takeWhile fun b => !endsWord b

theorem firstWord_nil : firstWord [] = [] := rfl

theorem firstWord_cons_end {b : Byte} (ends : endsWord b = true) (rest : List Byte) :
    firstWord (b :: rest) = [] := by
  simp [firstWord, ends]

theorem firstWord_cons_char {b : Byte} (char : endsWord b = false) (rest : List Byte) :
    firstWord (b :: rest) = b :: firstWord rest := by
  simp [firstWord, char]

theorem zero_notMem_firstWord (param : List Byte) : (0 : Byte) ∉ firstWord param := by
  intro mem
  have char := List.mem_takeWhile_imp mem
  exact absurd char (by decide)

/-- The stores of `bytes`, one behind the other from `offset` on. -/
def storesFrom : Nat → List Byte → List (Nat × Byte)
  | _, [] => []
  | offset, b :: bytes => (offset, b) :: storesFrom (offset + 1) bytes

/-- The loop stores the word and its NUL if the word ends by `max`, and gives up there
    with what it has stored if not. -/
theorem moveClientMailDomainLoop_eq {max : Nat} (param : List Byte) {offset : Nat}
    (bound : offset ≤ max) :
    moveClientMailDomainLoop max param offset =
      if offset + (firstWord param).length ≤ max then (0, storesFrom offset (firstWord param ++ [0]))
      else (1, storesFrom offset ((firstWord param).take (max - offset))) := by
  induction param generalizing offset with
  | nil =>
    rw [firstWord_nil, List.length_nil, Nat.add_zero, if_pos bound]
    rfl
  | cons b rest ih =>
    unfold moveClientMailDomainLoop
    cases ends : endsWord b with
    | true =>
      rw [firstWord_cons_end ends, if_pos rfl, List.length_nil, Nat.add_zero, if_pos bound]
      rfl
    | false =>
      rw [firstWord_cons_char ends, List.length_cons, if_neg Bool.false_ne_true]
      by_cases full : offset = max
      · -- a character is still to be stored
        rw [if_pos full, if_neg (by omega), full, Nat.sub_self]
        rfl
      · have next := @ih (offset + 1) (by omega)
        have left : max - offset = (max - (offset + 1)) + 1 := by omega
        rw [if_neg full, next, Nat.add_right_comm offset 1, Nat.add_assoc, left, List.take_succ_cons]
        by_cases fits : offset + ((firstWord rest).length + 1) ≤ max
        · rw [if_pos fits, if_pos fits]
          rfl
        · rw [if_neg fits, if_neg fits]
          rfl

theorem moveClientMailDomainLoop_result {max : Nat} (param : List Byte) {offset : Nat}
    (bound : offset ≤ max) :
    (moveClientMailDomainLoop max param offset).1 = 0 ↔
      offset + (firstWord param).length ≤ max := by
  rw [moveClientMailDomainLoop_eq param bound]
  split
  · rename_i fits
    exact iff_of_true rfl fits
  · rename_i long
    exact iff_of_false Int.one_ne_zero long

/-- Stores one behind the other are a copy. -/
theorem applyStores_storesFrom {offset : Nat} (field : Vector Byte mailclientdomainRoom)
    (bytes : List Byte) (room : offset + bytes.length ≤ mailclientdomainRoom) :
    (applyStores field (storesFrom offset bytes)).toList = overwrite field.toList offset bytes := by
  induction bytes generalizing offset field with
  | nil => simp [storesFrom, applyStores, overwrite]
  | cons b bytes ih =>
    rw [List.length_cons] at room
    have rest := @ih (offset + 1) (field.setIfInBounds offset b) (by omega)
    rw [overwrite_cons (by simp; omega), ← Vector.toList_setIfInBounds, ← rest]
    rfl

/-- A successful loop leaves the word and its NUL at `offset`. -/
theorem applyStores_moveClientMailDomainLoop {max : Nat} (param : List Byte) {offset : Nat}
    (field : Vector Byte mailclientdomainRoom) (bound : offset ≤ max)
    (room : max < mailclientdomainRoom) (fits : offset + (firstWord param).length ≤ max) :
    (applyStores field (moveClientMailDomainLoop max param offset).2).toList =
      overwrite field.toList offset (firstWord param ++ [0]) := by
  rw [moveClientMailDomainLoop_eq param bound, if_pos fits]
  apply applyStores_storesFrom
  rw [List.length_append, List.length_singleton]
  omega

/-- What a successful `move_client_mail_domain` leaves in the record is the first
    word of its parameter. -/
theorem cstring_moveClientMailDomain {param : List Byte} {conn : Connection}
    (moved : (moveClientMailDomain param conn domainMaxSize).1 = 0) :
    cstring (moveClientMailDomain param conn domainMaxSize).2.mailclientdomain.toList =
      firstWord param := by
  have short : 0 + (firstWord param).length ≤ domainMaxSize :=
    (moveClientMailDomainLoop_result param (Nat.zero_le _)).mp moved
  have stored := applyStores_moveClientMailDomainLoop param conn.mailclientdomain (Nat.zero_le _)
    (by decide) short
  have field : (moveClientMailDomain param conn domainMaxSize).2.mailclientdomain =
      applyStores conn.mailclientdomain (moveClientMailDomainLoop domainMaxSize param 0).2 := rfl
  rw [field, stored, overwrite, List.take_zero, List.nil_append, List.append_assoc,
    List.singleton_append, cstring_append_zero, cstring_eq_self (zero_notMem_firstWord param)]

/-! ## The mail domain -/

theorem cstring_dnsInit {domain maildomain : List Byte} (nulFree : 0 ∉ domain)
    (accepted : dnsInit (some domain) = some maildomain) : cstring maildomain = domain := by
  unfold dnsInit at accepted
  dsimp only at accepted
  split at accepted
  · cases accepted
  · split at accepted
    · cases accepted
    · rename_i short
      simp only [Option.some.injEq] at accepted
      subst accepted
      have whole : domain.take (domainMaxSize - 1) = domain :=
        List.take_of_length_le (Nat.le_of_not_lt short)
      rw [whole, overwrite, List.take_zero, List.nil_append, List.append_assoc,
        List.singleton_append, cstring_append_zero, cstring_eq_self nulFree]

/-- The longest mail domain that is accepted. -/
theorem dnsInit_longest :
    ∃ maildomain, dnsInit (some (List.replicate 254 97)) = some maildomain ∧
      cstring maildomain = List.replicate 254 97 := by
  have accepted : dnsInit (some (List.replicate 254 97)) = some
      (overwrite (List.replicate domainMaxSize 0) 0
        ((List.replicate 254 97).take (domainMaxSize - 1) ++ [0])) := by
    simp only [dnsInit, List.length_replicate]
    rfl
  have nulFree : (0 : Byte) ∉ List.replicate 254 (97 : Byte) := by
    intro mem
    exact absurd (List.eq_of_mem_replicate mem) (by decide)
  exact ⟨_, accepted, cstring_dnsInit nulFree accepted⟩

/-! ## Texts and payloads -/

/-- A text goes through `msgbuf` unharmed exactly when it fits there with its NUL. -/
theorem snprintfPayload_eq_iff {text : List Byte} (nulFree : 0 ∉ text) (spill : Nat → Byte) :
    snprintfPayload text spill = text ↔ text.length < msgbufSize := by
  unfold snprintfPayload
  dsimp only
  constructor
  · intro same
    by_contra long
    have stored : (text.take (msgbufSize - 1) ++ [0]).length ≤ text.length := by
      simp only [List.length_append, List.length_take, List.length_singleton, msgbufSize] at long ⊢
      omega
    -- the NUL stands inside the `len` bytes, and the text has none
    apply nulFree
    rw [← same, ← List.singleton_append, ← List.append_assoc, List.take_append,
      List.take_of_length_le stored]
    simp
  · intro fits
    -- the text is all there, and the length asked for stops in front of the NUL
    have whole : text.take (msgbufSize - 1) = text := List.take_of_length_le (by omega)
    rw [whole, List.take_append_of_le_length (Nat.le_refl _), List.take_length]

theorem length_snprintfPayload (text : List Byte) (spill : Nat → Byte) :
    (snprintfPayload text spill).length = text.length := by
  simp [snprintfPayload, msgbufSize]
  omega

/-- The length of a reply's text, from the lengths of the two names in it. -/
def Reply.textLength (domain client : Nat) : Reply → Nat
  | .acceptConnection => 19 + domain
  | .acceptHello => 12 + client
  | .acceptEhello => 53 + domain + client
  | .acceptOk => 8
  | .acceptGoodbye => 9
  | .acceptStarttls => 14
  | .startData => 5
  | .rejectError => 9
  | .rejectSequence => 22
  | .rejectTooLong => 14
  | .rejectTooLarge => 29
  | .rejectUnrecognized => 26
  | .rejectUnimplemented => 27
  | .rejectStarttls => 23

theorem Reply.length_text (g : Globals) (conn : Connection) (reply : Reply) :
    (reply.text g conn).length =
      reply.textLength (cstring g.maildomain).length
        (cstring conn.mailclientdomain.toList).length := by
  have literals : (ascii "220 ").length = 4 ∧ (ascii " ESMTP Femail\r\n").length = 15 ∧
      (ascii "250 Hello ").length = 10 ∧ (ascii "\r\n").length = 2 ∧ (ascii "250-").length = 4 ∧
      (ascii " Hello ").length = 7 ∧ (ascii "\n").length = 1 ∧ (ascii "250-SIZE ").length = 9 ∧
      (ascii (Nat.repr esmtpSize)).length = 8 ∧ (ascii "250-STARTTLS\n").length = 13 ∧
      (ascii "250 HELP\r\n").length = 10 := by decide
  obtain ⟨l1, l2, l3, l4, l5, l6, l7, l8, l9, l10, l11⟩ := literals
  cases reply with
  | acceptConnection =>
    simp only [Reply.text, Reply.textLength, List.length_append, l1, l2]
    omega
  | acceptHello =>
    simp only [Reply.text, Reply.textLength, List.length_append, l3, l4]
    omega
  | acceptEhello =>
    simp only [Reply.text, Reply.textLength, List.length_append, l5, l6, l7, l8, l9, l10, l11]
    omega
  | _ => rfl

theorem Reply.zero_notMem_text (g : Globals) (conn : Connection) (reply : Reply) :
    (0 : Byte) ∉ reply.text g conn := by
  have domain := zero_notMem_cstring g.maildomain
  have client := zero_notMem_cstring conn.mailclientdomain.toList
  cases reply with
  | acceptConnection =>
    simp only [Reply.text, List.mem_append, domain, or_false]
    decide
  | acceptHello =>
    simp only [Reply.text, List.mem_append, client, or_false]
    decide
  | acceptEhello =>
    simp only [Reply.text, List.mem_append, domain, client, or_false]
    decide
  | _ =>
    simp only [Reply.text]
    decide

/-! ## The two paths -/

def Event.sent : Event → List Byte
  | .dprintf _ _ text => text
  | .sslWrite _ _ text => text
  | _ => []

/-- The bytes handed to `dprintf` and `SSL_write`. -/
def sentBytes (events : List Event) : List Byte := events.flatMap Event.sent

theorem sentBytes_plain (g : Globals) (t : Turn) (conn : Connection) (reply : Reply) :
    sentBytes (smtpSendMsg g t { conn with sslconn := none } reply) = reply.text g conn := by
  rw [smtpSendMsg_eq]
  simp only [sentBytes, List.flatMap_cons, List.flatMap_nil, List.append_nil, Event.sent]
  cases reply <;> rfl

theorem sentBytes_tls (g : Globals) (t : Turn) (conn : Connection) (ssl : Ssl) (reply : Reply) :
    sentBytes (smtpSendMsg g t { conn with sslconn := some ssl } reply) =
      snprintfPayload (reply.text g conn) t.spill := by
  rw [smtpSendMsg_eq]
  simp only [sentBytes, List.flatMap_cons, List.flatMap_nil, List.append_nil, Event.sent]
  cases reply <;> rfl

/-- The names are short enough for the reply to fit in `msgbuf` with its NUL. -/
def Reply.fitsMsgbuf (domain client : Nat) : Reply → Prop
  | .acceptConnection => domain ≤ 236
  | .acceptHello => client ≤ 243
  | .acceptEhello => domain + client ≤ 202
  | _ => True

theorem Reply.fitsMsgbuf_iff (domain client : Nat) (reply : Reply) :
    reply.textLength domain client < msgbufSize ↔ reply.fitsMsgbuf domain client := by
  cases reply with
  | acceptConnection | acceptHello | acceptEhello =>
    simp only [Reply.textLength, Reply.fitsMsgbuf, msgbufSize]
    omega
  | _ => simp [Reply.textLength, Reply.fitsMsgbuf, msgbufSize]

/-- **TLS and plain replies.**  For every accepted mail domain, every stored client
    domain and every reply: what goes to `SSL_write` is what `dprintf` writes, and
    no more than `msgbuf` holds, exactly when the names are short enough. -/
theorem tls_reply_eq_plain_iff (domain maildomain param : List Byte) (sslctx : Option SslCtx)
    (conn : Connection) (t : Turn) (ssl : Ssl) (reply : Reply) (nulFree : 0 ∉ domain)
    (accepted : dnsInit (some domain) = some maildomain)
    (moved : (moveClientMailDomain param conn domainMaxSize).1 = 0) :
    let g : Globals := ⟨maildomain, sslctx⟩
    let stored := (moveClientMailDomain param conn domainMaxSize).2
    let tls := sentBytes (smtpSendMsg g t { stored with sslconn := some ssl } reply)
    let plain := sentBytes (smtpSendMsg g t { stored with sslconn := none } reply)
    (tls = plain ∧ tls.length ≤ msgbufSize) ↔
      reply.fitsMsgbuf domain.length (firstWord param).length := by
  intro g stored tls plain
  have names : (cstring g.maildomain).length = domain.length ∧
      (cstring stored.mailclientdomain.toList).length = (firstWord param).length :=
    ⟨congrArg _ (cstring_dnsInit nulFree accepted), congrArg _ (cstring_moveClientMailDomain moved)⟩
  have length := Reply.length_text g stored reply
  rw [names.1, names.2] at length
  have tlsBytes : tls = snprintfPayload (reply.text g stored) t.spill :=
    sentBytes_tls g t stored ssl reply
  have plainBytes : plain = reply.text g stored := sentBytes_plain g t stored reply
  rw [tlsBytes, plainBytes, length_snprintfPayload,
    snprintfPayload_eq_iff (Reply.zero_notMem_text g stored reply), length, Reply.fitsMsgbuf_iff]
  constructor
  · intro both
    exact both.1
  · intro fits
    have short := (Reply.fitsMsgbuf_iff _ _ reply).mpr fits
    exact ⟨fits, Nat.le_of_lt short⟩

theorem tls_reply_eq_plain_mailey :
    ∃ maildomain, dnsInit (some (ascii "mail.mailey.femail")) = some maildomain ∧
      (moveClientMailDomain (ascii "mail.failey.femail\r\n") Connection.zero domainMaxSize).1 = 0 ∧
      let g : Globals := ⟨maildomain, some 1⟩
      let stored :=
        (moveClientMailDomain (ascii "mail.failey.femail\r\n") Connection.zero domainMaxSize).2
      sentBytes (smtpSendMsg g Turn.silent { stored with sslconn := some 1 } .acceptEhello) =
        sentBytes (smtpSendMsg g Turn.silent { stored with sslconn := none } .acceptEhello) := by
  refine ⟨_, rfl, by decide, ?_⟩
  exact ((tls_reply_eq_plain_iff (ascii "mail.mailey.femail") _ (ascii "mail.failey.femail\r\n")
    (some 1) Connection.zero Turn.silent 1 .acceptEhello (by decide) rfl (by decide)).mpr
      (by simp only [Reply.fitsMsgbuf]; decide)).1

/-- With the longest accepted mail domain no EHLO reply fits: `SSL_write` is given more
    bytes than `msgbuf` has, and not those of the reply. -/
theorem tls_ehlo_overruns_msgbuf :
    ∃ maildomain, dnsInit (some (List.replicate 254 97)) = some maildomain ∧
      let g : Globals := ⟨maildomain, some 1⟩
      let stored :=
        (moveClientMailDomain (ascii "mail.failey.femail\r\n") Connection.zero domainMaxSize).2
      let tls := sentBytes (smtpSendMsg g Turn.silent { stored with sslconn := some 1 } .acceptEhello)
      let plain := sentBytes (smtpSendMsg g Turn.silent { stored with sslconn := none } .acceptEhello)
      tls ≠ plain ∧ msgbufSize < tls.length := by
  obtain ⟨maildomain, accepted, name⟩ := dnsInit_longest
  refine ⟨maildomain, accepted, ?_⟩
  intro g stored tls plain
  have client : cstring stored.mailclientdomain.toList = ascii "mail.failey.femail" :=
    (cstring_moveClientMailDomain (by decide)).trans (by decide)
  have length := Reply.length_text g stored .acceptEhello
  rw [show cstring g.maildomain = _ from name, client] at length
  simp only [Reply.textLength, List.length_replicate] at length
  have tlsBytes : tls = _ := sentBytes_tls g Turn.silent stored 1 .acceptEhello
  have plainBytes : plain = _ := sentBytes_plain g Turn.silent stored .acceptEhello
  rw [tlsBytes, plainBytes, length_snprintfPayload, length]
  -- equal payloads would mean that the text fits
  refine ⟨?_, by decide⟩
  intro same
  have fits := (snprintfPayload_eq_iff (Reply.zero_notMem_text g _ _) _).mp same
  rw [length] at fits
  exact absurd fits (by decide)

end Femail
