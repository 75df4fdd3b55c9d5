import Femail.Foundation.Delimited
import Femail.Verified.ReplyGrammar

/-! # What a client reads

A client that is lenient about line ends (a bare LF will do) cuts what it receives into
lines, drops the CR at the end of a line, and takes the lines up to the first without a
hyphen behind the code for one reply.  Such a client never loses its place: of everything an
SMTP connection sends in clear, whatever its run, it reads exactly the replies that were
sent, the one to EHLO included (`reply_stream_decodes`).
-/

namespace Femail

open Foundation

/-! ## The client -/

def dropCr (line : List Byte) : List Byte := if line.getLast? = some 13 then line.dropLast else line

/-- More lines of the reply follow. -/
def continues (text : List Byte) : Bool := text[3]? == some 45

/-- The replies in a stream, each as its lines. -/
def decodeReplies (stream : List Byte) : List (List (List Byte)) :=
  groups continues ((pieces 10 stream).map dropCr)

/-- A line with one of the two ends. -/
inductive EndsLine (line : List Byte) : List Byte → Prop where
  | lf : EndsLine line (line ++ [10])
  | crlf : EndsLine line (line ++ [13, 10])

/-- A reply as a lenient client takes it: the lines it is read as, and its bytes. -/
inductive LenientReply : List (List Byte) → List Byte → Prop where
  | last (line bytes : List Byte) : ReplyText line → continues line = false → EndsLine line bytes →
      LenientReply [line] bytes
  | more (line bytes : List Byte) {lines : List (List Byte)} {rest : List Byte} : ReplyText line →
      continues line = true → EndsLine line bytes → LenientReply lines rest →
      LenientReply (line :: lines) (bytes ++ rest)

theorem getLast?_ne_cr {line : List Byte} (text : ReplyText line) : line.getLast? ≠ some 13 :=
  fun last => text.1 (List.mem_of_getLast? last)

/-- Either end is read as the same line. -/
theorem EndsLine.pieces {line bytes : List Byte} (ends : EndsLine line bytes) (text : ReplyText line)
    (rest : List Byte) :
    (Foundation.pieces 10 (bytes ++ rest)).map dropCr = line :: (Foundation.pieces 10 rest).map dropCr := by
  cases ends with
  | lf =>
    rw [List.append_assoc]
    rw [show [10] ++ rest = 10 :: rest from rfl, pieces_piece text.2, List.map_cons, dropCr,
      if_neg (getLast?_ne_cr text)]
  | crlf =>
    have free : 10 ∉ line ++ [13] := by
      rw [List.mem_append]
      exact fun mem => mem.elim text.2 (by decide)
    have split : line ++ [13, 10] ++ rest = (line ++ [13]) ++ 10 :: rest := by simp
    rw [split, pieces_piece free, List.map_cons, dropCr, if_pos (by simp), List.dropLast_concat]

/-- What follows a reply does not change how it is read. -/
theorem LenientReply.decode {lines : List (List Byte)} {bytes : List Byte}
    (reply : LenientReply lines bytes) (rest : List Byte) :
    decodeReplies (bytes ++ rest) = lines :: decodeReplies rest := by
  unfold decodeReplies
  induction reply with
  | last line bytes text last ends => rw [ends.pieces text, groups_last last]
  | more line bytes text more ends _ ih =>
    rw [List.append_assoc, ends.pieces text]
    exact groups_more more ih

/-! ## The texts of `smtp.h` -/

def Reply.code : Reply → List Byte
  | .acceptConnection => ascii "220"
  | .acceptHello => ascii "250"
  | .acceptEhello => ascii "250"
  | .acceptOk => ascii "250"
  | .acceptGoodbye => ascii "221"
  | .acceptStarttls => ascii "220"
  | .startData => ascii "354"
  | .rejectError => ascii "500"
  | .rejectSequence => ascii "503"
  | .rejectTooLong => ascii "500"
  | .rejectTooLarge => ascii "554"
  | .rejectUnrecognized => ascii "500"
  | .rejectUnimplemented => ascii "502"
  | .rejectStarttls => ascii "523"

/-- The reply to EHLO lists the extensions, the others are one line. -/
def Reply.lineCount : Reply → Nat
  | .acceptEhello => 4
  | _ => 1

/-- The code at the start of each line of a reply. -/
def Reply.codes (reply : Reply) : List (List Byte) := List.replicate reply.lineCount reply.code

/-- The bytes are read as a reply with the lines and the code of `reply`. -/
def ReadsAs (reply : Reply) (bytes : List Byte) : Prop :=
  ∃ lines, LenientReply lines bytes ∧ lines.map (List.take 3) = reply.codes

/-- A reply of one line. -/
theorem readsAs_line {reply : Reply} {line : List Byte} (single : reply.lineCount = 1)
    (text : ReplyText line) (last : continues line = false) (code : line.take 3 = reply.code) :
    ReadsAs reply (line ++ [13, 10]) :=
  ⟨[line], .last line _ text last .crlf, by simp [Reply.codes, single, code]⟩

theorem readsAs_fixed {reply : Reply} {bytes : List Byte} (single : reply.lineCount = 1)
    (whole : bytes = bytes.take (bytes.length - 2) ++ [13, 10])
    (text : ReplyText (bytes.take (bytes.length - 2)))
    (last : continues (bytes.take (bytes.length - 2)) = false)
    (code : (bytes.take (bytes.length - 2)).take 3 = reply.code) : ReadsAs reply bytes := by
  rw [whole]
  exact readsAs_line single text last code

section

variable {g : Globals} (clean : ReplyText (cstring g.maildomain)) (conn : Connection)
include clean

/-- The reply to EHLO, line by line. -/
theorem readsAs_acceptEhello (name : ReplyText (cstring conn.mailclientdomain.toList)) :
    ReadsAs .acceptEhello (Reply.text g conn .acceptEhello) := by
  have hello : ReplyText (ascii "250-" ++ cstring g.maildomain ++ ascii " Hello " ++
      cstring conn.mailclientdomain.toList) :=
    (((by decide : ReplyText (ascii "250-")).append clean).append
      (by decide : ReplyText (ascii " Hello "))).append name
  have size : ReplyText (ascii "250-SIZE " ++ ascii (Nat.repr esmtpSize)) := by decide +kernel
  have help := LenientReply.last (ascii "250 HELP") _ (by decide) (by decide) .crlf
  have starttls := LenientReply.more (ascii "250-STARTTLS") _ (by decide) (by decide) .lf help
  have sized := LenientReply.more _ _ size (by decide +kernel) .lf starttls
  have whole := LenientReply.more _ _ hello rfl .lf sized
  have text : Reply.text g conn .acceptEhello = ascii "250-" ++ cstring g.maildomain ++
      ascii " Hello " ++ cstring conn.mailclientdomain.toList ++ [10] ++
      (ascii "250-SIZE " ++ ascii (Nat.repr esmtpSize) ++ [10] ++
        (ascii "250-STARTTLS" ++ [10] ++ (ascii "250 HELP" ++ [13, 10]))) := by
    simp only [Reply.text, List.append_assoc]
    rfl
  rw [text]
  exact ⟨_, whole, rfl⟩

/-- Every text is read as the reply it is, if the names in it are free of line ends. -/
theorem Reply.readsAs_text (reply : Reply)
    (name : reply = .acceptHello ∨ reply = .acceptEhello →
      ReplyText (cstring conn.mailclientdomain.toList)) :
    ReadsAs reply (reply.text g conn) := by
  cases reply with
  | acceptEhello => exact readsAs_acceptEhello clean conn (name (Or.inr rfl))
  | acceptConnection =>
    have line : ReplyText (ascii "220 " ++ cstring g.maildomain ++ ascii " ESMTP Femail") :=
      ((by decide : ReplyText (ascii "220 ")).append clean).append (by decide)
    have text : Reply.text g conn .acceptConnection =
        (ascii "220 " ++ cstring g.maildomain ++ ascii " ESMTP Femail") ++ [13, 10] := by
      simp only [Reply.text, List.append_assoc]
      rfl
    rw [text]
    exact readsAs_line rfl line rfl rfl
  | acceptHello =>
    have line : ReplyText (ascii "250 Hello " ++ cstring conn.mailclientdomain.toList) :=
      (by decide : ReplyText (ascii "250 Hello ")).append (name (Or.inl rfl))
    exact readsAs_line rfl line rfl rfl
  | _ =>
    change ReadsAs _ (ascii _)
    exact readsAs_fixed rfl (by decide +kernel) (by decide +kernel) (by decide +kernel)
      (by decide +kernel)

end

/-! ## What a run sends in clear -/

/-- The reply and the bytes of a call that sends one in clear. -/
def Event.inClear? : Event → Option (Reply × List Byte)
  | .dprintf _ (.smtp reply) text => some (reply, text)
  | _ => none

/-- The replies sent in clear, with their bytes. -/
def inClear (events : List Event) : List (Reply × List Byte) := events.filterMap Event.inClear?

/-- Each of them is read as what it is. -/
def ReadsInClear (events : List Event) : Prop := ∀ sent ∈ inClear events, ReadsAs sent.1 sent.2

theorem readsInClear_nil : ReadsInClear [] := by
  intro sent mem
  cases mem

theorem readsInClear_append {events more : List Event} :
    ReadsInClear (events ++ more) ↔ ReadsInClear events ∧ ReadsInClear more := by
  unfold ReadsInClear inClear
  rw [List.filterMap_append]
  exact List.forall_mem_append

theorem readsInClear_cons {e : Event} (other : e.inClear? = none) {events : List Event} :
    ReadsInClear (e :: events) ↔ ReadsInClear events := by
  unfold ReadsInClear inClear
  rw [List.filterMap_cons_none other]

theorem inClear?_smtpReceiveMsg (t : Turn) (conn : Connection) :
    (smtpReceiveMsg t conn).inClear? = none := by
  unfold smtpReceiveMsg
  cases conn.sslconn <;> rfl

theorem readsInClear_smtpSendMsg {g : Globals} {conn : Connection} {reply : Reply} (t : Turn)
    (reads : ReadsAs reply (reply.text g conn)) : ReadsInClear (smtpSendMsg g t conn reply) := by
  rw [smtpSendMsg_eq]
  intro sent mem
  cases ssl : conn.sslconn with
  | none =>
    rw [ssl] at mem
    rw [List.mem_singleton.mp mem]
    exact reads
  | some object =>
    rw [ssl] at mem
    cases mem

section

variable {g : Globals} (clean : ReplyText (cstring g.maildomain)) (t : Turn) (conn : Connection)
include clean

theorem readsInClear_of_fixed {reply : Reply} (other : reply ≠ .acceptEhello)
    (other' : reply ≠ .acceptHello) : ReadsInClear (smtpSendMsg g t conn reply) := by
  refine readsInClear_smtpSendMsg t (reply.readsAs_text clean conn ?_)
  rintro (rfl | rfl)
  · exact absurd rfl other'
  · exact absurd rfl other

/-- HELO and EHLO: the name in the reply is the one just stored. -/
theorem readsInClear_smtpHandleHello (param : List Byte) (accept : Reply) :
    ReadsInClear (smtpHandleHello g t conn param accept).events := by
  have name := @cstring_moveClientMailDomain param conn
  unfold smtpHandleHello
  generalize moveClientMailDomain param conn domainMaxSize = outcome at name
  obtain ⟨code, stored⟩ := outcome
  dsimp only at name ⊢
  split
  · exact readsInClear_of_fixed clean t stored (by decide) (by decide)
  · rename_i success
    refine readsInClear_smtpSendMsg t (accept.readsAs_text clean _ fun _ => ?_)
    dsimp only
    rw [name (not_not.mp success)]
    exact replyText_firstWord param

theorem CommandStep.readsInClear {verb : SMTPCommand} {handled : Handled}
    (step : CommandStep g t conn verb handled) (other : ¬ (verb = .helo ∨ verb = .ehlo)) :
    ReadsInClear handled.events := by
  cases step with
  | noop => exact readsInClear_nil
  | hello _ _ _ kind => exact absurd (kind.imp And.left And.left) other
  | starttls =>
    rw [readsInClear_append, readsInClear_cons rfl, readsInClear_cons rfl]
    exact ⟨readsInClear_of_fixed clean t _ (by decide) (by decide), readsInClear_nil⟩
  | _ => exact readsInClear_of_fixed clean t _ (by decide) (by decide)

theorem readsInClear_smtpHandleCommand (command : SMTPClientCommand) :
    ReadsInClear (smtpHandleCommand g t conn command).events := by
  have step := smtpHandleCommand_step g t conn command
  obtain ⟨verb, param⟩ := command
  cases verb with
  | helo | ehlo => exact readsInClear_smtpHandleHello clean t conn _ _
  | _ => exact step.readsInClear clean t conn (by simp)

/-- One call of the handler. -/
theorem readsInClear_smtpHandler : ReadsInClear (smtpHandler g t conn).events := by
  have received := inClear?_smtpReceiveMsg t conn
  have step := smtpHandler_step g t conn
  generalize smtpHandler g t conn = handled at step ⊢
  cases step with
  | dead => exact readsInClear_nil
  | opened => exact readsInClear_of_fixed clean t conn (by decide) (by decide)
  | tlsRetry | tlsFailed | tlsDone => exact (readsInClear_cons rfl).mpr readsInClear_nil
  | noData => exact (readsInClear_cons received).mpr readsInClear_nil
  | tooLong | tooLarge =>
    rw [readsInClear_cons received]
    exact readsInClear_of_fixed clean t _ (by decide) (by decide)
  | noMemory | unrecognized =>
    rw [readsInClear_cons received, readsInClear_cons rfl]
    exact readsInClear_of_fixed clean t _ (by decide) (by decide)
  | dataEnd =>
    rw [readsInClear_append, readsInClear_cons received]
    exact ⟨nofun, readsInClear_of_fixed clean t _ (by decide) (by decide)⟩
  | dataMore =>
    -- more text is awaited without a word
    rw [readsInClear_cons received]
    nofun
  | command chunk command =>
    rw [readsInClear_cons received, readsInClear_cons rfl]
    exact readsInClear_smtpHandleCommand clean t conn command

/-- What is done behind the handler sends nothing. -/
theorem readsInClear_serveConnection (smtp : conn.type = .smtp) :
    ReadsInClear (serveConnection g t conn).2 := by
  have handler := readsInClear_smtpHandler clean t conn
  rw [← connectionHandler_smtp g t smtp] at handler
  unfold serveConnection
  rw [readsInClear_append, readsInClear_cons rfl]
  refine ⟨handler, ?_⟩
  generalize connectionHandler g t conn = handled
  obtain ⟨result, left, events⟩ := handled
  cases result <;> exact readsInClear_nil

end

/-- What a run has sent in clear, oldest first. -/
def sentInClear (h : SessionHistory) : List (Reply × List Byte) :=
  h.reverse.flatMap fun e => inClear e.output

/-- **What a client reads is what was sent.**  In every run of an SMTP connection, with a mail
    domain free of line ends, everything that goes out in clear, put together, is read by a
    lenient client as the replies sent, one for one and in order, each with the lines and
    the code it was sent with.  Nothing is left over: what comes behind it, whatever that
    is, is read from its first byte on. -/
theorem reply_stream_decodes {g : Globals} (clean : ReplyText (cstring g.maildomain))
    {h : SessionHistory} {s : Option Connection}
    (reaches : (session g).Reaches (smtpStart g) Machine.anyStep h s) :
    let stream := (sentInClear h).flatMap Prod.snd
    (decodeReplies stream).map (List.map (List.take 3)) =
        ((sentInClear h).map fun sent => sent.1.codes) ∧
      ∀ later, decodeReplies (stream ++ later) = decodeReplies stream ++ decodeReplies later := by
  intro stream
  have turns : ∀ e ∈ h, ReadsInClear e.output := by
    refine entries_of_reaches (fun t => ?_) (fun conn t smtp _ => ?_) reaches
    · exact readsInClear_nil
    · exact readsInClear_serveConnection clean t conn smtp
  have each : ∀ sent ∈ sentInClear h, ReadsAs sent.1 sent.2 := by
    intro sent mem
    obtain ⟨e, inside, here⟩ := List.mem_flatMap.mp mem
    exact turns e (List.mem_reverse.mp inside) sent here
  -- a reply at the front of any stream is read as it was meant
  constructor
  · refine decode_flatten (fun stream => (decodeReplies stream).map (List.map (List.take 3))) rfl ?_
    intro sent mem rest
    obtain ⟨lines, reply, codes⟩ := each sent mem
    rw [reply.decode, List.map_cons, codes]
  · refine @decode_flatten_append _ _ _ decodeReplies (fun sent => decodeReplies sent.2) _ _ rfl ?_
    intro sent mem rest
    obtain ⟨lines, reply, -⟩ := each sent mem
    have alone := reply.decode []
    rw [List.append_nil] at alone
    rw [reply.decode, alone]
    rfl

theorem reply_stream_decodes_mailey :
    let last := (session maileyGlobals).trace [] maileyConnection [.silent, ehloTurn, quitTurn]
    decodeReplies ((sentInClear last.1).flatMap Prod.snd) ≠ [] ∧
      (decodeReplies ((sentInClear last.1).flatMap Prod.snd)).map (List.map (List.take 3)) =
        [[ascii "220"], List.replicate 4 (ascii "250"), [ascii "221"]] := by
  intro last
  have clean : ReplyText (cstring maileyGlobals.maildomain) := by decide
  have decoded := (reply_stream_decodes clean
    (maileyConnection_reaches [.silent, ehloTurn, quitTurn])).1
  have sent : ((sentInClear last.1).map fun sent => sent.1.codes) =
      [[ascii "220"], List.replicate 4 (ascii "250"), [ascii "221"]] := by decide +kernel
  rw [sent] at decoded
  refine ⟨?_, decoded⟩
  intro none
  rw [none] at decoded
  cases decoded

end Femail
