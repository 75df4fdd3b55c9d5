import Femail.Foundation.Lines
import Femail.Verified.ClientDomain

/-! # The grammar of replies

What a client takes for a reply: lines that end in CRLF and begin with one code, with a
hyphen behind it in all lines but the last.  `IsReply.append` says that a client can tell
where a reply ends.  Every text of `smtp.h` is a reply but the one for EHLO, whose lines
end in a bare LF.
-/

namespace Femail

open Foundation

/-! ## Replies -/

def crlf : List Byte := [13, 10]

def ReplyCode (code : List Byte) : Prop := code.length = 3 ∧ ∀ b ∈ code, 48 ≤ b ∧ b ≤ 57

def ReplyText (text : List Byte) : Prop := 13 ∉ text ∧ 10 ∉ text

instance (code : List Byte) : Decidable (ReplyCode code) := inferInstanceAs (Decidable (_ ∧ _))

instance (text : List Byte) : Decidable (ReplyText text) := inferInstanceAs (Decidable (_ ∧ _))

/-- `*(code "-" text CRLF) code [SP text] CRLF` -/
inductive ReplyLines (code : List Byte) : List Byte → Prop where
  | bare : ReplyLines code (code ++ crlf)
  | last (text : List Byte) : ReplyText text → ReplyLines code (code ++ 32 :: text ++ crlf)
  | more (text rest : List Byte) : ReplyText text → ReplyLines code rest →
      ReplyLines code (code ++ 45 :: text ++ crlf ++ rest)

def IsReply (bytes : List Byte) : Prop := ∃ code, ReplyCode code ∧ ReplyLines code bytes

/-- The bytes are a reply in full, and no reply with something behind it. -/
def OneReply (bytes : List Byte) : Prop :=
  IsReply bytes ∧ ∀ front rest, bytes = front ++ rest → IsReply front → rest = []

theorem ReplyText.append {text more : List Byte} (first : ReplyText text) (second : ReplyText more) :
    ReplyText (text ++ more) := by
  unfold ReplyText at first second ⊢
  rw [List.mem_append, List.mem_append]
  exact ⟨fun mem => mem.elim first.1 second.1, fun mem => mem.elim first.2 second.2⟩

theorem ReplyCode.replyText {code : List Byte} (valid : ReplyCode code) : ReplyText code := by
  constructor
  · intro mem
    exact absurd (valid.2 13 mem) (by decide)
  · intro mem
    exact absurd (valid.2 10 mem) (by decide)

/-- A line without its end: the code, and more text or none. -/
theorem ReplyCode.line {code tail : List Byte} (valid : ReplyCode code) (text : ReplyText tail) :
    ReplyText (code ++ tail) := valid.replyText.append text

theorem ReplyText.cons {b : Byte} {text : List Byte} (here : b ≠ 13 ∧ b ≠ 10) (rest : ReplyText text) :
    ReplyText (b :: text) :=
  ⟨List.not_mem_cons_of_ne_of_not_mem here.1.symm rest.1,
    List.not_mem_cons_of_ne_of_not_mem here.2.symm rest.2⟩

/-! ## Where a reply ends -/

/-- The first line of some bytes is determined by them. -/
theorem firstLine_unique {first first' rest rest' : List Byte} (text : ReplyText first)
    (text' : ReplyText first') (same : first ++ crlf ++ rest = first' ++ crlf ++ rest') :
    first = first' ∧ rest = rest' := by
  have whole : ∀ {text : List Byte}, ReplyText text → ¬ [13, 10] <:+: text :=
    fun text inside => text.1 (inside.subset List.mem_cons_self)
  rw [List.append_assoc, List.append_assoc] at same
  have cut := congrArg (lines 13 10) same
  rw [show crlf ++ rest = 13 :: 10 :: rest from rfl, show crlf ++ rest' = 13 :: 10 :: rest' from rfl,
    lines_line (by decide) first rest (whole text),
    lines_line (by decide) first' rest' (whole text')] at cut
  obtain ⟨rfl, -⟩ := List.cons.inj cut
  exact ⟨rfl, List.append_cancel_left (List.append_cancel_left same)⟩

/-- The first line of a reply, by what stands behind the code: nothing or a space if it
    is the last, a hyphen if not. -/
theorem ReplyLines.firstLine {code bytes : List Byte} (valid : ReplyCode code)
    (reply : ReplyLines code bytes) :
    ∃ first rest, ReplyText first ∧ bytes = first ++ crlf ++ rest ∧
      (first[3]? ≠ some 45 ∧ rest = [] ∨ first[3]? = some 45 ∧ ReplyLines code rest) := by
  have third : ∀ (b : Byte) (text : List Byte), (code ++ b :: text)[3]? = some b := by
    intro b text
    rw [← valid.1, List.getElem?_append_right (Nat.le_refl _), Nat.sub_self]
    rfl
  cases reply with
  | bare =>
    refine ⟨code, [], valid.replyText, (List.append_nil _).symm, Or.inl ⟨?_, rfl⟩⟩
    rw [← valid.1, List.getElem?_length]
    nofun
  | last text free =>
    refine ⟨code ++ 32 :: text, [], valid.line (free.cons (by decide)), (List.append_nil _).symm,
      Or.inl ⟨?_, rfl⟩⟩
    rw [third]
    decide
  | more text rest free reply =>
    exact ⟨code ++ 45 :: text, rest, valid.line (free.cons (by decide)), rfl,
      Or.inr ⟨third 45 text, reply⟩⟩

/-- No reply is a reply with something behind it. -/
theorem IsReply.append {bytes rest : List Byte} (reply : IsReply bytes)
    (longer : IsReply (bytes ++ rest)) : rest = [] := by
  obtain ⟨code, valid, reply⟩ := reply
  obtain ⟨code', valid', longer⟩ := longer
  generalize size : bytes.length = n
  induction n using Nat.strong_induction_on generalizing bytes with
  | _ n ih =>
    obtain ⟨first, behind, text, rfl, kind⟩ := reply.firstLine valid
    obtain ⟨first', behind', text', same, kind'⟩ := longer.firstLine valid'
    rw [List.append_assoc] at same
    obtain ⟨rfl, rfl⟩ := firstLine_unique text text' same
    obtain ⟨last, rfl⟩ | ⟨more, reply⟩ := kind
    · obtain ⟨-, nothing⟩ | ⟨more', -⟩ := kind'
      · simpa using nothing
      · exact absurd more' last
    · obtain ⟨last', -⟩ | ⟨-, longer⟩ := kind'
      · exact absurd more last'
      · refine ih behind.length ?_ reply longer rfl
        rw [← size]
        simp only [List.length_append, crlf, List.length_cons]
        omega

theorem IsReply.oneReply {bytes : List Byte} (reply : IsReply bytes) : OneReply bytes := by
  refine ⟨reply, ?_⟩
  rintro front rest rfl short
  exact short.append reply

/-- Every LF of the bytes has a CR in front of it. -/
def LfAfterCr (bytes : List Byte) : Prop :=
  ∀ front back, bytes = front ++ 10 :: back → front.getLast? = some 13

theorem LfAfterCr.append {bytes more : List Byte} (first : LfAfterCr bytes)
    (second : LfAfterCr more) : LfAfterCr (bytes ++ more) := by
  intro front back split
  obtain ⟨middle, rfl, here⟩ | ⟨middle, rfl, here⟩ := List.append_eq_append_iff.mp split
  · rw [List.getLast?_append, second middle back here]
    rfl
  · cases middle with
    | nil =>
      have early := second [] back here.symm
      cases early
    | cons b middle =>
      obtain ⟨rfl, -⟩ := List.cons.inj here
      exact first front middle rfl

theorem ReplyText.lfAfterCr {text : List Byte} (free : ReplyText text) : LfAfterCr (text ++ crlf) := by
  intro front back split
  have ends : (text ++ [13]) ++ [10] = front ++ 10 :: back := by
    rw [List.append_assoc]
    exact split
  obtain ⟨middle, rfl, here⟩ | ⟨middle, same, here⟩ := List.append_eq_append_iff.mp ends
  · -- nothing but the last LF is left
    obtain ⟨rfl, -⟩ : middle = [] ∧ back = [] := by
      simpa [List.singleton_eq_append_iff] using here
    simp
  · cases middle with
    | nil =>
      rw [List.append_nil] at same
      simp [← same]
    | cons b middle =>
      obtain ⟨rfl, -⟩ := List.cons.inj here
      have early : 10 ∈ text ++ [13] := by simp [same]
      rw [List.mem_append] at early
      exact absurd early (fun mem => mem.elim free.2 (by decide))

theorem IsReply.lfAfterCr {bytes : List Byte} (reply : IsReply bytes) : LfAfterCr bytes := by
  obtain ⟨code, valid, reply⟩ := reply
  induction reply with
  | bare => exact valid.replyText.lfAfterCr
  | last text free => exact (valid.line (free.cons (by decide))).lfAfterCr
  | more text rest free _ ih => exact (valid.line (free.cons (by decide))).lfAfterCr.append ih

/-- An LF behind anything but a CR. -/
theorem not_isReply_of_bareLf {bytes : List Byte} {b : Byte} (other : b ≠ 13)
    (bare : [b, 10] <:+: bytes) : ¬ IsReply bytes := by
  intro reply
  obtain ⟨front, back, rfl⟩ := bare
  have last := reply.lfAfterCr (front ++ [b]) back (by simp)
  rw [List.getLast?_concat, Option.some_inj] at last
  exact other last

/-! ## The texts of `smtp.h` -/

theorem isReply_last {code text bytes : List Byte} (valid : ReplyCode code) (free : ReplyText text)
    (whole : bytes = code ++ 32 :: text ++ crlf) : IsReply bytes :=
  ⟨code, valid, whole ▸ .last text free⟩

/-- A line of a code, a space and a text is a reply. -/
theorem isReply_line {bytes : List Byte} (valid : ReplyCode (bytes.take 3))
    (free : ReplyText ((bytes.drop 4).take (bytes.length - 6)))
    (whole : bytes = bytes.take 3 ++ 32 :: (bytes.drop 4).take (bytes.length - 6) ++ crlf) :
    IsReply bytes := isReply_last valid free whole

section

variable {g : Globals} (clean : ReplyText (cstring g.maildomain)) (conn : Connection)
include clean

/-- Every text but the one for EHLO is a reply, if the names in it are free of line ends. -/
theorem Reply.isReply_text {reply : Reply} (other : reply ≠ .acceptEhello)
    (name : reply = .acceptHello → ReplyText (cstring conn.mailclientdomain.toList)) :
    IsReply (reply.text g conn) := by
  cases reply with
  | acceptEhello => exact absurd rfl other
  | acceptConnection =>
    have valid : ReplyCode (ascii "220") := by decide +kernel
    have behind : ReplyText (ascii " ESMTP Femail") := by decide
    refine isReply_last valid (clean.append behind) ?_
    simp only [Reply.text, List.append_assoc, List.cons_append]
    rfl
  | acceptHello =>
    have valid : ReplyCode (ascii "250") := by decide +kernel
    have before : ReplyText (ascii "Hello ") := by decide
    refine isReply_last valid (before.append (name rfl)) ?_
    simp only [Reply.text, List.append_assoc, List.cons_append]
    rfl
  | startData =>
    have valid : ReplyCode (ascii "354") := by decide +kernel
    exact ⟨_, valid, .bare⟩
  | _ =>
    change IsReply (ascii _)
    exact isReply_line (by decide +kernel) (by decide +kernel) (by decide +kernel)

omit clean in
/-- The text for EHLO is none: its lines end in a bare LF. -/
theorem not_isReply_acceptEhello : ¬ IsReply (Reply.text g conn .acceptEhello) := by
  have bare : [83, 10] <:+: ascii "250-STARTTLS\n" := by decide
  refine not_isReply_of_bareLf (by decide) (bare.trans ?_)
  exact ⟨_, _, rfl⟩

end

/-! ## What a call sends in clear -/

def Event.plain? : Event → Option (List Byte)
  | .dprintf _ _ text => some text
  | _ => none

/-- The texts that go out on the plain path. -/
def plainTexts (events : List Event) : List (List Byte) := events.filterMap Event.plain?

/-- Each of them is one reply. -/
def SendsReplies (events : List Event) : Prop := ∀ text ∈ plainTexts events, OneReply text

theorem sendsReplies_nil : SendsReplies [] := by
  intro text mem
  cases mem

theorem sendsReplies_append {events more : List Event} :
    SendsReplies (events ++ more) ↔ SendsReplies events ∧ SendsReplies more := by
  unfold SendsReplies plainTexts
  rw [List.filterMap_append]
  exact List.forall_mem_append

theorem sendsReplies_cons {e : Event} (other : e.plain? = none) {events : List Event} :
    SendsReplies (e :: events) ↔ SendsReplies events := by
  unfold SendsReplies plainTexts
  rw [List.filterMap_cons_none other]

theorem plain?_smtpReceiveMsg (t : Turn) (conn : Connection) : (smtpReceiveMsg t conn).plain? = none := by
  unfold smtpReceiveMsg
  cases conn.sslconn <;> rfl

/-- The calls in front of a command's own send nothing. -/
theorem sendsReplies_behind {t : Turn} {conn : Connection} {buffer : List Byte}
    {parsed : Option SMTPCommand} {events : List Event} :
    SendsReplies (smtpReceiveMsg t conn :: .parseClientCommand buffer parsed :: events) ↔
      SendsReplies events := by
  rw [sendsReplies_cons (plain?_smtpReceiveMsg t conn), sendsReplies_cons rfl]

theorem sendsReplies_smtpSendMsg (g : Globals) (t : Turn) (conn : Connection) (reply : Reply) :
    SendsReplies (smtpSendMsg g t conn reply) ↔
      (conn.sslconn = none → OneReply (reply.text g conn)) := by
  rw [smtpSendMsg_eq]
  cases conn.sslconn <;> simp [SendsReplies, plainTexts, Event.plain?]

/-- The name that is stored has no line end in it. -/
theorem replyText_firstWord (param : List Byte) : ReplyText (firstWord param) := by
  have char : ∀ b ∈ firstWord param, endsWord b = false := by
    intro b mem
    simpa using List.mem_takeWhile_imp mem
  constructor
  · intro mem
    exact absurd (char 13 mem) (by decide)
  · intro mem
    exact absurd (char 10 mem) (by decide)

/-- The turn brings an EHLO in clear, with a name that is accepted. -/
def Turn.GreetsInClear (t : Turn) (conn : Connection) : Prop :=
  conn.sslconn = none ∧ t.commandFor conn = some .ehlo ∧
    ∃ name ∈ t.helloName conn, name.length ≤ domainMaxSize

section

variable {g : Globals} (clean : ReplyText (cstring g.maildomain)) (t : Turn) (conn : Connection)
include clean

theorem sendsReplies_of_fixed {reply : Reply} (other : reply ≠ .acceptEhello)
    (other' : reply ≠ .acceptHello) : SendsReplies (smtpSendMsg g t conn reply) := by
  rw [sendsReplies_smtpSendMsg]
  intro _
  exact (Reply.isReply_text clean conn other (fun hello => absurd hello other')).oneReply

/-- HELO and EHLO: the text that accepts an EHLO in clear is the one that is no reply. -/
theorem sendsReplies_smtpHandleHello (param : List Byte) {accept : Reply}
    (kind : accept = .acceptHello ∨ accept = .acceptEhello) :
    SendsReplies (smtpHandleHello g t conn param accept).events ↔
      ¬ (conn.sslconn = none ∧ accept = .acceptEhello ∧
        (firstWord param).length ≤ domainMaxSize) := by
  have moved := moveClientMailDomainLoop_result param (Nat.zero_le domainMaxSize)
  rw [Nat.zero_add] at moved
  have result : (moveClientMailDomain param conn domainMaxSize).1 = 0 ↔
      (firstWord param).length ≤ domainMaxSize := moved
  have name := @cstring_moveClientMailDomain param conn
  have ssl : (moveClientMailDomain param conn domainMaxSize).2.sslconn = conn.sslconn := rfl
  unfold smtpHandleHello
  generalize moveClientMailDomain param conn domainMaxSize = outcome at result name ssl
  obtain ⟨code, stored⟩ := outcome
  dsimp only at result name ssl ⊢
  by_cases fits : (firstWord param).length ≤ domainMaxSize
  · have success := result.mpr fits
    rw [if_neg (not_not_intro success), sendsReplies_smtpSendMsg]
    dsimp only
    rw [ssl]
    obtain rfl | rfl := kind
    · refine iff_of_true (fun _ => ?_) (by simp)
      refine (Reply.isReply_text clean _ (by decide) fun _ => ?_).oneReply
      rw [name success]
      exact replyText_firstWord param
    · have never : ∀ conn, ¬ OneReply (Reply.text g conn .acceptEhello) :=
        fun conn one => not_isReply_acceptEhello conn one.1
      simp [never, fits]
  · rw [if_pos (mt result.mp fits)]
    refine iff_of_true ?_ (by simp [fits])
    exact sendsReplies_of_fixed clean t stored (by decide) (by decide)

/-- The other commands are answered in one line each. -/
theorem CommandStep.sendsReplies {verb : SMTPCommand} {handled : Handled}
    (step : CommandStep g t conn verb handled) (other : ¬ (verb = .helo ∨ verb = .ehlo)) :
    SendsReplies handled.events := by
  cases step with
  | noop => exact sendsReplies_nil
  | hello _ _ _ kind => exact absurd (kind.imp And.left And.left) other
  | starttls =>
    rw [sendsReplies_append, sendsReplies_cons rfl, sendsReplies_cons rfl]
    exact ⟨sendsReplies_of_fixed clean t _ (by decide) (by decide), sendsReplies_nil⟩
  | _ => exact sendsReplies_of_fixed clean t _ (by decide) (by decide)

/-- A call that brings HELO or EHLO. -/
theorem sendsReplies_hello {verb : SMTPCommand} (brings : t.commandFor conn = some verb)
    (hello : verb = .helo ∨ verb = .ehlo) :
    SendsReplies (smtpHandler g t conn).events ↔ ¬ t.GreetsInClear conn := by
  obtain ⟨buffer, param, accept, kind, name, handled⟩ := smtpHandler_of_hello g brings hello
  have accepts : accept = .acceptEhello ↔ verb = .ehlo := by
    rcases kind with ⟨rfl, rfl⟩ | ⟨rfl, rfl⟩ <;> decide
  have sends := sendsReplies_smtpHandleHello clean t conn param (kind.imp And.right And.right)
  rw [handled, sendsReplies_behind, sends, Turn.GreetsInClear, brings, name, accepts]
  simp only [Option.mem_some_iff, exists_eq_left', Option.some_inj]

/-- One call: whatever it is told, what it sends in clear is one reply, but for an EHLO
    that it accepts. -/
theorem sendsReplies_smtpHandler :
    SendsReplies (smtpHandler g t conn).events ↔ ¬ t.GreetsInClear conn := by
  by_cases hello : t.commandFor conn = some .helo ∨ t.commandFor conn = some .ehlo
  · obtain helo | ehlo := hello
    · exact sendsReplies_hello clean t conn helo (Or.inl rfl)
    · exact sendsReplies_hello clean t conn ehlo (Or.inr rfl)
  · refine iff_of_true ?_ (fun greets => hello (Or.inr greets.2.1))
    have received := plain?_smtpReceiveMsg t conn
    have step := smtpHandler_step g t conn
    generalize smtpHandler g t conn = handled at step ⊢
    cases step with
    | dead => exact sendsReplies_nil
    | opened => exact sendsReplies_of_fixed clean t conn (by decide) (by decide)
    | tlsRetry | tlsFailed | tlsDone => exact (sendsReplies_cons rfl).mpr sendsReplies_nil
    | noData => exact (sendsReplies_cons received).mpr sendsReplies_nil
    | tooLong | tooLarge =>
      rw [sendsReplies_cons received]
      exact sendsReplies_of_fixed clean t _ (by decide) (by decide)
    | noMemory | unrecognized =>
      rw [sendsReplies_cons received, sendsReplies_cons rfl]
      exact sendsReplies_of_fixed clean t _ (by decide) (by decide)
    | dataEnd =>
      rw [sendsReplies_append, sendsReplies_cons received]
      exact ⟨nofun, sendsReplies_of_fixed clean t _ (by decide) (by decide)⟩
    | dataMore =>
      rw [sendsReplies_cons received]
      nofun
    | command chunk command reading got other short parsed =>
      rw [commandFor_eq reading got other short parsed, Option.some_inj, Option.some_inj] at hello
      rw [sendsReplies_behind]
      exact (smtpHandleCommand_step g t conn command).sendsReplies clean t conn hello

end

/-! ## Runs -/

/-- What is done behind a handler sends nothing. -/
theorem sendsReplies_settleConnection (handled : Handled) :
    SendsReplies (settleConnection handled).2 := by
  obtain ⟨result, conn, events⟩ := handled
  cases result with
  | «continue» => exact sendsReplies_nil
  | reset => exact (sendsReplies_cons rfl).mpr sendsReplies_nil
  | done | error =>
    have deinit : SendsReplies (connectionDeinit conn) := by
      unfold connectionDeinit
      rw [sendsReplies_cons rfl, sendsReplies_cons rfl, sendsReplies_cons rfl]
      exact sendsReplies_nil
    exact deinit

/-- A turn sends in clear what its handler sends. -/
theorem sendsReplies_serveConnection (g : Globals) (t : Turn) (conn : Connection) :
    SendsReplies (serveConnection g t conn).2 ↔ SendsReplies (connectionHandler g t conn).events := by
  unfold serveConnection
  rw [sendsReplies_append, sendsReplies_cons rfl]
  exact and_iff_left (sendsReplies_settleConnection _)

/-- The turn of an entry brings an EHLO in clear, with a name that is accepted. -/
def EhloInClear (e : Entry (Option Connection) Turn (List Event)) : Prop :=
  ∃ conn, e.before = some conn ∧ e.input.GreetsInClear conn

/-- In a run the turns that send something else than one reply are those that bring an
    EHLO in clear. -/
theorem sendsReplies_iff_not_ehloInClear {g : Globals} (clean : ReplyText (cstring g.maildomain))
    {h : SessionHistory} {s : Option Connection}
    (reaches : (session g).Reaches (smtpStart g) Machine.anyStep h s) :
    ∀ e ∈ h, SendsReplies e.output ↔ ¬ EhloInClear e := by
  refine entries_of_reaches (fun t => ?_) (fun conn t smtp _ => ?_) reaches
  · refine iff_of_true sendsReplies_nil ?_
    rintro ⟨conn, here, -⟩
    cases here
  · have sent := sendsReplies_serveConnection g t conn
    rw [connectionHandler_smtp g t smtp, sendsReplies_smtpHandler clean] at sent
    refine sent.trans (not_congr ?_)
    simp [EhloInClear]

/-- **Replies.**  In every run of an SMTP connection, with a mail domain free of line ends,
    whatever goes out in clear is one reply at a time exactly if no turn brings an EHLO
    with a name that is accepted. -/
theorem replies_wellFormed_iff {g : Globals} (clean : ReplyText (cstring g.maildomain))
    {h : SessionHistory} {s : Option Connection}
    (reaches : (session g).Reaches (smtpStart g) Machine.anyStep h s) :
    (∀ e ∈ h, ∀ text ∈ plainTexts e.output, OneReply text) ↔ ∀ e ∈ h, ¬ EhloInClear e := by
  have each := sendsReplies_iff_not_ehloInClear clean reaches
  constructor
  · intro sound e mem
    exact (each e mem).mp (sound e mem)
  · intro calm e mem
    exact (each e mem).mpr (calm e mem)

theorem EhloInClear.brings {e : Entry (Option Connection) Turn (List Event)} (ehlo : EhloInClear e) :
    e.before.bind e.input.commandFor = some .ehlo := by
  obtain ⟨conn, here, -, brings, -⟩ := ehlo
  rw [here]
  exact brings

/-- A client whose HELO is refused, and that leaves. -/
theorem replies_wellFormed_mailey :
    let last := (session maileyGlobals).trace [] maileyConnection [.silent, longHeloTurn, quitTurn]
    ∀ e ∈ last.1, ∀ text ∈ plainTexts e.output, OneReply text := by
  intro last
  have run := maileyConnection_reaches [.silent, longHeloTurn, quitTurn]
  have clean : ReplyText (cstring maileyGlobals.maildomain) := by decide
  have other : ∀ e ∈ last.1, e.before.bind e.input.commandFor ≠ some .ehlo := by decide +kernel
  exact (replies_wellFormed_iff clean run).mpr fun e mem ehlo => other e mem ehlo.brings

/-- The answer to an EHLO is no reply. -/
theorem ehlo_reply_malformed :
    ReplyText (cstring maileyGlobals.maildomain) ∧
      ∃ h s, (session maileyGlobals).Reaches (smtpStart maileyGlobals) Machine.anyStep h s ∧
        ∃ e ∈ h, ∃ text ∈ plainTexts e.output, ¬ OneReply text := by
  have run := maileyConnection_reaches [.silent, ehloTurn]
  refine ⟨by decide, _, _, run, ?_⟩
  have bare : ∃ e ∈ ((session maileyGlobals).trace [] maileyConnection [.silent, ehloTurn]).1,
      ∃ text ∈ plainTexts e.output, [83, 10] <:+: text := by
    decide +kernel
  obtain ⟨e, mem, text, sent, here⟩ := bare
  exact ⟨e, mem, text, sent, fun one => not_isReply_of_bareLf (by decide) here one.1⟩

end Femail
