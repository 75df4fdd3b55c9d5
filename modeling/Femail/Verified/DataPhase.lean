import Femail.Foundation.Framing
import Femail.Verified.Buffer

/-! # Reading a message

The reads between a 354 and the answer to the message.  `DataRead` lists what one of
them can do and `Collecting.run` what all of them do while the message goes on.  Two
things are counted in the wrong unit: the end marker is looked for in a C string,
which ends at the first NUL, and the size limit counts reads.
-/

namespace Femail

open Foundation

/-- The bytes that the reads of some turns deliver. -/
def textRead (turns : List Turn) : List Byte := turns.flatMap fun t => t.recv.bytes

@[simp] theorem textRead_nil : textRead [] = [] := rfl

@[simp] theorem textRead_cons (t : Turn) (turns : List Turn) :
    textRead (t :: turns) = t.recv.bytes ++ textRead turns := rfl

@[simp] theorem textRead_append (turns more : List Turn) :
    textRead (turns ++ more) = textRead turns ++ textRead more := List.flatMap_append

/-- Each of the turns reads something. -/
def AllRead (turns : List Turn) : Prop := ∀ t ∈ turns, ∃ chunk, t.recv = .data chunk

theorem allRead_of_bytes {turns : List Turn} (bytes : ∀ t ∈ turns, t.recv.bytes ≠ []) :
    AllRead turns := by
  intro t mem
  have some' := bytes t mem
  cases got : t.recv with
  | data chunk => exact ⟨chunk, rfl⟩
  | fail errno | eof =>
    rw [got] at some'
    exact absurd rfl some'

/-- In the data phase, after `reads` reads that brought `text`. -/
structure Collecting (conn : Connection) (reads : Nat) (text : List Byte) : Prop where
  smtp : conn.type = .smtp
  live : conn.live = true
  data : conn.state = .mailExpectData
  count : conn.alloccount = reads
  buffered : Buffered conn text

/-- The outcomes of one more read: its replies and the record it leaves. -/
inductive DataRead (reads : Nat) (text : List Byte) (t : Turn) :
    List Reply → Option Connection → Prop where
  | tooLarge (conn : Connection) : esmtpSize < (reads + 1) * smallBufferSize + 1 →
      conn.state = .mailExpectAny → DataRead reads text t [.rejectTooLarge] (some conn)
  | noMemory : (reads + 1) * smallBufferSize + 1 ≤ esmtpSize → t.realloc = none →
      DataRead reads text t [.rejectError] none
  | ended (conn : Connection) : (reads + 1) * smallBufferSize + 1 ≤ esmtpSize → t.realloc ≠ none →
      crlfDotCrlf <:+: cstring (text ++ t.recv.bytes) → conn.state = .mailGreeted →
      DataRead reads text t [.acceptOk] (some conn)
  | more (conn : Connection) : (reads + 1) * smallBufferSize + 1 ≤ esmtpSize → t.realloc ≠ none →
      ¬ crlfDotCrlf <:+: cstring (text ++ t.recv.bytes) →
      Collecting conn (reads + 1) (text ++ t.recv.bytes) → DataRead reads text t [] (some conn)

theorem Collecting.step (g : Globals) {conn : Connection} {reads : Nat} {text : List Byte}
    (collecting : Collecting conn reads text) {t : Turn} {chunk : Chunk}
    (got : t.recv = .data chunk) :
    DataRead reads text t (replies (serveConnection g t conn).2) (serveConnection g t conn).1 := by
  obtain ⟨smtp, live, data, rfl, buffered⟩ := collecting
  have shown := congrArg Observed.replies (observe_serveConnection g t conn)
  have answered : replies (serveConnection g t conn).2 =
      (observe (connectionHandler g t conn).events).replies := shown
  rw [answered]
  unfold serveConnection
  rw [connectionHandler_smtp g t smtp]
  have bytes : t.recv.bytes = chunk.bytes := by rw [got]; rfl
  have step := smtpHandler_dataStep g t live data
  generalize smtpHandler g t conn = handled at step ⊢
  cases step with
  | noData _ nothing => exact absurd nothing (Turn.bytes_ne_nil got)
  | tooLarge _ _ large =>
    rw [observe_smtpReceiveMsg, observe_smtpSendMsg]
    exact .tooLarge _ large (by simp [data])
  | noMemory _ _ fits failed =>
    rw [observe_smtpReceiveMsg, observe_realloc, observe_smtpSendMsg]
    exact .noMemory fits failed
  | ends chunk' addr got' fits memory found =>
    rw [got] at got'
    cases got'
    rw [buffered.found_iff] at found
    rw [List.cons_append, observe_smtpReceiveMsg, observe_appendEvents, observe_smtpSendMsg]
    refine .ended _ fits (by simp [memory]) (by rwa [bytes]) ?_
    simp
  | more chunk' addr got' fits memory missing =>
    rw [got] at got'
    cases got'
    have missing' := mt (buffered.found_iff t chunk).mpr (by simp [missing])
    have longer := buffered.appended t chunk addr
    rw [observe_smtpReceiveMsg, observe_only_appendEvents]
    refine .more _ fits (by simp [memory]) (by rwa [bytes]) ?_
    rw [bytes]
    exact ⟨smtp, live, data, rfl, longer.size, longer.room, longer.bytes⟩

/-- The run of reads while the message goes on: nothing is answered. -/
theorem Collecting.run (g : Globals) {conn : Connection} {reads : Nat} {text : List Byte}
    (collecting : Collecting conn reads text) {turns : List Turn} (allRead : AllRead turns)
    (fits : (reads + turns.length) * smallBufferSize + 1 ≤ esmtpSize)
    (memory : ∀ t ∈ turns, t.realloc ≠ none) (missing : ¬ crlfDotCrlf <:+: text ++ textRead turns) :
    ∃ conn', ((session g).run (some conn) turns).2 = some conn' ∧
      Collecting conn' (reads + turns.length) (text ++ textRead turns) ∧
      ∀ output ∈ ((session g).run (some conn) turns).1, replies output = [] := by
  induction turns generalizing conn reads text with
  | nil => exact ⟨conn, rfl, by simpa using collecting, by simp [Machine.run]⟩
  | cons t turns ih =>
    obtain ⟨⟨chunk, got⟩, allRead⟩ := List.forall_mem_cons.mp allRead
    obtain ⟨allocated, memory⟩ := List.forall_mem_cons.mp memory
    have length : reads + (t :: turns).length = reads + 1 + turns.length := by
      rw [List.length_cons, Nat.add_assoc, Nat.add_comm 1]
    rw [length] at fits ⊢
    rw [textRead_cons, ← List.append_assoc] at missing ⊢
    have read := collecting.step g got
    generalize stepped : (serveConnection g t conn).1 = next at read
    generalize answered : replies (serveConnection g t conn).2 = sent at read
    cases read with
    | tooLarge _ large =>
      simp only [smallBufferSize] at fits large
      omega
    | noMemory _ failed => exact absurd failed allocated
    | ended _ _ _ found =>
      -- what the C string has, the text read has too
      refine absurd ?_ missing
      have seen : crlfDotCrlf <:+: text ++ t.recv.bytes := found.trans (cstring_isPrefix _).isInfix
      exact seen.trans (List.prefix_append _ _).isInfix
    | more conn' _ _ _ collecting' =>
      have first : (session g).step (some conn) t = (some conn', (serveConnection g t conn).2) :=
        Prod.ext stepped rfl
      obtain ⟨last, here, left, silent⟩ := ih collecting' allRead fits memory missing
      refine ⟨last, ?_, left, ?_⟩
      · simp only [Machine.run, first]
        exact here
      · simp only [Machine.run, first]
        exact List.forall_mem_cons.mpr ⟨answered, silent⟩

/-! ## The end of a message -/

/-- The message is answered 250, and the data phase left, with the read that completes
    the first end marker; no read before it is answered. -/
def EndsInTime (g : Globals) (conn : Connection) (turns : List Turn) : Prop :=
  ∀ before t after, turns = before ++ t :: after → ¬ crlfDotCrlf <:+: textRead before →
    let answer := (session g).step ((session g).run (some conn) before).2 t
    if crlfDotCrlf <:+: textRead (before ++ [t]) then
      replies answer.2 = [.acceptOk] ∧ answer.1.map Connection.state ≠ some .mailExpectData
    else replies answer.2 = [] ∧ answer.1.map Connection.state = some .mailExpectData

/-- Every read up to the one that completes the end marker gets its memory. -/
def HasMemory (turns : List Turn) : Prop :=
  ∀ before t after, turns = before ++ t :: after → ¬ crlfDotCrlf <:+: textRead before →
    t.realloc ≠ none

/-- A connection that has just been answered 354. -/
def StartsData (h : SessionHistory) : Prop :=
  h.head?.map (fun e => replies e.output) = some [.startData]

theorem collecting_of_startsData {g : Globals} {h : SessionHistory} {conn : Connection}
    (reaches : (session g).Reaches (smtpStart g) Machine.anyStep h (some conn))
    (starts : StartsData h) : Collecting conn 0 [] := by
  obtain ⟨smtp, live, -⟩ := bufferInv_session reaches conn rfl
  generalize here : some conn = s at reaches
  cases reaches with
  | start => cases starts
  | @step _ old t reaches =>
    cases old with
    | none => cases here
    | some old =>
      obtain ⟨smtp', live', inv⟩ := bufferInv_session reaches old rfl
      have kept : (serveConnection g t old).1 = some conn := here.symm
      have sent : replies (serveConnection g t old).2 = [.startData] := Option.some.inj starts
      have dialogue := serveConnection_dialogue g t smtp' live'
      obtain ⟨parsed, state⟩ := dialogue.of_startData (by
        rw [show (observe (serveConnection g t old).2).replies = _ from sent]
        exact List.mem_cons_self)
      obtain ⟨-, count, size⟩ := inv.cleared smtp' (dialogue.ne_expectData_of_parsed parsed) kept
      rw [kept, Option.map_some, Option.some.injEq] at state
      exact ⟨smtp, live, state, count, size, Nat.zero_le _, List.nil_prefix⟩

/-- The marker in a C string is the first marker of the bytes, with no NUL in front. -/
theorem marker_in_cstring_iff {bytes text : List Byte} (first : FirstAt crlfDotCrlf bytes text) :
    crlfDotCrlf <:+: cstring bytes ↔ 0 ∉ text := by
  constructor
  · intro seen
    obtain ⟨other, inside⟩ := isInfix_iff_exists_front.mp seen
    have front := first.isPrefix (inside.trans (cstring_isPrefix bytes))
    have within := front.trans ((List.prefix_append _ _).trans inside)
    exact fun zero => zero_notMem_cstring bytes (within.subset zero)
  · intro nulFree
    have nulFree' : 0 ∉ text ++ crlfDotCrlf := by
      simp only [List.mem_append, not_or]
      exact ⟨nulFree, by decide⟩
    have inside := (literal_isPrefix_cstring_iff nulFree').mpr first.here
    exact isInfix_iff_exists_front.mpr ⟨text, inside⟩

section

variable {g : Globals} {conn : Connection} {turns : List Turn}

/-- A read in the middle, with what came before it collected and the size limit not
    reached. -/
theorem Collecting.answer (g : Globals) (collecting : Collecting conn 0 []) (allRead : AllRead turns)
    (fits : turns.length * smallBufferSize + 1 ≤ esmtpSize) {before after : List Turn} {t : Turn}
    (split : turns = before ++ t :: after) (memory : ∀ t ∈ before, t.realloc ≠ none)
    (missing : ¬ crlfDotCrlf <:+: textRead before) :
    let answer := (session g).step ((session g).run (some conn) before).2 t
    (t.realloc = none ∧ replies answer.2 = [.rejectError]) ∨
      (t.realloc ≠ none ∧ crlfDotCrlf <:+: cstring (textRead (before ++ [t])) ∧
        replies answer.2 = [.acceptOk] ∧ answer.1.map Connection.state = some .mailGreeted) ∨
      (t.realloc ≠ none ∧ ¬ crlfDotCrlf <:+: cstring (textRead (before ++ [t])) ∧
        replies answer.2 = [] ∧ answer.1.map Connection.state = some .mailExpectData) := by
  subst split
  have room : ∀ n ≤ (before ++ t :: after).length, n * smallBufferSize + 1 ≤ esmtpSize :=
    fun n shorter => (Nat.succ_le_succ (Nat.mul_le_mul_right _ shorter)).trans fits
  obtain ⟨conn', here, left, -⟩ := collecting.run g
    (fun t mem => allRead t (List.mem_append_left _ mem)) (room _ (by simp)) memory missing
  rw [Nat.zero_add, List.nil_append] at left
  obtain ⟨chunk, got⟩ := allRead t (by simp)
  rw [here]
  have read := left.step g got
  have text : textRead (before ++ [t]) = textRead before ++ t.recv.bytes := by simp
  rw [text]
  dsimp only [session]
  generalize serveConnection g t conn' = answer at read ⊢
  obtain ⟨next, output⟩ := answer
  dsimp only at read ⊢
  generalize replies output = sent at read ⊢
  cases read with
  | tooLarge _ large => exact absurd (room (before.length + 1) (by simp)) (Nat.not_le_of_lt large)
  | noMemory _ failed => exact Or.inl ⟨failed, rfl⟩
  | ended _ _ allocated found state =>
    exact Or.inr (Or.inl ⟨allocated, found, rfl, congrArg some state⟩)
  | more _ _ allocated found more =>
    exact Or.inr (Or.inr ⟨allocated, found, rfl, congrArg some more.data⟩)

end

/-- The message is answered 250, and the data phase left, with the read that makes
    `complete` hold of the bytes; no read before it is answered. -/
def EndsWith (complete : List Byte → Prop) [DecidablePred complete] (g : Globals)
    (conn : Connection) (turns : List Turn) : Prop :=
  ∀ before t after, turns = before ++ t :: after → ¬ complete (textRead before) →
    let answer := (session g).step ((session g).run (some conn) before).2 t
    if complete (textRead (before ++ [t])) then
      replies answer.2 = [.acceptOk] ∧ answer.1.map Connection.state ≠ some .mailExpectData
    else replies answer.2 = [] ∧ answer.1.map Connection.state = some .mailExpectData

/-- Every read up to the one that makes `complete` hold of the bytes gets its memory. -/
def HasMemoryUntil (complete : List Byte → Prop) (turns : List Turn) : Prop :=
  ∀ before t after, turns = before ++ t :: after → ¬ complete (textRead before) → t.realloc ≠ none

section

variable {complete : List Byte → Prop} [DecidablePred complete] {g : Globals} {conn : Connection}
  {turns : List Turn} (marks : ∀ bytes, crlfDotCrlf <:+: bytes → complete bytes)
include marks

/-- A read that is answered as it should be has got its memory, and the marker has been
    seen with the read that completes the message. -/
theorem EndsWith.answer (ends : EndsWith complete g conn turns) (collecting : Collecting conn 0 [])
    (allRead : AllRead turns) (fits : turns.length * smallBufferSize + 1 ≤ esmtpSize)
    {before after : List Turn} {t : Turn} (split : turns = before ++ t :: after)
    (memory : ∀ t ∈ before, t.realloc ≠ none) (missing : ¬ complete (textRead before)) :
    t.realloc ≠ none ∧ (complete (textRead (before ++ [t])) →
      crlfDotCrlf <:+: cstring (textRead (before ++ [t]))) := by
  have answer := ends before t after split missing
  dsimp only at answer
  obtain ⟨-, error⟩ | ⟨allocated, found, -⟩ | ⟨allocated, -, silent, -⟩ :=
    collecting.answer g allRead fits split memory (mt (marks _) missing)
  · rw [error] at answer
    split at answer <;> simp at answer
  · exact ⟨allocated, fun _ => found⟩
  · refine ⟨allocated, ?_⟩
    intro now
    rw [if_pos now, silent] at answer
    cases answer.1

variable (grows : ∀ bytes more, complete bytes → complete (bytes ++ more))
include grows

/-- Where each read is answered as it should be, memory has not run out. -/
theorem EndsWith.memory (ends : EndsWith complete g conn turns) (collecting : Collecting conn 0 [])
    (allRead : AllRead turns) (fits : turns.length * smallBufferSize + 1 ≤ esmtpSize) :
    ∀ before after, turns = before ++ after → ¬ complete (textRead before) →
      ∀ t ∈ before, t.realloc ≠ none := by
  intro before
  induction before using List.reverseRecOn with
  | nil => simp
  | append_singleton front last ih =>
    intro after split missing
    have split' : turns = front ++ last :: after := by simp [split]
    have missing' : ¬ complete (textRead front) := by
      rw [textRead_append] at missing
      exact mt (grows _ _) missing
    have early := ih _ split' missing'
    have now := (ends.answer marks collecting allRead fits split' early missing').1
    simpa [or_imp, forall_and] using ⟨early, now⟩

/-- A message ends with the read that completes it exactly if every read up to that one
    gets its memory, and that one has the end marker in the string. -/
theorem endsWith_iff (collecting : Collecting conn 0 []) (allRead : AllRead turns)
    (fits : turns.length * smallBufferSize + 1 ≤ esmtpSize) :
    EndsWith complete g conn turns ↔
      ∀ before t after, turns = before ++ t :: after → ¬ complete (textRead before) →
        t.realloc ≠ none ∧ (complete (textRead (before ++ [t])) →
          crlfDotCrlf <:+: cstring (textRead (before ++ [t]))) := by
  constructor
  · intro ends before t after split missing
    have memory := ends.memory marks grows collecting allRead fits before _ split missing
    exact ends.answer marks collecting allRead fits split memory missing
  · intro sound before t after split missing
    have memory : ∀ t ∈ before, t.realloc ≠ none := by
      intro t' mem
      obtain ⟨front, back, rfl⟩ := List.append_of_mem mem
      rw [textRead_append] at missing
      exact (sound front t' (back ++ t :: after) (by simp [split]) (mt (grows _ _) missing)).1
    obtain ⟨allocated, seen⟩ := sound before t after split missing
    dsimp only
    obtain ⟨failed, -⟩ | ⟨-, found, sent, state⟩ | ⟨-, unseen, sent, state⟩ :=
      collecting.answer g allRead fits split memory (mt (marks _) missing)
    · exact absurd failed allocated
    · rw [if_pos (marks _ (found.trans (cstring_isPrefix _).isInfix)), state]
      exact ⟨sent, by decide⟩
    · rw [if_neg (mt seen unseen)]
      exact ⟨sent, state⟩

end

/-- A first read that completes the message and is not answered. -/
theorem not_endsWith_of_silent {complete : List Byte → Prop} [DecidablePred complete] {g : Globals}
    {conn : Connection} {t : Turn} (missing : ¬ complete []) (now : complete (textRead [t]))
    (silent : replies ((session g).step (some conn) t).2 = []) : ¬ EndsWith complete g conn [t] := by
  intro ends
  have answer := ends [] t [] rfl missing
  dsimp only [Machine.run, List.nil_append] at answer
  rw [if_pos now, silent] at answer
  cases answer.1

theorem marker_append (bytes more : List Byte) (marker : crlfDotCrlf <:+: bytes) :
    crlfDotCrlf <:+: bytes ++ more := marker.trans (List.prefix_append _ _).isInfix

/-- **The end of a message.**  For all message text that a client sends after a 354, in
    reads that stay within the size limit, the message is ended with the read that
    completes the first CRLF.CRLF exactly if there is no NUL in front of it and memory
    does not run out. -/
theorem endsInTime_iff (g : Globals) {h : SessionHistory} {conn : Connection}
    (reaches : (session g).Reaches (smtpStart g) Machine.anyStep h (some conn))
    (starts : StartsData h) {turns : List Turn} (allRead : AllRead turns)
    (fits : turns.length * smallBufferSize + 1 ≤ esmtpSize) :
    EndsInTime g conn turns ↔
      (∀ text, FirstAt crlfDotCrlf (textRead turns) text → 0 ∉ text) ∧ HasMemory turns := by
  have collecting := collecting_of_startsData reaches starts
  refine (endsWith_iff (fun _ marker => marker) marker_append collecting allRead fits).trans ?_
  constructor
  · intro sound
    refine ⟨?_, fun before t after split missing => (sound before t after split missing).1⟩
    intro text first
    -- the read that completes the marker has it in the string
    have marker : crlfDotCrlf <:+: textRead turns := isInfix_iff_exists_front.mpr ⟨text, first.here⟩
    obtain ⟨before, t, after, split, missing, now⟩ :=
      @exists_firstPiece _ (crlfDotCrlf <:+: textRead ·) turns (by decide) marker
    have longer : textRead (before ++ [t]) <+: textRead turns := by simp [split]
    obtain ⟨front, here⟩ := exists_firstAt now
    have nulFree : 0 ∉ front :=
      (marker_in_cstring_iff here).mp ((sound before t after split missing).2 now)
    exact fun zero => nulFree ((first.isPrefix (here.extend longer).here).subset zero)
  · rintro ⟨nulFree, memory⟩ before t after split missing
    refine ⟨memory before t after split missing, ?_⟩
    intro marker
    obtain ⟨front, first⟩ := exists_firstAt marker
    have longer : textRead (before ++ [t]) <+: textRead turns := by simp [split]
    exact (marker_in_cstring_iff first).mpr (nulFree front (first.extend longer))

/-- The client of that domain just after its 354. -/
def maileyMessage : SessionHistory × Option Connection :=
  (session maileyGlobals).trace [] maileyConnection [.silent, dataTurn]

theorem maileyMessage_reaches :
    ∃ conn, maileyMessage.2 = some conn ∧
      (session maileyGlobals).Reaches (smtpStart maileyGlobals) Machine.anyStep maileyMessage.1
        (some conn) ∧ StartsData maileyMessage.1 := by
  have run := maileyConnection_reaches [.silent, dataTurn]
  have kept : maileyMessage.2.isSome = true := by decide +kernel
  obtain ⟨conn, here⟩ := Option.isSome_iff_exists.mp kept
  refine ⟨conn, here, ?_, by unfold StartsData; decide +kernel⟩
  rw [← here]
  exact run

/-- The end marker in two reads. -/
theorem endsInTime_iff_mailey :
    let turns := [.sends (ascii "\r\n.") (by decide) (by decide),
      .sends (ascii "\r\n") (by decide) (by decide)]
    ∃ conn, maileyMessage.2 = some conn ∧ EndsInTime maileyGlobals conn turns := by
  intro turns
  obtain ⟨conn, here, run, starts⟩ := maileyMessage_reaches
  have allRead : AllRead turns := allRead_of_bytes (by decide)
  refine ⟨conn, here, (endsInTime_iff _ run starts allRead (by decide)).mpr ⟨?_, ?_⟩⟩
  · intro text first zero
    have nulFree : 0 ∉ textRead turns := by decide +kernel
    exact nulFree (first.here.subset (List.mem_append_left _ zero))
  · intro before t after split _
    have memory : ∀ t ∈ turns, t.realloc ≠ none := by decide
    exact memory t (by simp [split])

/-- A NUL in front of the end marker: the message is not ended. -/
theorem not_endsInTime_of_nul :
    ∃ conn, maileyMessage.2 = some conn ∧ ¬ EndsInTime maileyGlobals conn
      [.sends (ascii "\x00\r\n.\r\n") (by decide) (by decide)] := by
  obtain ⟨conn, here, -⟩ := maileyMessage_reaches
  have silent : replies ((session maileyGlobals).step maileyMessage.2
      (.sends (ascii "\x00\r\n.\r\n") (by decide) (by decide))).2 = [] := by
    decide +kernel
  rw [here] at silent
  exact ⟨conn, here, not_endsWith_of_silent (by decide) (by decide) silent⟩

/-! ## The size of a message -/

/-- A whole message in reads: the end marker is at the end, and nowhere before it. -/
structure WholeMessage (turns : List Turn) : Prop where
  allRead : AllRead turns
  ends : crlfDotCrlf <:+ textRead turns
  first : ∀ front, front <+: textRead turns → crlfDotCrlf <:+: front → front = textRead turns

/-- The answer to a message: the first reply among the outputs of its reads. -/
def firstReply (outputs : List (List Event)) : Option Reply := (outputs.flatMap replies).head?

/-- The limit on messages counts bytes: what fits is not refused, what does not is not
    accepted. -/
def CountsBytes (g : Globals) (conn : Connection) (turns : List Turn) : Prop :=
  let outputs := ((session g).run (some conn) turns).1
  ((textRead turns).length ≤ esmtpSize → ∀ output ∈ outputs, .rejectTooLarge ∉ replies output) ∧
    (esmtpSize < (textRead turns).length → firstReply outputs ≠ some .acceptOk)

/-- The reads that the size limit leaves room for. -/
def maxReads : Nat := (esmtpSize - 1) / smallBufferSize

theorem le_maxReads_iff {n : Nat} : n ≤ maxReads ↔ n * smallBufferSize + 1 ≤ esmtpSize := by
  simp only [maxReads, smallBufferSize, esmtpSize]
  omega

/-- The message is complete with its last read and not before. -/
theorem WholeMessage.missing {before after : List Turn} {t : Turn}
    (whole : WholeMessage (before ++ t :: after)) : ¬ crlfDotCrlf <:+: textRead before := by
  intro early
  obtain ⟨chunk, got⟩ := whole.allRead t (by simp)
  have same := congrArg List.length (whole.first (textRead before) (by simp) early)
  have some' := chunk.nonempty
  simp only [textRead_append, textRead_cons, got, Recv.bytes, List.length_append] at same
  omega

/-- The run of a whole message: silence, the read looked at, and the rest. -/
theorem Collecting.run_split (g : Globals) {conn : Connection} (collecting : Collecting conn 0 [])
    {before after : List Turn} {t : Turn} (whole : WholeMessage (before ++ t :: after))
    (short : before.length ≤ maxReads) (memory : ∀ t ∈ before, t.realloc ≠ none) :
    ∃ front output next, ((session g).run (some conn) (before ++ t :: after)).1 =
        front ++ output :: ((session g).run next after).1 ∧
      (∀ output ∈ front, replies output = []) ∧
      DataRead before.length (textRead before) t (replies output) next := by
  obtain ⟨conn', here, left, silent⟩ := collecting.run g
    (fun t mem => whole.allRead t (List.mem_append_left _ mem))
    (by rw [Nat.zero_add]; exact le_maxReads_iff.mp short) memory whole.missing
  rw [Nat.zero_add, List.nil_append] at left
  obtain ⟨chunk, got⟩ := whole.allRead t (by simp)
  refine ⟨_, _, _, ?_, silent, left.step g got⟩
  rw [Machine.run_append, here]
  rfl

/-- Nothing is sent on a connection that is over. -/
theorem replies_run_none (g : Globals) (turns : List Turn) :
    ∀ output ∈ ((session g).run none turns).1, replies output = [] := by
  induction turns with
  | nil => simp [Machine.run]
  | cons t turns ih => exact List.forall_mem_cons.mpr ⟨rfl, ih⟩

theorem firstReply_of_silent {front back : List (List Event)} {output : List Event} {reply : Reply}
    (silent : ∀ output ∈ front, replies output = []) (sent : replies output = [reply]) :
    firstReply (front ++ output :: back) = some reply := by
  have nothing : front.flatMap replies = [] := List.flatMap_eq_nil_iff.mpr silent
  simp [firstReply, nothing, sent]

theorem AllRead.length_textRead_le {turns : List Turn} (allRead : AllRead turns) :
    (textRead turns).length ≤ turns.length * smallBufferSize := by
  induction turns with
  | nil => simp
  | cons t turns ih =>
    obtain ⟨⟨chunk, got⟩, rest⟩ := List.forall_mem_cons.mp allRead
    have fits := chunk.fits
    have shorter := ih rest
    simp only [textRead_cons, got, Recv.bytes, List.length_append, List.length_cons,
      Nat.succ_mul] at fits shorter ⊢
    omega

section

variable (g : Globals) {conn : Connection} {turns : List Turn}

/-- Memory that runs out: the message is answered 500, and the connection is over. -/
theorem WholeMessage.countsBytes_of_noMemory (whole : WholeMessage turns)
    (collecting : Collecting conn 0 []) (failed : ∃ t ∈ turns.take maxReads, t.realloc = none) :
    CountsBytes g conn turns := by
  obtain ⟨before, t, after, split, memory, now⟩ :=
    @exists_firstPiece _ (fun turns : List Turn => ∃ t ∈ turns, t.realloc = none) _ (by simp) failed
  have failed : t.realloc = none := by
    obtain ⟨t', mem, none'⟩ := now
    obtain early | here := List.mem_append.mp mem
    · exact absurd ⟨t', early, none'⟩ memory
    · rw [List.mem_singleton] at here
      rw [← here]
      exact none'
  have whole' : turns = before ++ t :: (after ++ turns.drop maxReads) := by
    rw [← List.cons_append, ← List.append_assoc, ← split, List.take_append_drop]
  have short : before.length + 1 ≤ maxReads := by
    have length := congrArg List.length split
    have bound := List.length_take_le maxReads turns
    simp only [List.length_append, List.length_cons] at length
    omega
  rw [whole'] at whole ⊢
  obtain ⟨front, output, next, outputs, silent, read⟩ :=
    collecting.run_split g whole (Nat.le_of_succ_le short) (by
      intro t mem none'
      exact memory ⟨t, mem, none'⟩)
  have sent : replies output = [.rejectError] ∧ next = none := by
    generalize replies output = sent at read
    cases read with
    | tooLarge _ large => exact absurd (le_maxReads_iff.mp short) (Nat.not_le_of_lt large)
    | noMemory => exact ⟨rfl, rfl⟩
    | ended _ _ allocated | more _ _ allocated => exact absurd failed allocated
  obtain ⟨sent, rfl⟩ := sent
  refine ⟨fun _ => ?_, fun _ => ?_⟩
  · rw [outputs]
    intro output' mem
    rw [List.mem_append, List.mem_cons] at mem
    rcases mem with early | rfl | late
    · simp [silent output' early]
    · simp [sent]
    · simp [replies_run_none g _ output' late]
  · rw [outputs, firstReply_of_silent silent sent]
    decide

/-- Few reads: the message is within the limit, and not refused. -/
theorem WholeMessage.countsBytes_of_short (whole : WholeMessage turns)
    (collecting : Collecting conn 0 []) (memory : ∀ t ∈ turns, t.realloc ≠ none)
    (short : turns.length ≤ maxReads) : CountsBytes g conn turns := by
  have bytes : (textRead turns).length ≤ esmtpSize := by
    have bound := le_maxReads_iff.mp short
    have counted := whole.allRead.length_textRead_le
    omega
  refine ⟨fun _ => ?_, fun large => absurd bytes (Nat.not_le_of_lt large)⟩
  cases turns using List.reverseRecOn with
  | nil => simp [Machine.run]
  | append_singleton before t =>
    rw [List.length_append, List.length_singleton] at short
    obtain ⟨front, output, next, outputs, silent, read⟩ :=
      collecting.run_split g whole (Nat.le_of_succ_le short)
        (fun t mem => memory t (List.mem_append_left _ mem))
    have sent : .rejectTooLarge ∉ replies output := by
      generalize replies output = sent at read
      cases read with
      | tooLarge _ large => exact absurd (le_maxReads_iff.mp short) (Nat.not_le_of_lt large)
      | _ => simp
    rw [outputs]
    intro output' mem
    rw [List.mem_append, List.mem_cons] at mem
    rcases mem with early | rfl | late
    · simp [silent output' early]
    · exact sent
    · cases late

/-- Many reads: the message is refused, however long it is. -/
theorem WholeMessage.tooLarge_of_long (whole : WholeMessage turns)
    (collecting : Collecting conn 0 []) (memory : ∀ t ∈ turns.take maxReads, t.realloc ≠ none)
    (long : maxReads < turns.length) :
    firstReply ((session g).run (some conn) turns).1 = some .rejectTooLarge := by
  have split : turns = turns.take maxReads ++ turns[maxReads] :: turns.drop (maxReads + 1) := by
    simp
  have count : (turns.take maxReads).length = maxReads := List.length_take_of_le (Nat.le_of_lt long)
  rw [split] at whole ⊢
  obtain ⟨front, output, next, outputs, silent, read⟩ :=
    collecting.run_split g whole (le_of_eq count) memory
  have full : ¬ (maxReads + 1) * smallBufferSize + 1 ≤ esmtpSize :=
    fun room => absurd (le_maxReads_iff.mpr room) (by omega)
  have sent : replies output = [.rejectTooLarge] := by
    rw [count] at read
    generalize replies output = sent at read
    cases read with
    | tooLarge => rfl
    | noMemory room | ended _ room | more _ room => exact absurd room full
  rw [outputs, firstReply_of_silent silent sent]

end

/-- **Bytes or reads.**  For every whole message that a client sends after a 354, in
    whatever reads, the limit is the one on its bytes exactly if it comes in no more reads
    than the limit has room for, is over the limit, or memory runs out before. -/
theorem countsBytes_iff (g : Globals) {h : SessionHistory} {conn : Connection}
    (reaches : (session g).Reaches (smtpStart g) Machine.anyStep h (some conn))
    (starts : StartsData h) {turns : List Turn} (whole : WholeMessage turns) :
    CountsBytes g conn turns ↔ turns.length ≤ maxReads ∨ esmtpSize < (textRead turns).length ∨
      ∃ t ∈ turns.take maxReads, t.realloc = none := by
  have collecting := collecting_of_startsData reaches starts
  by_cases failed : ∃ t ∈ turns.take maxReads, t.realloc = none
  · exact iff_of_true (whole.countsBytes_of_noMemory g collecting failed) (Or.inr (Or.inr failed))
  · have memory : ∀ t ∈ turns.take maxReads, t.realloc ≠ none :=
      fun t mem none' => failed ⟨t, mem, none'⟩
    by_cases short : turns.length ≤ maxReads
    · rw [List.take_of_length_le short] at memory
      exact iff_of_true (whole.countsBytes_of_short g collecting memory short) (Or.inl short)
    · have refused := whole.tooLarge_of_long g collecting memory (Nat.lt_of_not_le short)
      constructor
      · intro counts
        refine Or.inr (Or.inl (Nat.lt_of_not_le fun fits => ?_))
        -- the 554 is among the replies
        have sent := List.mem_of_mem_head? refused
        obtain ⟨output, mem, reply⟩ := List.mem_flatMap.mp sent
        exact counts.1 fits output mem reply
      · rintro (few | large | none')
        · exact absurd few short
        · refine ⟨fun fits => absurd large (Nat.not_lt_of_le fits), fun _ => ?_⟩
          rw [refused]
          decide
        · exact absurd none' failed

/-- A message in as many reads of one byte as there are `a`s in it, and one read for the
    end marker. -/
def letterReads (n : Nat) : List Turn := List.replicate n textTurn ++ [markerTurn]

theorem textRead_letterReads (n : Nat) :
    textRead (letterReads n) = List.replicate n 97 ++ crlfDotCrlf := by
  have letters : textRead (List.replicate n textTurn) = List.replicate n 97 := by
    induction n with
    | zero => rfl
    | succ n ih =>
      rw [List.replicate_succ, textRead_cons, ih]
      rfl
  rw [letterReads, textRead_append, letters]
  rfl

theorem length_letterReads (n : Nat) : (letterReads n).length = n + 1 := by
  simp [letterReads]

theorem realloc_letterReads {n : Nat} {t : Turn} (mem : t ∈ letterReads n) : t.realloc ≠ none := by
  obtain letter | marker := List.mem_append.mp mem
  · rw [List.eq_of_mem_replicate letter]
    decide
  · rw [List.mem_singleton.mp marker]
    decide

theorem wholeMessage_letterReads (n : Nat) : WholeMessage (letterReads n) := by
  refine ⟨?_, ?_, ?_⟩
  · intro t mem
    obtain letter | marker := List.mem_append.mp mem
    · rw [List.eq_of_mem_replicate letter]
      exact ⟨_, rfl⟩
    · rw [List.mem_singleton.mp marker]
      exact ⟨_, rfl⟩
  · rw [textRead_letterReads]
    exact List.suffix_append _ _
  · rw [textRead_letterReads]
    intro front inside marker
    by_contra shorter
    -- the text without its last byte has one LF, the marker two
    have whole : List.replicate n (97 : Byte) ++ crlfDotCrlf =
        (List.replicate n 97 ++ [13, 10, 46, 13]) ++ [10] := by
      rw [List.append_assoc]
      rfl
    rw [whole] at inside shorter
    have within := (List.prefix_concat_iff.mp inside).resolve_left shorter
    have count := (marker.sublist.trans within.sublist).count_le (10 : Byte)
    rw [List.count_append, List.count_replicate, if_neg (by decide)] at count
    exact absurd count (by decide)

theorem countsBytes_iff_mailey :
    ∃ conn, maileyMessage.2 = some conn ∧ CountsBytes maileyGlobals conn (letterReads 3) := by
  obtain ⟨conn, here, run, starts⟩ := maileyMessage_reaches
  refine ⟨conn, here, ?_⟩
  exact (countsBytes_iff _ run starts (wholeMessage_letterReads 3)).mpr (Or.inl (by decide))

/-- 10239 letters, one in each read, and the end marker are refused: a message of 10244
    bytes, with a limit of 10485760. -/
theorem not_countsBytes_of_letters :
    ∃ conn, maileyMessage.2 = some conn ∧ (textRead (letterReads 10239)).length = 10244 ∧
      ¬ CountsBytes maileyGlobals conn (letterReads 10239) := by
  obtain ⟨conn, here, run, starts⟩ := maileyMessage_reaches
  have collecting := collecting_of_startsData run starts
  have length : (textRead (letterReads 10239)).length = 10244 := by
    rw [textRead_letterReads, List.length_append, List.length_replicate]
    rfl
  have refused := (wholeMessage_letterReads 10239).tooLarge_of_long maileyGlobals collecting
    (fun t mem => realloc_letterReads (List.mem_of_mem_take mem))
    (by rw [length_letterReads]; decide)
  refine ⟨conn, here, length, ?_⟩
  intro counts
  obtain ⟨output, mem, reply⟩ := List.mem_flatMap.mp (List.mem_of_mem_head? refused)
  exact counts.1 (by rw [length]; decide) output mem reply

end Femail
