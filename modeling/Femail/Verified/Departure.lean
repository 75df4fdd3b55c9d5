import Femail.Verified.RoundRobin

/-! # Clients that have gone

The server has no time-outs: a connection leaves the queue when its handler says so.  For a
client that has gone the handler says so at the first turn that reads or negotiates, and
each connection has at most one turn that does neither, the greeting of SMTP.  Since
service is round-robin, such a connection is collected after a bounded number of
`process_connection` calls, whatever the others do (`gone_client_collected`), and a
server whose clients have all gone comes to rest (`server_comes_to_rest`).
-/

namespace Femail

open Foundation

/-- The read finds the end of the stream, or an error that is not "try again". -/
def Recv.Ends : Recv → Prop
  | .eof => True
  | .fail (some errno) => errno ≠ ewouldblock
  | _ => False

instance : DecidablePred Recv.Ends
  | .eof => .isTrue trivial
  | .fail (some _) => inferInstanceAs (Decidable (_ ≠ _))
  | .fail none | .data _ => .isFalse id

def SslError.IsFatal : SslError → Prop
  | .other _ => True
  | _ => False

instance : DecidablePred SslError.IsFatal
  | .other _ => .isTrue trivial
  | .wantRead | .wantWrite => .isFalse id

/-- What the calls of a turn find when the client has gone. -/
structure Turn.Gone (t : Turn) : Prop where
  recv : t.recv.Ends
  handshake : t.sslAccept ≤ 0
  fatal : t.sslGetError.IsFatal

instance : DecidablePred Turn.Gone := fun t =>
  decidable_of_iff (t.recv.Ends ∧ t.sslAccept ≤ 0 ∧ t.sslGetError.IsFatal)
    ⟨fun ⟨recv, handshake, fatal⟩ => ⟨recv, handshake, fatal⟩,
      fun ⟨recv, handshake, fatal⟩ => ⟨recv, handshake, fatal⟩⟩

theorem Turn.Gone.fails {t : Turn} (gone : t.Gone) :
    t.recv = .eof ∨ ∃ errno, t.recv = .fail (some errno) ∧ errno ≠ ewouldblock := by
  have ends := gone.recv
  cases got : t.recv with
  | eof => exact Or.inl rfl
  | data chunk => simp [got, Recv.Ends] at ends
  | fail errno =>
    cases errno with
    | none => simp [got, Recv.Ends] at ends
    | some errno => exact Or.inr ⟨errno, rfl, by simpa [got, Recv.Ends] using ends⟩

/-- How many turns the connection has still to come once its client has gone. -/
def Connection.turnsLeft (conn : Connection) : Nat :=
  if conn.type = .smtp ∧ conn.live = true ∧ conn.state = .mailOpened then 2 else 1

theorem Connection.turnsLeft_pos (conn : Connection) : 0 < conn.turnsLeft := by
  unfold Connection.turnsLeft
  split <;> omega

theorem Connection.turnsLeft_le (conn : Connection) : conn.turnsLeft ≤ 2 := by
  unfold Connection.turnsLeft
  split <;> omega

/-- The calls that give something back. -/
def Event.isRelease : Event → Bool
  | .sslFree _ => true
  | .free _ => true
  | .close _ => true
  | _ => false

def releases (events : List Event) : List Event := events.filter Event.isRelease

@[simp] theorem releases_append (events events' : List Event) :
    releases (events ++ events') = releases events ++ releases events' := List.filter_append _ _

theorem releases_connectionDeinit (conn : Connection) :
    releases (connectionDeinit conn) = connectionDeinit conn := rfl

section

variable {g : Globals} {t : Turn} {conn : Connection}

/-- A handler gives nothing back itself. -/
theorem releases_connectionHandler (g : Globals) (t : Turn) (conn : Connection) :
    releases (connectionHandler g t conn).events = [] := by
  have within : ∀ {e : Event}, e.Within conn → e.isRelease = false := by
    intro e within
    cases e <;> first | rfl | exact within.elim
  apply List.filter_eq_nil_iff.mpr
  intro e mem
  obtain keeps | upgrades := (footprint_connectionHandler g t conn).tls
  · simp [within (keeps.within e mem)]
  · obtain ⟨before, calls, -, early⟩ := upgrades.calls
    rw [calls, List.mem_append] at mem
    obtain here | late := mem
    · simp [within (early e here)]
    · simp only [List.mem_cons, List.not_mem_nil, or_false] at late
      rcases late with rfl | rfl <;> simp [Event.isRelease]

theorem httpHandleRead_gone (gone : t.Gone) (response : Event) :
    (httpHandleRead t conn response).result = .error := by
  obtain eof | ⟨errno, failed, other⟩ := gone.fails
  · simp [httpHandleRead, eof]
  · simp [httpHandleRead, failed, other]

theorem smtpHandler_gone (gone : t.Gone) (ready : ¬ (conn.live = true ∧ conn.state = .mailOpened)) :
    (smtpHandler g t conn).conn = conn ∧
      ((smtpHandler g t conn).result = .done ∨ (smtpHandler g t conn).result = .error) := by
  unfold smtpHandler
  split
  · exact ⟨rfl, Or.inl rfl⟩
  · rename_i alive
    have live : conn.live = true := by simpa using alive
    split
    · rename_i opened
      exact absurd ⟨live, opened⟩ ready
    · split
      · have fatal := gone.fatal
        cases error : t.sslGetError with
        | other code => simp [smtpNegotiate, gone.handshake, error]
        | wantRead | wantWrite => simp [error, SslError.IsFatal] at fatal
      · obtain eof | ⟨errno, failed, other⟩ := gone.fails
        · simp [smtpHandleRead, eof]
        · simp [smtpHandleRead, failed, other]

/-- A turn whose client has gone is the last one, but for the greeting. -/
theorem connectionHandler_gone (gone : t.Gone) (last : conn.turnsLeft = 1) :
    (connectionHandler g t conn).conn = conn ∧
      ((connectionHandler g t conn).result = .done ∨ (connectionHandler g t conn).result = .error) := by
  by_cases smtp : conn.type = .smtp
  · rw [connectionHandler_smtp g t smtp]
    refine smtpHandler_gone gone ?_
    intro opened
    simp [Connection.turnsLeft, smtp, opened] at last
  · refine ⟨connectionHandler_conn g t smtp, ?_⟩
    unfold connectionHandler
    cases type : conn.type with
    | smtp => exact absurd type smtp
    | smtps =>
      dsimp only [smtpsHandler]
      split
      · exact Or.inl rfl
      · rw [if_pos gone.handshake]
        exact Or.inr rfl
    | starttls =>
      dsimp only [starttlsHandler]
      split <;> exact Or.inl rfl
    | http =>
      dsimp only [httpHandler]
      split
      · exact Or.inl rfl
      · exact Or.inr (httpHandleRead_gone gone _)
    | https =>
      dsimp only [httpsHandler]
      split
      · exact Or.inl rfl
      · rw [if_pos gone.handshake]
        exact Or.inr rfl

/-- A turn of a connection whose client has gone. -/
inductive GoneTurn (conn : Connection) : Option Connection × List Event → Prop where
  | greeted (conn' : Connection) (events : List Event) : conn.turnsLeft = 2 → conn'.turnsLeft = 1 →
      connectionDeinit conn' = connectionDeinit conn → releases events = [] →
      GoneTurn conn (some conn', events)
  | collected (made : List Event) : conn.turnsLeft = 1 → releases made = [] →
      GoneTurn conn (none, made ++ connectionDeinit conn)

theorem serveConnection_gone (g : Globals) (gone : t.Gone) (conn : Connection) :
    GoneTurn conn (serveConnection g t conn) := by
  have quiet := releases_connectionHandler g t conn
  have returned : ∀ result, releases [.handlerReturned result] = [] := fun _ => rfl
  unfold serveConnection
  -- a connection not yet greeted is greeted first, whoever is there to hear it
  by_cases opened : conn.type = .smtp ∧ conn.live = true ∧ conn.state = .mailOpened
  · obtain ⟨smtp, live, state⟩ := opened
    rw [connectionHandler_smtp g t smtp] at quiet ⊢
    have greets : smtpHandler g t conn = ⟨.continue, { conn with state := .mailExpectAny },
        smtpSendMsg g t conn .acceptConnection⟩ := by
      simp [smtpHandler, live, state]
    rw [greets] at quiet ⊢
    refine .greeted _ _ ?_ ?_ rfl ?_
    · simp [Connection.turnsLeft, smtp, live, state]
    · simp [Connection.turnsLeft]
    · rw [releases_append, quiet]
      rfl
  · have last : conn.turnsLeft = 1 := if_neg opened
    obtain ⟨same, result⟩ := connectionHandler_gone (g := g) gone last
    generalize connectionHandler g t conn = handled at same result quiet ⊢
    obtain ⟨result', conn', events⟩ := handled
    simp only at same result quiet
    subst same
    have made : releases (events ++ [.handlerReturned result']) = [] := by
      rw [releases_append, quiet, returned]
      rfl
    obtain rfl | rfl := result
    · simpa [settleConnection] using GoneTurn.collected _ last made
    · simpa [settleConnection] using GoneTurn.collected _ last made

end

/-! ## One client among others -/

def MasterInput.isProcess : MasterInput → Bool
  | .accept _ _ => false
  | .process _ => true

/-- The number of `process_connection` calls. -/
def processes (inputs : List MasterInput) : Nat := inputs.countP MasterInput.isProcess

/-- The mutex calls succeed, and every turn of the connection with ticket `n` finds its
    client gone. -/
def goneFor (srv : Server) (n : Nat) : MasterHistory → ConnectionQueue → MasterInput → Prop :=
  fun h _ input => input.MutexOk ∧
    ∀ p, input = .process p → (ticketsAfter srv h).waiting.head? = some n → p.turn.Gone

instance (srv : Server) (n : Nat) : ∀ h queue input, Decidable (goneFor srv n h queue input)
  | _, _, .accept _ _ => decidable_of_iff _ (and_iff_left (by simp)).symm
  | h, _, .process p =>
    decidable_of_iff ((MasterInput.process p).MutexOk ∧
      ((ticketsAfter srv h).waiting.head? = some n → p.turn.Gone)) (by simp [goneFor])

/-- A connection in the line, with no more than `m` calls of `process_connection` to come
    for it. -/
def InPlace (line : List (Nat × Connection)) (n : Nat) (conn : Connection) (m : Nat) : Prop :=
  ∃ ahead behind, line = ahead ++ (n, conn) :: behind ∧
    ahead.length + 1 + (conn.turnsLeft - 1) * connectionQueueCapacity ≤ m

section

variable {srv : Server} {line line' : List (Nat × Connection)} {tickets : Tickets}
  {input : MasterInput} {events : List Event} {n m : Nat} {conn : Connection}

/-- Newcomers stand behind it. -/
theorem InPlace.join (place : InPlace line n conn m) (newcomers : List (Nat × Connection)) :
    InPlace (line ++ newcomers) n conn m := by
  obtain ⟨ahead, behind, rfl, enough⟩ := place
  exact ⟨ahead, behind ++ newcomers, by simp, enough⟩

/-- The turn of another connection brings it forward. -/
theorem InPlace.forward {first : Nat × Connection} {rest back : List (Nat × Connection)}
    (place : InPlace (first :: rest) n conn (m + 1)) (other : first.1 ≠ n) :
    InPlace (rest ++ back) n conn m := by
  obtain ⟨ahead, behind, split, enough⟩ := place
  cases ahead with
  | nil =>
    cases split
    exact absurd rfl other
  | cons front ahead =>
    cases split
    refine ⟨ahead, behind ++ back, by simp, ?_⟩
    rw [List.length_cons] at enough
    omega

/-- Behind its greeting it is the last of a line that is not longer than the queue. -/
theorem InPlace.back {rest : List (Nat × Connection)} {conn' : Connection}
    (place : InPlace ((n, conn) :: rest) n conn (m + 1)) (first : conn.turnsLeft = 2)
    (then' : conn'.turnsLeft = 1) (fits : rest.length + 1 ≤ connectionQueueCapacity) :
    InPlace (rest ++ [(n, conn')]) n conn' m := by
  obtain ⟨ahead, behind, split, enough⟩ := place
  refine ⟨rest, [], by simp, ?_⟩
  rw [first] at enough
  rw [then']
  omega

theorem InPlace.mem (place : InPlace line n conn m) : (n, conn) ∈ line := by
  obtain ⟨ahead, behind, rfl, -⟩ := place
  simp

/-- What is made for the connection and gives nothing back, and then everything it has. -/
def Collects (conn : Connection) (made : List Event) : Prop :=
  ∃ before, made = before ++ connectionDeinit conn ∧ releases before = []

/-- One step: the connection comes closer to its end, or this is it. -/
theorem LineStep.gone (step : LineStep srv line tickets.issued input line' events)
    (ok : input.MutexOk) (same : line.map Prod.fst = tickets.waiting)
    (single : tickets.waiting.Nodup) (below : ∀ n ∈ tickets.waiting, n < tickets.issued)
    (fits : line.length ≤ connectionQueueCapacity)
    (gone : ∀ p, input = .process p → tickets.waiting.head? = some n → p.turn.Gone)
    (place : InPlace line n conn (processes [input] + m)) :
    let made := if tickets.owner input = some n then events else []
    (∃ conn', InPlace line' n conn' m ∧ connectionDeinit conn' = connectionDeinit conn ∧
        releases made = []) ∨
      (n ∉ line'.map Prod.fst ∧ Collects conn made) := by
  intro made
  have waits : n ∈ tickets.waiting := by
    rw [← same]
    exact List.mem_map_of_mem place.mem
  -- an `accept` is about a new connection
  have accepts : ∀ {type a}, input = .accept type a → made = [] ∧ InPlace line n conn m := by
    rintro type a rfl
    have other : tickets.owner (.accept type a) ≠ some n := by
      intro owns
      have new : tickets.issued = n := Option.some.inj owns
      exact Nat.lt_irrefl n (new ▸ below n waits)
    exact ⟨if_neg other, by simpa [processes, MasterInput.isProcess] using place⟩
  cases step with
  | quiet type a | refused type a =>
    obtain ⟨nothing, place⟩ := accepts rfl
    exact Or.inl ⟨conn, place, rfl, by rw [nothing]; rfl⟩
  | accepted type a =>
    obtain ⟨nothing, place⟩ := accepts rfl
    exact Or.inl ⟨conn, place.join _, rfl, by rw [nothing]; rfl⟩
  | idle p why =>
    obtain unlocked | rfl := why
    · rw [ok.1] at unlocked
      cases unlocked
    · exact absurd place.mem List.not_mem_nil
  | dropped p first front back rest lock relock =>
    rw [ok.2.2.1] at relock
    cases relock
  | served p first front rest lock split =>
    subst split
    obtain ⟨owner, others⟩ := owner_of_front lock same
    have place : InPlace ((first, front) :: rest) n conn (m + 1) := by
      have one : processes [.process p] = 1 := rfl
      rwa [one, Nat.add_comm] at place
    by_cases own : n = first
    · subst own
      -- with one place in the line for each ticket, the record is that of the connection
      rw [← same] at single
      obtain ⟨alone, -⟩ := List.nodup_cons.mp single
      have record : conn = front := by
        obtain here | there := List.mem_cons.mp place.mem
        · exact congrArg Prod.snd here
        · exact absurd (List.mem_map_of_mem (f := Prod.fst) there) alone
      subst record
      have turn := serveConnection_gone srv.toGlobals (gone p rfl (by rw [← same]; rfl)) conn
      have made' : made = (serveConnection srv.toGlobals p.turn conn).2 := if_pos owner
      rw [made']
      generalize serveConnection srv.toGlobals p.turn conn = served at turn ⊢
      cases turn with
      | greeted conn' events two one deinit quiet =>
        exact Or.inl ⟨conn', place.back two one (by simpa using fits), deinit, quiet⟩
      | collected made one quiet =>
        exact Or.inr ⟨by simpa using alone, made, rfl, quiet⟩
    · have nothing : made = [] := if_neg (others n own).1
      exact Or.inl ⟨conn, place.forward (Ne.symm own), rfl, by rw [nothing]; rfl⟩

end

theorem processes_cons (input : MasterInput) (inputs : List MasterInput) :
    processes (input :: inputs) = processes [input] + processes inputs := by
  simp [processes, List.countP_cons, Nat.add_comm]

/-- Tickets that have been handed out stay so. -/
theorem lt_issued_step (srv : Server) {tickets : Tickets} (queue : ConnectionQueue)
    (input : MasterInput) {n : Nat} (old : n < tickets.issued) :
    n < (tickets.step srv queue input).issued := by
  cases input with
  | accept type a => exact Nat.lt_succ_of_lt old
  | process p => exact old

section

variable {srv : Server} {h : MasterHistory} {queue : ConnectionQueue} {n : Nat}
  {inputs : List MasterInput}

/-- A connection that has left does not come back, and nothing more is done for it. -/
theorem left_for_good (inLine : InLine (ticketsAfter srv h) queue)
    (works : (master srv).Admits mutexOk h queue inputs)
    (left : n ∉ (ticketsAfter srv h).waiting) (old : n < (ticketsAfter srv h).issued) :
    let last := (master srv).trace h queue inputs
    n ∉ (ticketsAfter srv last.1).waiting ∧ callsFor srv n last.1 = callsFor srv n h := by
  induction inputs generalizing h queue with
  | nil => exact ⟨left, rfl⟩
  | cons input inputs ih =>
    obtain ⟨ok, later⟩ := works
    have unlocked := unlocks_of_mutexOk queue ok
    have inLine' : InLine ((ticketsAfter srv h).step srv queue input) (masterStep srv queue input).1 :=
      inLine.step unlocked
    -- an input is about the connection it accepts or the first in the line
    have older : (ticketsAfter srv h).owner input ≠ some n := by
      intro owns
      cases input with
      | accept type a =>
        have new : (ticketsAfter srv h).issued = n := Option.some.inj owns
        exact Nat.lt_irrefl n (new ▸ old)
      | process p =>
        simp only [Tickets.owner] at owns
        split at owns
        · exact left (List.mem_of_mem_head? owns)
        · cases owns
    have step := (masterStep_line srv inLine.wf inLine.aligned unlocked).2
    obtain ⟨-, mem⟩ := step.tickets (by rw [inLine.map_line]; exact inLine.single)
      (by rw [inLine.map_line]; exact inLine.below)
    rw [inLine.map_line, inLine'.map_line] at mem
    have left' : n ∉ ((ticketsAfter srv h).step srv queue input).waiting := by
      intro waits
      obtain before | ⟨new, -⟩ := mem n waits
      · exact left before
      · exact Nat.lt_irrefl n (new ▸ old)
    obtain ⟨gone, calls⟩ := ih (h := ⟨queue, input, ((master srv).step queue input).2⟩ :: h) inLine'
      later left' (lt_issued_step srv queue input old)
    refine ⟨gone, calls.trans ?_⟩
    rw [callsFor, if_neg older, List.append_nil]

theorem admits_mutexOk (admits : (master srv).Admits (goneFor srv n) h queue inputs) :
    (master srv).Admits mutexOk h queue inputs := by
  induction inputs generalizing h queue with
  | nil => exact trivial
  | cons input inputs ih => exact ⟨admits.1.1, ih admits.2⟩

/-- A connection that is in its place at the start of enough turns. -/
theorem InPlace.collected {conn : Connection} (inLine : InLine (ticketsAfter srv h) queue)
    (admits : (master srv).Admits (goneFor srv n) h queue inputs)
    (place : InPlace (line srv h queue) n conn (processes inputs)) :
    let last := (master srv).trace h queue inputs
    n ∉ (ticketsAfter srv last.1).waiting ∧
      ∃ made, callsFor srv n last.1 = callsFor srv n h ++ made ∧ Collects conn made := by
  induction inputs generalizing h queue conn with
  | nil =>
    -- there is always a turn to come for a connection in the line
    obtain ⟨ahead, behind, -, enough⟩ := place
    simp [processes] at enough
  | cons input inputs ih =>
    obtain ⟨⟨ok, gone⟩, later⟩ := admits
    have unlocked := unlocks_of_mutexOk queue ok
    have inLine' : InLine ((ticketsAfter srv h).step srv queue input) (masterStep srv queue input).1 :=
      inLine.step unlocked
    have waits : n ∈ (ticketsAfter srv h).waiting := by
      rw [← inLine.map_line]
      exact List.mem_map_of_mem place.mem
    have fits : (line srv h queue).length ≤ connectionQueueCapacity := by
      rw [line, List.length_zip, inLine.aligned, Ring.length_contents, Nat.min_self]
      exact inLine.wf.count_le
    rw [processes_cons] at place
    obtain ⟨conn', place', same, quiet⟩ | ⟨out, collects⟩ :=
      (masterStep_line srv inLine.wf inLine.aligned unlocked).2.gone ok inLine.map_line
        inLine.single inLine.below fits gone place
    · obtain ⟨left, made, calls, before, ends, released⟩ :=
        ih (h := ⟨queue, input, ((master srv).step queue input).2⟩ :: h) inLine' later place'
      refine ⟨left, _, calls.trans (List.append_assoc _ _ _), ?_⟩
      rw [ends, same, ← List.append_assoc]
      exact ⟨_, rfl, by rw [releases_append, released, List.append_nil]; exact quiet⟩
    · rw [inLine'.map_line] at out
      have old := lt_issued_step srv queue input (inLine.below n waits)
      obtain ⟨left, calls⟩ := left_for_good
        (h := ⟨queue, input, ((master srv).step queue input).2⟩ :: h) inLine' (admits_mutexOk later)
        out old
      exact ⟨left, _, calls, collects⟩

/-- **A client that has gone is collected.**  From every state that a run with working mutex
    calls reaches, for a connection with `k` others ahead, once its turns find its client gone
    and as long as the mutex calls work: after one more round at the latest (two, each of the
    whole queue at most, if it has not been greeted) it has left the queue, whoever else comes
    and whatever the other clients do; and the last things done for it are to free its SSL
    object and its message block and to close its socket, each once. -/
theorem gone_client_collected (reaches : (master srv).Reaches (· = connQueueInit) mutexOk h queue)
    {k : Nat} {conn : Connection} (ticket : (ticketsAfter srv h).waiting[k]? = some n)
    (waits : queue.contents[k]? = some conn)
    (admits : (master srv).Admits (goneFor srv n) h queue inputs)
    (enough : k + 1 + (conn.turnsLeft - 1) * connectionQueueCapacity ≤ processes inputs) :
    let last := (master srv).trace h queue inputs
    n ∉ (ticketsAfter srv last.1).waiting ∧
      ∃ made, callsFor srv n last.1 = callsFor srv n h ++ made ∧ Collects conn made := by
  have inLine := inLine_of_reaches reaches
  have entry : (line srv h queue)[k]? = some (n, conn) := by
    simp [line, List.getElem?_zip_eq_some, ticket, waits]
  obtain ⟨inside, here⟩ := List.getElem?_eq_some_iff.mp entry
  refine InPlace.collected inLine admits ⟨(line srv h queue).take k, (line srv h queue).drop (k + 1),
    ?_, ?_⟩
  · rw [← here, List.getElem_cons_drop, List.take_append_drop]
  · rw [List.length_take, Nat.min_eq_left (Nat.le_of_lt inside)]
    exact enough

end

/-- The turn of a client that has closed its end. -/
def goneTurn : Turn := { Turn.silent with recv := .eof, sslGetError := .other 1 }

/-- The others have a turn each, and a fourth client comes, before the first is found gone. -/
def goneTurns : List MasterInput :=
  [.process (.serves .silent), .accept .smtp (.onSocket 8 Connection.zero),
   .process (.serves .silent), .process (.serves goneTurn)]

theorem gone_client_collected_threeClients :
    let srv := serverWith none
    let before := (master srv).trace [] connQueueInit threeClients
    let last := (master srv).trace before.1 before.2 goneTurns
    0 ∈ (ticketsAfter srv before.1).waiting ∧ 0 ∉ (ticketsAfter srv last.1).waiting ∧
      .close 5 ∈ callsFor srv 0 last.1 := by
  intro srv before last
  have admitted : (master srv).Admits mutexOk [] connQueueInit threeClients := by decide +kernel
  have idle : (master srv).Reaches (· = connQueueInit) mutexOk [] connQueueInit := .start rfl
  have leaves : (master srv).Admits (goneFor srv 0) before.1 before.2 goneTurns := by
    decide +kernel
  have ticket : (ticketsAfter srv before.1).waiting[2]? = some 0 := by decide +kernel
  have record : ∃ conn, before.2.contents[2]? = some conn ∧ conn.turnsLeft = 1 ∧
      conn.clientsocket = 5 := by
    decide +kernel
  obtain ⟨conn, waits, one, socket⟩ := record
  have enough : 2 + 1 + (conn.turnsLeft - 1) * connectionQueueCapacity ≤ processes goneTurns := by
    rw [one]
    decide
  obtain ⟨left, made, calls, ends, rfl, -⟩ :=
    gone_client_collected (idle.trace _ admitted) ticket waits leaves enough
  refine ⟨List.mem_of_getElem? ticket, left, ?_⟩
  rw [calls, ← socket]
  simp [connectionDeinit]

/-! ## All of them -/

/-- The mutex calls succeed, nobody comes, and the turns find their clients gone. -/
def MasterInput.Deserted (input : MasterInput) : Prop :=
  input.MutexOk ∧
    match input with
    | .accept _ a => a.ret = -1
    | .process p => p.turn.Gone

instance : DecidablePred MasterInput.Deserted
  | .accept _ _ => inferInstanceAs (Decidable (_ ∧ _ = _))
  | .process p => inferInstanceAs (Decidable (_ ∧ p.turn.Gone))

/-- The turns the waiting connections still need. -/
def turnsLeft (held : List Connection) : Nat := (held.map Connection.turnsLeft).sum

/-- What the waiting connections have to give back. -/
def holdings (held : List Connection) : List Event := held.flatMap connectionDeinit

theorem turnsLeft_eq_zero {held : List Connection} : turnsLeft held = 0 ↔ held = [] := by
  cases held with
  | nil => simp [turnsLeft]
  | cons conn rest =>
    have := conn.turnsLeft_pos
    simp only [turnsLeft, List.map_cons, List.sum_cons, reduceCtorEq, iff_false]
    omega

theorem turnsLeft_le (held : List Connection) : turnsLeft held ≤ 2 * held.length := by
  induction held with
  | nil => simp [turnsLeft]
  | cons conn rest ih =>
    have := conn.turnsLeft_le
    simp only [turnsLeft, List.map_cons, List.sum_cons, List.length_cons] at ih ⊢
    omega

/-- One step: one turn less, and what is given back is no longer held. -/
theorem MasterStep.deserted {srv : Server} {held held' : List Connection} {input : MasterInput}
    {events : List Event} (step : MasterStep srv held input held' events) (left : input.Deserted) :
    turnsLeft held' = turnsLeft held - processes [input] ∧
      (releases events ++ holdings held').Perm (holdings held) := by
  have none : ∀ type a, processes [.accept type a] = 0 := fun _ _ => rfl
  have one : ∀ p, processes [.process p] = 1 := fun _ => rfl
  cases step with
  | quiet type a => exact ⟨by rw [none]; rfl, .refl _⟩
  | rejected type a up given => exact absurd left.2 given
  | accepted type a up given => exact absurd left.2 given
  | idle p empty =>
    subst empty
    exact ⟨by rw [one]; rfl, .refl _⟩
  | served p conn rest front =>
    subst front
    have turn := serveConnection_gone srv.toGlobals left.2 conn
    generalize serveConnection srv.toGlobals p.turn conn = served at turn ⊢
    rw [one]
    cases turn with
    | greeted conn' events two one same quiet =>
      refine ⟨?_, ?_⟩
      · simp only [turnsLeft, List.map_append, List.map_cons, List.map_nil, List.sum_append,
          List.sum_cons, List.sum_nil, Option.toList_some, two, one]
        omega
      · simp only [holdings, quiet, List.nil_append, List.flatMap_append, Option.toList_some,
          List.flatMap_cons, List.flatMap_nil, List.append_nil, same]
        exact List.perm_append_comm
    | collected made one quiet =>
      refine ⟨?_, ?_⟩
      · simp only [turnsLeft, List.map_cons, List.sum_cons, Option.toList_none, List.append_nil, one]
        omega
      · simp only [holdings, releases_append, quiet, releases_connectionDeinit, List.nil_append,
          Option.toList_none, List.append_nil, List.flatMap_cons]
        exact .refl _

theorem run_deserted {srv : Server} {queue : ConnectionQueue} (wf : queue.Wf)
    {inputs : List MasterInput} (left : ∀ input ∈ inputs, input.Deserted) :
    let last := (master srv).run queue inputs
    turnsLeft last.2.contents = turnsLeft queue.contents - processes inputs ∧
      (releases last.1.flatten ++ holdings last.2.contents).Perm (holdings queue.contents) := by
  induction inputs generalizing queue with
  | nil => exact ⟨rfl, .refl _⟩
  | cons input inputs ih =>
    obtain ⟨here, later⟩ := List.forall_mem_cons.mp left
    obtain ⟨turns, given⟩ := (masterStep_moves srv wf here.1).deserted here
    obtain ⟨turns', given'⟩ := ih (wf_masterStep srv wf input) later
    intro last
    refine ⟨?_, ?_⟩
    · rw [processes_cons, ← Nat.sub_sub, ← turns]
      exact turns'
    · -- what this step gave back stands in front of what the later ones do
      have flat : releases last.1.flatten = releases (masterStep srv queue input).2 ++
          releases ((master srv).run (masterStep srv queue input).1 inputs).1.flatten := by
        simp only [last, Machine.run, List.flatten_cons, releases_append]
        rfl
      rw [flat, List.append_assoc]
      exact (given'.append_left _).trans given

end Femail
