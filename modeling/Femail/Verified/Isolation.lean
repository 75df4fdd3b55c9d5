import Mathlib.Data.List.Nodup
import Femail.Foundation.Projection
import Femail.Server.Main
import Femail.Verified.Twin

/-! # Clients do not influence each other

A run of the master thread, seen by one client, is a run of the client's own session
(`master_simulates`), so two runs of the master thread are compared by comparing two
sessions.  What the calls of a turn return is matched call by call: the n-th read in
one run with the n-th read in the other, whatever turn it is made in.
-/

namespace Femail

open Foundation

/-! ## Turns told the same -/

abbrev ClientStep := Served Connection Turn (List Event)

/-- What a call returns. -/
inductive Outcome where
  | accept (ret : Int) (error : Option SslError)
  | read (got : Recv)
  | memory (block : Option Addr)
  | sslNew (ssl : Option Ssl)
deriving DecidableEq

def Turn.outcome (g : Globals) (t : Turn) : CallKind → Outcome
  | .accept => .accept t.acceptOutcome.1 t.acceptOutcome.2
  | .read => .read t.readOutcome
  | .memory => .memory t.realloc
  | .sslNew => .sslNew (sslNewResult g t.sslNew)

/-- What the calls of one kind return in a turn. -/
def outcomesIn (g : Globals) (kind : CallKind) (t : Turn) (events : List Event) : List Outcome :=
  ((callKinds events).filter (· = kind)).map (t.outcome g)

/-- What the calls of one kind return over some turns of a client, in order. -/
def outcomesOf (g : Globals) (kind : CallKind) (steps : List ClientStep) : List Outcome :=
  steps.flatMap fun step => outcomesIn g kind step.input step.output

/-- Of every kind, the n-th call returns the same in both. -/
def SameOutcomes (g : Globals) (steps steps' : List ClientStep) : Prop :=
  ∀ kind, AgreeAt (outcomesOf g kind steps) (outcomesOf g kind steps')

theorem outcomesIn_of_makes (g : Globals) {t : Turn} {conn : Connection} {kind : CallKind}
    (makes : conn.Makes t kind) :
    outcomesIn g kind t (serveConnection g t conn).2 = [t.outcome g kind] := by
  obtain ⟨nodup, mem⟩ := makesCalls_serveConnection g t conn
  unfold outcomesIn
  rw [List.filter_eq, List.count_eq_one_of_mem nodup ((mem kind).mpr makes)]
  rfl

theorem outcomesIn_of_not_makes (g : Globals) {t : Turn} {conn : Connection} {kind : CallKind}
    (makes : ¬ conn.Makes t kind) : outcomesIn g kind t (serveConnection g t conn).2 = [] := by
  obtain ⟨-, mem⟩ := makesCalls_serveConnection g t conn
  unfold outcomesIn
  rw [List.filter_eq, List.count_eq_zero_of_not_mem (fun here => makes ((mem kind).mp here))]
  rfl

section

variable {g : Globals} {t t' : Turn} {conn conn' : Connection}

/-- Two turns that both make a call of the kind, or both none. -/
theorem outcome_of_agreeAt {kind : CallKind} {rest rest' : List Outcome}
    (agree : AgreeAt (outcomesIn g kind t (serveConnection g t conn).2 ++ rest)
      (outcomesIn g kind t' (serveConnection g t' conn').2 ++ rest'))
    (both : conn.Makes t kind ↔ conn'.Makes t' kind) :
    (conn.Makes t kind → t'.outcome g kind = t.outcome g kind) ∧ AgreeAt rest rest' := by
  by_cases makes : conn.Makes t kind
  · rw [outcomesIn_of_makes g makes, outcomesIn_of_makes g (both.mp makes)] at agree
    obtain ⟨same, later⟩ := agree.of_append rfl
    refine ⟨fun _ => ?_, later⟩
    simpa using same.symm
  · rw [outcomesIn_of_not_makes g makes, outcomesIn_of_not_makes g (mt both.mpr makes)] at agree
    exact ⟨fun here => absurd here makes, agree⟩

/-- The command a turn brings is in what it reads. -/
theorem Turn.commandFor_of_readOutcome (same : t'.readOutcome = t.readOutcome) :
    t'.commandFor conn = t.commandFor conn ∧ t'.recv.bytes = t.recv.bytes := by
  unfold Turn.commandFor
  obtain ⟨chunk, here, there⟩ | ⟨here, there⟩ | ⟨errno, errno', here, there, -⟩ :=
    Turn.recv_cases same
  · rw [here, there]
    exact ⟨rfl, rfl⟩
  · rw [here, there]
    exact ⟨rfl, rfl⟩
  · rw [here, there]
    exact ⟨rfl, rfl⟩

/-- A turn that brings a command reads. -/
theorem receives_of_commandFor {verb : SMTPCommand} (smtp : conn.type = .smtp)
    (brings : t.commandFor conn = some verb) : conn.Receives t := by
  obtain ⟨chunk, param, ⟨live, opened, negotiating⟩, -⟩ := exists_of_commandFor brings
  exact ⟨live, Or.inr (Or.inr ⟨smtp, opened, negotiating⟩)⟩

/-- **Call by call.**  The calls of a turn depend on the record and on what the calls
    before returned, so twins make the same calls and are told the same. -/
theorem toldSame_of_agreeAt {rest rest' : CallKind → List Outcome} (twins : Twins conn conn')
    (agree : ∀ kind, AgreeAt (outcomesIn g kind t (serveConnection g t conn).2 ++ rest kind)
      (outcomesIn g kind t' (serveConnection g t' conn').2 ++ rest' kind)) :
    ToldSame g conn t t' ∧ ∀ kind, AgreeAt (rest kind) (rest' kind) := by
  obtain ⟨block, time, rfl⟩ := twins.record
  -- `SSL_accept` is called or not by the record alone
  obtain ⟨accept, laterAccept⟩ := outcome_of_agreeAt (agree .accept) Iff.rfl
  have accept' : conn.Negotiates → t'.acceptOutcome = t.acceptOutcome := by
    intro makes
    have same := accept makes
    simp only [Turn.outcome, Outcome.accept.injEq] at same
    exact Prod.ext same.1 same.2
  -- of the reads, that of HTTPS waits for it
  have bothRead : conn.Receives t ↔ (conn.twin block time).Receives t' := by
    refine and_congr_right fun live => or_congr Iff.rfl (or_congr ?_ Iff.rfl)
    refine and_congr_right fun https => ?_
    rw [(Prod.mk.inj (accept' ⟨live, Or.inr (Or.inl https)⟩)).1]
  obtain ⟨read, laterRead⟩ := outcome_of_agreeAt (agree .read) bothRead
  have read' : conn.Receives t → t'.readOutcome = t.readOutcome := by
    intro makes
    have same := read makes
    simpa only [Turn.outcome, Outcome.read.injEq] using same
  -- the other two depend on what was read
  have bothMemory : conn.Allocates t ↔ (conn.twin block time).Allocates t' := by
    refine and_congr_right fun smtp => and_congr_right fun live => and_congr_right fun data => ?_
    have reading : conn.Receives t :=
      ⟨live, Or.inr (Or.inr ⟨smtp, by rw [data]; decide, by rw [data]; decide⟩)⟩
    rw [(@Turn.commandFor_of_readOutcome t t' conn (read' reading)).2]
    rfl
  have bothNew : conn.Upgrades t ↔ (conn.twin block time).Upgrades t' := by
    refine and_congr_right fun smtp => ?_
    have same : t'.commandFor (conn.twin block time) = t'.commandFor conn := rfl
    rw [same]
    constructor
    · intro brings
      rw [(Turn.commandFor_of_readOutcome (read' (receives_of_commandFor smtp brings))).1]
      exact brings
    · intro brings
      have reading : conn.Receives t := by
        obtain ⟨live, http | ⟨https, -⟩ | mail⟩ := receives_of_commandFor smtp brings
        · exact ⟨live, Or.inl http⟩
        · rw [smtp] at https
          cases https
        · exact ⟨live, Or.inr (Or.inr mail)⟩
      rw [← (Turn.commandFor_of_readOutcome (read' reading)).1]
      exact brings
  obtain ⟨memory, laterMemory⟩ := outcome_of_agreeAt (agree .memory) bothMemory
  obtain ⟨sslNew, laterNew⟩ := outcome_of_agreeAt (agree .sslNew) bothNew
  refine ⟨⟨accept', read', ?_, ?_⟩, ?_⟩
  · intro makes
    have same := memory makes
    simpa only [Turn.outcome, Outcome.memory.injEq] using same
  · intro makes
    have same := sslNew makes
    simpa only [Turn.outcome, Outcome.sslNew.injEq] using same
  · intro kind
    cases kind with
    | accept => exact laterAccept
    | read => exact laterRead
    | memory => exact laterMemory
    | sslNew => exact laterNew

/-! ## Two sessions -/

/-- What a client and its record show of a turn. -/
structure SameStep (step step' : ClientStep) : Prop where
  shown : step'.output.filter Event.shown = step.output.filter Event.shown
  after : Option.Rel Twins step.after step'.after

/-- **Lockstep.**  Two sessions of twins whose calls return the same, one by one, take the
    same steps as far as both go. -/
theorem sameStep_of_sameOutcomes {steps steps' : List ClientStep} (twins : Twins conn conn')
    (follows : (session g).Follows (some conn) steps)
    (follows' : (session g).Follows (some conn') steps') (same : SameOutcomes g steps steps')
    (fits : ∀ step ∈ steps, Turn.ReplyFits g step.before step.input) :
    ∀ (n : Nat) (step step' : ClientStep), steps[n]? = some step → steps'[n]? = some step' →
      SameStep step step' := by
  induction steps generalizing conn conn' steps' with
  | nil => simp
  | cons first steps ih =>
    cases steps' with
    | nil => simp
    | cons first' steps' =>
      obtain ⟨before, t, output, after⟩ := first
      obtain ⟨before', t', output', after'⟩ := first'
      obtain ⟨here, now, later⟩ := follows
      obtain ⟨here', now', later'⟩ := follows'
      cases here
      cases here'
      have kept : (serveConnection g t before).1 = after := congrArg Prod.fst now
      have kept' : (serveConnection g t' before').1 = after' := congrArg Prod.fst now'
      have calls : (serveConnection g t before).2 = output := congrArg Prod.snd now
      have calls' : (serveConnection g t' before').2 = output' := congrArg Prod.snd now'
      obtain ⟨fitsNow, fitsLater⟩ := List.forall_mem_cons.mp fits
      have agree : ∀ kind, AgreeAt
          (outcomesIn g kind t (serveConnection g t before).2 ++ outcomesOf g kind steps)
          (outcomesIn g kind t' (serveConnection g t' before').2 ++ outcomesOf g kind steps') := by
        rw [calls, calls']
        exact same
      obtain ⟨told, sameLater⟩ := toldSame_of_agreeAt twins agree
      obtain ⟨shown, next⟩ := twins_serveConnection twins told fitsNow
      rw [calls, calls'] at shown
      rw [kept, kept'] at next
      intro n step step' at' at''
      cases n with
      | zero =>
        simp only [List.getElem?_cons_zero, Option.some.injEq] at at' at''
        rw [← at', ← at'']
        exact ⟨shown, next⟩
      | succ n =>
        rw [List.getElem?_cons_succ] at at' at''
        cases next with
        | some next => exact ih next later later' sameLater fitsLater n step step' at' at''
        | none =>
          -- a session that is over has no more steps
          cases steps with
          | nil => cases at'
          | cons => cases later.1

end

/-! ## One client of the master thread -/

/-- The record of the client on the socket `fd`, among those waiting. -/
def findClient (fd : Fd) (held : List Connection) : Option Connection :=
  held.find? fun conn => conn.clientsocket = fd

/-- The turn that a step gives to the client on the socket `fd`. -/
def pickTurn (fd : Fd) (held : List Connection) : MasterInput → Option Turn
  | .process p => (held.head?.filter fun conn => conn.clientsocket = fd).map fun _ => p.turn
  | .accept _ _ => none

def clientView (fd : Fd) (queue : ConnectionQueue) : Option Connection :=
  findClient fd queue.contents

def clientPick (fd : Fd) (queue : ConnectionQueue) : MasterInput → Option Turn :=
  pickTurn fd queue.contents

/-- The turns of the client on the socket `fd` in a run of the master thread, up to the
    one with which its connection ends. -/
def clientTurns (srv : Server) (fd : Fd) : ConnectionQueue → List MasterInput → List ClientStep :=
  (master srv).project (clientView fd) (clientPick fd)

/-- No two waiting connections have the same socket. -/
def DistinctSockets (queue : ConnectionQueue) : Prop :=
  (queue.contents.map Connection.clientsocket).Nodup

instance (queue : ConnectionQueue) : Decidable (DistinctSockets queue) :=
  inferInstanceAs (Decidable (List.Nodup _))

/-- The mutex calls succeed, and `accept` gives a socket that is not in use. -/
def distinctStep (queue : ConnectionQueue) (input : MasterInput) : Prop :=
  input.MutexOk ∧ match input with
    | .accept _ a => a.ret ∉ queue.contents.map Connection.clientsocket
    | .process _ => True

instance : ∀ queue input, Decidable (distinctStep queue input)
  | _, .accept _ _ => inferInstanceAs (Decidable (_ ∧ _ ∉ _))
  | _, .process _ => inferInstanceAs (Decidable (_ ∧ True))

theorem findClient_eq_none {fd : Fd} {held : List Connection}
    (other : fd ∉ held.map Connection.clientsocket) : findClient fd held = none := by
  apply List.find?_eq_none.mpr
  intro conn mem same
  exact other (List.mem_map.mpr ⟨conn, mem, by simpa using same⟩)

/-- A connection that is kept goes to the end of those waiting, with its socket. -/
theorem findClient_served {g : Globals} {t : Turn} {conn : Connection} {rest : List Connection}
    {fd : Fd} (distinct : conn.clientsocket ∉ rest.map Connection.clientsocket) :
    findClient fd (rest ++ (serveConnection g t conn).1.toList) =
      if conn.clientsocket = fd then (serveConnection g t conn).1 else findClient fd rest := by
  unfold findClient
  rw [List.find?_append]
  split
  · rename_i same
    rw [← same]
    have none' : rest.find? (fun other => other.clientsocket = conn.clientsocket) = none :=
      findClient_eq_none distinct
    rw [none']
    cases kept : (serveConnection g t conn).1 with
    | none => rfl
    | some conn' => simp [clientsocket_serveConnection kept]
  · rename_i other
    cases kept : (serveConnection g t conn).1 with
    | none => simp
    | some conn' => simp [clientsocket_serveConnection kept, other]

section

variable {srv : Server} {held next : List Connection} {input : MasterInput} {events : List Event}

/-- A step keeps the sockets distinct. -/
theorem MasterStep.distinct (step : MasterStep srv held input next events)
    (distinct : (held.map Connection.clientsocket).Nodup)
    (fresh : ∀ type a, input = .accept type a → a.ret ∉ held.map Connection.clientsocket) :
    (next.map Connection.clientsocket).Nodup := by
  cases step with
  | quiet | rejected | idle => exact distinct
  | accepted type a =>
    rw [List.map_append, List.map_singleton, clientsocket_acceptedConnection]
    rw [← List.concat_eq_append]
    exact distinct.concat (fresh type a rfl)
  | served p conn rest front =>
    rw [front, List.map_cons, List.nodup_cons] at distinct
    rw [List.map_append]
    cases kept : (serveConnection srv.toGlobals p.turn conn).1 with
    | none => simpa using distinct.2
    | some conn' =>
      rw [Option.toList_some, List.map_singleton, clientsocket_serveConnection kept,
        ← List.concat_eq_append]
      exact distinct.2.concat distinct.1

/-- A step that gives the client a turn takes the step of its session. -/
theorem MasterStep.serves (step : MasterStep srv held input next events)
    (distinct : (held.map Connection.clientsocket).Nodup) {fd : Fd} {c : Connection} {t : Turn}
    (here : findClient fd held = some c) (picked : pickTurn fd held input = some t) :
    serveConnection srv.toGlobals t c = (findClient fd next, events) := by
  cases step with
  | quiet | rejected | accepted => cases picked
  | idle _ empty =>
    rw [empty] at here
    cases here
  | served p conn rest front =>
    rw [front, List.map_cons, List.nodup_cons] at distinct
    rw [front] at here picked
    -- the first of those waiting is the client
    have mine : conn.clientsocket = fd := by
      by_contra other
      simp [pickTurn, other] at picked
    have turn : p.turn = t := by simpa [pickTurn, mine] using picked
    have record : conn = c := by simpa [findClient, mine] using here
    rw [findClient_served distinct.1, if_pos mine, turn, record]

/-- A step that gives the client no turn leaves its record. -/
theorem MasterStep.leaves (step : MasterStep srv held input next events)
    (distinct : (held.map Connection.clientsocket).Nodup) {fd : Fd} {c : Connection}
    (here : findClient fd held = some c) (picked : pickTurn fd held input = none) :
    findClient fd next = some c := by
  cases step with
  | quiet | rejected | idle => exact here
  | accepted =>
    unfold findClient at here ⊢
    rw [List.find?_append, here]
    rfl
  | served p conn rest front =>
    rw [front, List.map_cons, List.nodup_cons] at distinct
    rw [front] at here picked
    have other : conn.clientsocket ≠ fd := by
      intro mine
      simp [pickTurn, mine] at picked
    rw [findClient_served distinct.1, if_neg other]
    simpa [findClient, other] using here

end

/-- **One client's view.**  With working mutex calls and distinct sockets the master thread
    serves each client as its own session does. -/
theorem master_simulates (srv : Server) (fd : Fd) :
    Machine.Simulates (master srv) (session srv.toGlobals) (clientView fd) (clientPick fd)
      (fun queue => queue.Wf ∧ DistinctSockets queue) distinctStep := by
  refine ⟨?_, ?_, ?_⟩
  · rintro queue input ⟨wf, distinct⟩ ⟨ok, fresh⟩
    refine ⟨wf_masterStep srv wf input, (masterStep_moves srv wf ok).distinct distinct ?_⟩
    rintro type a rfl
    exact fresh
  · rintro queue input c t ⟨wf, distinct⟩ ⟨ok, -⟩ here picked
    exact (masterStep_moves srv wf ok).serves distinct here picked
  · rintro queue input c ⟨wf, distinct⟩ ⟨ok, -⟩ here picked
    exact (masterStep_moves srv wf ok).leaves distinct here picked

/-! ## Two runs -/

theorem BufferInv.twins_self {h : List Observed} {conn : Connection} (inv : BufferInv h conn) :
    Twins conn conn := by
  refine ⟨⟨_, _, rfl⟩, rfl, inv.ok.inside, ?_⟩
  by_cases data : conn.state = .mailExpectData
  · exact ⟨_, inv.inside data, inv.inside data⟩
  · obtain ⟨count, size⟩ := inv.outside data
    obtain ⟨-, holds⟩ := BufferOk.empty (inv.ok.null.mpr count) count size
    exact ⟨[], holds, holds⟩

/-- The other services have no message buffer. -/
theorem noBuffer_of_session {g : Globals} {a : AcceptTurn} {type : ConnectionType}
    {strat : SslStrategy} (other : type ≠ .smtp) {h : SessionHistory} {s : Option Connection}
    (reaches : (session g).Reaches (· = some (acceptedConnection g a type strat))
      Machine.anyStep h s) :
    ∀ conn, s = some conn → conn.type ≠ .smtp ∧ conn.messagebuffer = none ∧ conn.alloccount = 0 ∧
      conn.messagebufferend = 0 := by
  induction reaches with
  | start here =>
    rintro conn rfl
    cases here
    rw [type_acceptedConnection]
    exact ⟨other, rfl, rfl, rfl⟩
  | @step h s t reaches ok ih =>
    intro conn' kept
    cases s with
    | none => cases kept
    | some conn =>
      obtain ⟨other, none', count, size⟩ := ih conn rfl
      have same := connectionHandler_conn g t other
      obtain ⟨-, rfl⟩ | ⟨-, rfl⟩ := serveConnection_of_kept kept
      · rw [same]
        exact ⟨other, none', count, size⟩
      · rw [same]
        exact ⟨other, rfl, rfl, rfl⟩

/-- A record that waits in a queue of the master thread is a twin of itself. -/
theorem twins_self_of_queued {srv : Server} {h : MasterHistory} {queue : ConnectionQueue}
    (reaches : (master srv).Reaches (· = connQueueInit) mutexOk h queue) {conn : Connection}
    (waits : conn ∈ queue.contents) : Twins conn conn := by
  obtain ⟨own, a, type, lived⟩ := (queued_session reaches).2 conn waits
  by_cases smtp : type = .smtp
  · subst smtp
    have start : (session srv.toGlobals).Reaches (smtpStart srv.toGlobals) Machine.anyStep own
        (some conn) := lived.widen fun s here => ⟨a, _, here⟩
    exact (bufferInv_session start conn rfl).2.2.twins_self
  · obtain ⟨-, none', count, size⟩ := noBuffer_of_session smtp lived conn rfl
    obtain ⟨ok, holds⟩ := BufferOk.empty none' count size
    exact ⟨⟨_, _, rfl⟩, rfl, ok.inside, [], holds, holds⟩

theorem findClient_of_mem {held : List Connection} {conn : Connection}
    (distinct : (held.map Connection.clientsocket).Nodup) (mem : conn ∈ held) :
    findClient conn.clientsocket held = some conn := by
  induction held with
  | nil => cases mem
  | cons first rest ih =>
    rw [List.map_cons, List.nodup_cons] at distinct
    obtain rfl | later := List.mem_cons.mp mem
    · simp [findClient]
    · have other : first.clientsocket ≠ conn.clientsocket := by
        intro same
        exact distinct.1 (same ▸ List.mem_map_of_mem later)
      have found := ih distinct.2 later
      simpa [findClient, other] using found

/-- A run of the master thread with working mutex calls from a queue of its own, with
    distinct sockets throughout. -/
structure MasterRun (srv : Server) (queue : ConnectionQueue) (inputs : List MasterInput) : Prop where
  reached : ∃ h, (master srv).Reaches (· = connQueueInit) mutexOk h queue
  distinct : DistinctSockets queue
  steps : (master srv).Admits (fun _ => distinctStep) [] queue inputs

theorem MasterRun.follows {srv : Server} {queue : ConnectionQueue} {inputs : List MasterInput}
    (run : MasterRun srv queue inputs) {conn : Connection} (waits : conn ∈ queue.contents) :
    (session srv.toGlobals).Follows (some conn)
      (clientTurns srv conn.clientsocket queue inputs) := by
  obtain ⟨h, reached⟩ := run.reached
  exact Machine.project_follows (master_simulates srv conn.clientsocket)
    ⟨(queued_session reached).1, run.distinct⟩ (findClient_of_mem run.distinct waits) run.steps

/-- **Clients do not influence each other.**  Two runs of the master thread, from queues in
    which the same record waits for a client: as far as the client has turns in both, it
    is sent the same, its handlers return the same and its record is the same, if each of
    its calls returns the same and its replies over TLS fit in `msgbuf`. -/
theorem clients_isolated (srv : Server) {queue queue' : ConnectionQueue}
    {inputs inputs' : List MasterInput} (run : MasterRun srv queue inputs)
    (run' : MasterRun srv queue' inputs') {conn : Connection} (waits : conn ∈ queue.contents)
    (waits' : conn ∈ queue'.contents)
    (same : SameOutcomes srv.toGlobals (clientTurns srv conn.clientsocket queue inputs)
      (clientTurns srv conn.clientsocket queue' inputs'))
    (fits : ∀ step ∈ clientTurns srv conn.clientsocket queue inputs,
      Turn.ReplyFits srv.toGlobals step.before step.input) :
    ∀ (n : Nat) (step step' : ClientStep),
      (clientTurns srv conn.clientsocket queue inputs)[n]? = some step →
      (clientTurns srv conn.clientsocket queue' inputs')[n]? = some step' →
      SameStep step step' := by
  obtain ⟨h, reached⟩ := run.reached
  exact sameStep_of_sameOutcomes (twins_self_of_queued reached waits) (run.follows waits)
    (run'.follows waits') same fits

/-! ## Clients to try -/

theorem SameOutcomes.of_eq {g : Globals} {steps steps' : List ClientStep}
    (equal : ∀ kind, outcomesOf g kind steps = outcomesOf g kind steps') :
    SameOutcomes g steps steps' := by
  intro kind
  rw [equal kind]
  exact AgreeAt.refl _

/-- In clear there is no buffer to overrun. -/
theorem Turn.ReplyFits.of_plain {g : Globals} {conn : Connection} {t : Turn}
    (plain : conn.sslconn = none) : Turn.ReplyFits g conn t :=
  ⟨fun tls => absurd plain tls, fun tls => absurd plain tls⟩

/-- A queue reached from the empty one, and inputs to go on with. -/
theorem MasterRun.of_admits {srv : Server} {before inputs : List MasterInput}
    (admitted : (master srv).Admits mutexOk [] connQueueInit before)
    (distinct : DistinctSockets ((master srv).trace [] connQueueInit before).2)
    (steps : (master srv).Admits (fun _ => distinctStep) []
      ((master srv).trace [] connQueueInit before).2 inputs) :
    MasterRun srv ((master srv).trace [] connQueueInit before).2 inputs := by
  have idle : (master srv).Reaches (· = connQueueInit) mutexOk [] connQueueInit := .start rfl
  exact ⟨⟨_, idle.trace before admitted⟩, distinct, steps⟩

/-- Client 5 is accepted. -/
def clientComes : List MasterInput := [.accept .smtp (.onSocket 5 Connection.zero)]

/-- The greeting and an EHLO, with nobody else there. -/
def aloneInputs : List MasterInput := [.process (.serves .silent), .process (.serves ehloTurn)]

/-- The same, with a second client that begins to send a message. -/
def crowdedInputs : List MasterInput :=
  [.accept .smtp (.onSocket 6 Connection.zero), .process (.serves .silent),
   .process (.serves .silent), .process (.serves ehloTurn), .process (.serves dataTurn)]

theorem clients_isolated_mailey :
    let srv := serverWith (some 1)
    let queue := ((master srv).trace [] connQueueInit clientComes).2
    (clientTurns srv 5 queue aloneInputs).length = 2 ∧
      ∀ (n : Nat) (step step' : ClientStep),
        (clientTurns srv 5 queue aloneInputs)[n]? = some step →
        (clientTurns srv 5 queue crowdedInputs)[n]? = some step' → SameStep step step' := by
  intro srv queue
  obtain ⟨conn, waits, socket⟩ : ∃ conn ∈ queue.contents, conn.clientsocket = 5 := by
    decide +kernel
  have run : MasterRun srv queue aloneInputs :=
    .of_admits (by decide +kernel) (by decide +kernel) (by decide +kernel)
  have run' : MasterRun srv queue crowdedInputs :=
    .of_admits (by decide +kernel) (by decide +kernel) (by decide +kernel)
  have same : SameOutcomes srv.toGlobals (clientTurns srv 5 queue aloneInputs)
      (clientTurns srv 5 queue crowdedInputs) := by
    apply SameOutcomes.of_eq
    intro kind
    cases kind <;> decide +kernel
  have plain : ∀ step ∈ clientTurns srv 5 queue aloneInputs, step.before.sslconn = none := by
    decide +kernel
  have isolated := clients_isolated srv run run' waits waits
  rw [socket] at isolated
  exact ⟨by decide +kernel,
    isolated same fun step mem => Turn.ReplyFits.of_plain (plain step mem)⟩

/-- The server of the longest mail domain that `dns_init` accepts. -/
def longNameServer : Server :=
  { serverWith (some 1) with maildomain := List.replicate 254 97 ++ [0] }

/-- Client 5 comes and changes to TLS. -/
def clientUpgrades : List MasterInput :=
  clientComes ++ [.process (.serves .silent), .process (.serves starttlsTurn),
    .process (.serves { Turn.silent with sslAccept := 1 })]

/-- An EHLO, with nobody else there. -/
def aloneEhlo : List MasterInput := [.process (.serves ehloTurn)]

/-- The same EHLO after another client has come, whose bytes are on the stack. -/
def crowdedEhlo : List MasterInput :=
  [.accept .smtp (.onSocket 6 Connection.zero),
   .process (.serves { ehloTurn with spill := fun _ => 98 })]

/-- Over TLS the reply to EHLO does not fit, and shows the client what others left on the
    stack. -/
theorem overlong_reply_shows_stack :
    let srv := longNameServer
    let queue := ((master srv).trace [] connQueueInit clientUpgrades).2
    dnsInit (some (List.replicate 254 97)) = some srv.maildomain ∧
      MasterRun srv queue aloneEhlo ∧ MasterRun srv queue crowdedEhlo ∧
      (∃ conn ∈ queue.contents, conn.clientsocket = 5) ∧
      SameOutcomes srv.toGlobals (clientTurns srv 5 queue aloneEhlo)
        (clientTurns srv 5 queue crowdedEhlo) ∧
      ∃ step step', (clientTurns srv 5 queue aloneEhlo)[0]? = some step ∧
        (clientTurns srv 5 queue crowdedEhlo)[0]? = some step' ∧ ¬ SameStep step step' := by
  intro srv queue
  refine ⟨by decide +kernel, ?_, ?_, by decide +kernel, ?_, ?_⟩
  · exact .of_admits (by decide +kernel) (by decide +kernel) (by decide +kernel)
  · exact .of_admits (by decide +kernel) (by decide +kernel) (by decide +kernel)
  · apply SameOutcomes.of_eq
    intro kind
    cases kind <;> decide +kernel
  · have differ : (clientTurns srv 5 queue aloneEhlo)[0]?.map (fun step => step.output.filter Event.shown) ≠
        (clientTurns srv 5 queue crowdedEhlo)[0]?.map (fun step => step.output.filter Event.shown) := by
      decide +kernel
    have here : ((clientTurns srv 5 queue aloneEhlo)[0]?).isSome := by decide +kernel
    have there : ((clientTurns srv 5 queue crowdedEhlo)[0]?).isSome := by decide +kernel
    obtain ⟨step, here⟩ := Option.isSome_iff_exists.mp here
    obtain ⟨step', there⟩ := Option.isSome_iff_exists.mp there
    refine ⟨step, step', here, there, fun same => ?_⟩
    rw [here, there] at differ
    exact differ (congrArg some same.shown.symm)

end Femail
