import Mathlib.Data.List.Rotate
import Femail.Verified.Session

/-! # Tickets

A record in the queue does not say which connection it is: it is copied out, served
and copied back, and two clients can have equal records.  A run is therefore told with
tickets.  Every `accept` takes the next number, and the tickets of the waiting
connections move as their records do.

`LineStep` says what a step does to the line of tickets and records, for every outcome
of the mutex calls that releases the lock after an update.  `connection_law` is the
induction rule that goes with it: a law between the calls made for one connection and
its record, kept by each thing that can happen to the connection, holds of every
connection in every run.
-/

namespace Femail

open Foundation

/-- The tickets of the waiting connections in the order of the queue, and the number
    of those handed out. -/
structure Tickets where
  waiting : List Nat
  issued : Nat
deriving DecidableEq

/-- The ticket a step is about: an `accept` concerns the next one, a
    `process_connection` that gets the lock the first in the line. -/
def Tickets.owner (tickets : Tickets) : MasterInput → Option Nat
  | .accept _ _ => some tickets.issued
  | .process p => if p.dequeueLock then tickets.waiting.head? else none

def Tickets.step (srv : Server) (tickets : Tickets) (queue : ConnectionQueue)
    (input : MasterInput) : Tickets :=
  let count := (masterStep srv queue input).1.count
  match input with
  | .accept _ _ =>
    { waiting :=
        if count = queue.count then tickets.waiting else tickets.waiting ++ [tickets.issued]
      issued := tickets.issued + 1 }
  | .process p =>
    { tickets with
      waiting :=
        if p.dequeueLock = false then tickets.waiting
        -- a queue as long as before has the first connection at its end
        else if count = queue.count then tickets.waiting.rotate 1
        else tickets.waiting.tail }

def ticketsAfter (srv : Server) : MasterHistory → Tickets
  | [] => ⟨[], 0⟩
  | e :: older => (ticketsAfter srv older).step srv e.before e.input

/-- The calls made for the connection with ticket `n`, oldest first. -/
def callsFor (srv : Server) (n : Nat) : MasterHistory → List Event
  | [] => []
  | e :: older =>
    callsFor srv n older ++
      if (ticketsAfter srv older).owner e.input = some n then e.output else []

/-- The waiting connections with their tickets. -/
def line (srv : Server) (h : MasterHistory) (queue : ConnectionQueue) : List (Nat × Connection) :=
  (ticketsAfter srv h).waiting.zip queue.contents

/-- An operation that updates the queue also releases its lock. -/
def unlocks (queue : ConnectionQueue) : MasterInput → Prop
  | .accept _ a => Releases a.lock a.unlock (queue.count = connectionQueueCapacity)
  | .process p =>
    Releases p.dequeueLock p.dequeueUnlock (queue.count = 0) ∧
      Releases p.enqueueLock p.enqueueUnlock False

instance (queue : ConnectionQueue) : DecidablePred (unlocks queue)
  | .accept _ _ => inferInstanceAs (Decidable (_ → _ → _))
  | .process _ => inferInstanceAs (Decidable ((_ → _ → _) ∧ (_ → _ → _)))

/-- The turn a `process_connection` gives is one that `ok` allows the first connection. -/
def turnOk (ok : Turn → Connection → Prop) (queue : ConnectionQueue) : MasterInput → Prop
  | .accept _ _ => True
  | .process p => p.dequeueLock = true → ∀ conn ∈ queue.contents.head?, ok p.turn conn

instance (ok : Turn → Connection → Prop) [∀ t conn, Decidable (ok t conn)]
    (queue : ConnectionQueue) : DecidablePred (turnOk ok queue)
  | .accept _ _ => .isTrue trivial
  | .process _ => inferInstanceAs (Decidable (_ → ∀ conn ∈ _, _))

theorem unlocks_of_mutexOk (queue : ConnectionQueue) {input : MasterInput} (ok : input.MutexOk) :
    unlocks queue input := by
  cases input with
  | accept type a => exact fun _ _ => ok.2
  | process p => exact ⟨fun _ _ => ok.2.1, fun _ _ => ok.2.2.2⟩

/-! ## One step -/

/-- What a step does to the line, and the calls it makes. -/
inductive LineStep (srv : Server) (line : List (Nat × Connection)) (issued : Nat) :
    MasterInput → List (Nat × Connection) → List Event → Prop where
  | quiet (type : ConnectionType) (a : AcceptTurn) :
      LineStep srv line issued (.accept type a) line []
  | refused (type : ConnectionType) (a : AcceptTurn) : srv.active type = true → a.ret ≠ -1 →
      LineStep srv line issued (.accept type a) line
        (.accept a.ret :: (newConnection srv.toGlobals a type (srv.strategy type)).2 ++
          connectionDeinit (acceptedConnection srv.toGlobals a type (srv.strategy type)))
  | accepted (type : ConnectionType) (a : AcceptTurn) : srv.active type = true → a.ret ≠ -1 →
      LineStep srv line issued (.accept type a)
        (line ++ [(issued, acceptedConnection srv.toGlobals a type (srv.strategy type))])
        (.accept a.ret :: (newConnection srv.toGlobals a type (srv.strategy type)).2)
  | idle (p : ProcessTurn) : p.dequeueLock = false ∨ line = [] →
      LineStep srv line issued (.process p) line []
  | served (p : ProcessTurn) (n : Nat) (conn : Connection) (rest : List (Nat × Connection)) :
      p.dequeueLock = true → line = (n, conn) :: rest →
      LineStep srv line issued (.process p)
        (rest ++ (serveConnection srv.toGlobals p.turn conn).1.toList.map fun conn => (n, conn))
        (serveConnection srv.toGlobals p.turn conn).2
  | dropped (p : ProcessTurn) (n : Nat) (conn conn' : Connection) (rest : List (Nat × Connection)) :
      p.dequeueLock = true → p.enqueueLock = false → line = (n, conn) :: rest →
      (serveConnection srv.toGlobals p.turn conn).1 = some conn' →
      LineStep srv line issued (.process p) rest
        ((serveConnection srv.toGlobals p.turn conn).2 ++ connectionDeinit conn')

section

variable (srv : Server) {queue : ConnectionQueue} {tickets : Tickets}

/-- An `accept` brings no connection, one that is turned away, or one that is queued. -/
theorem acceptStep_cases (type : ConnectionType) (a : AcceptTurn)
    (released : unlocks queue (.accept type a)) :
    let conn := acceptedConnection srv.toGlobals a type (srv.strategy type)
    let calls := .accept a.ret :: (newConnection srv.toGlobals a type (srv.strategy type)).2
    let next := masterStep srv queue (.accept type a)
    next = (queue, []) ∨
      (srv.active type = true ∧ a.ret ≠ -1 ∧ next = (queue, calls ++ connectionDeinit conn)) ∨
      (srv.active type = true ∧ a.ret ≠ -1 ∧ queue.count ≠ connectionQueueCapacity ∧
        next = (queue.put conn, calls)) := by
  intro conn calls next
  by_cases up : srv.active type = true
  · have handled : next = (handleConnection srv.toGlobals a type (srv.strategy type) queue).2 := by
      simp [next, masterStep, up]
    by_cases failed : a.ret = -1
    · exact Or.inl (handled.trans (handleConnection_of_failed _ _ _ _ failed))
    · rw [handleConnection_of_accepted _ _ _ _ failed, connQueueEnqueue_eq] at handled
      by_cases updates : a.lock = true ∧ queue.count ≠ connectionQueueCapacity
      · have unlocked : a.unlock = true := released updates.1 updates.2
        rw [if_pos updates, unlocked] at handled
        refine Or.inr (Or.inr ⟨up, failed, updates.2, handled.trans ?_⟩)
        simp [calls, conn, acceptedConnection]
      · rw [if_neg updates] at handled
        exact Or.inr (Or.inl ⟨up, failed, handled⟩)
  · refine Or.inl ?_
    simp [next, masterStep, up]

/-- A `process_connection` finds nothing to take, or serves the first connection, which
    goes to the end of the queue or is deinitialised. -/
theorem processStep_cases (wf : queue.Wf) (p : ProcessTurn)
    (released : unlocks queue (.process p)) :
    let next := masterStep srv queue (.process p)
    (next = (queue, []) ∧ (p.dequeueLock = false ∨ queue.count = 0)) ∨
      ∃ front rest, p.dequeueLock = true ∧ queue.contents = front :: rest ∧
        let served := serveConnection srv.toGlobals p.turn front
        (next.1.contents = rest ++ served.1.toList ∧ next.2 = served.2) ∨
          ∃ conn, served.1 = some conn ∧ p.enqueueLock = false ∧ next.1.contents = rest ∧
            next.2 = served.2 ++ connectionDeinit conn := by
  intro next
  by_cases takes : p.dequeueLock = true ∧ queue.count ≠ 0
  · obtain ⟨lock, nonempty⟩ := takes
    have taken : (connQueueDequeue p.dequeueLock p.dequeueUnlock queue Connection.zero).1 = 0 := by
      rw [connQueueDequeue_eq, if_pos ⟨lock, nonempty⟩, released.1 lock nonempty]
      rfl
    have finish : next = _ := processConnection_of_taken srv.toGlobals p queue taken
    refine Or.inr ⟨queue.slot queue.tail, queue.take.contents, lock, Ring.contents_take nonempty, ?_⟩
    intro served
    rw [finish]
    cases kept : served.1 with
    | none =>
      have finished : (settleConnection
          (connectionHandler srv.toGlobals p.turn (queue.slot queue.tail))).1 = none := by
        simpa [served, serveConnection] using kept
      rw [finishConnection_of_finished _ _ _ _ finished]
      exact Or.inl ⟨(List.append_nil _).symm, rfl⟩
    | some conn =>
      -- the slot just freed is there for it to go back to
      obtain ⟨relock, back, calls⟩ | ⟨relock, back, calls⟩ :=
        finishConnection_of_served (wf.take nonempty) (wf.take_count_ne nonempty) kept
      · rw [released.2 relock id, if_pos rfl, List.append_nil] at calls
        exact Or.inl ⟨back, calls⟩
      · exact Or.inr ⟨conn, rfl, relock, back, calls⟩
  · refine Or.inl ⟨?_, ?_⟩
    · have failed : (connQueueDequeue p.dequeueLock p.dequeueUnlock queue Connection.zero) =
          (1, queue, Connection.zero) := by
        rw [connQueueDequeue_eq, if_neg takes]
      have fails := processConnection_of_failed srv.toGlobals p queue (by simp [failed])
      rw [failed] at fails
      exact fails
    · cases lock : p.dequeueLock with
      | false => exact Or.inl rfl
      | true => exact Or.inr (by simpa [lock] using takes)

theorem acceptStep_line (wf : queue.Wf) (aligned : tickets.waiting.length = queue.count)
    (type : ConnectionType) (a : AcceptTurn) (released : unlocks queue (.accept type a)) :
    let next := masterStep srv queue (.accept type a)
    let tickets' := tickets.step srv queue (.accept type a)
    tickets'.waiting.length = next.1.count ∧
      LineStep srv (tickets.waiting.zip queue.contents) tickets.issued (.accept type a)
        (tickets'.waiting.zip next.1.contents) next.2 := by
  intro next tickets'
  have same : next.1.count = queue.count → tickets'.waiting = tickets.waiting := fun same => if_pos same
  obtain nothing | ⟨up, given, away⟩ | ⟨up, given, room, queued⟩ :=
    acceptStep_cases srv type a released
  · have waiting := same (congrArg (fun next => next.1.count) nothing)
    rw [waiting, show next = _ from nothing]
    exact ⟨aligned, .quiet type a⟩
  · have waiting := same (congrArg (fun next => next.1.count) away)
    rw [waiting, show next = _ from away]
    exact ⟨aligned, .refused type a up given⟩
  · have grown : next.1.count ≠ queue.count := by
      rw [show next = _ from queued]
      exact Nat.succ_ne_self _
    have waiting : tickets'.waiting = tickets.waiting ++ [tickets.issued] := if_neg grown
    rw [waiting, show next = _ from queued, Ring.contents_put wf room, List.zip_append (by simpa)]
    exact ⟨by simp [aligned, Ring.put], .accepted type a up given⟩

/-- How the line moves when its first ticket is `n`. -/
theorem waiting_process {p : ProcessTurn} {n : Nat} {others : List Nat} (lock : p.dequeueLock = true)
    (waiting : tickets.waiting = n :: others) :
    (tickets.step srv queue (.process p)).waiting =
      if (masterStep srv queue (.process p)).1.count = queue.count then others ++ [n] else others := by
  simp [Tickets.step, lock, waiting]

theorem processStep_line (wf : queue.Wf) (aligned : tickets.waiting.length = queue.count)
    (p : ProcessTurn) (released : unlocks queue (.process p)) :
    let next := masterStep srv queue (.process p)
    let tickets' := tickets.step srv queue (.process p)
    tickets'.waiting.length = next.1.count ∧
      LineStep srv (tickets.waiting.zip queue.contents) tickets.issued (.process p)
        (tickets'.waiting.zip next.1.contents) next.2 := by
  intro next tickets'
  obtain ⟨nothing, why⟩ | ⟨front, rest, lock, contents, outcome⟩ :=
    processStep_cases srv wf p released
  · have unmoved : tickets'.waiting = tickets.waiting := by
      cases lock : p.dequeueLock with
      | false => exact if_pos lock
      | true =>
        -- an empty line is what it was, however it is turned
        have empty : tickets.waiting = [] := by
          rw [← List.length_eq_zero_iff, aligned]
          simpa [lock] using why
        simp [tickets', Tickets.step, lock, empty]
    rw [unmoved, show next = _ from nothing]
    refine ⟨aligned, .idle p (why.imp_right ?_)⟩
    intro empty
    rw [List.length_eq_zero_iff.mp (aligned.trans empty)]
    rfl
  · have count : queue.count = rest.length + 1 := by
      rw [← Ring.length_contents, contents]
      rfl
    obtain ⟨n, others, waiting⟩ : ∃ n others, tickets.waiting = n :: others :=
      List.exists_cons_of_length_eq_add_one (aligned.trans count)
    have tail : others.length = rest.length := by
      rw [waiting, List.length_cons] at aligned
      omega
    have held : tickets.waiting.zip queue.contents = (n, front) :: others.zip rest := by
      rw [waiting, contents]
      rfl
    have moved : tickets'.waiting = _ := waiting_process srv lock waiting
    have length := Ring.length_contents next.1
    obtain ⟨back, calls⟩ | ⟨conn, served, relock, gone, calls⟩ := outcome
    · have step : LineStep srv _ tickets.issued (.process p) _ _ :=
        .served p n front (others.zip rest) lock held
      rw [show next.1.contents = _ from back] at length ⊢
      rw [show next.2 = _ from calls]
      cases kept : (serveConnection srv.toGlobals p.turn front).1 with
      | none =>
        rw [kept] at length step
        have shorter : next.1.count ≠ queue.count := by
          simp only [Option.toList_none, List.append_nil] at length
          omega
        rw [moved, if_neg shorter, ← length]
        exact ⟨by simpa using tail, by simpa using step⟩
      | some conn =>
        rw [kept] at length step
        have same : next.1.count = queue.count := by
          simp only [Option.toList_some, List.length_append, List.length_singleton] at length
          omega
        rw [moved, if_pos same, ← length, Option.toList_some, List.zip_append tail]
        exact ⟨by simpa using tail, step⟩
    · rw [show next.1.contents = _ from gone] at length ⊢
      have shorter : next.1.count ≠ queue.count := by omega
      rw [moved, if_neg shorter, show next.2 = _ from calls, ← length]
      exact ⟨tail, .dropped p n front conn _ lock relock held served⟩

/-- **One step.**  The tickets stay in line with the records. -/
theorem masterStep_line (wf : queue.Wf) (aligned : tickets.waiting.length = queue.count)
    {input : MasterInput} (released : unlocks queue input) :
    let next := masterStep srv queue input
    let tickets' := tickets.step srv queue input
    tickets'.waiting.length = next.1.count ∧
      LineStep srv (tickets.waiting.zip queue.contents) tickets.issued input
        (tickets'.waiting.zip next.1.contents) next.2 := by
  cases input with
  | accept type a => exact acceptStep_line srv wf aligned type a released
  | process p => exact processStep_line srv wf aligned p released

end

/-! ## Runs -/

/-- The tickets are in line with the records, each is there once, and all of them have
    been handed out. -/
structure InLine (tickets : Tickets) (queue : ConnectionQueue) : Prop where
  wf : queue.Wf
  aligned : tickets.waiting.length = queue.count
  single : tickets.waiting.Nodup
  below : ∀ n ∈ tickets.waiting, n < tickets.issued

theorem InLine.map_line {tickets : Tickets} {queue : ConnectionQueue} (inLine : InLine tickets queue) :
    (tickets.waiting.zip queue.contents).map Prod.fst = tickets.waiting := by
  apply List.map_fst_zip
  rw [inLine.aligned, Ring.length_contents]

theorem inLine_nil (srv : Server) : InLine (ticketsAfter srv []) connQueueInit :=
  ⟨Ring.wf_cleared _, rfl, List.nodup_nil, by simp [ticketsAfter]⟩

theorem LineStep.tickets {srv : Server} {line line' : List (Nat × Connection)} {issued : Nat}
    {input : MasterInput} {events : List Event} (step : LineStep srv line issued input line' events)
    (single : (line.map Prod.fst).Nodup) (below : ∀ n ∈ line.map Prod.fst, n < issued) :
    (line'.map Prod.fst).Nodup ∧
      ∀ n ∈ line'.map Prod.fst, n ∈ line.map Prod.fst ∨
        n = issued ∧ ∃ type a, input = .accept type a := by
  cases step with
  | quiet | refused | idle => exact ⟨single, fun n mem => Or.inl mem⟩
  | accepted type a =>
    have fresh : issued ∉ line.map Prod.fst := fun mem => Nat.lt_irrefl _ (below _ mem)
    rw [List.map_append]
    refine ⟨?_, ?_⟩
    · exact List.nodup_append_comm.mp (List.nodup_cons.mpr ⟨fresh, single⟩)
    · intro n mem
      obtain old | new := List.mem_append.mp mem
      · exact Or.inl old
      · exact Or.inr ⟨List.mem_singleton.mp new, type, a, rfl⟩
  | served p n conn rest lock first =>
    subst first
    cases kept : (serveConnection srv.toGlobals p.turn conn).1 with
    | none =>
      simp only [Option.toList_none, List.map_nil, List.append_nil]
      exact ⟨(List.nodup_cons.mp single).2, fun n mem => Or.inl (List.mem_cons_of_mem _ mem)⟩
    | some conn' =>
      simp only [Option.toList_some, List.map_append, List.map_cons, List.map_nil]
      refine ⟨List.nodup_append_comm.mp single, fun n' mem => Or.inl ?_⟩
      exact (List.perm_append_singleton n _).mem_iff.mp mem
  | dropped p n conn conn' rest lock relock first =>
    subst first
    exact ⟨(List.nodup_cons.mp single).2, fun n mem => Or.inl (List.mem_cons_of_mem _ mem)⟩

theorem InLine.step {srv : Server} {tickets : Tickets} {queue : ConnectionQueue}
    (inLine : InLine tickets queue) {input : MasterInput} (released : unlocks queue input) :
    InLine (tickets.step srv queue input) (masterStep srv queue input).1 := by
  obtain ⟨aligned, step⟩ := masterStep_line srv inLine.wf inLine.aligned released
  have before := inLine.map_line
  have after : ((tickets.step srv queue input).waiting.zip
      (masterStep srv queue input).1.contents).map Prod.fst = (tickets.step srv queue input).waiting := by
    apply List.map_fst_zip
    rw [aligned, Ring.length_contents]
  obtain ⟨single, mem⟩ := step.tickets (by rw [before]; exact inLine.single)
    (by rw [before]; exact inLine.below)
  rw [after] at single mem
  rw [before] at mem
  refine ⟨wf_masterStep srv inLine.wf input, aligned, single, ?_⟩
  intro n waits
  obtain old | ⟨rfl, type, a, rfl⟩ := mem n waits
  · have known := inLine.below n old
    cases input with
    | accept type a => exact Nat.lt_succ_of_lt known
    | process p => exact known
  · exact Nat.lt_succ_self _

/-! ## Laws of one connection -/

theorem lookup_eq_none_of_notMem {line : List (Nat × Connection)} {n : Nat}
    (absent : n ∉ line.map Prod.fst) : line.lookup n = none := by
  rw [List.lookup_eq_none_iff]
  rintro ⟨m, conn⟩ mem
  simp only [bne_iff_ne]
  rintro rfl
  exact absent (List.mem_map_of_mem mem)

theorem lookup_append_of_ne {line line' : List (Nat × Connection)} {n : Nat}
    (others : ∀ entry ∈ line', entry.1 ≠ n) : (line ++ line').lookup n = line.lookup n := by
  have absent : line'.lookup n = none := by
    apply lookup_eq_none_of_notMem
    intro mem
    obtain ⟨entry, inside, same⟩ := List.mem_map.mp mem
    exact others entry inside same
  rw [List.lookup_append, absent, Option.or_none]

/-- The first of the line is the first of the queue. -/
theorem head?_of_line {waiting : List Nat} {held : List Connection} {n : Nat} {conn : Connection}
    (first : (waiting.zip held).head? = some (n, conn)) : held.head? = some conn := by
  cases waiting with
  | nil => cases first
  | cons m others =>
    cases held with
    | nil => cases first
    | cons front rest =>
      simp only [List.zip_cons_cons, List.head?_cons, Option.some.injEq, Prod.mk.injEq] at first
      rw [first.2]
      rfl

/-- What a step does to the record that waits with one ticket, and the calls it makes for
    it: the record before it, the one after it, and the calls. -/
inductive TicketStep (srv : Server) (line : List (Nat × Connection)) (tickets : Tickets)
    (input : MasterInput) (n : Nat) :
    Option Connection → Option Connection → List Event → Prop where
  | unmoved (record : Option Connection) : (tickets.owner input = some n → n = tickets.issued) →
      TicketStep srv line tickets input n record record []
  | refused (type : ConnectionType) (a : AcceptTurn) : input = .accept type a →
      srv.active type = true → a.ret ≠ -1 → n = tickets.issued →
      TicketStep srv line tickets input n none none
        (.accept a.ret :: (newConnection srv.toGlobals a type (srv.strategy type)).2 ++
          connectionDeinit (acceptedConnection srv.toGlobals a type (srv.strategy type)))
  | accepted (type : ConnectionType) (a : AcceptTurn) : input = .accept type a →
      srv.active type = true → a.ret ≠ -1 → n = tickets.issued →
      TicketStep srv line tickets input n none
        (some (acceptedConnection srv.toGlobals a type (srv.strategy type)))
        (.accept a.ret :: (newConnection srv.toGlobals a type (srv.strategy type)).2)
  | served (p : ProcessTurn) (conn : Connection) : input = .process p → p.dequeueLock = true →
      line.head? = some (n, conn) → tickets.owner input = some n →
      TicketStep srv line tickets input n (some conn)
        (serveConnection srv.toGlobals p.turn conn).1 (serveConnection srv.toGlobals p.turn conn).2
  | dropped (p : ProcessTurn) (conn conn' : Connection) : input = .process p →
      p.dequeueLock = true → p.enqueueLock = false → line.head? = some (n, conn) →
      (serveConnection srv.toGlobals p.turn conn).1 = some conn' →
      TicketStep srv line tickets input n (some conn) none
        ((serveConnection srv.toGlobals p.turn conn).2 ++ connectionDeinit conn')

section

variable {srv : Server} {line line' : List (Nat × Connection)} {tickets : Tickets}
  {input : MasterInput} {events : List Event}

/-- A `process_connection` that gets the lock is about the first of the line alone. -/
theorem owner_of_front {p : ProcessTurn} {first : Nat} {conn : Connection}
    {rest : List (Nat × Connection)} (lock : p.dequeueLock = true)
    (same : ((first, conn) :: rest).map Prod.fst = tickets.waiting) :
    tickets.owner (.process p) = some first ∧ ∀ n, n ≠ first →
      tickets.owner (.process p) ≠ some n ∧ ((first, conn) :: rest).lookup n = rest.lookup n := by
  have owner : tickets.owner (.process p) = some first := by
    simp [Tickets.owner, lock, ← same]
  refine ⟨owner, ?_⟩
  intro n other
  rw [owner, List.lookup_cons, beq_eq_false_iff_ne.mpr other]
  exact ⟨fun owns => other (Option.some.inj owns).symm, rfl⟩

/-- A step of the line is a step of each ticket. -/
theorem LineStep.ticket (step : LineStep srv line tickets.issued input line' events)
    (same : line.map Prod.fst = tickets.waiting) (single : tickets.waiting.Nodup)
    (below : ∀ n ∈ tickets.waiting, n < tickets.issued) (n : Nat) :
    TicketStep srv line tickets input n (line.lookup n) (line'.lookup n)
      (if tickets.owner input = some n then events else []) := by
  have newcomer : line.lookup tickets.issued = none := by
    apply lookup_eq_none_of_notMem
    rw [same]
    exact fun mem => Nat.lt_irrefl _ (below _ mem)
  have acceptOwner : ∀ {type a}, n ≠ tickets.issued → tickets.owner (.accept type a) ≠ some n :=
    fun other owns => other (Option.some.inj owns).symm
  cases step with
  | quiet =>
    rw [ite_self]
    exact .unmoved _ fun owns => (Option.some.inj owns).symm
  | idle p why =>
    rw [ite_self]
    refine .unmoved _ fun owns => ?_
    obtain unlocked | rfl := why
    · simp [Tickets.owner, unlocked] at owns
    · simp [Tickets.owner, ← same] at owns
  | refused type a up given =>
    by_cases own : n = tickets.issued
    · subst own
      rw [newcomer, if_pos (by rfl)]
      exact .refused type a rfl up given rfl
    · rw [if_neg (acceptOwner own)]
      exact .unmoved _ fun owns => absurd owns (acceptOwner own)
  | accepted type a up given =>
    by_cases own : n = tickets.issued
    · subst own
      rw [List.lookup_append, newcomer, if_pos (by rfl), Option.none_or, List.lookup_cons_self]
      exact .accepted type a rfl up given rfl
    · rw [if_neg (acceptOwner own), lookup_append_of_ne (by simpa using Ne.symm own)]
      exact .unmoved _ fun owns => absurd owns (acceptOwner own)
  | served p first conn rest lock front =>
    subst front
    obtain ⟨owner, others⟩ := owner_of_front lock same
    by_cases own : n = first
    · subst own
      rw [← same] at single
      have absent := lookup_eq_none_of_notMem (List.nodup_cons.mp single).1
      have after : (rest ++ (serveConnection srv.toGlobals p.turn conn).1.toList.map
          fun conn => (n, conn)).lookup n = (serveConnection srv.toGlobals p.turn conn).1 := by
        rw [List.lookup_append, absent, Option.none_or]
        cases (serveConnection srv.toGlobals p.turn conn).1 with
        | none => rfl
        | some conn' => exact List.lookup_cons_self
      rw [after, if_pos owner, List.lookup_cons_self]
      exact .served p conn rfl lock rfl owner
    · obtain ⟨other, behind⟩ := others n own
      rw [if_neg other, lookup_append_of_ne (by simpa using fun _ _ => Ne.symm own), behind]
      exact .unmoved _ fun owns => absurd owns other
  | dropped p first conn conn' rest lock relock front kept =>
    subst front
    obtain ⟨owner, others⟩ := owner_of_front lock same
    by_cases own : n = first
    · subst own
      rw [← same] at single
      rw [lookup_eq_none_of_notMem (List.nodup_cons.mp single).1, if_pos owner,
        List.lookup_cons_self]
      exact .dropped p conn conn' rfl lock relock rfl kept
    · obtain ⟨other, behind⟩ := others n own
      rw [if_neg other, behind]
      exact .unmoved _ fun owns => absurd owns other

end

section

variable {srv : Server} {law : List Event → Option Connection → Prop}

/-- A law between the calls made for a connection and its record is kept by a step if it
    begins with the accept, is kept by a turn, and ends with the deinitialisation. -/
theorem TicketStep.lawful {line : List (Nat × Connection)} {tickets : Tickets}
    {input : MasterInput} {n : Nat} {before after : Option Connection} {calls made : List Event}
    (step : TicketStep srv line tickets input n before after made)
    (unborn : n = tickets.issued → calls = []) (held : law calls before)
    (accepts : ∀ type a, input = .accept type a → srv.active type = true → a.ret ≠ -1 →
      law (.accept a.ret :: (newConnection srv.toGlobals a type (srv.strategy type)).2)
        (some (acceptedConnection srv.toGlobals a type (srv.strategy type))))
    (serves : ∀ p conn calls, input = .process p → p.dequeueLock = true →
      line.head? = some (n, conn) → law calls (some conn) →
      law (calls ++ (serveConnection srv.toGlobals p.turn conn).2)
        (serveConnection srv.toGlobals p.turn conn).1)
    (deinits : ∀ calls conn, law calls (some conn) → law (calls ++ connectionDeinit conn) none) :
    law (calls ++ made) after := by
  cases step with
  | unmoved =>
    rw [List.append_nil]
    exact held
  | refused type a input up given own =>
    rw [unborn own, List.nil_append]
    exact deinits _ _ (accepts type a input up given)
  | accepted type a input up given own =>
    rw [unborn own, List.nil_append]
    exact accepts type a input up given
  | served p conn input lock front => exact serves p conn calls input lock front held
  | dropped p conn conn' input lock relock front kept =>
    have turn := serves p conn calls input lock front held
    rw [kept] at turn
    rw [← List.append_assoc]
    exact deinits _ _ turn

/-- What the switch on the handler's result does to a law that holds when the handler
    has returned. -/
theorem serveConnection_law {g : Globals} {t : Turn} {conn : Connection} {calls : List Event}
    (returned : law (calls ++ (connectionHandler g t conn).events ++
      [.handlerReturned (connectionHandler g t conn).result]) (some (connectionHandler g t conn).conn))
    (refreshes : ∀ calls conn now, law calls (some conn) →
      law calls (some { conn with timerefreshed := now }))
    (resets : ∀ calls conn, law calls (some conn) →
      law (calls ++ (resetConnection conn).2) (some (resetConnection conn).1))
    (deinits : ∀ calls conn, law calls (some conn) → law (calls ++ connectionDeinit conn) none) :
    law (calls ++ (serveConnection g t conn).2) (serveConnection g t conn).1 := by
  simp only [serveConnection, settleConnection]
  rw [List.append_cons, ← List.append_assoc, ← List.append_assoc]
  generalize connectionHandler g t conn = handled at returned ⊢
  obtain ⟨result, conn', events⟩ := handled
  cases result with
  | «continue» =>
    rw [List.append_nil]
    exact refreshes _ _ _ returned
  | reset => exact refreshes _ _ _ (resets _ _ returned)
  | done | error => exact deinits _ _ returned

/-- **Laws of one connection.**  A law that begins with the accept of a connection, is
    kept by each of its turns and ends with its deinitialisation holds, in every run, of the
    calls made for every ticket and the record that waits with it. -/
theorem connection_law {allowed : MasterHistory → ConnectionQueue → MasterInput → Prop}
    (released : ∀ h queue input, allowed h queue input → unlocks queue input)
    (initial : law [] none)
    (accepts : ∀ h queue type a, allowed h queue (.accept type a) → srv.active type = true →
      a.ret ≠ -1 → law (.accept a.ret :: (newConnection srv.toGlobals a type (srv.strategy type)).2)
        (some (acceptedConnection srv.toGlobals a type (srv.strategy type))))
    (serves : ∀ h queue p conn calls, allowed h queue (.process p) → p.dequeueLock = true →
      queue.contents.head? = some conn → law calls (some conn) →
      law (calls ++ (serveConnection srv.toGlobals p.turn conn).2)
        (serveConnection srv.toGlobals p.turn conn).1)
    (deinits : ∀ calls conn, law calls (some conn) → law (calls ++ connectionDeinit conn) none)
    {h : MasterHistory} {queue : ConnectionQueue}
    (reaches : (master srv).Reaches (· = connQueueInit) allowed h queue) :
    InLine (ticketsAfter srv h) queue ∧ ∀ n, law (callsFor srv n h) ((line srv h queue).lookup n) := by
  suffices inv : InLine (ticketsAfter srv h) queue ∧
      (∀ n, law (callsFor srv n h) ((line srv h queue).lookup n)) ∧
      ∀ n, (ticketsAfter srv h).issued ≤ n → callsFor srv n h = [] from ⟨inv.1, inv.2.1⟩
  apply Machine.Reaches.invariant (fun h queue => InLine (ticketsAfter srv h) queue ∧
    (∀ n, law (callsFor srv n h) ((line srv h queue).lookup n)) ∧
    ∀ n, (ticketsAfter srv h).issued ≤ n → callsFor srv n h = []) _ _ reaches
  · rintro queue rfl
    exact ⟨inLine_nil srv, fun n => initial, fun n _ => rfl⟩
  · intro h queue input inv ok
    obtain ⟨inLine, laws, unborn⟩ := inv
    have unlocked := released h queue input ok
    have step := (masterStep_line srv inLine.wf inLine.aligned unlocked).2
    refine ⟨inLine.step unlocked, ?_, ?_⟩
    · intro n
      have ticket := step.ticket inLine.map_line inLine.single inLine.below n
      refine ticket.lawful (fun own => unborn n (Nat.le_of_eq own.symm)) (laws n) ?_ ?_ deinits
      · rintro type a rfl up given
        exact accepts h queue type a ok up given
      · rintro p conn calls rfl lock front held
        exact serves h queue p conn calls ok lock (head?_of_line front) held
    · intro n later
      have known : (ticketsAfter srv h).issued ≤ n := by
        refine Nat.le_trans ?_ later
        cases input with
        | accept type a => exact Nat.le_succ _
        | process p => exact Nat.le_refl _
      have other : (ticketsAfter srv h).owner input ≠ some n := by
        intro owns
        cases input with
        | accept type a =>
          have same : (ticketsAfter srv h).issued = n := Option.some.inj owns
          exact Nat.not_succ_le_self n (same ▸ later)
        | process p =>
          simp only [Tickets.owner] at owns
          split at owns
          · have waits := inLine.below n (List.mem_of_mem_head? owns)
            exact Nat.not_lt.mpr known waits
          · cases owns
      simp only [callsFor, if_neg other, unborn n known, List.append_nil]

end

end Femail
