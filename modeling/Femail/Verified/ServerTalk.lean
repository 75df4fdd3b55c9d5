import Femail.Verified.Departure
import Femail.Verified.Isolation
import Femail.Verified.Talk

/-! # The server as a set of dialogues

The master thread takes up one connection after the other, in turns.  `Talk` knows nothing
of that: it is one dialogue with one client.  Here the two are put together.  Whatever the
interleaving, the replies made in the turns of a connection are those the abstract
connection makes on the same turns (`server_refines_talk`).
-/

namespace Femail

open Foundation

def MasterInput.turn? : MasterInput → Option Turn
  | .accept _ _ => none
  | .process p => some p.turn

/-- The turns given to the connection with ticket `n`, oldest first. -/
def turnsFor (srv : Server) (n : Nat) : MasterHistory → List Turn
  | [] => []
  | e :: older =>
    turnsFor srv n older ++
      if (ticketsAfter srv older).owner e.input = some n then e.input.turn?.toList else []

section

variable {srv : Server} {h : MasterHistory} {queue : ConnectionQueue} {n : Nat}

/-- A step, as the connection with ticket `n` sees it: it passes it by, or is a turn of its
    session. -/
theorem ticket_turn (inLine : InLine (ticketsAfter srv h) queue)
    (old : n < (ticketsAfter srv h).issued) {input : MasterInput} (ok : input.MutexOk) :
    let next := (master srv).step queue input
    let h' := ⟨queue, input, next.2⟩ :: h
    ∃ given, turnsFor srv n h' = turnsFor srv n h ++ given ∧
      callsFor srv n h' = callsFor srv n h ++
        ((session srv.toGlobals).run ((line srv h queue).lookup n) given).1.flatten ∧
      (line srv h' next.1).lookup n =
        ((session srv.toGlobals).run ((line srv h queue).lookup n) given).2 := by
  intro next h'
  have step := (masterStep_line srv inLine.wf inLine.aligned (unlocks_of_mutexOk queue ok)).2
  have ticket := step.ticket inLine.map_line inLine.single inLine.below n
  have turns : turnsFor srv n h' = turnsFor srv n h ++
      if (ticketsAfter srv h).owner input = some n then input.turn?.toList else [] := rfl
  have calls : callsFor srv n h' = callsFor srv n h ++
      if (ticketsAfter srv h).owner input = some n then (masterStep srv queue input).2 else [] := rfl
  have place : (line srv h' next.1).lookup n = (((ticketsAfter srv h).step srv queue input).waiting.zip
      (masterStep srv queue input).1.contents).lookup n := rfl
  rw [turns, calls, place, line]
  generalize (((ticketsAfter srv h).step srv queue input).waiting.zip
    (masterStep srv queue input).1.contents).lookup n = after at ticket ⊢
  generalize (if (ticketsAfter srv h).owner input = some n then
    (masterStep srv queue input).2 else []) = events at ticket ⊢
  generalize ((ticketsAfter srv h).waiting.zip queue.contents).lookup n = before at ticket ⊢
  -- a ticket is given out once, and working locks lose nobody
  cases ticket with
  | unmoved _ own =>
    have other : (ticketsAfter srv h).owner input ≠ some n :=
      fun owns => Nat.ne_of_lt old (own owns)
    exact ⟨[], by rw [if_neg other], rfl, rfl⟩
  | refused _ _ _ _ _ new | accepted _ _ _ _ _ new => exact absurd new (Nat.ne_of_lt old)
  | served p conn here _ _ owner =>
    subst here
    refine ⟨[p.turn], by rw [if_pos owner]; rfl, ?_, rfl⟩
    exact congrArg _ (List.append_nil _).symm
  | dropped p _ _ here _ relock =>
    subst here
    rw [show p.enqueueLock = true from ok.2.2.1] at relock
    cases relock

/-- **Projection.**  What the server does for one connection is a run of its session on the
    turns given to it. -/
theorem ticket_run (inLine : InLine (ticketsAfter srv h) queue)
    (old : n < (ticketsAfter srv h).issued) {inputs : List MasterInput}
    (works : (master srv).Admits mutexOk h queue inputs) :
    let last := (master srv).trace h queue inputs
    ∃ given, turnsFor srv n last.1 = turnsFor srv n h ++ given ∧
      callsFor srv n last.1 = callsFor srv n h ++
        ((session srv.toGlobals).run ((line srv h queue).lookup n) given).1.flatten ∧
      (line srv last.1 last.2).lookup n =
        ((session srv.toGlobals).run ((line srv h queue).lookup n) given).2 := by
  induction inputs generalizing h queue with
  | nil => exact ⟨[], (List.append_nil _).symm, (List.append_nil _).symm, rfl⟩
  | cons input inputs ih =>
    obtain ⟨ok, later⟩ := works
    obtain ⟨first, turns, calls, record⟩ := ticket_turn inLine old ok
    have inLine' : InLine (ticketsAfter srv (⟨queue, input, ((master srv).step queue input).2⟩ :: h))
        ((master srv).step queue input).1 :=
      inLine.step (unlocks_of_mutexOk queue ok)
    -- the rest of the run finds the record that this step left
    obtain ⟨rest, turns', calls', record'⟩ :=
      ih inLine' (lt_issued_step srv queue input old) later
    refine ⟨first ++ rest, ?_, ?_, ?_⟩
    · rw [Machine.trace, turns', turns, List.append_assoc]
    · rw [Machine.trace, calls', calls, record, Machine.run_append, List.flatten_append,
        List.append_assoc]
    · rw [Machine.trace, record', record, Machine.run_append]

theorem heard_flatten (events : List (List Event)) :
    heard events.flatten = (events.map heard).flatten := List.filterMap_flatten

/-- A connection of SMTP that waits outside a message is about its phase. -/
theorem talkOf_queued (reaches : (master srv).Reaches (· = connQueueInit) mutexOk h queue)
    {conn : Connection} (waits : conn ∈ queue.contents) (smtp : conn.type = .smtp)
    (outside : conn.state ≠ .mailExpectData) :
    Talk.Of conn ⟨conn.state, conn.sslconn.isSome, [], 0⟩ := by
  obtain ⟨own, a, type, lived⟩ := (queued_session reaches).2 conn waits
  have kind : type = .smtp := by
    by_contra other
    exact (noBuffer_of_session other lived conn rfl).1 smtp
  subst kind
  exact talkOf_reached (lived.widen fun s here => ⟨a, _, here⟩) outside

/-- **The server is its dialogues.**  From every state that a run with working mutex calls
    reaches, for every connection of SMTP that waits outside a message (every new one does),
    and every continuation with working mutex calls, with any number of other clients and any
    interleaving: the replies sent by the calls made for it from there on are, in clear or
    under TLS, those the abstract connection sends on the turns given to it, and it waits on
    as long as that goes on. -/
theorem server_refines_talk (reaches : (master srv).Reaches (· = connQueueInit) mutexOk h queue)
    {conn : Connection} (waits : (line srv h queue).lookup n = some conn) (smtp : conn.type = .smtp)
    (outside : conn.state ≠ .mailExpectData) {inputs : List MasterInput}
    (works : (master srv).Admits mutexOk h queue inputs) :
    let last := (master srv).trace h queue inputs
    ∃ given made, turnsFor srv n last.1 = turnsFor srv n h ++ given ∧
      callsFor srv n last.1 = callsFor srv n h ++ made ∧
      let abstract := talk.run (some ⟨conn.state, conn.sslconn.isSome, [], 0⟩)
        (given.map (Turn.happening srv.toGlobals))
      heard made = abstract.1.flatten ∧
        Option.Rel Talk.Of ((line srv last.1 last.2).lookup n) abstract.2 := by
  intro last
  have inLine := inLine_of_reaches reaches
  have entry : (n, conn) ∈ line srv h queue := by
    obtain ⟨ahead, behind, split, -⟩ := List.lookup_eq_some_iff.mp waits
    simp [split]
  have mem : n ∈ (ticketsAfter srv h).waiting := (List.of_mem_zip entry).1
  obtain ⟨given, turns, calls, record⟩ := ticket_run inLine (inLine.below n mem) works
  rw [waits] at calls record
  have of := talkOf_queued reaches (List.of_mem_zip entry).2 smtp outside
  obtain ⟨same, related⟩ := refines_run srv.toGlobals (.some of) given
  refine ⟨given, _, turns, calls, ?_, ?_⟩
  · rw [heard_flatten, same]
  · rw [record]
    exact related

end

/-- Two more clients come, and the first of them leaves, while one sends its greeting and
    begins a letter. -/
def crowdedLetter : List MasterInput :=
  [.accept .smtp (.onSocket 6 Connection.zero), .process (.serves .silent),
   .process (.serves .silent), .accept .http (.onSocket 7 Connection.zero),
   .process (.serves ehloTurn), .process (.serves quitTurn), .process (.serves .silent),
   .process (.serves mailTurn)]

theorem server_refines_talk_mailey :
    let srv := serverWith none
    let came := (master srv).trace [] connQueueInit clientComes
    let last := (master srv).trace came.1 came.2 crowdedLetter
    ∃ made, callsFor srv 0 last.1 = callsFor srv 0 came.1 ++ made ∧
      heard made = [(.acceptConnection, false), (.acceptEhello, false), (.acceptOk, false)] := by
  intro srv came last
  have admitted : (master srv).Admits mutexOk [] connQueueInit clientComes := by decide +kernel
  have idle : (master srv).Reaches (· = connQueueInit) mutexOk [] connQueueInit := .start rfl
  have works : (master srv).Admits mutexOk came.1 came.2 crowdedLetter := by decide +kernel
  have record : ∃ conn ∈ (line srv came.1 came.2).lookup 0, conn.type = .smtp ∧
      conn.state = .mailOpened ∧ conn.sslconn = none := by
    decide +kernel
  obtain ⟨conn, waits, smtp, state, plain⟩ := record
  have turns : (turnsFor srv 0 last.1).map (Turn.happening srv.toGlobals) =
      [Turn.silent, ehloTurn, mailTurn].map (Turn.happening srv.toGlobals) := by
    decide +kernel
  have before : turnsFor srv 0 came.1 = [] := rfl
  obtain ⟨given, made, took, calls, said, -⟩ := server_refines_talk (idle.trace _ admitted) waits smtp
    (by simp [state]) works
  rw [before, List.nil_append] at took
  refine ⟨made, calls, ?_⟩
  rw [said, ← took, turns, state, plain]
  decide

end Femail
