import Femail.Foundation.Rotation
import Femail.Verified.Dialogue
import Femail.Verified.Tickets

/-! # Service is round-robin

With working mutex calls the tickets of the waiting connections are a line in which the
served go to the end: an `accept` lets one join at most, a `process_connection` serves the
first.  The order of service is then that of `Foundation.turns`, whatever comes in
between.
-/

namespace Femail

open Foundation

/-- The tickets that the `process_connection` calls of a run serve, one entry for each
    call; `none` where the queue is empty. -/
def served (srv : Server) : Tickets → ConnectionQueue → List MasterInput → List (Option Nat)
  | _, _, [] => []
  | tickets, queue, input :: inputs =>
    let later := served srv (tickets.step srv queue input) (masterStep srv queue input).1 inputs
    match input with
    | .accept _ _ => later
    | .process _ => tickets.owner input :: later

/-! ## The tickets as a line -/

def Tickets.move (srv : Server) (tickets : Tickets) (queue : ConnectionQueue)
    (input : MasterInput) : Move Nat :=
  let same := (masterStep srv queue input).1.count = queue.count
  match input with
  | .accept _ _ => .join (if same then [] else [tickets.issued])
  | .process _ => .turn same

def moves (srv : Server) : Tickets → ConnectionQueue → List MasterInput → List (Move Nat)
  | _, _, [] => []
  | tickets, queue, input :: inputs =>
    tickets.move srv queue input ::
      moves srv (tickets.step srv queue input) (masterStep srv queue input).1 inputs

section

variable (srv : Server) (tickets : Tickets) (queue : ConnectionQueue)

theorem waiting_step {input : MasterInput} (ok : input.MutexOk) :
    (tickets.step srv queue input).waiting = (tickets.move srv queue input).apply tickets.waiting := by
  cases input with
  | accept type a =>
    by_cases same : (masterStep srv queue (.accept type a)).1.count = queue.count
    · simp [Tickets.step, Tickets.move, Move.apply, same]
    · simp [Tickets.step, Tickets.move, Move.apply, same]
  | process p =>
    have lock : p.dequeueLock = true := ok.1
    cases waiting : tickets.waiting with
    | nil => simp [Tickets.step, Tickets.move, Move.apply, lock, waiting]
    | cons n others => simp [waiting_process srv lock waiting, Tickets.move, Move.apply]

theorem served_eq_turns {h : MasterHistory} {inputs : List MasterInput}
    (ok : (master srv).Admits mutexOk h queue inputs) :
    served srv tickets queue inputs = turns tickets.waiting (moves srv tickets queue inputs) := by
  induction inputs generalizing h tickets queue with
  | nil => rfl
  | cons input inputs ih =>
    obtain ⟨works, later⟩ := ok
    have next := ih (tickets.step srv queue input) (masterStep srv queue input).1 later
    rw [waiting_step srv tickets queue works] at next
    cases input with
    | accept type a => exact next
    | process p =>
      have owner : tickets.owner (.process p) = tickets.waiting.head? := if_pos works.1
      exact congrArg₂ List.cons owner next

/-- Who joins has a new ticket. -/
theorem issued_le_newcomers (inputs : List MasterInput) :
    ∀ move ∈ moves srv tickets queue inputs, ∀ n ∈ move.newcomers, tickets.issued ≤ n := by
  induction inputs generalizing tickets queue with
  | nil => simp [moves]
  | cons input inputs ih =>
    have later := ih (tickets.step srv queue input) (masterStep srv queue input).1
    intro move mem n joins
    obtain rfl | mem := List.mem_cons.mp mem
    · cases input with
      | process p => cases joins
      | accept type a =>
        simp only [Tickets.move, Move.newcomers] at joins
        split at joins
        · cases joins
        · rw [List.mem_singleton.mp joins]
    · refine Nat.le_trans ?_ (later move mem n joins)
      cases input with
      | accept type a => exact Nat.le_succ _
      | process p => exact Nat.le_refl _

end

/-- A ticket goes with its connection: the record that waits with it stays as it is
    except in the connection's own turn, and then it is what the turn makes of it. -/
theorem LineStep.follows {srv : Server} {line line' : List (Nat × Connection)} {tickets : Tickets}
    {input : MasterInput} {events : List Event}
    (step : LineStep srv line tickets.issued input line' events) (ok : input.MutexOk)
    (same : line.map Prod.fst = tickets.waiting) (single : tickets.waiting.Nodup)
    (below : ∀ n ∈ tickets.waiting, n < tickets.issued) {n : Nat} {conn : Connection}
    (waits : line.lookup n = some conn) :
    if tickets.owner input = some n then
      ∃ p, input = .process p ∧ line.head? = some (n, conn) ∧
        line'.lookup n = (serveConnection srv.toGlobals p.turn conn).1
    else line'.lookup n = some conn := by
  have older : n ≠ tickets.issued := by
    rintro rfl
    have mem : tickets.issued ∈ tickets.waiting := by
      rw [← same]
      by_contra absent
      rw [lookup_eq_none_of_notMem absent] at waits
      cases waits
    exact Nat.lt_irrefl _ (below _ mem)
  have ticket := step.ticket same single below n
  rw [waits] at ticket
  generalize line'.lookup n = after at ticket ⊢
  generalize (if tickets.owner input = some n then events else []) = calls at ticket
  cases ticket with
  | unmoved _ own => rw [if_neg fun owns => older (own owns)]
  | served p _ here _ front owner =>
    rw [if_pos owner]
    exact ⟨p, here, front, rfl⟩
  | dropped p _ _ here _ relock =>
    -- the queue takes the connection back
    subst here
    rw [show p.enqueueLock = true from ok.2.2.1] at relock
    cases relock

theorem inLine_of_reaches {srv : Server} {h : MasterHistory} {queue : ConnectionQueue}
    (reaches : (master srv).Reaches (· = connQueueInit) mutexOk h queue) :
    InLine (ticketsAfter srv h) queue := by
  apply Machine.Reaches.invariant (fun h queue => InLine (ticketsAfter srv h) queue) _ _ reaches
  · rintro queue rfl
    exact inLine_nil srv
  · intro h queue input inLine ok
    exact inLine.step (unlocks_of_mutexOk queue ok)

/-! ## Round-robin -/

/-- What a state of the master thread promises the connections that wait in it, for the
    steps `inputs` that come next. -/
structure RoundRobin (srv : Server) (h : MasterHistory) (queue : ConnectionQueue)
    (inputs : List MasterInput) : Prop where
  /-- There is one ticket for each waiting connection. -/
  aligned : (ticketsAfter srv h).waiting.length = queue.contents.length
  single : (ticketsAfter srv h).waiting.Nodup
  /-- A ticket goes with its connection. -/
  follows : ∀ input, input.MutexOk → ∀ n conn, (line srv h queue).lookup n = some conn →
    let next := (master srv).step queue input
    let line' := line srv (⟨queue, input, next.2⟩ :: h) next.1
    if (ticketsAfter srv h).owner input = some n then
      ∃ p, input = .process p ∧ queue.contents.head? = some conn ∧
        line'.lookup n = (serveConnection srv.toGlobals p.turn conn).1
    else line'.lookup n = some conn
  /-- With `k` connections ahead, the turn after `k` others is the next one. -/
  next : ∀ k c, (ticketsAfter srv h).waiting[k]? = some c →
    let turns := served srv (ticketsAfter srv h) queue inputs
    k < turns.length → turns[k]? = some (some c) ∧ ∀ j < k, turns[j]? ≠ some (some c)
  /-- From one turn to the next of the same connection, every connection that was queued
      at the first is served once. -/
  once : ∀ p later c j, inputs = .process p :: later → 0 < j →
    let turns := served srv (ticketsAfter srv h) queue inputs
    turns[0]? = some (some c) → turns[j]? = some (some c) →
    (∀ i, 0 < i → i < j → turns[i]? ≠ some (some c)) →
    ∀ d ∈ (ticketsAfter srv h).waiting, (turns.take j).count (some d) = 1

theorem follows_of_inLine {srv : Server} {h : MasterHistory} {queue : ConnectionQueue}
    (inLine : InLine (ticketsAfter srv h) queue) {input : MasterInput} (ok : input.MutexOk)
    {n : Nat} {conn : Connection} (waits : (line srv h queue).lookup n = some conn) :
    let next := (master srv).step queue input
    let line' := line srv (⟨queue, input, next.2⟩ :: h) next.1
    if (ticketsAfter srv h).owner input = some n then
      ∃ p, input = .process p ∧ queue.contents.head? = some conn ∧
        line'.lookup n = (serveConnection srv.toGlobals p.turn conn).1
    else line'.lookup n = some conn := by
  have step := (masterStep_line srv inLine.wf inLine.aligned (unlocks_of_mutexOk queue ok)).2
  have follows := step.follows ok inLine.map_line inLine.single inLine.below waits
  dsimp only
  split
  · rename_i owner
    rw [if_pos owner] at follows
    obtain ⟨p, process, first, served⟩ := follows
    exact ⟨p, process, head?_of_line first, served⟩
  · rename_i other
    rw [if_neg other] at follows
    exact follows

/-- From one turn of a connection up to the next, the whole line is served in its order. -/
theorem served_between {srv : Server} {h : MasterHistory} {queue : ConnectionQueue}
    (inLine : InLine (ticketsAfter srv h) queue) {p : ProcessTurn} {later : List MasterInput}
    (works : (master srv).Admits mutexOk h queue (.process p :: later)) {c j : Nat}
    (positive : 0 < j) :
    let turns := served srv (ticketsAfter srv h) queue (.process p :: later)
    turns[0]? = some (some c) → turns[j]? = some (some c) →
    (∀ i, 0 < i → i < j → turns[i]? ≠ some (some c)) →
    turns.take j = (ticketsAfter srv h).waiting.map some := by
  intro order now again between
  obtain ⟨j, rfl⟩ := Nat.exists_eq_succ_of_ne_zero (Nat.pos_iff_ne_zero.mp positive)
  simp only [order, served_eq_turns srv _ queue works] at now again between ⊢
  cases waiting : (ticketsAfter srv h).waiting with
  | nil =>
    rw [waiting] at now
    cases now
  | cons first others =>
    have single := inLine.single
    rw [waiting] at now again between single
    cases now
    have stays := issued_le_newcomers srv ((ticketsAfter srv h).step srv queue (.process p))
      (masterStep srv queue (.process p)).1 later
    have known : c < (ticketsAfter srv h).issued := inLine.below c (by simp [waiting])
    have rest := take_turns (List.nodup_cons.mp single).1
      (fun move mem joins => Nat.not_lt.mpr (stays move mem c joins) known) again
      (fun i early => between (i + 1) (Nat.succ_pos i) (Nat.succ_lt_succ early))
    exact congrArg (List.cons (some c)) rest

/-- **Service is round-robin.** -/
theorem service_roundRobin {srv : Server} {h : MasterHistory} {queue : ConnectionQueue}
    (reaches : (master srv).Reaches (· = connQueueInit) mutexOk h queue) {inputs : List MasterInput}
    (works : (master srv).Admits mutexOk h queue inputs) : RoundRobin srv h queue inputs := by
  have inLine := inLine_of_reaches reaches
  have order := served_eq_turns srv (ticketsAfter srv h) queue works
  refine ⟨inLine.aligned.trans (Ring.length_contents queue).symm, inLine.single, ?_, ?_, ?_⟩
  · intro input ok n conn waits
    exact follows_of_inLine inLine ok waits
  · intro k c place turns enough
    have inOrder : ∀ i d, (ticketsAfter srv h).waiting[i]? = some d → i < turns.length →
        turns[i]? = some (some d) := by
      intro i d place early
      simp only [turns, order] at early ⊢
      exact getElem?_turns place _ early
    refine ⟨inOrder k c place enough, ?_⟩
    intro j before again
    -- another place in the line is another connection
    have inside : k < (ticketsAfter srv h).waiting.length := (List.getElem?_eq_some_iff.mp place).1
    have placed := List.getElem?_eq_getElem (Nat.lt_trans before inside)
    have other := inOrder j _ placed (Nat.lt_trans before enough)
    rw [again] at other
    have same : c = (ticketsAfter srv h).waiting[j] := by simpa using other
    rw [same, ← placed] at place
    have equal := (List.getElem?_inj inside inLine.single).mp place
    omega
  · rintro p later c j rfl positive turns now again between d waits
    have round : turns.take j = (ticketsAfter srv h).waiting.map some :=
      served_between inLine works positive now again between
    rw [round]
    refine List.count_eq_one_of_mem (inLine.single.map (Option.some_injective _)) ?_
    exact List.mem_map_of_mem waits

/-- Three clients have come and the first has had its greeting. -/
def threeClients : List MasterInput :=
  [.accept .smtp (.onSocket 5 Connection.zero), .accept .smtp (.onSocket 6 Connection.zero),
   .accept .http (.onSocket 7 Connection.zero), .process (.serves .silent)]

/-- The second is served, a fourth comes, the third leaves, and all have another turn. -/
def nextTurns : List MasterInput :=
  [.process (.serves .silent), .accept .smtp (.onSocket 8 Connection.zero),
   .process (.serves quitTurn), .process (.serves .silent), .process (.serves .silent),
   .process (.serves .silent), .process (.serves .silent)]

theorem service_roundRobin_threeClients :
    let srv := serverWith none
    let last := (master srv).trace [] connQueueInit threeClients
    let turns := served srv (ticketsAfter srv last.1) last.2 nextTurns
    (ticketsAfter srv last.1).waiting = [1, 2, 0] ∧ turns[2]? = some (some 0) ∧
      turns = [some 1, some 2, some 0, some 1, some 3, some 0] ∧
      ∀ d ∈ [1, 2, 0], (turns.take 3).count (some d) = 1 := by
  intro srv last turns
  have admitted : (master srv).Admits mutexOk [] connQueueInit threeClients := by decide +kernel
  have idle : (master srv).Reaches (· = connQueueInit) mutexOk [] connQueueInit := .start rfl
  have works : (master srv).Admits mutexOk last.1 last.2 nextTurns := by decide +kernel
  have fair : RoundRobin srv last.1 last.2 nextTurns :=
    service_roundRobin (idle.trace _ admitted) works
  have waiting : (ticketsAfter srv last.1).waiting = [1, 2, 0] := by decide +kernel
  have order : served srv (ticketsAfter srv last.1) last.2 nextTurns =
      [some 1, some 2, some 0, some 1, some 3, some 0] := by
    decide +kernel
  refine ⟨waiting, (fair.next 2 0 (by rw [waiting]; rfl) (by rw [order]; decide)).1, order, ?_⟩
  rw [← waiting]
  refine fair.once _ _ 1 3 rfl (by decide) (by rw [order]; rfl) (by rw [order]; rfl) ?_
  intro i positive early
  rw [order]
  obtain rfl | rfl : i = 1 ∨ i = 2 := by omega
  · decide
  · decide

end Femail
