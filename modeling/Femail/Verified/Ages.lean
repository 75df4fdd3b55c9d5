import Femail.Foundation.Passing
import Femail.Verified.Availability

/-! # The ages in the queue

Each record carries two readings of the clock: when it was accepted and when it was last
queued.  The queue never looks at them.  With a clock that does not go back they tell its
order all the same, whatever the mutex calls do: the one idle longest is at the front, and
nobody has been idle for longer than a round (`queue_by_age`).
-/

namespace Femail

open Foundation

/-! ## The clock -/

/-- The answers of `time` to the calls of a step, in their order. -/
def MasterInput.stamps : MasterInput → List Time
  | .accept _ a => [a.timeinitialized, a.timerefreshed, a.now]
  | .process p => [p.turn.now]

/-- All answers of `time`, oldest first. -/
def stamps : MasterHistory → List Time
  | [] => []
  | e :: older => stamps older ++ e.input.stamps

/-- The clock does not go back. -/
def clockForward : MasterHistory → ConnectionQueue → MasterInput → Prop :=
  fun h _ input => (stamps h ++ input.stamps).Pairwise (· ≤ ·)

instance (h : MasterHistory) (queue : ConnectionQueue) (input : MasterInput) :
    Decidable (clockForward h queue input) := inferInstanceAs (Decidable (List.Pairwise _ _))

theorem stamps_append (newer older : MasterHistory) :
    stamps (newer ++ older) = stamps older ++ stamps newer := by
  induction newer with
  | nil => exact (List.append_nil _).symm
  | cons e newer ih => rw [List.cons_append, stamps, stamps, ih, List.append_assoc]

/-! ## What a turn leaves of the stamps -/

theorem timeinitialized_smtpHandleCommand {g : Globals} {t : Turn} {conn : Connection}
    {verb : SMTPCommand} {handled : Handled} (step : CommandStep g t conn verb handled) :
    handled.conn.timeinitialized = conn.timeinitialized := by
  cases step <;> rfl

theorem timeinitialized_connectionHandler (g : Globals) (t : Turn) (conn : Connection) :
    (connectionHandler g t conn).conn.timeinitialized = conn.timeinitialized := by
  by_cases smtp : conn.type = .smtp
  · rw [connectionHandler_smtp g t smtp]
    have step := smtpHandler_step g t conn
    generalize smtpHandler g t conn = handled at step ⊢
    cases step with
    | command chunk command =>
      have same := timeinitialized_smtpHandleCommand (smtpHandleCommand_step g t conn command)
      exact same
    | _ => rfl
  · rw [connectionHandler_conn g t smtp]

theorem timeinitialized_acceptedConnection (g : Globals) (a : AcceptTurn) (type : ConnectionType)
    (strat : SslStrategy) : (acceptedConnection g a type strat).timeinitialized = a.timeinitialized := by
  cases type <;> cases strat <;> rfl

/-- A connection that goes back has the time of its accept and that of this turn. -/
theorem stamps_serveConnection {g : Globals} {t : Turn} {conn conn' : Connection}
    (kept : (serveConnection g t conn).1 = some conn') :
    conn'.timeinitialized = conn.timeinitialized ∧ conn'.timerefreshed = t.now := by
  have same := timeinitialized_connectionHandler g t conn
  obtain ⟨-, rfl⟩ | ⟨-, rfl⟩ := serveConnection_of_kept kept
  · exact ⟨same, rfl⟩
  · exact ⟨same, rfl⟩

/-! ## One step -/

/-- A connection that a step puts into the queue. -/
inductive Joins (srv : Server) (queue : ConnectionQueue) : MasterInput → Connection → Prop where
  | accepted (type : ConnectionType) (a : AcceptTurn) :
      Joins srv queue (.accept type a) (acceptedConnection srv.toGlobals a type (srv.strategy type))
  | served (p : ProcessTurn) (front conn : Connection) : front ∈ queue.contents →
      (serveConnection srv.toGlobals p.turn front).1 = some conn →
      Joins srv queue (.process p) conn

section

variable {srv : Server} {queue : ConnectionQueue}

/-- The next contents are the old ones with at least `k` taken at the front, and one
    connection at most added at the back. -/
def Moves (srv : Server) (queue : ConnectionQueue) (input : MasterInput) (k : Nat)
    (next : ConnectionQueue) : Prop :=
  ∃ gone, ∃ joined : Option Connection, k ≤ gone ∧
    next.contents = queue.contents.drop gone ++ joined.toList ∧
    ∀ conn ∈ joined, Joins srv queue input conn

theorem Moves.leaves (input : MasterInput) {next : ConnectionQueue} (gone : Nat)
    (left : next.contents = queue.contents.drop gone) : Moves srv queue input gone next :=
  ⟨gone, none, Nat.le_refl gone, left.trans (List.append_nil _).symm,
    fun conn mem => absurd mem (Option.not_mem_none conn)⟩

theorem Moves.quiet (input : MasterInput) : Moves srv queue input 0 queue :=
  .leaves input 0 List.drop_zero.symm

theorem moves_accept (wf : queue.Wf) (type : ConnectionType) (a : AcceptTurn) :
    Moves srv queue (.accept type a) 0 (masterStep srv queue (.accept type a)).1 := by
  by_cases up : srv.active type = true
  · have next : (masterStep srv queue (.accept type a)).1 =
        (handleConnection srv.toGlobals a type (srv.strategy type) queue).2.1 := by
      simp [masterStep, up]
    rw [next, queue_handleConnection]
    by_cases failed : a.ret = -1
    · rw [if_pos failed]
      exact .quiet _
    · rw [if_neg failed, connQueueEnqueue_eq]
      split
      · rename_i updates
        refine ⟨0, some (acceptedConnection srv.toGlobals a type (srv.strategy type)),
          Nat.le_refl 0, Ring.contents_put wf updates.2 _, ?_⟩
        intro conn here
        cases here
        exact .accepted type a
      · exact .quiet _
  · have next : (masterStep srv queue (.accept type a)).1 = queue := by simp [masterStep, up]
    rw [next]
    exact .quiet _

/-- Behind the dequeue, which has taken the first connection. -/
theorem moves_finish (wf : queue.Wf) (nonempty : queue.count ≠ 0) (p : ProcessTurn) :
    Moves srv queue (.process p) 1
      (finishConnection srv.toGlobals p queue.take (queue.slot queue.tail)).1 := by
  have split := Ring.contents_take nonempty
  have rest : queue.contents.drop 1 = queue.take.contents := by
    rw [split, List.drop_one, List.tail_cons]
  have mem : queue.slot queue.tail ∈ queue.contents := by
    rw [split]
    exact List.mem_cons_self
  cases kept : (serveConnection srv.toGlobals p.turn (queue.slot queue.tail)).1 with
  | none =>
    have finished : (settleConnection
        (connectionHandler srv.toGlobals p.turn (queue.slot queue.tail))).1 = none := by
      simpa [serveConnection] using kept
    rw [finishConnection_of_finished _ _ _ _ finished]
    exact .leaves _ 1 rest.symm
  | some conn =>
    obtain ⟨-, back, -⟩ | ⟨-, back, -⟩ :=
      finishConnection_of_served (wf.take nonempty) (wf.take_count_ne nonempty) kept
    · refine ⟨1, some conn, Nat.le_refl 1, by rw [rest, back, Option.toList_some], ?_⟩
      intro conn' here
      cases here
      exact .served p _ conn mem kept
    · exact .leaves _ 1 (back.trans rest.symm)

theorem moves_process (wf : queue.Wf) (p : ProcessTurn) :
    Moves srv queue (.process p) (if p.dequeueLock then 1 else 0)
      (masterStep srv queue (.process p)).1 := by
  have dequeue := connQueueDequeue_eq p.dequeueLock p.dequeueUnlock queue Connection.zero
  by_cases taken : (connQueueDequeue p.dequeueLock p.dequeueUnlock queue Connection.zero).1 = 0
  · obtain ⟨⟨lock, -, nonempty⟩, -⟩ := connQueueDequeue_of_taken taken
    have next : masterStep srv queue (.process p) = _ :=
      processConnection_of_taken srv.toGlobals p queue taken
    rw [next, lock]
    exact moves_finish wf nonempty p
  · -- the call fails in three ways: no lock, an empty queue, or an unlock that fails
    have next : masterStep srv queue (.process p) = _ :=
      processConnection_of_failed srv.toGlobals p queue taken
    rw [next, dequeue]
    by_cases takes : p.dequeueLock = true ∧ queue.count ≠ 0
    · -- the first connection has been taken, and is lost
      rw [if_pos takes, if_pos takes.1]
      exact .leaves _ 1 (by rw [Ring.contents_take takes.2, List.drop_one, List.tail_cons])
    · rw [if_neg takes]
      cases lock : p.dequeueLock with
      | false => exact .quiet _
      | true =>
        have empty : queue.contents = [] := by
          rw [← List.length_eq_zero_iff, Ring.length_contents]
          simpa [lock] using takes
        exact .leaves _ 1 (by rw [empty, List.drop_nil])

/-- The calls of a step that take the first connection out, if there is one. -/
def MasterInput.visits : MasterInput → Nat
  | .accept _ _ => 0
  | .process p => if p.dequeueLock then 1 else 0

theorem moves_masterStep (wf : queue.Wf) (input : MasterInput) :
    Moves srv queue input input.visits (masterStep srv queue input).1 := by
  cases input with
  | accept type a => exact moves_accept wf type a
  | process p => exact moves_process wf p

theorem Moves.passed {input : MasterInput} {k : Nat} {next : ConnectionQueue}
    {new : Connection → Prop} (moves : Moves srv queue input k next)
    (fresh : ∀ conn, Joins srv queue input conn → new conn) :
    Passed k new queue.contents next.contents := by
  obtain ⟨gone, joined, enough, split, joins⟩ := moves
  exact ⟨gone, joined.toList, enough, split, fun conn mem => fresh conn (joins conn (Option.mem_toList.mp mem))⟩

/-- Who joins has been stamped by this very step. -/
theorem Joins.refreshed {input : MasterInput} {conn : Connection}
    (joins : Joins srv queue input conn) : conn.timerefreshed ∈ input.stamps := by
  cases joins with
  | accepted type a =>
    have now : a.now ∈ (MasterInput.accept type a).stamps := by simp [MasterInput.stamps]
    exact now
  | served p front conn _ kept =>
    rw [(stamps_serveConnection kept).2]
    exact List.mem_singleton_self _

end

/-! ## Whole runs -/

/-- How often a run has taken the first connection out. -/
def visitsIn (h : MasterHistory) : Nat := (h.map fun e => e.input.visits).sum

/-- The stamps of the waiting connections, against those of the run. -/
structure ByAge (h : MasterHistory) (queue : ConnectionQueue) : Prop where
  wf : queue.Wf
  forward : (stamps h).Pairwise (· ≤ ·)
  sorted : queue.contents.Pairwise fun conn behind => conn.timerefreshed ≤ behind.timerefreshed
  ages : ∀ conn ∈ queue.contents, conn.timeinitialized ≤ conn.timerefreshed
  recent : ∀ conn ∈ queue.contents, conn.timerefreshed ∈ stamps h
  passed : ∀ later e older, h = later ++ e :: older →
    Passed (visitsIn (later ++ [e])) (fun conn => conn.timerefreshed ∈ stamps (later ++ [e]))
      e.before.contents queue.contents

theorem byAge_connQueueInit : ByAge [] connQueueInit where
  wf := Ring.wf_cleared _
  forward := .nil
  sorted := .nil
  ages := fun _ mem => nomatch mem
  recent := fun _ mem => nomatch mem
  passed := fun _ _ _ split => absurd split.symm (by simp)

section

variable {srv : Server} {h : MasterHistory} {queue : ConnectionQueue} {input : MasterInput}

/-- Who joins is not older than its accept, nor than what was stamped before. -/
theorem ByAge.joins (byAge : ByAge h queue) (ok : clockForward h queue input) {conn : Connection}
    (joins : Joins srv queue input conn) :
    conn.timeinitialized ≤ conn.timerefreshed ∧ ∀ time ∈ stamps h, time ≤ conn.timerefreshed := by
  obtain ⟨-, new, across⟩ := List.pairwise_append.mp ok
  refine ⟨?_, fun time mem => across time mem _ joins.refreshed⟩
  cases joins with
  | accepted type a =>
    have order : a.timeinitialized ≤ a.now := by
      simp only [MasterInput.stamps, List.pairwise_cons] at new
      exact new.1 a.now (by simp)
    rw [timeinitialized_acceptedConnection]
    exact order
  | served p front conn mem kept =>
    obtain ⟨accepted, refreshed⟩ := stamps_serveConnection kept
    rw [accepted, refreshed]
    calc front.timeinitialized
      _ ≤ front.timerefreshed := byAge.ages front mem
      _ ≤ p.turn.now := across _ (byAge.recent front mem) _ (List.mem_singleton_self _)

theorem ByAge.step (byAge : ByAge h queue) (ok : clockForward h queue input) :
    ByAge (⟨queue, input, ((master srv).step queue input).2⟩ :: h) ((master srv).step queue input).1 := by
  have moves : Moves srv queue input input.visits ((master srv).step queue input).1 :=
    moves_masterStep byAge.wf input
  have stamped : ∀ output, stamps (⟨queue, input, output⟩ :: h) = stamps h ++ input.stamps := fun _ => rfl
  obtain ⟨gone, joined, -, contents, joins⟩ := id moves
  have kept : ∀ conn ∈ ((master srv).step queue input).1.contents,
      conn ∈ queue.contents ∨ Joins srv queue input conn := by
    intro conn mem
    rw [contents, List.mem_append, Option.mem_toList] at mem
    exact mem.imp List.mem_of_mem_drop (joins conn)
  refine ⟨wf_masterStep srv byAge.wf input, ok, ?_, ?_, ?_, ?_⟩
  · -- who joins does so with the latest time there is
    rw [contents]
    refine pairwise_joined byAge.sorted gone ?_
    intro conn back front here
    exact (byAge.joins ok (joins conn back)).2 _ (byAge.recent front here)
  · intro conn mem
    obtain old | new := kept conn mem
    · exact byAge.ages conn old
    · exact (byAge.joins ok new).1
  · intro conn mem
    rw [stamped, List.mem_append]
    exact (kept conn mem).imp (byAge.recent conn) Joins.refreshed
  · intro later e older split
    -- the moment is this step, or was before it
    cases later with
    | nil =>
      obtain ⟨rfl, rfl⟩ := List.cons.inj split
      exact moves.passed fun conn joins => joins.refreshed
    | cons last later =>
      obtain ⟨rfl, rfl⟩ := List.cons.inj split
      have before := byAge.passed later e older rfl
      refine (before.mono ?_).trans (moves.passed ?_)
      · intro conn mem
        exact List.mem_append_left _ mem
      · intro conn joins
        exact List.mem_append_right _ joins.refreshed

/-- **The queue is ordered by age.**  In every reachable state, whatever the mutex calls
    did, if the clock never went back: each waiting connection was last queued no later than
    those behind it, and no earlier than it was accepted; and once as many connections have
    been taken out as waited at some moment, nobody in the queue has a stamp from before
    that moment. -/
theorem queue_by_age (reaches : (master srv).Reaches (· = connQueueInit) clockForward h queue) :
    (queue.contents.Pairwise fun conn behind => conn.timerefreshed ≤ behind.timerefreshed) ∧
      (∀ conn ∈ queue.contents, conn.timeinitialized ≤ conn.timerefreshed) ∧
      ∀ later e older, h = later ++ e :: older → e.before.count ≤ visitsIn (later ++ [e]) →
        ∀ conn ∈ queue.contents, ∀ time ∈ stamps older, time ≤ conn.timerefreshed := by
  have byAge : ByAge h queue := by
    refine reaches.invariant ByAge ?_ ?_
    · rintro _ rfl
      exact byAge_connQueueInit
    · intro h queue input byAge ok
      exact byAge.step ok
  refine ⟨byAge.sorted, byAge.ages, ?_⟩
  rintro later e older rfl round conn mem time early
  have fresh := (byAge.passed later e older rfl).all_new (by rwa [Ring.length_contents]) conn mem
  have forward := byAge.forward
  rw [List.append_cons, stamps_append] at forward
  exact (List.pairwise_append.mp forward).2.2 time early _ fresh

end

/-- Three clients; the second is lost to an unlock that fails. -/
def datedInputs : List MasterInput :=
  [.accept .smtp { AcceptTurn.onSocket 5 Connection.zero with
     timeinitialized := 10, timerefreshed := 10, now := 11 },
   .accept .smtp { AcceptTurn.onSocket 6 Connection.zero with
     timeinitialized := 12, timerefreshed := 12, now := 12 },
   .accept .http { AcceptTurn.onSocket 7 Connection.zero with
     timeinitialized := 15, timerefreshed := 16, now := 16 },
   .process (.serves { Turn.silent with now := 20 }),
   .process { ProcessTurn.serves { Turn.silent with now := 21 } with dequeueUnlock := false },
   .process (.serves { Turn.silent with now := 25 })]

theorem queue_by_age_dated :
    let last := (master (serverWith none)).trace [] connQueueInit datedInputs
    last.2.contents.map (fun conn => (conn.timeinitialized, conn.timerefreshed)) = [(10, 20), (15, 25)] ∧
      ∀ conn ∈ last.2.contents, ∀ time ∈ [10, 10, 11, 12, 12, 12, 15, 16, 16], time ≤ conn.timerefreshed := by
  intro last
  have admitted : (master (serverWith none)).Admits clockForward [] connQueueInit datedInputs := by
    decide +kernel
  have idle : (master (serverWith none)).Reaches (· = connQueueInit) clockForward [] connQueueInit :=
    .start rfl
  have aged := queue_by_age (idle.trace _ admitted)
  refine ⟨by decide +kernel, ?_⟩
  have split : ∃ later e older, last.1 = later ++ e :: older ∧ e.before.count ≤ visitsIn (later ++ [e]) ∧
      stamps older = [10, 10, 11, 12, 12, 12, 15, 16, 16] :=
    ⟨last.1.take 2, _, last.1.drop 3, rfl, by decide +kernel, by decide +kernel⟩
  obtain ⟨later, e, older, shape, round, early⟩ := split
  rw [← early]
  exact aged.2.2 later e older shape round

end Femail
