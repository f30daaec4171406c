/-
# Many at work on one catalog

Any number of clients work on a catalog in memory at once.  A client either holds a
transaction of its own and makes whatever calls it likes, or carries out an
operation.  A `Move` is one thing that one of them does: it begins, makes one call,
passes the first or the second half of a commit, or goes away without committing.
Between two moves of a client the others may move as they please, and at any time a
fault may be armed, so a list of moves is an interleaving of everybody's work, and
`System.run` is what comes of it.

An operation moves call by call here, and only with the second half of its commit does
it change what is committed.  What it does when nobody moves in between is
`Store.perform`, as the module on courses shows.

What is said of everybody is proved by who is there after a move: whoever that is was there
before, or has come by this very move, in one of a few ways (`System.arrives_move`).
-/

import VariantCatalog.Operation.Perform
import VariantCatalog.Proofs.Memory.Merge
import Mathlib.Data.List.Induction

namespace VariantCatalog.Memory

/-! ## Operations under way -/

/-- How far an operation has come. -/
inductive Progress (operation : Operation) where
  /-- Its transaction is open, and this is what is left of its body. -/
  | working (tx : Transaction) (rest : Program operation.Result)
  /-- Its body is done, and so is the first half of its commit. -/
  | committing (tx : Transaction) (result : operation.Result)
  /-- It has ended. -/
  | ended (outcome : Except CatalogError operation.Result)

namespace Progress

variable {operation : Operation}

/-- An operation that sets out: one that is malformed has ended at once, any other
one has a snapshot. -/
def enter (limit : Option Nat) (operation : Operation) (memory : Memory) :
    Progress operation :=
  match operation.screen limit with
  | .error error => .ended (.error error)
  | .ok () => .working memory.begin operation.body

/-- Whether the operation has ended. -/
def isEnded : Progress operation → Bool
  | .ended _ => true
  | _ => false

/-- The next thing that an operation does. Its body makes one call; a body that is
done goes on to commit, unless it only reads; a body that refuses to go on, or a
call that fails, ends it without a commit. -/
def advance : Progress operation → Memory → Progress operation × Memory
  | .working tx (.call request next), memory =>
    match memory.answer request tx with
    | (.error error, _, memory) => (.ended (.error (.ofStore error)), memory)
    | (.ok reply, tx, memory) => (.working tx (next reply), memory)
  | .working _ (.refuse error), memory => (.ended (.error error), memory)
  | .working tx (.done result), memory =>
    if operation.isRead then (.ended (.ok result), memory)
    else
      match memory.prepare with
      | (.error error, memory) => (.ended (.error (.ofStore error)), memory)
      | (.ok (), memory) => (.committing tx result, memory)
  | .committing tx result, memory =>
    match memory.apply tx with
    | (.error error, memory) => (.ended (.error (.ofStore error)), memory)
    | (.ok (), memory) => (.ended (.ok result), memory)
  | .ended outcome, memory => (.ended outcome, memory)

/-- The transaction that an operation holds. -/
def tx? : Progress operation → Option Transaction
  | .working tx _ => some tx
  | .committing tx _ => some tx
  | .ended _ => none

/-- The error that an operation has ended with. -/
def failure? : Progress operation → Option CatalogError
  | .ended (.error error) => some error
  | _ => none

theorem eq_of_failure? {progress : Progress operation} {error : CatalogError}
    (h : progress.failure? = some error) : progress = .ended (.error error) := by
  cases progress with
  | working tx rest => cases h
  | committing tx result => cases h
  | ended outcome =>
      cases outcome with
      | error found =>
          cases h
          rfl
      | ok result => cases h

/-- What is committed changes only when a transaction is merged, and then the
operation has succeeded. -/
theorem committed_advance (progress : Progress operation) (memory : Memory) :
    (progress.advance memory).2.committed = memory.committed ∨
      ∃ tx result committed, progress = .committing tx result ∧
        memory.committed.merge tx = .ok committed ∧
          progress.advance memory = (.ended (.ok result), { memory with committed }) := by
  cases progress with
  | working tx rest =>
      apply Or.inl
      cases rest with
      | done result =>
          rw [Progress.advance]
          by_cases hread : operation.isRead
          · rw [if_pos hread]
          · rw [if_neg hread, prepare_eq]
            by_cases hfault : memory.registers.fault = some .commit
            · simp only [if_pos hfault]
            · simp only [if_neg hfault]
      | refuse error => rfl
      | call request next =>
          rw [Progress.advance, answer]
          generalize (answerCall request).run.run ⟨memory.registers, tx⟩ = answered
          obtain ⟨_ | reply, after⟩ := answered <;> rfl
  | committing tx result =>
      rw [Progress.advance, apply]
      cases hmerge : memory.committed.merge tx with
      | error error => exact .inl rfl
      | ok committed => exact .inr ⟨tx, result, committed, rfl, hmerge, rfl⟩
  | ended outcome => exact .inl rfl

/-- An operation that changes the catalog succeeds when its transaction is merged. -/
theorem of_advance_eq_ended_ok {progress : Progress operation} {memory after : Memory}
    {result : operation.Result} (hopen : progress.isEnded = false)
    (hwrites : operation.isRead = false)
    (h : progress.advance memory = (.ended (.ok result), after)) :
    ∃ tx committed, progress = .committing tx result ∧
      memory.committed.merge tx = .ok committed ∧ after = { memory with committed } := by
  cases progress with
  | working tx rest =>
      cases rest with
      | done result =>
          simp only [Progress.advance, hwrites, Bool.false_eq_true, if_false] at h
          split at h <;> cases h
      | refuse error => cases h
      | call request next =>
          simp only [Progress.advance] at h
          split at h <;> cases h
  | committing tx result =>
      simp only [Progress.advance, apply] at h
      cases hmerge : memory.committed.merge tx with
      | error error =>
          rw [hmerge] at h
          cases h
      | ok committed =>
          rw [hmerge] at h
          cases h
          exact ⟨tx, committed, rfl, hmerge, rfl⟩
  | ended outcome => cases hopen

end Progress

/-! ## Clients -/

/-- What a client is about. -/
inductive Standing where
  /-- It holds a transaction. -/
  | free (tx : Transaction)
  /-- It holds a transaction that has passed the first half of its commit. -/
  | leaving (tx : Transaction)
  /-- It carries out an operation. -/
  | serving (operation : Operation) (progress : Progress operation)

/-- The transaction that a client holds. -/
def Standing.tx? : Standing → Option Transaction
  | .free tx => some tx
  | .leaving tx => some tx
  | .serving _ progress => progress.tx?

/-- One who works on the catalog. What was committed when it began is kept for the
record: no move depends on it. -/
structure Client where
  origin : Tables
  standing : Standing

/-- Whether a client is about an operation that has not ended. -/
def Client.isUnderWay (client : Client) : Bool :=
  match client.standing with
  | .serving _ progress => !progress.isEnded
  | _ => false

/-- Whether a client was about an operation that has succeeded. -/
def Client.hasSucceeded (client : Client) : Bool :=
  match client.standing with
  | .serving _ (.ended (.ok _)) => true
  | _ => false

/-- The error that the operation of a client has ended with. -/
def Client.failure? (client : Client) : Option CatalogError :=
  match client.standing with
  | .serving _ progress => progress.failure?
  | _ => none

/-! ## Moves -/

/-- A catalog in memory and the clients that work on it, each under a number. -/
structure System where
  memory : Memory
  client : Nat → Option Client

/-- One thing that happens. -/
inductive Move where
  /-- A fault is armed. -/
  | arm (point : FaultPoint)
  /-- A client begins a transaction. -/
  | begin (name : Nat)
  /-- A client makes a call within its transaction. -/
  | call (name : Nat) (request : Call)
  /-- A client passes the first half of its commit, unless a fault strikes. -/
  | prepare (name : Nat)
  /-- A client passes the second half of its commit. -/
  | apply (name : Nat)
  /-- A client sets out on an operation. -/
  | enter (name : Nat) (limit : Option Nat) (operation : Operation)
  /-- A client does the next thing of its operation. -/
  | advance (name : Nat)
  /-- A client goes away. A transaction that it held is rolled back. -/
  | leave (name : Nat)

/-- Whether a move puts somebody else, or nobody, in the place of a client that carries
out an operation. -/
def Move.replaces (name : Nat) : Move → Bool
  | .begin other => other = name
  | .enter other _ _ => other = name
  | .leave other => other = name
  | _ => false

namespace System

/-- An empty catalog that nobody works on. -/
def start : System := ⟨Memory.start, fun _ => none⟩

/-- The system with somebody else, or nobody, under a number. -/
def seat (system : System) (name : Nat) (client : Option Client) : System :=
  { system with client := fun other => if other = name then client else system.client other }

theorem client_seat_self (system : System) (name : Nat) (client : Option Client) :
    (system.seat name client).client name = client := if_pos rfl

/-- Whoever sits somewhere then was seated there, or sat there before. -/
theorem client_seat_cases {system : System} {name other : Nat} {new : Option Client}
    {client : Client} (h : (system.seat name new).client other = some client) :
    other = name ∧ new = some client ∨ other ≠ name ∧ system.client other = some client := by
  by_cases hother : other = name
  · rw [hother, client_seat_self] at h
    exact .inl ⟨hother, h⟩
  · have hsame : (system.seat name new).client other = system.client other := if_neg hother
    rw [hsame] at h
    exact .inr ⟨hother, h⟩

/-- The system after a move. A move that a client is in no position to make changes
nothing. -/
def move (system : System) : Move → System
  | .arm point => { system with memory := system.memory.arm point }
  | .begin name =>
    system.seat name (some ⟨system.memory.committed.tables, .free system.memory.begin⟩)
  | .call name request =>
    match system.client name with
    | some ⟨origin, .free tx⟩ =>
      match system.memory.answer request tx with
      | (_, tx, memory) => { system with memory }.seat name (some ⟨origin, .free tx⟩)
    | _ => system
  | .prepare name =>
    match system.client name with
    | some ⟨origin, .free tx⟩ =>
      match system.memory.prepare with
      | (.error _, memory) => { system with memory }.seat name none
      | (.ok (), memory) => { system with memory }.seat name (some ⟨origin, .leaving tx⟩)
    | _ => system
  | .apply name =>
    match system.client name with
    | some ⟨_, .leaving tx⟩ =>
      { system with memory := (system.memory.apply tx).2 }.seat name none
    | _ => system
  | .enter name limit operation =>
    system.seat name
      (some ⟨system.memory.committed.tables,
        .serving operation (.enter limit operation system.memory)⟩)
  | .advance name =>
    match system.client name with
    | some ⟨origin, .serving operation progress⟩ =>
      match progress.advance system.memory with
      | (progress, memory) =>
        { system with memory }.seat name (some ⟨origin, .serving operation progress⟩)
    | _ => system
  | .leave name => system.seat name none

/-- The system after some moves, from the empty catalog on. -/
def run (moves : List Move) : System := moves.foldl move start

/-- With a move of its own an operation does the next thing, unless there is none under
way. -/
theorem move_advance_cases (system : System) (name : Nat) :
    system.move (.advance name) = system ∨
      ∃ origin operation, ∃ progress : Progress operation,
        system.client name = some ⟨origin, .serving operation progress⟩ ∧
          system.move (.advance name) =
            ({ system with memory := (progress.advance system.memory).2 } : System).seat name
              (some ⟨origin, .serving operation (progress.advance system.memory).1⟩) := by
  rw [move]
  split
  · next origin operation progress hclient =>
    exact .inr ⟨origin, operation, progress, hclient, rfl⟩
  · exact .inl rfl

/-- What is committed with the last move of an operation is what its transaction comes to. -/
theorem committed_of_merge {system : System} {name : Nat} {origin : Tables}
    {operation : Operation} {tx : Transaction} {result : operation.Result} {committed : Committed}
    (hclient : system.client name =
      some ⟨origin, .serving operation (.committing tx result)⟩)
    (hmerge : system.memory.committed.merge tx = .ok committed) :
    (system.move (.advance name)).memory.committed = committed := by
  simp only [move, hclient, Progress.advance, apply, hmerge]
  rfl

/-- A move of an operation commits nothing, unless it is the last one and merges its
transaction. -/
theorem committed_advance_cases (system : System) (name : Nat) :
    (system.move (.advance name)).memory.committed = system.memory.committed ∨
      ∃ origin operation tx, ∃ result : operation.Result, ∃ committed,
        system.client name = some ⟨origin, .serving operation (.committing tx result)⟩ ∧
          system.memory.committed.merge tx = .ok committed ∧
            (system.move (.advance name)).memory.committed = committed := by
  rcases system.move_advance_cases name with
    hnone | ⟨origin, operation, progress, hclient, hmove⟩
  · rw [hnone]
    exact .inl rfl
  · rcases progress.committed_advance system.memory with
      hsame | ⟨tx, result, committed, rfl, hmerge, _⟩
    · rw [hmove]
      exact .inl hsame
    · exact .inr ⟨origin, operation, tx, result, committed, hclient, hmerge,
        committed_of_merge hclient hmerge⟩

/-- With a move of its own a client goes on with its operation. -/
theorem client_move_advance {system : System} {name : Nat} {origin : Tables}
    {operation : Operation} {progress : Progress operation}
    (hclient : system.client name = some ⟨origin, .serving operation progress⟩) :
    (system.move (.advance name)).client name =
      some ⟨origin, .serving operation (progress.advance system.memory).1⟩ := by
  simp only [move, hclient]
  exact client_seat_self _ _ _

theorem memory_move_advance {system : System} {name : Nat} {origin : Tables}
    {operation : Operation} {progress : Progress operation}
    (hclient : system.client name = some ⟨origin, .serving operation progress⟩) :
    (system.move (.advance name)).memory = (progress.advance system.memory).2 := by
  simp only [move, hclient]
  rfl

theorem advance_eq_of_client {system : System} {name : Nat} {origin : Tables}
    {operation : Operation} {progress last : Progress operation}
    (hclient : system.client name = some ⟨origin, .serving operation progress⟩)
    (hafter : (system.move (.advance name)).client name =
      some ⟨origin, .serving operation last⟩) :
    (progress.advance system.memory).1 = last := by
  rw [client_move_advance hclient] at hafter
  exact eq_of_heq (Standing.serving.inj (Client.mk.inj (Option.some.inj hafter)).2).2

/-- With its next move, an operation that began on some tables succeeds. -/
structure Completes (system : System) (name : Nat) (origin : Tables) (operation : Operation)
    (result : operation.Result) : Prop where
  underWay : ∃ progress : Progress operation, progress.isEnded = false ∧
    system.client name = some ⟨origin, .serving operation progress⟩
  succeeds : (system.move (.advance name)).client name =
    some ⟨origin, .serving operation (.ended (.ok result))⟩

theorem exists_underWay {system : System} {name : Nat} {origin : Tables} {operation : Operation}
    (hclient : ∃ progress, system.client name = some ⟨origin, .serving operation progress⟩)
    (hopen : (system.client name).any Client.isUnderWay) :
    ∃ progress : Progress operation, progress.isEnded = false ∧
      system.client name = some ⟨origin, .serving operation progress⟩ := by
  obtain ⟨progress, hclient⟩ := hclient
  rw [hclient] at hopen
  exact ⟨progress, (Bool.not_eq_true' _).mp hopen, hclient⟩

/-- An operation completes when it is under way and its next move makes it succeed. -/
theorem exists_completes {system : System} {name : Nat} {origin : Tables}
    {operation : Operation}
    (hclient : ∃ progress, system.client name = some ⟨origin, .serving operation progress⟩)
    (hopen : (system.client name).any Client.isUnderWay)
    (hdone : ((system.move (.advance name)).client name).any Client.hasSucceeded) :
    ∃ result, system.Completes name origin operation result := by
  obtain ⟨progress, hnotEnded, hclient⟩ := exists_underWay hclient hopen
  have hafter := client_move_advance hclient
  rw [hafter] at hdone
  generalize (progress.advance system.memory).1 = last at hafter hdone
  cases last with
  | ended outcome =>
      cases outcome with
      | ok result => exact ⟨result, ⟨progress, hnotEnded, hclient⟩, hafter⟩
      | error error => cases hdone
  | working tx rest => cases hdone
  | committing tx result => cases hdone

/-- With its next move, an operation that began on some tables fails. -/
structure Fails (system : System) (name : Nat) (origin : Tables) (operation : Operation)
    (error : CatalogError) : Prop where
  underWay : ∃ progress : Progress operation, progress.isEnded = false ∧
    system.client name = some ⟨origin, .serving operation progress⟩
  fails : (system.move (.advance name)).client name =
    some ⟨origin, .serving operation (.ended (.error error))⟩

/-- An operation fails when it is under way and its next move ends it with an error. -/
theorem fails_of_failure? {system : System} {name : Nat} {origin : Tables}
    {operation : Operation} {error : CatalogError}
    (hclient : ∃ progress, system.client name = some ⟨origin, .serving operation progress⟩)
    (hopen : (system.client name).any Client.isUnderWay)
    (hfailure : ((system.move (.advance name)).client name).bind Client.failure? = some error) :
    system.Fails name origin operation error := by
  obtain ⟨progress, hnotEnded, hclient⟩ := exists_underWay hclient hopen
  have hafter := client_move_advance hclient
  rw [hafter] at hfailure
  rw [Progress.eq_of_failure? hfailure] at hafter
  exact ⟨⟨progress, hnotEnded, hclient⟩, hafter⟩

/-- An operation that changes the catalog completes when its transaction is merged. -/
theorem Completes.merged {system : System} {name : Nat} {origin : Tables}
    {operation : Operation} {result : operation.Result}
    (h : system.Completes name origin operation result) (hwrites : operation.isRead = false) :
    ∃ tx committed,
      system.client name = some ⟨origin, .serving operation (.committing tx result)⟩ ∧
        system.memory.committed.merge tx = .ok committed ∧
          (system.move (.advance name)).memory.committed = committed := by
  obtain ⟨progress, hopen, hclient⟩ := h.underWay
  have hprogress := advance_eq_of_client hclient h.succeeds
  obtain ⟨tx, committed, rfl, hmerge, _⟩ :=
    Progress.of_advance_eq_ended_ok hopen hwrites (Prod.ext hprogress rfl)
  exact ⟨tx, committed, hclient, hmerge, committed_of_merge hclient hmerge⟩

/-- A client that carries out an operation goes on with it, whatever moves are made, until
somebody takes its place. -/
theorem serving_move {system : System} {name : Nat} {origin : Tables} {operation : Operation}
    (hclient : ∃ progress, system.client name = some ⟨origin, .serving operation progress⟩)
    {move : Move} (hstays : move.replaces name = false) :
    ∃ progress, (system.move move).client name =
      some ⟨origin, .serving operation progress⟩ := by
  obtain ⟨progress, hclient⟩ := hclient
  have hseat : ∀ (memory : Memory) (other : Nat) (client : Option Client), other ≠ name →
      (({ system with memory } : System).seat other client).client name =
        some ⟨origin, .serving operation progress⟩ :=
    fun _ other _ hother => (if_neg hother.symm).trans hclient
  have hne : ∀ {other : Nat} {client : Client}, system.client other = some client →
      client.standing ≠ .serving operation progress → other ≠ name := by
    rintro other client hother hstanding rfl
    rw [hclient] at hother
    cases hother
    exact hstanding rfl
  cases move with
  | arm point => exact ⟨progress, hclient⟩
  | begin other => exact ⟨progress, hseat _ other _ (of_decide_eq_false hstays)⟩
  | enter other limit new => exact ⟨progress, hseat _ other _ (of_decide_eq_false hstays)⟩
  | leave other => exact ⟨progress, hseat _ other _ (of_decide_eq_false hstays)⟩
  | call other request =>
      simp only [System.move]
      split
      · next hother => exact ⟨progress, hseat _ other _ (hne hother nofun)⟩
      · exact ⟨progress, hclient⟩
  | prepare other =>
      simp only [System.move]
      split
      · next hother => split <;> exact ⟨progress, hseat _ other _ (hne hother nofun)⟩
      · exact ⟨progress, hclient⟩
  | apply other =>
      simp only [System.move]
      split
      · next hother => exact ⟨progress, hseat _ other _ (hne hother nofun)⟩
      · exact ⟨progress, hclient⟩
  | advance other =>
      rcases system.move_advance_cases other with hnone | ⟨_, _, theirs, hother, hmove⟩
      · rw [hnone]
        exact ⟨progress, hclient⟩
      · rw [hmove]
        by_cases heq : other = name
        · subst heq
          rw [hclient] at hother
          cases hother
          exact ⟨_, client_seat_self _ _ _⟩
        · exact ⟨progress, hseat _ other _ heq⟩

/-- How somebody came to be under a number by a move. -/
inductive Arrives (system : System) (move : Move) (name : Nat) : Client → Prop
  /-- The move was none of its own. -/
  | stayed {client : Client} (before : system.client name = some client) :
      Arrives system move name client
  /-- It has begun a transaction. -/
  | began (made : move = .begin name) : Arrives system move name
      ⟨system.memory.committed.tables, .free system.memory.begin⟩
  /-- It has made a call. -/
  | called {request : Call} {origin : Tables} {tx : Transaction}
      (made : move = .call name request) (before : system.client name = some ⟨origin, .free tx⟩) :
      Arrives system move name ⟨origin, .free (system.memory.answer request tx).2.1⟩
  /-- It has passed the first half of its commit. -/
  | prepared {origin : Tables} {tx : Transaction} (made : move = .prepare name)
      (before : system.client name = some ⟨origin, .free tx⟩) :
      Arrives system move name ⟨origin, .leaving tx⟩
  /-- It has set out on an operation. -/
  | entered {limit : Option Nat} {operation : Operation}
      (made : move = .enter name limit operation) : Arrives system move name
        ⟨system.memory.committed.tables, .serving operation (.enter limit operation system.memory)⟩
  /-- It has gone on with its operation. -/
  | advanced {origin : Tables} {operation : Operation} {progress : Progress operation}
      (made : move = .advance name)
      (before : system.client name = some ⟨origin, .serving operation progress⟩) :
      Arrives system move name
        ⟨origin, .serving operation (progress.advance system.memory).1⟩

/-- Whoever is there after a move has come there in one of these ways. -/
theorem arrives_move {system : System} {move : Move} {name : Nat} {client : Client}
    (hclient : (system.move move).client name = some client) :
    system.Arrives move name client := by
  -- A move seats one client, and leaves the others where they are.
  have hseat : ∀ {memory : Memory} {other : Nat} {new : Option Client},
      (({ system with memory } : System).seat other new).client name = some client →
      (∀ arrived, other = name → new = some arrived → system.Arrives move name arrived) →
        system.Arrives move name client := by
    intro memory other new hseated harrives
    rcases client_seat_cases hseated with ⟨rfl, heq⟩ | ⟨_, hbefore⟩
    · exact harrives client rfl heq
    · exact .stayed hbefore
  cases move with
  | arm point => exact .stayed hclient
  | begin other =>
      refine hseat hclient ?_
      rintro _ rfl ⟨⟩
      exact .began rfl
  | enter other limit operation =>
      refine hseat hclient ?_
      rintro _ rfl ⟨⟩
      exact .entered rfl
  | leave other =>
      refine hseat hclient ?_
      rintro _ rfl ⟨⟩
  | call other request =>
      simp only [System.move] at hclient
      split at hclient
      · next hother =>
        refine hseat hclient ?_
        rintro _ rfl ⟨⟩
        exact .called rfl hother
      · exact .stayed hclient
  | prepare other =>
      simp only [System.move] at hclient
      split at hclient
      · next hother =>
        split at hclient
        · refine hseat hclient ?_
          rintro _ rfl ⟨⟩
        · refine hseat hclient ?_
          rintro _ rfl ⟨⟩
          exact .prepared rfl hother
      · exact .stayed hclient
  | apply other =>
      simp only [System.move] at hclient
      split at hclient
      · refine hseat hclient ?_
        rintro _ rfl ⟨⟩
      · exact .stayed hclient
  | advance other =>
      rcases system.move_advance_cases other with hnone | ⟨_, _, _, hother, hmove⟩
      · rw [hnone] at hclient
        exact .stayed hclient
      · rw [hmove] at hclient
        refine hseat hclient ?_
        rintro _ rfl ⟨⟩
        exact .advanced rfl hother

/-- Whoever is there after a move began with it, or began on the same tables before. -/
theorem origin_move {system : System} {move : Move} {name : Nat} {client : Client}
    (hclient : (system.move move).client name = some client) :
    client.origin = system.memory.committed.tables ∨
      ∃ before, system.client name = some before ∧ before.origin = client.origin := by
  cases arrives_move hclient with
  | stayed before => exact .inr ⟨client, before, rfl⟩
  | began => exact .inl rfl
  | entered => exact .inl rfl
  | called _ before => exact .inr ⟨_, before, rfl⟩
  | prepared _ before => exact .inr ⟨_, before, rfl⟩
  | advanced _ before => exact .inr ⟨_, before, rfl⟩

theorem run_append_all (moves more : List Move) :
    run (moves ++ more) = more.foldl move (run moves) := by
  rw [run, run, List.foldl_append]

theorem run_append (moves : List Move) (last : Move) :
    run (moves ++ [last]) = (run moves).move last :=
  run_append_all moves [last]

/-- What a client began on was committed at some time. -/
theorem origin_run {moves : List Move} {name : Nat} {client : Client}
    (hclient : (run moves).client name = some client) :
    ∃ done, done <+: moves ∧ client.origin = (run done).memory.committed.tables := by
  induction moves using List.reverseRecOn generalizing client with
  | nil => cases hclient
  | append_singleton moves last ih =>
      rw [run_append] at hclient
      rcases origin_move hclient with horigin | ⟨before, hbefore, horigin⟩
      · exact ⟨moves, List.prefix_append moves [last], horigin⟩
      · obtain ⟨done, hdone, hcommitted⟩ := ih hbefore
        exact ⟨done, hdone.trans (List.prefix_append moves [last]), horigin ▸ hcommitted⟩

/-- A client that has set out on an operation is about it until somebody takes its
place, and what was committed when it set out is on record. -/
theorem serving_run (moves more : List Move) (name : Nat) (limit : Option Nat)
    (operation : Operation) (hstays : ∀ move ∈ more, move.replaces name = false) :
    ∃ progress, (run (moves ++ .enter name limit operation :: more)).client name =
      some ⟨(run moves).memory.committed.tables, .serving operation progress⟩ := by
  rw [run_append_all, List.foldl_cons]
  have hserving : ∀ system : System,
      (∃ progress, system.client name =
        some ⟨(run moves).memory.committed.tables, .serving operation progress⟩) →
      ∃ progress, (more.foldl move system).client name =
        some ⟨(run moves).memory.committed.tables, .serving operation progress⟩ := by
    induction more with
    | nil => exact fun _ hclient => hclient
    | cons first rest ih =>
        intro system hclient
        apply ih fun move hmem => hstays move (List.mem_cons_of_mem first hmem)
        exact serving_move hclient (hstays first List.mem_cons_self)
  exact hserving _ ⟨_, client_seat_self _ _ _⟩

/-- What holds at the start and outlasts every move that is made holds in the end.
Of a system that a move is made in it is known that it was come to by moves. -/
theorem run_preserves {allowed : Move → Prop} {invariant : System → Prop}
    (hstart : invariant start)
    (hmove : ∀ moves move, allowed move → invariant (run moves) →
      invariant ((run moves).move move))
    (moves : List Move) (hallowed : ∀ move ∈ moves, allowed move) : invariant (run moves) := by
  induction moves using List.reverseRecOn with
  | nil => exact hstart
  | append_singleton moves last ih =>
      rw [run_append]
      apply hmove moves last (hallowed last List.mem_concat_self)
      apply ih
      exact fun move hmem => hallowed move (List.mem_append_left _ hmem)

end System

end VariantCatalog.Memory
