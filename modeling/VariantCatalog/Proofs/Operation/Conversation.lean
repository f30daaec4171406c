/-
# What an operation asks of its store

An operation meets its store as a partner that may answer anything.  `Store.logged` is a
store that also writes down what it is asked and which errors it answers with, and
`Operation.Conversation` says which logs an operation can leave, and what it ends with
after each of them.

A malformed operation asks for nothing.  Any other one begins once.  A body that comes to
no result is rolled back, whether a call of it failed or it found something taken or
missing, and its error is the operation's; one that comes to a result is committed, or
rolled back where the operation only reads.  Either is the last thing that is asked.  What
a rollback is answered never matters.
-/

import VariantCatalog.Operation.Perform
import VariantCatalog.Proofs.Operation.Refusal

namespace VariantCatalog

variable {σ τ α : Type}

/-! ## Logs -/

/-- One thing that a store was asked for, with the error that it answered with, if any. -/
inductive Contact where
  /-- A transaction to be opened. -/
  | begin (failure : Option StoreError)
  /-- A call within the transaction. -/
  | call (request : Call) (failure : Option StoreError)
  /-- The transaction to be kept. -/
  | commit (failure : Option StoreError)
  /-- The transaction to be discarded. -/
  | rollback (failure : Option StoreError)

/-- Whether a store is asked to end the transaction. -/
def Contact.closes : Contact → Bool
  | .begin _ => false
  | .call _ _ => false
  | .commit _ => true
  | .rollback _ => true

/-- The error of an answer. -/
def failure? {ε α : Type} : Except ε α → Option ε
  | .ok _ => none
  | .error error => some error

/-- The store that writes a log of what it is asked. -/
def Store.logged (store : Store σ τ) : Store (σ × List Contact) τ where
  begin := fun (state, log) =>
    let (opened, after) := store.begin state
    (opened, after, log ++ [.begin (failure? opened)])
  answer := fun request tx (state, log) =>
    let (answered, tx, after) := store.answer request tx state
    (answered, tx, after, log ++ [.call request (failure? answered)])
  commit := fun tx (state, log) =>
    let (closed, after) := store.commit tx state
    (closed, after, log ++ [.commit (failure? closed)])
  rollback := fun tx (state, log) =>
    let (closed, after) := store.rollback tx state
    (closed, after, log ++ [.rollback (failure? closed)])

/-- The log of an operation. -/
def Store.conversation (store : Store σ τ) (limit : Option Nat) (operation : Operation)
    (state : σ) : List Contact :=
  (store.logged.perform limit operation (state, [])).2.2

/-! ## Bodies -/

/-- The log of a body, and what the body ends with.  Either all of its calls succeed, and it
comes to a result or to a finding of its own, or the last call fails, and that is the error
of the body. -/
inductive Dialogue : List Contact → Except CatalogError α → Prop where
  | result (requests : List Call) (result : α) :
      Dialogue (requests.map (.call · none)) (.ok result)
  | finding (requests : List Call) {error : CatalogError} (h : error.isFinding) :
      Dialogue (requests.map (.call · none)) (.error error)
  | failure (requests : List Call) (request : Call) (error : StoreError) :
      Dialogue (requests.map (.call · none) ++ [.call request (some error)])
        (.error (.ofStore error))

theorem Dialogue.cons {contacts : List Contact} {ending : Except CatalogError α}
    (h : Dialogue contacts ending) (request : Call) :
    Dialogue (.call request none :: contacts) ending := by
  cases h with
  | result requests result => exact .result (request :: requests) result
  | finding requests herror => exact .finding (request :: requests) herror
  | failure requests last error => exact .failure (request :: requests) last error

theorem Dialogue.not_closes {contacts : List Contact} {ending : Except CatalogError α}
    (h : Dialogue contacts ending) : ∀ contact ∈ contacts, contact.closes = false := by
  have hcalls : ∀ requests : List Call, ∀ contact ∈ requests.map (Contact.call · none),
      contact.closes = false := by
    intro requests contact hcontact
    obtain ⟨request, -, rfl⟩ := List.mem_map.mp hcontact
    rfl
  cases h with
  | result requests result => exact hcalls requests
  | finding requests herror => exact hcalls requests
  | failure requests last error =>
      intro contact hcontact
      rcases List.mem_append.mp hcontact with hearlier | hlast
      · exact hcalls requests contact hearlier
      · rw [List.mem_singleton.mp hlast]
        rfl

namespace Store

variable (store : Store σ τ)

theorem logged_begin (state : σ) (log : List Contact) :
    store.logged.begin (state, log) =
      ((store.begin state).1, (store.begin state).2,
        log ++ [.begin (failure? (store.begin state).1)]) := rfl

theorem logged_answer (request : Call) (tx : τ) (state : σ) (log : List Contact) :
    store.logged.answer request tx (state, log) =
      ((store.answer request tx state).1, (store.answer request tx state).2.1,
        (store.answer request tx state).2.2,
        log ++ [.call request (failure? (store.answer request tx state).1)]) := rfl

theorem logged_commit (tx : τ) (state : σ) (log : List Contact) :
    store.logged.commit tx (state, log) =
      ((store.commit tx state).1, (store.commit tx state).2,
        log ++ [.commit (failure? (store.commit tx state).1)]) := rfl

theorem logged_rollback (tx : τ) (state : σ) (log : List Contact) :
    store.logged.rollback tx (state, log) =
      ((store.rollback tx state).1, (store.rollback tx state).2,
        log ++ [.rollback (failure? (store.rollback tx state).1)]) := rfl

/-- A body goes as it would on the store itself, and its calls make a dialogue. -/
theorem exists_dialogue {program : Program α} (h : program.Accepts fun _ => True) (tx : τ)
    (state : σ) (log : List Contact) :
    ∃ contacts, Dialogue contacts (store.run program tx state).1 ∧
      store.logged.run program tx (state, log) =
        ((store.run program tx state).1, (store.run program tx state).2.1,
          (store.run program tx state).2.2, log ++ contacts) := by
  induction program generalizing tx state log with
  | done result => exact ⟨[], .result [] result, by simp only [run, List.append_nil]⟩
  | refuse error => exact ⟨[], .finding [] h, by simp only [run, List.append_nil]⟩
  | call request next ih =>
      rw [run, run, logged_answer]
      generalize store.answer request tx state = answered
      obtain ⟨error | reply, later, after⟩ := answered
      · exact ⟨_, .failure [] request error, rfl⟩
      · obtain ⟨contacts, hdialogue, hrun⟩ :=
          ih reply (h reply () trivial) later after (log ++ [.call request none])
        rw [List.append_assoc] at hrun
        exact ⟨.call request none :: contacts, hdialogue.cons request, hrun⟩

end Store

/-! ## Operations -/

/-- The log of an operation, and what the operation ends with. -/
inductive Operation.Conversation (limit : Option Nat) (operation : Operation) :
    List Contact → Except CatalogError operation.Result → Prop where
  /-- A malformed operation asks the store for nothing. -/
  | rejected {flaw : Flaw} (h : operation.check limit = .error flaw) :
      Conversation limit operation [] (.error (.ofFlaw flaw))
  /-- Where no transaction can be opened, nothing else is asked. -/
  | unopened (h : operation.check limit = .ok ()) (error : StoreError) :
      Conversation limit operation [.begin (some error)] (.error (.ofStore error))
  /-- What the body of a change fails with is what the operation ends with, and the
  transaction is rolled back. -/
  | abandoned (h : operation.check limit = .ok ()) (hchange : operation.isRead = false)
      {contacts : List Contact} {error : CatalogError}
      (hbody : Dialogue (α := operation.Result) contacts (.error error))
      (answer : Option StoreError) :
      Conversation limit operation (.begin none :: contacts ++ [.rollback answer])
        (.error error)
  /-- Where a change cannot be committed, that is the error. -/
  | uncommitted (h : operation.check limit = .ok ()) (hchange : operation.isRead = false)
      {contacts : List Contact} {result : operation.Result}
      (hbody : Dialogue contacts (.ok result)) (error : StoreError) :
      Conversation limit operation (.begin none :: contacts ++ [.commit (some error)])
        (.error (.ofStore error))
  /-- A change whose body comes to a result is committed. -/
  | committed (h : operation.check limit = .ok ()) (hchange : operation.isRead = false)
      {contacts : List Contact} {result : operation.Result}
      (hbody : Dialogue contacts (.ok result)) :
      Conversation limit operation (.begin none :: contacts ++ [.commit none]) (.ok result)
  /-- A read is rolled back, whatever its body ends with. -/
  | released (h : operation.check limit = .ok ()) (hread : operation.isRead = true)
      {contacts : List Contact} {outcome : Except CatalogError operation.Result}
      (hbody : Dialogue contacts outcome) (answer : Option StoreError) :
      Conversation limit operation (.begin none :: contacts ++ [.rollback answer]) outcome

/-- A transaction is not closed twice: what is committed is not rolled back. -/
theorem Operation.Conversation.closes_once {limit : Option Nat} {operation : Operation}
    {contacts : List Contact} {outcome : Except CatalogError operation.Result}
    (h : operation.Conversation limit contacts outcome) :
    (contacts.filter Contact.closes).length ≤ 1 := by
  have hbody : ∀ {ending : Except CatalogError operation.Result} {calls : List Contact}
      (last : Contact), Dialogue calls ending →
        ((Contact.begin none :: calls ++ [last]).filter Contact.closes).length ≤ 1 := by
    intro ending calls last hdialogue
    have hnone : calls.filter Contact.closes = [] :=
      List.filter_eq_nil_iff.mpr fun contact hcontact hcloses =>
        Bool.false_ne_true ((hdialogue.not_closes contact hcontact).symm.trans hcloses)
    rw [List.cons_append, List.filter_cons_of_neg (by decide), List.filter_append, hnone]
    exact List.length_filter_le _ _
  cases h with
  | rejected h => exact Nat.zero_le 1
  | unopened h error => exact Nat.zero_le 1
  | abandoned h hchange hdialogue answer => exact hbody _ hdialogue
  | uncommitted h hchange hdialogue error => exact hbody _ hdialogue
  | committed h hchange hdialogue => exact hbody _ hdialogue
  | released h hread hdialogue answer => exact hbody _ hdialogue

namespace Store

variable (store : Store σ τ)

/-- A change goes as it would on the store itself. -/
theorem exists_conversation_transact {limit : Option Nat} {operation : Operation}
    (h : operation.check limit = .ok ()) (hchange : operation.isRead = false)
    (hbody : operation.body.Accepts fun _ => True) (state : σ) (log : List Contact) :
    ∃ contacts, operation.Conversation limit contacts (store.transact operation.body state).1 ∧
      store.logged.transact operation.body (state, log) =
        ((store.transact operation.body state).1, (store.transact operation.body state).2,
          log ++ contacts) := by
  rw [transact, transact, logged_begin]
  generalize store.begin state = opened
  obtain ⟨error | tx, opened⟩ := opened
  · exact ⟨_, .unopened h error, rfl⟩
  · obtain ⟨calls, hdialogue, hrun⟩ :=
      store.exists_dialogue hbody tx opened (log ++ [.begin none])
    simp only [failure?, hrun]
    generalize store.run operation.body tx opened = ran at hdialogue
    obtain ⟨error | result, later, after⟩ := ran
    · refine ⟨_, .abandoned h hchange hdialogue (failure? (store.rollback later after).1), ?_⟩
      simp only [logged_rollback, List.append_assoc, List.cons_append, List.nil_append]
    · simp only [logged_commit]
      generalize store.commit later after = closed
      obtain ⟨error | _, last⟩ := closed
      · refine ⟨_, .uncommitted h hchange hdialogue error, ?_⟩
        simp only [failure?, List.append_assoc, List.cons_append, List.nil_append]
      · refine ⟨_, .committed h hchange hdialogue, ?_⟩
        simp only [failure?, List.append_assoc, List.cons_append, List.nil_append]

/-- A read goes as it would on the store itself. -/
theorem exists_conversation_observe {limit : Option Nat} {operation : Operation}
    (h : operation.check limit = .ok ()) (hread : operation.isRead = true)
    (hbody : operation.body.Accepts fun _ => True) (state : σ) (log : List Contact) :
    ∃ contacts, operation.Conversation limit contacts (store.observe operation.body state).1 ∧
      store.logged.observe operation.body (state, log) =
        ((store.observe operation.body state).1, (store.observe operation.body state).2,
          log ++ contacts) := by
  rw [observe, observe, logged_begin]
  generalize store.begin state = opened
  obtain ⟨error | tx, opened⟩ := opened
  · exact ⟨_, .unopened h error, rfl⟩
  · obtain ⟨calls, hdialogue, hrun⟩ :=
      store.exists_dialogue hbody tx opened (log ++ [.begin none])
    simp only [failure?, hrun]
    generalize store.run operation.body tx opened = ran at hdialogue
    obtain ⟨outcome, later, after⟩ := ran
    refine ⟨_, .released h hread hdialogue (failure? (store.rollback later after).1), ?_⟩
    simp only [logged_rollback, List.append_assoc, List.cons_append, List.nil_append]

/-- An operation goes as it would on the store itself. -/
theorem exists_conversation (limit : Option Nat) (operation : Operation) (state : σ)
    (log : List Contact) :
    ∃ contacts, operation.Conversation limit contacts (store.perform limit operation state).1 ∧
      store.logged.perform limit operation (state, log) =
        ((store.perform limit operation state).1, (store.perform limit operation state).2,
          log ++ contacts) := by
  rw [perform, perform]
  cases hscreen : operation.screen limit with
  | error error =>
      cases hcheck : operation.check limit with
      | error flaw =>
          rw [Operation.screen, hcheck] at hscreen
          cases hscreen
          exact ⟨[], .rejected hcheck, by rw [List.append_nil]⟩
      | ok _ =>
          rw [Operation.screen, hcheck] at hscreen
          cases hscreen
  | ok _ =>
      have hcheck : operation.check limit = .ok () := by
        cases hcheck : operation.check limit with
        | error flaw =>
            rw [Operation.screen, hcheck] at hscreen
            cases hscreen
        | ok _ => rfl
      have hbody := Operation.accepts_body hscreen
      dsimp only
      cases hread : operation.isRead with
      | false => exact store.exists_conversation_transact hcheck hread hbody state log
      | true => exact store.exists_conversation_observe hcheck hread hbody state log

/-! ## Rollbacks -/

theorem run_withRollback (rollback : τ → σ → Except StoreError Unit × σ)
    (program : Program α) (tx : τ) (state : σ) :
    { store with rollback }.run program tx state = store.run program tx state := by
  induction program generalizing tx state with
  | done result => rfl
  | refuse error => rfl
  | call request next ih =>
      rw [run, run]
      generalize store.answer request tx state = answered
      obtain ⟨error | reply, later, after⟩ := answered
      · rfl
      · exact ih reply later after

/-- What an operation ends with does not depend on how rollbacks are answered. -/
theorem perform_withRollback (rollback : τ → σ → Except StoreError Unit × σ)
    (limit : Option Nat) (operation : Operation) (state : σ) :
    ({ store with rollback }.perform limit operation state).1 =
      (store.perform limit operation state).1 := by
  rw [perform, perform]
  cases operation.screen limit with
  | error error => rfl
  | ok _ =>
      dsimp only
      cases operation.isRead with
      | true =>
          simp only [if_true, observe, run_withRollback]
          generalize store.begin state = opened
          obtain ⟨error | tx, opened⟩ := opened
          · rfl
          · rfl
      | false =>
          simp only [Bool.false_eq_true, if_false, transact, run_withRollback]
          generalize store.begin state = opened
          obtain ⟨error | tx, opened⟩ := opened
          · rfl
          · dsimp only
            generalize store.run operation.body tx opened = ran
            obtain ⟨error | result, later, after⟩ := ran
            · rfl
            · rfl

/-- Whatever a store answers, an operation keeps to the discipline of transactions. Writing
down what it asks for changes nothing of it; what it asks for and what it ends with make a
conversation, in which at most one transaction is closed, and that once; and what it ends
with would be the same if every rollback were answered in another way. -/
theorem perform_conversation (limit : Option Nat) (operation : Operation) (state : σ) :
    ((store.logged.perform limit operation (state, [])).1 =
        (store.perform limit operation state).1 ∧
      (store.logged.perform limit operation (state, [])).2.1 =
        (store.perform limit operation state).2) ∧
    operation.Conversation limit (store.conversation limit operation state)
      (store.perform limit operation state).1 ∧
    ((store.conversation limit operation state).filter Contact.closes).length ≤ 1 ∧
    ∀ rollback : τ → σ → Except StoreError Unit × σ,
      ({ store with rollback }.perform limit operation state).1 =
        (store.perform limit operation state).1 := by
  obtain ⟨contacts, hconversation, hperform⟩ :=
    store.exists_conversation limit operation state []
  rw [conversation, hperform, List.nil_append]
  exact ⟨⟨rfl, rfl⟩, hconversation, hconversation.closes_once,
    fun rollback => store.perform_withRollback rollback limit operation state⟩

end Store

end VariantCatalog
