/-
# What a write leaves behind when it fails

A write that fails should leave its transaction as it was, so that whoever goes on and commits
commits nothing of it.  Sixteen of the writes look before they write: the row that they are
to edit is looked up, and the row that they are to store is checked, while the tables are still
as they were.  A failure costs them a number or a glance at the clock at most.

A batch of bridges looks at each bridge only when it comes to it, and by then it has
stored the bridges before.  When one of them is refused, those stay in the working tables and
in the journal, and nothing tells them from the work of a call that succeeded
(`leaves_iff_breaksOff`).  A commit then commits them (`bridge_outlives_failure`).
-/

import VariantCatalog.Proofs.Interleaving.Growth

namespace VariantCatalog

open Memory Calendar

namespace Memory

/-! ## Work that leaves nothing behind -/

/-- Work that leaves the transaction alone if it fails. -/
def LeavesNothing {α : Type} (work : Work α) : Prop :=
  ∀ {session after : Session} {error : StoreError},
    work.run.run session = (.error error, after) → after.transaction = session.transaction

namespace LeavesNothing

theorem readClock_bind {α : Type} {next : Moment → Work α}
    (hnext : ∀ moment, LeavesNothing (next moment)) :
    LeavesNothing (readClock >>= next) := by
  intro session after error h
  rw [run_bind, run_readClock] at h
  have hafter : after.transaction = session.tick.transaction := hnext session.now h
  exact hafter

theorem create (kind : EntityKind) (build : Id kind → kind.Row) :
    LeavesNothing (create kind build) := by
  intro session after error h
  rw [run_create] at h
  split at h <;> cases h
  rfl

theorem revise (kind : EntityKind) (id : Id kind) (edit : kind.Row → Moment → kind.Row) :
    LeavesNothing (revise kind id edit) := by
  intro session after error h
  rw [run_revise] at h
  split at h <;> cases h
  rfl

theorem reviseChecked (kind : EntityKind) (id : Id kind)
    (edit : kind.Row → Moment → kind.Row) : LeavesNothing (reviseChecked kind id edit) := by
  intro session after error h
  rw [run_reviseChecked] at h
  split at h
  · cases h
    rfl
  · split at h <;> cases h
    rfl

theorem archive {kind : EntityKind} (id : Id kind) : LeavesNothing (archive id) := by
  intro session after error h
  rw [run_archive] at h
  split at h <;> cases h
  rfl

theorem archiveWhere (kind : EntityKind) (condition : kind.Row → Bool) :
    LeavesNothing (archiveWhere kind condition) := by
  intro session after error h
  rw [run_archiveWhere] at h
  cases h

/-- All writes but one leave nothing behind. -/
theorem carryOut {change : Write}
    (hsingle : ∀ product values, change ≠ .createBridges product values) :
    LeavesNothing (carryOut change) := by
  cases change with
  | createRoot new => exact readClock_bind fun _ => create .root _
  | createOption new => exact readClock_bind fun _ => create .option _
  | createValue new => exact readClock_bind fun _ => create .value _
  | createProduct new => exact readClock_bind fun _ => create .product _
  | createBridges product values => exact absurd rfl (hsingle product values)
  | updateRoot new => exact revise .root new.id _
  | updateOption id name => exact reviseChecked .option id _
  | updateValue id value => exact reviseChecked .value id _
  | updateProduct new => exact revise .product new.id _
  | updateBridge new => exact reviseChecked .bridge new.id _
  | archiveRoot id => exact archive id
  | archiveOption id => exact archive id
  | archiveValue id => exact archive id
  | archiveProduct id => exact archive id
  | archiveValuesOf option => exact archiveWhere .value _
  | archiveBridgesOfProduct product => exact archiveWhere .bridge _
  | archiveBridgesOfValue value => exact archiveWhere .bridge _

end LeavesNothing

/-! ## Batches that break off -/

/-- A batch of bridges has been stored as far as the values that are done, and broke off as the
bridge to the next value was refused. -/
def BreaksOff (product : Id .product) (done : List (Id .value)) (value : Id .value)
    (before : Transaction) (error : StoreError) (after : Transaction) : Prop :=
  ∃ kept : List VariantBridge, Joins product done kept ∧
    after = before.writeAll (AnyRow.ofRows .bridge kept) .created ∧
    ∃ id moment, @Tables.check after.working .bridge ⟨id, product, value, .created moment⟩ =
      .error error

/-- A batch that has done something leaves it behind. -/
theorem BreaksOff.ne {product : Id .product} {done : List (Id .value)} {value : Id .value}
    {before after : Transaction} {error : StoreError}
    (h : BreaksOff product done value before error after) (hdone : done ≠ []) :
    after ≠ before := by
  obtain ⟨kept, hjoins, rfl, _⟩ := h
  intro hsame
  have hlength := congrArg (fun tx => tx.journal.length) hsame
  simp only [Transaction.writeAll, AnyRow.ofRows, List.length_append, List.length_map] at hlength
  have hkept : kept.length = 0 := by omega
  exact hdone (List.eq_nil_of_length_eq_zero (hjoins.length_eq.trans hkept))

/-- A batch that had done nothing yet leaves nothing behind. -/
theorem BreaksOff.eq_of_nil {product : Id .product} {value : Id .value}
    {before after : Transaction} {error : StoreError}
    (h : BreaksOff product [] value before error after) : after = before := by
  obtain ⟨kept, hjoins, rfl, _⟩ := h
  cases hjoins
  exact Transaction.writeAll_nil before .created

/-- A batch that fails breaks off at some value: the first one whose bridge does not fit among
the tables and the bridges before it. -/
theorem breaksOff_of_createBridges {product : Id .product} {moment : Moment}
    (values : List (Id .value)) {session after : Session} {error : StoreError}
    (h : (createBridges product values moment).run.run session = (.error error, after)) :
    ∃ done value rest, values = done ++ value :: rest ∧
      BreaksOff product done value session.transaction error after.transaction := by
  induction values generalizing session with
  | nil => cases h
  | cons value rest ih =>
      rw [createBridges, List.mapM_cons, ← createBridges, run_bind, run_create] at h
      cases hcheck : @Tables.check session.transaction.working .bridge
          ⟨session.nextId .bridge, product, value, .created moment⟩ with
      | error refusal =>
          rw [hcheck] at h
          cases h
          exact ⟨[], value, rest, rfl, [], List.Forall₂.nil,
            (Transaction.writeAll_nil _ _).symm, _, moment, hcheck⟩
      | ok _ =>
          rw [hcheck] at h
          dsimp only at h
          rw [run_bind] at h
          split at h
          · cases h
          · next failure middle hrest =>
            cases h
            obtain ⟨done, refused, more, rfl, kept, hjoins, htransaction, hrefused⟩ := ih hrest
            have hcons := Transaction.writeAll_cons session.transaction
              ⟨.bridge, (⟨session.nextId .bridge, product, value, .created moment⟩ :
                VariantBridge)⟩ (AnyRow.ofRows .bridge kept) .created
            exact ⟨value :: done, refused, more, rfl, _ :: kept,
              List.Forall₂.cons ⟨rfl, rfl, rfl⟩ hjoins, htransaction.trans hcons.symm, hrefused⟩

/-- A write that fails leaves its transaction alone, or is a batch that breaks off. -/
theorem run_write_error_cases {change : Write} {session after : Session} {error : StoreError}
    (h : (answerCall (.write change)).run.run session = (.error error, after)) :
    after.transaction = session.transaction ∨
      ∃ product done value rest, change = .createBridges product (done ++ value :: rest) ∧
        BreaksOff product done value session.transaction error after.transaction := by
  rw [run_write] at h
  split at h
  · cases h
    exact .inl rfl
  · by_cases hbatch : ∃ product values, change = .createBridges product values
    · obtain ⟨product, values, rfl⟩ := hbatch
      rw [carryOut, run_bind, run_readClock] at h
      obtain ⟨done, value, rest, rfl, hbreaks⟩ := breaksOff_of_createBridges values h
      exact .inr ⟨product, done, value, rest, rfl, hbreaks⟩
    · have hsingle : ∀ product values, change ≠ .createBridges product values :=
        fun product values heq => hbatch ⟨product, values, heq⟩
      exact .inl (LeavesNothing.carryOut hsingle h)

/-- A call is answered by a run of its work on the registers as they are. -/
theorem exists_run_of_answer {memory later : Memory} {tx after : Transaction} {request : Call}
    {reply : Except StoreError request.Reply}
    (h : store.answer request tx memory = (reply, after, later)) :
    ∃ session, (answerCall request).run.run ⟨memory.registers, tx⟩ = (reply, session) ∧
      session.transaction = after ∧ { memory with registers := session.registers } = later := by
  have hanswer : store.answer request tx memory = memory.answer request tx := rfl
  rw [hanswer, answer] at h
  generalize (answerCall request).run.run ⟨memory.registers, tx⟩ = answered at h ⊢
  obtain ⟨given, session⟩ := answered
  cases h
  exact ⟨session, rfl, rfl, rfl⟩

/-- **Only a batch of bridges that breaks off in the middle leaves something behind.** When a
write fails, for whatever reason, its transaction is as it was before, unless the write was to
store bridges and some bridge after the first one was refused; then the bridges before that one
are in the working tables and in the journal. Nothing is committed in either case. -/
theorem leaves_iff_breaksOff {memory later : Memory} {tx after : Transaction} {change : Write}
    {error : StoreError}
    (h : store.answer (.write change) tx memory = (.error error, after, later)) :
    later.committed = memory.committed ∧
      (after ≠ tx ↔ ∃ product done value rest,
        change = .createBridges product (done ++ value :: rest) ∧ done ≠ [] ∧
          BreaksOff product done value tx error after) := by
  obtain ⟨session, hrun, rfl, rfl⟩ := exists_run_of_answer h
  refine ⟨rfl, fun hchanged => ?_, ?_⟩
  · rcases run_write_error_cases hrun with hsame | ⟨product, done, value, rest, rfl, hbreaks⟩
    · exact absurd hsame hchanged
    · refine ⟨product, done, value, rest, rfl, ?_, hbreaks⟩
      rintro rfl
      exact hchanged hbreaks.eq_of_nil
  · rintro ⟨product, done, value, rest, rfl, hdone, hbreaks⟩
    exact hbreaks.ne hdone

namespace System

/-- Somebody stores a shirt, a size of it and a variant, one row at a time. -/
def shirtParts : List Move :=
  [.begin 0, .call 0 (.write (.createRoot (NewRoot.ofDraft shirt.product))),
    .call 0 (.write (.createOption ⟨⟨1⟩, "Size"⟩)), .call 0 (.write (.createValue ⟨⟨1⟩, "S"⟩)),
    .call 0 (.write (.createProduct ⟨⟨1⟩, "Size: S", "shirt_s", shirt.product.details, none⟩))]

/-- Link the variant to its size, and to a value that is not there. -/
def shirtLinks : Write := .createBridges ⟨1⟩ [⟨1⟩, ⟨99⟩]

theorem leaves_iff_breaksOff_shirt :
    ∃ tx, ((run shirtParts).client 0).bind (·.standing.tx?) = some tx ∧
      (∃ error after later,
        store.answer (.write shirtLinks) tx (run shirtParts).memory =
            (.error error, after, later) ∧
          ∃ product done value rest,
            shirtLinks = .createBridges product (done ++ value :: rest) ∧ done ≠ [] ∧
              BreaksOff product done value tx error after) ∧
      ∃ error later, store.answer (.write (.updateOption ⟨9⟩ "Cut")) tx (run shirtParts).memory =
        (.error error, tx, later) := by
  have hruns : (((run shirtParts).client 0).bind (·.standing.tx?)).map (fun tx =>
      match store.answer (.write shirtLinks) tx (run shirtParts).memory with
      | (.error _, after, _) =>
        match store.answer (.write (.updateOption ⟨9⟩ "Cut")) tx (run shirtParts).memory with
        | (.error _, _, _) => decide (tx.journal.length < after.journal.length)
        | (.ok _, _, _) => false
      | (.ok _, _, _) => false) = some true := by decide +kernel
  obtain ⟨tx, htx, hruns⟩ := Option.map_eq_some_iff.mp hruns
  refine ⟨tx, htx, ?_⟩
  split at hruns
  · next error after later hlinks =>
    split at hruns
    · next refusal kept last hrename =>
      constructor
      · refine ⟨error, after, later, hlinks, (leaves_iff_breaksOff hlinks).2.mp ?_⟩
        rintro rfl
        exact Nat.lt_irrefl _ (of_decide_eq_true hruns)
      · have hkept : kept = tx := by
          by_contra hchanged
          obtain ⟨_, _, _, _, hbatch, _⟩ := (leaves_iff_breaksOff hrename).2.mp hchanged
          cases hbatch
        exact ⟨refusal, last, hkept ▸ hrename⟩
    · cases hruns
  · cases hruns

/-- The call fails, but what it did before is committed with the rest. -/
theorem bridge_outlives_failure :
    ∃ tx error after later,
      ((run shirtParts).client 0).bind (·.standing.tx?) = some tx ∧
      store.answer (.write shirtLinks) tx (run shirtParts).memory =
        (.error error, after, later) ∧
      (tx.working.find? (⟨1⟩ : Id .bridge)).isNone ∧
      (after.working.find? (⟨1⟩ : Id .bridge)).isSome ∧
      after.journal = tx.journal ++ [⟨.bridge, ⟨1⟩, .created⟩] ∧
      (store.commit after later).1 = .ok () ∧
      ((store.commit after later).2.committed.tables.find? (⟨1⟩ : Id .bridge)).isSome := by
  have hrun : (((run shirtParts).client 0).bind (·.standing.tx?)).map (fun tx =>
      match store.answer (.write shirtLinks) tx (run shirtParts).memory with
      | (.error _, after, later) =>
        decide ((tx.working.find? (⟨1⟩ : Id .bridge)).isNone ∧
          (after.working.find? (⟨1⟩ : Id .bridge)).isSome ∧
          after.journal = tx.journal ++ [⟨.bridge, ⟨1⟩, .created⟩] ∧
          (store.commit after later).1 = .ok () ∧
          ((store.commit after later).2.committed.tables.find? (⟨1⟩ : Id .bridge)).isSome)
      | (.ok _, _, _) => false) = some true := by decide +kernel
  obtain ⟨tx, htx, hrun⟩ := Option.map_eq_some_iff.mp hrun
  split at hrun
  · next error after later hanswer =>
    exact ⟨tx, error, after, later, htx, hanswer, of_decide_eq_true hrun⟩
  · cases hrun

end System

end Memory

end VariantCatalog
