/-
# Numbers over all transactions

The sequences stand outside of the snapshots.  A transaction draws its numbers where everybody
draws them, and whatever becomes of it, they are gone.  So what is drawn over a whole run is one
list, call after call and whoever makes it, and its numbers ascend (`handedOut`).

All that a number is good for rests on this.  A row that is found anywhere, committed or in
somebody's working tables, has become of the one row for which its number was drawn
(`exists_built_of_finds`): no second row ever gets it.  What a transaction has created can
therefore not meet a committed row when it commits, and what is listed by number is listed in the
order in which it was created (`numbered_run`).
-/

import VariantCatalog.Proofs.Interleaving.Installation
import VariantCatalog.Proofs.Memory.Drawing
import Mathlib.Data.List.Nodup

namespace VariantCatalog

open Memory

/-- Which rows a query lists, in the order of its reply. -/
def Query.listed : (query : Query) → query.Reply → List RowKey
  | .optionsOf _, options => options.map fun option => ⟨.option, option.id⟩
  | .valuesOf _, values => values.map fun value => ⟨.value, value.id⟩
  | .productsOf _, products => products.map fun product => ⟨.product, product.id⟩
  | _, _ => []

namespace Memory

namespace Progress

variable {operation : Operation} {progress : Progress operation} {memory : Memory}

/-- A step of an operation leaves its transaction as it was, or makes a call in it. -/
theorem tx?_advance {tx : Transaction} (h : (progress.advance memory).1.tx? = some tx) :
    progress.tx? = some tx ∨ ∃ before request next,
      progress = .working before (.call request next) ∧
        tx = (memory.answer request before).2.1 := by
  cases progress with
  | working before rest =>
      cases rest with
      | done result =>
          left
          simp only [advance] at h
          split at h
          · cases h
          · split at h
            · cases h
            · exact h
      | refuse error => cases h
      | call request next =>
          right
          refine ⟨before, request, next, rfl, ?_⟩
          simp only [advance] at h
          split at h
          · cases h
          · next hanswer =>
            rw [hanswer]
            exact (Option.some.inj h).symm
  | committing before result =>
      simp only [advance] at h
      split at h <;> cases h
  | ended outcome => cases h

/-- A step of an operation draws numbers only if it makes a call. -/
theorem sequences_advance
    (h : ∀ tx request next, progress ≠ .working tx (.call request next)) :
    (progress.advance memory).2.registers.sequences = memory.registers.sequences := by
  cases progress with
  | working tx rest =>
      cases rest with
      | done result =>
          rw [advance, prepare_eq]
          by_cases hread : operation.isRead
          · rw [if_pos hread]
          · rw [if_neg hread]
            by_cases hfault : memory.registers.fault = some .commit
            · simp only [if_pos hfault]
            · simp only [if_neg hfault]
      | refuse error => rfl
      | call request next => exact absurd rfl (h tx request next)
  | committing tx result =>
      rw [advance, apply]
      cases memory.committed.merge tx <;> rfl
  | ended outcome => rfl

end Progress

namespace System

/-! ## What is drawn -/

/-- The call that a move makes, and the session that it is made in. -/
def call? (system : System) : Move → Option (Session × Call)
  | .call name request =>
    match system.client name with
    | some ⟨_, .free tx⟩ => some (⟨system.memory.registers, tx⟩, request)
    | _ => none
  | .advance name =>
    match system.client name with
    | some ⟨_, .serving _ (.working tx (.call request _))⟩ =>
      some (⟨system.memory.registers, tx⟩, request)
    | _ => none
  | _ => none

/-- The rows for which a move draws a number, in the order of the draws. -/
def built (system : System) (move : Move) : List AnyRow :=
  match system.call? move with
  | some (session, request) => session.built request
  | none => []

/-- The rows for which some moves draw numbers, in the order of the draws. -/
def builtFrom (system : System) : List Move → List AnyRow
  | [] => []
  | first :: rest => system.built first ++ builtFrom (system.move first) rest

/-- All rows for which numbers were drawn, whatever became of them. -/
def allBuilt (moves : List Move) : List AnyRow := start.builtFrom moves

/-- All identifiers that were handed out, in the order in which they were. -/
def handedOut (moves : List Move) : List RowKey := (allBuilt moves).map AnyRow.key

theorem builtFrom_append (system : System) (moves more : List Move) :
    system.builtFrom (moves ++ more) =
      system.builtFrom moves ++ (moves.foldl move system).builtFrom more := by
  induction moves generalizing system with
  | nil => rfl
  | cons first rest ih =>
      rw [List.cons_append, builtFrom, builtFrom, ih, List.append_assoc, List.foldl_cons]

theorem allBuilt_append (moves more : List Move) :
    allBuilt (moves ++ more) = allBuilt moves ++ (run moves).builtFrom more :=
  builtFrom_append start moves more

theorem allBuilt_concat (moves : List Move) (last : Move) :
    allBuilt (moves ++ [last]) = allBuilt moves ++ (run moves).built last := by
  rw [allBuilt_append, builtFrom, builtFrom, List.append_nil]

/-- A call of a move is made on the registers of all, and leaves them to all. -/
theorem registers_of_call? {system : System} {move : Move} {session : Session} {request : Call}
    (h : system.call? move = some (session, request)) :
    session.registers = system.memory.registers ∧
      (system.move move).memory.registers =
        ((answerCall request).run.run session).2.registers := by
  rw [call?.eq_def] at h
  split at h
  · split at h
    · next hclient =>
      cases h
      rw [System.move, hclient]
      exact ⟨rfl, rfl⟩
    · cases h
  · split at h
    · next hclient =>
      cases h
      refine ⟨rfl, ?_⟩
      rw [memory_move_advance hclient, Progress.advance, Memory.answer]
      generalize (answerCall _).run.run _ = answered
      obtain ⟨_ | reply, after⟩ := answered <;> rfl
    · cases h
  · cases h

/-- A move that makes no call draws nothing. -/
theorem sequences_of_call?_eq_none {system : System} {move : Move}
    (h : system.call? move = none) :
    (system.move move).memory.registers.sequences = system.memory.registers.sequences := by
  cases move with
  | arm point => rfl
  | begin name => rfl
  | enter name limit operation => rfl
  | leave name => rfl
  | call name request =>
      rw [call?] at h
      rw [System.move]
      cases hclient : system.client name with
      | none => rfl
      | some client =>
          rw [hclient] at h
          obtain ⟨origin, standing⟩ := client
          cases standing with
          | free tx => cases h
          | leaving tx => rfl
          | serving operation progress => rfl
  | prepare name =>
      have hprepare : system.memory.prepare.2.registers.sequences =
          system.memory.registers.sequences := by
        rw [prepare_eq]
        split <;> rfl
      rw [System.move]
      split
      · generalize system.memory.prepare = prepared at hprepare ⊢
        obtain ⟨_ | _, memory⟩ := prepared <;> exact hprepare
      · rfl
  | apply name =>
      rw [System.move]
      split
      · show (system.memory.apply _).2.registers.sequences = _
        rw [Memory.apply]
        cases system.memory.committed.merge _ <;> rfl
      · rfl
  | advance name =>
      rcases system.move_advance_cases name with hnone | ⟨_, _, progress, hclient, hmove⟩
      · rw [hnone]
      · rw [hmove]
        apply progress.sequences_advance
        rintro tx request next rfl
        rw [call?, hclient] at h
        cases h

theorem issues_move (system : System) (move : Move) :
    Issues system.memory.registers.sequences ((system.built move).map AnyRow.key)
      (system.move move).memory.registers.sequences := by
  rw [built]
  cases hcall : system.call? move with
  | none =>
      rw [sequences_of_call?_eq_none hcall]
      exact .none _
  | some made =>
      obtain ⟨hbefore, hafter⟩ := registers_of_call? hcall
      rw [hafter, ← hbefore]
      exact (draws_answerCall made.2 made.1).issues

/-- What the sequences have handed out over a run is what was drawn. -/
theorem issues_run (moves : List Move) :
    Issues .start (handedOut moves) (run moves).memory.registers.sequences := by
  induction moves using List.reverseRecOn with
  | nil => exact .none _
  | append_singleton moves last ih =>
      rw [handedOut, allBuilt_concat, List.map_append, run_append]
      exact ih.trans ((run moves).issues_move last)

/-! ## What is found -/

/-- The tables that a system contains: those that are committed, and the working tables of
everybody who holds a transaction. -/
inductive Contains (system : System) : Tables → Prop
  | committed : Contains system system.memory.committed.tables
  | working {name : Nat} {client : Client} {tx : Transaction}
      (there : system.client name = some client) (holds : client.standing.tx? = some tx) :
      Contains system tx.working

/-- A row is found under a number in some tables of a system. -/
def Finds (system : System) {kind : EntityKind} (id : Id kind) (row : kind.Row) : Prop :=
  ∃ tables, system.Contains tables ∧ tables.find? id = some row

/-- What is committed after a move was committed before, or somebody's transaction has been
merged into it. -/
theorem merged_move_cases (system : System) (move : Move) :
    (system.move move).memory.committed = system.memory.committed ∨
      ∃ name client tx, system.client name = some client ∧ client.standing.tx? = some tx ∧
        system.memory.committed.merge tx = .ok (system.move move).memory.committed := by
  by_cases hcommits : move.commits
  · cases move with
    | apply name =>
        rw [System.move]
        split
        · next origin tx hclient =>
          cases hmerge : system.memory.committed.merge tx with
          | error error =>
              left
              show (system.memory.apply tx).2.committed = _
              rw [Memory.apply, hmerge]
          | ok committed =>
              right
              refine ⟨name, _, tx, hclient, rfl, ?_⟩
              show _ = Except.ok (system.memory.apply tx).2.committed
              rw [Memory.apply, hmerge]
        · exact .inl rfl
    | advance name =>
        rcases system.committed_advance_cases name with
          hsame | ⟨origin, operation, tx, result, committed, hclient, hmerge, hcommitted⟩
        · exact .inl hsame
        · rw [hcommitted]
          exact .inr ⟨name, _, tx, hclient, rfl, hmerge⟩
    | _ => cases hcommits
  · exact .inl (committed_move_of_not_commits system (Bool.eq_false_iff.mpr hcommits))

/-- A transaction that somebody holds after a move was begun with it, or held before and left
alone, or the move has made a call in it. -/
theorem tx_move_cases {system : System} {move : Move} {name : Nat} {client : Client}
    {tx : Transaction} (hclient : (system.move move).client name = some client)
    (htx : client.standing.tx? = some tx) :
    system.Contains tx.working ∨
      ∃ before request, system.Contains before.working ∧
        system.call? move = some (⟨system.memory.registers, before⟩, request) ∧
          tx = (system.memory.answer request before).2.1 := by
  cases arrives_move hclient with
  | stayed before => exact .inl (.working before htx)
  | began =>
      cases htx
      exact .inl .committed
  | called made before =>
      cases htx
      cases made
      refine .inr ⟨_, _, .working before rfl, ?_, rfl⟩
      rw [call?, before]
  | prepared _ before =>
      cases htx
      exact .inl (.working before rfl)
  | @entered limit operation made =>
      have hbegin : ((Progress.enter limit operation system.memory).tx? = some tx) := htx
      rw [Progress.enter] at hbegin
      split at hbegin
      · cases hbegin
      · cases hbegin
        exact .inl .committed
  | advanced made before =>
      rcases Progress.tx?_advance htx with hsame | ⟨earlier, request, next, rfl, heq⟩
      · exact .inl (.working before hsame)
      · cases made
        refine .inr ⟨earlier, request, .working before rfl, ?_, heq⟩
        rw [call?, before]

/-- A row that is found after a move has become of one that was found before, or of one that the
move has built. -/
theorem finds_move {system : System} {move : Move} {kind : EntityKind} {id : Id kind}
    {row : kind.Row} (h : (system.move move).Finds id row) :
    (∃ old, system.Finds id old ∧ Row.Succeeds old row) ∨
      ∃ first, (⟨kind, first⟩ : AnyRow) ∈ system.built move ∧ Row.Succeeds first row := by
  obtain ⟨tables, hcontains, hrow⟩ := h
  have hsame : ∀ {tables : Tables}, system.Contains tables → tables.find? id = some row →
      ∃ old, system.Finds id old ∧ Row.Succeeds old row :=
    fun hcontains hrow => ⟨row, ⟨_, hcontains, hrow⟩, Row.Succeeds.refl row⟩
  cases hcontains with
  | committed =>
      left
      rcases system.merged_move_cases move with heq | ⟨name, client, tx, hclient, htx, hmerge⟩
      · rw [heq] at hrow
        exact hsame .committed hrow
      · obtain ⟨_, _, hafter⟩ := Committed.merge_eq_ok.mp hmerge
        rw [hafter, Committed.find?_overlay] at hrow
        split at hrow
        · rcases Option.or_eq_some_iff.mp hrow with hrow | ⟨_, hrow⟩
          · exact hsame (.working hclient htx) hrow
          · exact hsame .committed hrow
        · exact hsame .committed hrow
  | working hclient htx =>
      rcases tx_move_cases hclient htx with hcontains | ⟨before, request, hcontains, hcall, rfl⟩
      · exact .inl (hsame hcontains hrow)
      · rw [built, hcall]
        rcases (draws_answerCall request ⟨system.memory.registers, before⟩).found hrow with
          ⟨old, hold, hsucceeds⟩ | hbuilt
        · exact .inl ⟨old, ⟨_, hcontains, hold⟩, hsucceeds⟩
        · exact .inr hbuilt

/-- A row that is found has become of one for which a number was drawn. -/
theorem exists_built_of_finds {moves : List Move} {kind : EntityKind} {id : Id kind}
    {row : kind.Row} (h : (run moves).Finds id row) :
    ∃ first, (⟨kind, first⟩ : AnyRow) ∈ allBuilt moves ∧ Row.Succeeds first row := by
  induction moves using List.reverseRecOn generalizing row with
  | nil =>
      obtain ⟨tables, hcontains, hrow⟩ := h
      cases hcontains with
      | committed =>
          have hempty : Tables.empty.find? id = some row := hrow
          rw [Tables.find?_empty] at hempty
          cases hempty
      | working hclient => cases hclient
  | append_singleton moves last ih =>
      rw [run_append] at h
      rw [allBuilt_concat]
      rcases finds_move h with ⟨old, hold, hsucceeds⟩ | ⟨first, hfirst, hsucceeds⟩
      · obtain ⟨first, hfirst, hbefore⟩ := ih hold
        exact ⟨first, List.mem_append_left _ hfirst, hbefore.trans hsucceeds⟩
      · exact ⟨first, List.mem_append_right _ hfirst, hsucceeds⟩

theorem mem_handedOut_of_finds {moves : List Move} {kind : EntityKind} {id : Id kind}
    {row : kind.Row} (h : (run moves).Finds id row) : (⟨kind, id⟩ : RowKey) ∈ handedOut moves := by
  obtain ⟨first, hfirst, hsucceeds⟩ := exists_built_of_finds h
  obtain ⟨tables, _, hrow⟩ := h
  refine List.mem_map.mpr ⟨⟨kind, first⟩, hfirst, ?_⟩
  rw [AnyRow.key, ← hsucceeds.id, Tables.id_of_find? hrow]

/-- Rows that are read in the order of their numbers are read in the order in which they were
created. -/
theorem liveRows_inOrder {moves : List Move} {tables : Tables}
    (hcontains : (run moves).Contains tables) (kind : EntityKind) (condition : kind.Row → Bool) :
    (((tables.table kind).liveRows condition).map fun row =>
      (⟨kind, Row.id row⟩ : RowKey)).Sublist (handedOut moves) := by
  have hkeys : (((tables.table kind).liveRows condition).map fun row =>
      (⟨kind, Row.id row⟩ : RowKey)).Pairwise fun first second =>
        first.id.number < second.id.number :=
    List.pairwise_map.mpr ((tables.table kind).ascending_liveRows condition)
  -- Among the keys of one kind, all numbers ascend.
  have hkind : ((handedOut moves).filter (·.kind = kind)).Pairwise fun first second =>
      first.id.number < second.id.number := by
    refine List.pairwise_filter.mpr ((issues_run moves).ascending.imp ?_)
    intro first second hlt hfirst hsecond
    exact hlt ((of_decide_eq_true hfirst).trans (of_decide_eq_true hsecond).symm)
  refine List.Sublist.trans ?_ (List.filter_sublist (p := (·.kind = kind)))
  apply sublist_of_ascending (fun key : RowKey => key.id.number) hkeys hkind
  intro key hkey
  obtain ⟨row, hrow, rfl⟩ := List.mem_map.mp hkey
  have hfound := Tables.mem_iff.mp (Table.mem_liveRows.mp hrow).1
  exact List.mem_filter.mpr
    ⟨mem_handedOut_of_finds ⟨tables, hcontains, hfound⟩, decide_eq_true rfl⟩

theorem listed_inOrder {moves : List Move} {tables : Tables}
    (hcontains : (run moves).Contains tables) (query : Query) :
    (query.listed (answerQuery tables query)).Sublist (handedOut moves) := by
  cases query with
  | optionsOf root => exact liveRows_inOrder hcontains .option _
  | valuesOf option => exact liveRows_inOrder hcontains .value _
  | productsOf root =>
      rw [answerQuery, Query.listed, List.map_map]
      exact liveRows_inOrder hcontains .product _
  | _ => exact List.nil_sublist _

/-! ## What a number is good for -/

/-- What the numbers of the rows are good for after some moves. -/
structure Numbered (moves : List Move) : Prop where
  /-- The sequences have handed out these keys, one after the other. -/
  issued : Issues .start (handedOut moves) (run moves).memory.registers.sequences
  /-- Every number is above those of its kind that were handed out before, to whomever. -/
  ascending : (handedOut moves).Pairwise RowKey.Precedes
  /-- The rows that a call hands back are those for which it has drawn the numbers. -/
  handed {move : Move} {session after : Session} {request : Call} {reply : request.Reply} :
    (run moves).call? move = some (session, request) →
      (answerCall request).run.run session = (.ok reply, after) →
        allBuilt (moves ++ [move]) = allBuilt moves ++ request.created reply
  /-- A number that is drawn next was never drawn before, and no table has it. -/
  unused {move : Move} {kind : EntityKind} {id : Id kind} :
    (⟨kind, id⟩ : RowKey) ∈ ((run moves).built move).map AnyRow.key →
      (⟨kind, id⟩ : RowKey) ∉ handedOut moves ∧ ∀ row, ¬ (run moves).Finds id row
  /-- What is found under a number, wherever and whenever, has become of one row. -/
  single {earlier : List Move} {kind : EntityKind} {id : Id kind} {old new : kind.Row} :
    earlier <+: moves → (run earlier).Finds id old → (run moves).Finds id new →
      ∃ first, (⟨kind, first⟩ : AnyRow) ∈ allBuilt earlier ∧
        Row.Succeeds first old ∧ Row.Succeeds first new
  /-- What a transaction has created is not among the committed rows. -/
  fresh {name : Nat} {client : Client} {tx : Transaction} {kind : EntityKind} {id : Id kind} :
    (run moves).client name = some client → client.standing.tx? = some tx →
      (⟨kind, id, .created⟩ : Entry) ∈ tx.journal →
        (run moves).memory.committed.tables.find? id = none
  /-- What is listed stands in the order of the numbers, and so in the order of the creations. -/
  listed {tables : Tables} (query : Query) :
    (run moves).Contains tables →
      (query.listed (answerQuery tables query)).Pairwise RowKey.Precedes ∧
        (query.listed (answerQuery tables query)).Sublist (handedOut moves)

/-- **Numbers ascend over all transactions.** Whoever works on the catalog, whatever faults
strike and whatever becomes of the transactions, the numbers of each kind that are handed out
ascend in the order of the calls. So no number is ever given to a second row, what a transaction
has created meets no committed row, and what is listed is listed in the order of its creation. -/
theorem numbered_run (moves : List Move) : Numbered moves where
  issued := issues_run moves
  ascending := (issues_run moves).ascending
  handed hcall hrun := by
    rw [allBuilt_concat, built, hcall, created_of_run hrun]
  unused {move kind id} hdrawn := by
    have hlt := (((run moves).issues_move move).mem_iff.mp hdrawn).1
    have hnever : (⟨kind, id⟩ : RowKey) ∉ handedOut moves := by
      intro hbefore
      exact absurd ((issues_run moves).mem_iff.mp hbefore).2 (Int.not_le.mpr hlt)
    exact ⟨hnever, fun row hfinds => hnever (mem_handedOut_of_finds hfinds)⟩
  single {earlier kind id old new} hprefix hold hnew := by
    obtain ⟨first, hfirst, hfirstSucceeds⟩ := exists_built_of_finds hold
    obtain ⟨other, hother, hotherSucceeds⟩ := exists_built_of_finds hnew
    have hlater : (⟨kind, first⟩ : AnyRow) ∈ allBuilt moves := by
      obtain ⟨more, rfl⟩ := hprefix
      rw [allBuilt_append]
      exact List.mem_append_left _ hfirst
    have hsame : (⟨kind, first⟩ : AnyRow) = ⟨kind, other⟩ := by
      obtain ⟨_, _, hfoundOld⟩ := hold
      obtain ⟨_, _, hfoundNew⟩ := hnew
      apply List.inj_on_of_nodup_map (nodup_of_precedes (issues_run moves).ascending) hlater hother
      rw [AnyRow.key, AnyRow.key, ← hfirstSucceeds.id, ← hotherSucceeds.id,
        Tables.id_of_find? hfoundOld, Tables.id_of_find? hfoundNew]
    cases hsame
    exact ⟨first, hfirst, hfirstSucceeds, hotherSucceeds⟩
  fresh hclient htx hcreated := (orderly_run moves).fresh (draft_scene hclient htx) hcreated
  listed query hcontains := by
    have hsublist := listed_inOrder hcontains query
    exact ⟨(issues_run moves).ascending.sublist hsublist, hsublist⟩

/-- Two roots are created side by side. An option that does not fit uses up its number, and the
transaction that it was tried in goes away. -/
example :
    (handedOut
      [.begin 0, .begin 1, .call 0 (.write (.createRoot (NewRoot.ofDraft shirt.product))),
        .call 1 (.write (.createRoot (NewRoot.ofDraft shirt.product))),
        .call 1 (.write (.createOption ⟨⟨9⟩, "Size"⟩)), .leave 1,
        .call 0 (.write (.createOption ⟨⟨1⟩, "Size"⟩))]).map
      (fun key => (key.kind, key.id.number)) =
        [(.root, 1), (.root, 2), (.option, 1), (.option, 2)] := by
  decide +kernel

end System

end Memory

end VariantCatalog
