/-
# Creations side by side

Creations that run side by side work on snapshots of their own, and one of them comes to
its commit not knowing what the others have committed.  Still everybody is told what he
would have been told if the creations had been carried out one after the other, in the
order in which they commit (`commits_serialize`).

What is committed side by side and one after the other is not the same: numbers are drawn
in another order.  But the same names are taken, and a creation is answered by these
alone.
-/

import VariantCatalog.Memory.Join
import VariantCatalog.Proofs.Interleaving.History
import VariantCatalog.Proofs.Interleaving.Staleness

namespace VariantCatalog

open Memory

/-! ## Names that are taken -/

/-- The same prefixes and the same SKUs are taken. -/
structure Tables.SameNames (first second : Tables) : Prop where
  prefixes : ∀ text, (∃ root ∈ first.roots.rows, root.skuPrefix = text) ↔
    ∃ root ∈ second.roots.rows, root.skuPrefix = text
  skus : ∀ text, (∃ product ∈ first.products.rows, product.sku = text) ↔
    ∃ product ∈ second.products.rows, product.sku = text

theorem Tables.SameNames.symm {first second : Tables} (h : first.SameNames second) :
    second.SameNames first :=
  ⟨fun text => (h.prefixes text).symm, fun text => (h.skus text).symm⟩

/-- Of all that is there, only the names matter to a creation. -/
theorem Creation.Unclaimed.of_sameNames {creation : Creation} {first second : Tables}
    (h : creation.Unclaimed first) (hsame : first.SameNames second) :
    creation.Unclaimed second where
  skuPrefix root hroot hnamed := by
    obtain ⟨other, hother, heq⟩ := (hsame.prefixes _).mpr ⟨root, hroot, hnamed⟩
    exact h.skuPrefix other hother heq
  names := h.names
  values := h.values
  distinct := h.distinct
  skus product hproduct hsku := by
    obtain ⟨other, hother, heq⟩ := (hsame.skus _).mpr ⟨product, hproduct, rfl⟩
    exact h.skus other hother (heq ▸ hsku)

theorem Committed.Gains.mem_iff {before after : Committed} {rows : List AnyRow}
    (h : before.Gains rows after) {kind : EntityKind} {row : kind.Row} :
    row ∈ (after.tables.table kind).rows ↔
      row ∈ (before.tables.table kind).rows ∨ (⟨kind, row⟩ : AnyRow) ∈ rows := by
  rw [Tables.mem_iff, Tables.mem_iff, h.found]
  exact or_congr_right (and_iff_left rfl)

namespace Creation.Expands

variable {creation : Creation} {growth : Growth} {before after : Committed}

theorem hasPrefix_iff (h : creation.Expands growth) (hgains : before.Gains growth.rows after)
    (text : String) :
    (∃ root ∈ after.tables.roots.rows, root.skuPrefix = text) ↔
      (∃ root ∈ before.tables.roots.rows, root.skuPrefix = text) ∨
        creation.product.sku = text := by
  have hmem : ∀ root : ProductRoot, root ∈ after.tables.roots.rows ↔
      root ∈ before.tables.roots.rows ∨ root = growth.root := by
    intro root
    rw [← Growth.root_mem_rows]
    exact @Committed.Gains.mem_iff _ _ _ hgains .root root
  simp only [hmem, or_and_right, exists_or, exists_eq_left, h.skuPrefix]

theorem hasSku_iff (h : creation.Expands growth) (hgains : before.Gains growth.rows after)
    (text : String) :
    (∃ product ∈ after.tables.products.rows, product.sku = text) ↔
      (∃ product ∈ before.tables.products.rows, product.sku = text) ∨
        text ∈ creation.skus := by
  have hmem : ∀ product : Product, product ∈ after.tables.products.rows ↔
      product ∈ before.tables.products.rows ∨
        ∃ variant ∈ growth.variants, product = variant.product.stored := by
    intro product
    rw [← Growth.product_mem_rows]
    exact @Committed.Gains.mem_iff _ _ _ hgains .product product
  have hskus : (∃ product : Product, (∃ variant ∈ growth.variants,
      product = variant.product.stored) ∧ product.sku = text) ↔ text ∈ creation.skus := by
    rw [h.skus_eq, List.mem_map]
    constructor
    · rintro ⟨_, ⟨variant, hvariant, rfl⟩, hsku⟩
      exact ⟨variant, hvariant, hsku⟩
    · rintro ⟨variant, hvariant, hsku⟩
      exact ⟨_, ⟨variant, hvariant, rfl⟩, hsku⟩
  simp only [hmem, or_and_right, exists_or, hskus]

/-- A creation takes the same names wherever it succeeds. -/
theorem sameNames (h : creation.Expands growth) (hgains : before.Gains growth.rows after)
    {other : Growth} {otherBefore otherAfter : Committed} (hother : creation.Expands other)
    (hotherGains : otherBefore.Gains other.rows otherAfter)
    (hsame : before.tables.SameNames otherBefore.tables) :
    after.tables.SameNames otherAfter.tables where
  prefixes text := by
    rw [h.hasPrefix_iff hgains, hother.hasPrefix_iff hotherGains, hsame.prefixes]
  skus text := by
    rw [h.hasSku_iff hgains, hother.hasSku_iff hotherGains, hsame.skus]

end Creation.Expands

namespace Memory

/-! ## Answers -/

/-- A creation, and what it was told at its commit. -/
structure Answer where
  creation : Creation
  outcome : Except CatalogError RootGraph

/-- Whether a creation was told that it has succeeded. -/
def Answer.IsSuccess (answer : Answer) : Prop := ∃ graph, answer.outcome = .ok graph

/-- Whether a move is made by one who creates, or by nobody. -/
def Move.creates (limit : Option Nat) : Move → Bool
  | .arm _ => true
  | .enter _ other (.commit _) => other = limit
  | .advance _ => true
  | .leave _ => true
  | _ => false

/-- A client who creates, and has passed his screening if he is still at it. -/
def Client.IsCreator (limit : Option Nat) (client : Client) : Prop :=
  ∃ (creation : Creation) (progress : Progress (.commit creation)),
    client.standing = .serving (.commit creation) progress ∧
      (progress.isEnded = false → creation.validate limit = .ok ())

theorem isCreator_enter (limit : Option Nat) (origin : Tables) (creation : Creation)
    (memory : Memory) :
    Client.IsCreator limit
      ⟨origin, .serving (.commit creation) (.enter limit (.commit creation) memory)⟩ := by
  refine ⟨creation, _, rfl, fun hopen => ?_⟩
  rw [Progress.enter, Operation.screen, Operation.check] at hopen
  cases hvalid : creation.validate limit with
  | ok _ => rfl
  | error flaw =>
      rw [hvalid] at hopen
      cases hopen

namespace System

/-- The answer that a creation gets with a move, if that is the second half of its
commit. -/
def answer? (system : System) : Move → Option Answer
  | .advance name =>
    match system.client name with
    | some ⟨_, .serving (.commit creation) (.committing tx graph)⟩ =>
      some ⟨creation, (finish (@Stage.committing (.commit creation) tx graph) system.memory).1⟩
    | _ => none
  | _ => none

/-- The answers that creations get with some moves. -/
def answersFrom (system : System) : List Move → List Answer
  | [] => []
  | first :: rest => (system.answer? first).toList ++ answersFrom (system.move first) rest

/-- The answers that creations get at their commits, in the order of the commits. -/
def answers (moves : List Move) : List Answer := start.answersFrom moves

theorem answersFrom_append (system : System) (moves more : List Move) :
    system.answersFrom (moves ++ more) =
      system.answersFrom moves ++ (moves.foldl move system).answersFrom more := by
  induction moves generalizing system with
  | nil => rfl
  | cons first rest ih => rw [List.cons_append, answersFrom, answersFrom, ih, List.append_assoc,
      List.foldl_cons]

theorem answers_append (moves : List Move) (last : Move) :
    answers (moves ++ [last]) = answers moves ++ ((run moves).answer? last).toList := by
  rw [answers, answersFrom_append]
  exact congrArg (answers moves ++ ·) (List.append_nil _)

theorem client_of_answer? {system : System} {move : Move} {answer : Answer}
    (h : system.answer? move = some answer) :
    ∃ name origin tx graph, move = .advance name ∧
      system.client name =
        some ⟨origin, .serving (.commit answer.creation) (.committing tx graph)⟩ ∧
      answer.outcome =
        (finish (@Stage.committing (.commit answer.creation) tx graph) system.memory).1 := by
  cases move with
  | advance name =>
      rw [answer?] at h
      split at h
      · next origin creation tx graph hclient =>
        cases h
        exact ⟨name, origin, tx, graph, rfl, hclient, rfl⟩
      · cases h
  | _ => cases h

/-- A creation that comes to its commit succeeds and takes its names if they are free, and
else it is in conflict and changes nothing. -/
theorem answer_cases {moves : List Move} {move : Move} {answer : Answer}
    (h : (run moves).answer? move = some answer) :
    ∃ growth, answer.creation.Expands growth ∧
      ((∃ graph, answer.outcome = .ok graph) ∧
          (run moves).memory.committed.Gains growth.rows
            ((run moves).move move).memory.committed ∧
          answer.creation.Unclaimed (run moves).memory.committed.tables ∨
        (∃ detail, answer.outcome = .error (.conflict detail)) ∧
          ((run moves).move move).memory.committed = (run moves).memory.committed ∧
          ¬ answer.creation.Unclaimed (run moves).memory.committed.tables) := by
  obtain ⟨name, origin, tx, graph, rfl, hclient, houtcome⟩ := client_of_answer? h
  obtain ⟨growth, hexpands, hmerge⟩ := merge_of_done hclient rfl
  refine ⟨growth, hexpands, ?_⟩
  rw [finish, apply] at houtcome
  simp only [System.move, hclient, Progress.advance, apply]
  rcases hmerge with ⟨after, hok, hgains, hfree⟩ | ⟨constraint, herror, hnot⟩
  · rw [hok] at houtcome ⊢
    exact .inl ⟨⟨graph, houtcome⟩, hgains, hfree⟩
  · rw [herror] at houtcome ⊢
    exact .inr ⟨⟨_, houtcome⟩, rfl, hnot⟩

/-! ## Names are given once -/

/-- Whoever was told that he succeeded has his prefix for good. -/
theorem hasPrefix_of_answer (moves : List Move) :
    ∀ answer ∈ answers moves, answer.IsSuccess →
      ∃ root ∈ (run moves).memory.committed.tables.roots.rows,
        root.skuPrefix = answer.creation.product.sku := by
  induction moves using List.reverseRecOn with
  | nil => exact fun answer hanswer => absurd hanswer List.not_mem_nil
  | append_singleton moves last ih =>
      intro answer hanswer hsuccess
      rw [answers_append] at hanswer
      rw [run_append]
      rcases List.mem_append.mp hanswer with hearlier | hlast
      · obtain ⟨root, hroot, hnamed⟩ := ih answer hearlier hsuccess
        have hbecomes := ((run moves).events_move last).becomes (orderly_run moves)
        obtain ⟨new, hnew, hsucceeds⟩ := @hbecomes .root _ _ (Table.find?_of_mem hroot)
        have hsame : ProductRoot.skuPrefix new = root.skuPrefix := hsucceeds.anchor
        exact ⟨new, Table.mem_of_find? hnew, hsame.trans hnamed⟩
      · obtain ⟨growth, hexpands, hcases⟩ := answer_cases (Option.mem_toList.mp hlast)
        rcases hcases with ⟨_, hgains, _⟩ | ⟨⟨detail, hconflict⟩, _⟩
        · exact (hexpands.hasPrefix_iff hgains _).mpr (.inr rfl)
        · obtain ⟨graph, hok⟩ := hsuccess
          rw [hconflict] at hok
          cases hok

/-- So of those who give the same prefix, only one is told so. -/
theorem pairwise_answers (moves : List Move) :
    (answers moves).Pairwise fun first second => first.IsSuccess → second.IsSuccess →
      first.creation.product.sku ≠ second.creation.product.sku := by
  induction moves using List.reverseRecOn with
  | nil => exact List.Pairwise.nil
  | append_singleton moves last ih =>
      rw [answers_append]
      cases hanswer : (run moves).answer? last with
      | none => exact (List.append_nil _).symm ▸ ih
      | some answer =>
          refine List.pairwise_append.mpr ⟨ih, List.pairwise_singleton _ _, ?_⟩
          intro earlier hearlier other hother hfirst hsecond
          obtain rfl := List.mem_singleton.mp hother
          obtain ⟨root, hroot, hnamed⟩ := hasPrefix_of_answer moves earlier hearlier hfirst
          obtain ⟨_, _, hcases⟩ := answer_cases hanswer
          rcases hcases with ⟨_, _, hfree⟩ | ⟨⟨detail, hconflict⟩, _⟩
          · exact fun hsame => hfree.skuPrefix root hroot (hnamed.trans hsame)
          · obtain ⟨graph, hok⟩ := hsecond
            rw [hconflict] at hok
            cases hok

/-! ## When everybody creates -/

/-- Everybody creates. -/
def Creating (limit : Option Nat) (system : System) : Prop :=
  ∀ ⦃name : Nat⦄ ⦃client : Client⦄, system.client name = some client → client.IsCreator limit

theorem creating_move {limit : Option Nat} {system : System} (h : system.Creating limit)
    {move : Move} (hmove : move.creates limit) : (system.move move).Creating limit := by
  intro name client hclient
  cases arrives_move hclient with
  | stayed before => exact h before
  | @entered other operation made =>
      subst made
      cases operation with
      | commit creation =>
          obtain rfl : other = limit := of_decide_eq_true hmove
          exact isCreator_enter other _ creation system.memory
      | _ => cases hmove
  | advanced _ before =>
      obtain ⟨creation, progress, hstanding, hvalid⟩ := h before
      cases hstanding
      refine ⟨creation, _, rfl, fun hopen => hvalid ?_⟩
      cases progress with
      | ended outcome => cases hopen
      | _ => rfl
  | began made => subst made; cases hmove
  | called made => subst made; cases hmove
  | prepared made => subst made; cases hmove

/-- When everybody creates, nothing is committed but with an answer. -/
theorem committed_of_answer?_eq_none {limit : Option Nat} {system : System}
    (h : system.Creating limit) {move : Move} (hmove : move.creates limit)
    (hnone : system.answer? move = none) :
    (system.move move).memory.committed = system.memory.committed := by
  cases move with
  | arm point => rfl
  | enter name other operation => rfl
  | leave name => rfl
  | advance name =>
      rcases system.committed_advance_cases name with
        hsame | ⟨origin, operation, tx, result, committed, hclient, _⟩
      · exact hsame
      · obtain ⟨creation, before, hstanding, _⟩ := h hclient
        cases hstanding
        rw [answer?, hclient] at hnone
        cases hnone
  | begin name => cases hmove
  | call name request => cases hmove
  | prepare name => cases hmove
  | apply name => cases hmove

/-! ## One after the other -/

/-- The catalog after some creations that are carried out one after the other. -/
def serial (limit : Option Nat) (told : List Answer) : Memory :=
  sequel (told.map fun answer => .carry limit (.commit answer.creation))

theorem serial_append (limit : Option Nat) (told : List Answer) (last : Answer) :
    serial limit (told ++ [last]) =
      (store.perform limit (.commit last.creation) (serial limit told)).2 := by
  rw [serial, List.map_append, List.map_singleton, sequel_append]
  rfl

/-- Where no fault is armed, a creation right after others succeeds and takes its names if they
are free, and else it is in conflict and changes nothing. -/
theorem perform_serial {limit : Option Nat} {told : List Answer} {creation : Creation}
    (hcalm : (serial limit told).registers.fault = none)
    (hvalid : creation.validate limit = .ok ()) :
    (∃ growth, creation.Expands growth ∧
        (∃ graph, (store.perform limit (.commit creation) (serial limit told)).1 = .ok graph) ∧
          (serial limit told).committed.Gains growth.rows
            (store.perform limit (.commit creation) (serial limit told)).2.committed ∧
          creation.Unclaimed (serial limit told).committed.tables) ∨
      (∃ detail, (store.perform limit (.commit creation) (serial limit told)).1 =
          .error (.conflict detail)) ∧
        (store.perform limit (.commit creation) (serial limit told)).2.committed =
          (serial limit told).committed ∧
        ¬ creation.Unclaimed (serial limit told).committed.tables := by
  obtain ⟨moves, _, hmemory⟩ := exists_moves
    (told.map fun answer => .carry limit (.commit answer.creation))
  have hserial : serial limit told = (run moves).memory := hmemory.symm
  rw [hserial] at hcalm ⊢
  rcases perform_commit_cases (sound_begin moves hcalm) hvalid with
    ⟨graph, hok, hfree⟩ | ⟨detail, hconflict, hnot⟩
  · obtain ⟨tx, hsettles⟩ := exists_settles rfl (Prod.ext hok rfl)
    obtain ⟨growth, _, hexpands, hinserts⟩ := hsettles.effect
    have hgains := hinserts.gains_merge hsettles.fresh hsettles.merged
    exact .inl ⟨growth, hexpands, ⟨graph, hok⟩, hgains, hfree⟩
  · refine .inr ⟨⟨detail, hconflict⟩, ?_, hnot⟩
    refine (committed_perform limit _ _).resolve_right fun ⟨graph, hok⟩ => ?_
    rw [hconflict] at hok
    cases hok

/-- What is committed side by side takes the same names as what is committed one after the
other. -/
structure Mirrors (limit : Option Nat) (system : System) (told : List Answer) : Prop where
  names : system.memory.committed.tables.SameNames (serial limit told).committed.tables
  calm : (serial limit told).registers.fault = none

/-- What is told next is the same. -/
theorem Mirrors.answer {limit : Option Nat} {moves : List Move} {told : List Answer}
    (h : (run moves).Mirrors limit told) {move : Move} {answer : Answer}
    (hanswer : (run moves).answer? move = some answer)
    (hvalid : answer.creation.validate limit = .ok ()) :
    ((run moves).move move).Mirrors limit (told ++ [answer]) ∧
      Agree answer.outcome
        (store.perform limit (.commit answer.creation) (serial limit told)).1 := by
  have hcalm : (serial limit (told ++ [answer])).registers.fault = none := by
    rw [serial_append]
    exact fault_perform limit _ h.calm
  obtain ⟨growth, hexpands, hcases⟩ := answer_cases hanswer
  rcases hcases with ⟨⟨graph, hok⟩, hgains, hfree⟩ | ⟨⟨detail, hconflict⟩, hsame, hnot⟩
  · rcases perform_serial h.calm hvalid with
      ⟨other, hother, ⟨twin, htwin⟩, hotherGains, _⟩ | ⟨_, _, hnot⟩
    · refine ⟨⟨?_, hcalm⟩, .inl ⟨graph, twin, hok, htwin⟩⟩
      rw [serial_append]
      exact hexpands.sameNames hgains hother hotherGains h.names
    · exact absurd (hfree.of_sameNames h.names) hnot
  · rcases perform_serial h.calm hvalid with
      ⟨_, _, _, _, hfree⟩ | ⟨⟨other, hother⟩, hotherSame, _⟩
    · exact absurd (hfree.of_sameNames h.names.symm) hnot
    · refine ⟨⟨?_, hcalm⟩, .inr ⟨detail, other, hconflict, hother⟩⟩
      rw [serial_append, hsame, hotherSame]
      exact h.names

theorem creating_run {limit : Option Nat} {moves : List Move}
    (hmoves : ∀ move ∈ moves, move.creates limit) : (run moves).Creating limit :=
  run_preserves (fun _ _ hclient => nomatch hclient) (fun _ _ hmove h => creating_move h hmove)
    moves hmoves

/-- Each is told what the creation is told that is carried out right after those before it. -/
def ToldInOrder (limit : Option Nat) (told : List Answer) : Prop :=
  ∀ place answer, told[place]? = some answer →
    Agree answer.outcome
      (store.perform limit (.commit answer.creation) (serial limit (told.take place))).1

theorem ToldInOrder.append {limit : Option Nat} {told : List Answer} {last : Answer}
    (h : ToldInOrder limit told)
    (hlast : Agree last.outcome
      (store.perform limit (.commit last.creation) (serial limit told)).1) :
    ToldInOrder limit (told ++ [last]) := by
  intro place answer hanswer
  by_cases hplace : place < told.length
  · rw [List.getElem?_append_left hplace] at hanswer
    rw [List.take_append_of_le_length (Nat.le_of_lt hplace)]
    exact h place answer hanswer
  · have hbound := (List.getElem?_eq_some_iff.mp hanswer).1
    rw [List.length_append, List.length_singleton] at hbound
    obtain rfl : place = told.length := by omega
    rw [List.getElem?_concat_length] at hanswer
    cases hanswer
    rw [List.take_left]
    exact hlast

theorem mirrors_run {limit : Option Nat} {moves : List Move}
    (hmoves : ∀ move ∈ moves, move.creates limit) :
    (run moves).Mirrors limit (answers moves) ∧ ToldInOrder limit (answers moves) := by
  induction moves using List.reverseRecOn with
  | nil => exact ⟨⟨⟨fun _ => Iff.rfl, fun _ => Iff.rfl⟩, rfl⟩, fun _ _ hanswer => nomatch hanswer⟩
  | append_singleton moves last ih =>
      have hbefore : ∀ move ∈ moves, move.creates limit :=
        fun move hmem => hmoves move (List.mem_append_left _ hmem)
      have hlast : last.creates limit := hmoves last List.mem_concat_self
      obtain ⟨hmirrors, htold⟩ := ih hbefore
      rw [answers_append, run_append]
      cases hanswer : (run moves).answer? last with
      | none =>
          have hsame := committed_of_answer?_eq_none (creating_run hbefore) hlast hanswer
          rw [Option.toList_none, List.append_nil]
          exact ⟨⟨hsame.symm ▸ hmirrors.names, hmirrors.calm⟩, htold⟩
      | some answer =>
          have hvalid : answer.creation.validate limit = .ok () := by
            obtain ⟨name, origin, tx, graph, _, hclient, _⟩ := client_of_answer? hanswer
            obtain ⟨creation, progress, hstanding, hvalid⟩ := creating_run hbefore hclient
            cases hstanding
            exact hvalid rfl
          obtain ⟨hafter, hagree⟩ := hmirrors.answer hanswer hvalid
          exact ⟨hafter, htold.append hagree⟩

/-- **Creations commit as if one came after the other.** Wherever a creation stands whose body
has come to its end, and whatever others have committed since it began: if no fault is armed,
then its commit is told what the same creation would be told that is carried out from the
start, and a conflict leaves nothing behind in either case. So of those who give the same
prefix at most one is ever told that he has succeeded, and when everybody creates, each of
them is told what he would be told after those who came to their commits before him. -/
theorem commits_serialize (limit : Option Nat) (moves : List Move) :
    (∀ (name : Nat) (origin : Tables) (creation : Creation)
        (progress : Progress (.commit creation)) (tx : Transaction) (graph : RootGraph),
      (run moves).client name = some ⟨origin, .serving (.commit creation) progress⟩ →
      progress.done? = some (tx, graph) → (run moves).memory.registers.fault = none →
      creation.validate limit = .ok () →
        Agree (settle tx graph (run moves).memory).1
            (store.perform limit (.commit creation) (run moves).memory).1 ∧
          ∀ error, (settle tx graph (run moves).memory).1 = .error error →
            (settle tx graph (run moves).memory).2.committed = (run moves).memory.committed ∧
              (store.perform limit (.commit creation) (run moves).memory).2.committed =
                (run moves).memory.committed) ∧
      ((answers moves).Pairwise fun first second => first.IsSuccess → second.IsSuccess →
        first.creation.product.sku ≠ second.creation.product.sku) ∧
      ((∀ move ∈ moves, move.creates limit) → ToldInOrder limit (answers moves)) :=
  ⟨fun _ _ _ _ _ _ hclient hdone hcalm hvalid => settle_agrees hclient hdone hcalm hvalid,
    pairwise_answers moves, fun hmoves => (mirrors_run hmoves).2⟩

/-- Two set out to create the shirt and a third one a product that has the SKU of its small
size. All of them work on the empty catalog and have come to their commits. -/
def shirtRush : List Move :=
  [.enter 0 none (.commit shirt), .enter 1 none (.commit shirt),
    .enter 2 none (.commit smallShirt)] ++
      (List.replicate 13 [Move.advance 0, .advance 1]).flatten ++ List.replicate 4 (.advance 2)

/-- The first one to commit succeeds. The second one is told what he would be told if he set
out only then, and all three are told what they would be told one after the other. -/
theorem commits_serialize_shirt :
    (∃ tx graph, ((run (shirtRush ++ [.advance 0])).client 1).map Client.standing =
        some (.serving (.commit shirt) (.committing tx graph)) ∧
      Agree (settle tx graph (run (shirtRush ++ [.advance 0])).memory).1
        (store.perform none (.commit shirt) (run (shirtRush ++ [.advance 0])).memory).1) ∧
      (answers (shirtRush ++ [.advance 0, .advance 1, .advance 2])).map
        (fun answer => (answer.creation.product.sku, answer.outcome.toOption.isSome)) =
          [("shirt", true), ("shirt", false), ("shirt_s", false)] ∧
      ToldInOrder none (answers (shirtRush ++ [.advance 0, .advance 1, .advance 2])) := by
  refine ⟨?_, by decide +kernel, ?_⟩
  · have hcreation : ((run (shirtRush ++ [.advance 0])).answer? (.advance 1)).map
        (·.creation) = some shirt := by decide +kernel
    have hcalm : (run (shirtRush ++ [.advance 0])).memory.registers.fault = none := by
      decide +kernel
    have hvalid : shirt.validate none = .ok () := by decide +kernel
    obtain ⟨⟨creation, outcome⟩, hanswer, hshirt⟩ := Option.map_eq_some_iff.mp hcreation
    obtain ⟨name, origin, tx, graph, heq, hclient, _⟩ := client_of_answer? hanswer
    cases heq
    cases hshirt
    have hlate := (commits_serialize none (shirtRush ++ [.advance 0])).1
    obtain ⟨hagree, _⟩ := hlate 1 origin shirt _ tx graph hclient rfl hcalm hvalid
    refine ⟨tx, graph, ?_, hagree⟩
    rw [hclient]
    rfl
  · have hmoves : ∀ move ∈ shirtRush ++ [.advance 0, .advance 1, .advance 2],
        move.creates none := by decide +kernel
    have hserial := (commits_serialize none
      (shirtRush ++ [.advance 0, .advance 1, .advance 2])).2.2
    exact hserial hmoves

end System

end Memory

end VariantCatalog
