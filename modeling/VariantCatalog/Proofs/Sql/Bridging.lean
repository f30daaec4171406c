/-
# Bridges in one batch

The bridges of a variant are stored by one insertion, whose text grows with the values: a
group is opened for each of them, each parameter is bound as it is written, and its
placeholder is the number of the parameters bound by then.  A `Draft` is such a text while
it is written, and the command that is sent is what the draft of the batch comes to.

A database may bring the bridges back in any order.  They are sorted by their numbers, so
where it numbers them as their groups stand, they come back in the order of the values.
-/

import Mathlib.Data.List.Forall2
import VariantCatalog.Proofs.Sql.Storing

namespace VariantCatalog

/-! ## Numerals -/

namespace Text

theorem naturalDigits_eq_toDigits (n : Nat) : naturalDigits n = Nat.toDigits 10 n := by
  have hdigit : ∀ digit < 10, digitChar digit = Nat.digitChar digit := by decide
  induction n using naturalDigits.induct with
  | case1 n hlt =>
      rw [naturalDigits, if_pos hlt, Nat.toDigits_of_lt_base hlt, hdigit n hlt]
  | case2 n hlt ih =>
      rw [naturalDigits, if_neg hlt, ih, hdigit _ (Nat.mod_lt n (by decide)),
        ← Nat.toDigits_of_base_le (by decide) (Nat.le_of_not_lt hlt)]

theorem integerText_natCast (n : Nat) : integerText n = toString n := by
  have hsign : ¬ (n : Int) < 0 := by omega
  rw [integerText, integerDigits, if_neg hsign, Int.natAbs_natCast, naturalDigits_eq_toDigits,
    ← Nat.repr_eq_ofList_toDigits]
  rfl

end Text

namespace Sql

open Memory (run_bind)

/-! ## Drafts -/

/-- A command while it is written: its text and its parameters so far. -/
structure Draft where
  text : String
  parameters : List Datum

namespace Draft

variable {α : Type}

/-- Write a text. -/
def push (draft : Draft) (text : String) : Draft :=
  { draft with text := draft.text ++ text }

/-- Bind a parameter and write its placeholder. -/
def bind (draft : Draft) (parameter : Datum) : Draft where
  text := draft.text ++ placeholder (draft.parameters.length + 1)
  parameters := draft.parameters ++ [parameter]

/-- Write items one after another, with commas between them. -/
def separated (write : Draft → α → Draft) : Draft → List α → Draft
  | draft, [] => draft
  | draft, [item] => write draft item
  | draft, item :: next :: rest => separated write ((write draft item).push ", ") (next :: rest)

/-- Bind parameters in a pair of parentheses. -/
def group (draft : Draft) (parameters : List Datum) : Draft :=
  (separated bind (draft.push "(") parameters).push ")"

/-- Write a group of parameters for each item, behind the word that introduces them. -/
def pushValues (draft : Draft) (items : List α) (parameters : α → List Datum) : Draft :=
  separated (fun draft item => draft.group (parameters item)) (draft.push "VALUES ") items

/-- Where each item writes a text that depends on how many parameters are bound by then, and
binds the same number of them, the text of an item depends on its place alone. -/
theorem separated_eq {write : Draft → α → Draft} {width : Nat} (text : Nat → α → String)
    (bound : α → List Datum)
    (hwrite : ∀ draft item, write draft item =
      ⟨draft.text ++ text draft.parameters.length item, draft.parameters ++ bound item⟩)
    (hwidth : ∀ item, (bound item).length = width) (items : List α) :
    ∀ draft : Draft, separated write draft items =
      ⟨draft.text ++ commaSeparated
          (items.mapIdx fun index item => text (draft.parameters.length + width * index) item),
        draft.parameters ++ items.flatMap bound⟩ := by
  induction items with
  | nil =>
      intro draft
      simp [separated, commaSeparated]
  | cons item rest ih =>
      intro draft
      cases rest with
      | nil => simp [separated, hwrite, commaSeparated]
      | cons next rest =>
          -- The rest is written by a draft that has the parameters of the item already.
          have hplace : ∀ index, draft.parameters.length + width + width * index =
              draft.parameters.length + width * (index + 1) := by
            intro index
            rw [Nat.mul_add_one, Nat.add_assoc, Nat.add_comm width]
          rw [separated, ih, hwrite]
          simp only [push, List.length_append, hwidth, hplace, List.mapIdx_cons, commaSeparated,
            String.intercalate_cons_cons, List.flatMap_cons, String.append_assoc,
            List.append_assoc, Nat.mul_zero, Nat.add_zero]

theorem group_eq (draft : Draft) (parameters : List Datum) :
    draft.group parameters =
      ⟨draft.text ++ parenthesized .compact (commaSeparated
          (parameters.mapIdx fun index _ => placeholder (draft.parameters.length + index + 1))),
        draft.parameters ++ parameters⟩ := by
  have hbind : ∀ (draft : Draft) (parameter : Datum), draft.bind parameter =
      ⟨draft.text ++ placeholder (draft.parameters.length + 1),
        draft.parameters ++ [parameter]⟩ := fun _ _ => rfl
  rw [group, separated_eq (fun bound _ => placeholder (bound + 1)) (fun parameter => [parameter])
    hbind fun _ => rfl]
  simp [push, parenthesized, String.append_assoc]

theorem pushValues_eq {width : Nat} {parameters : α → List Datum}
    (hwidth : ∀ item, (parameters item).length = width) (draft : Draft) (items : List α) :
    draft.pushValues items parameters =
      ⟨draft.text ++ "VALUES " ++ commaSeparated (items.mapIdx fun index item =>
          parenthesized .compact (commaSeparated ((parameters item).mapIdx fun place _ =>
            placeholder (draft.parameters.length + width * index + place + 1)))),
        draft.parameters ++ items.flatMap parameters⟩ :=
  separated_eq
    (fun bound item => parenthesized .compact (commaSeparated
      ((parameters item).mapIdx fun place _ => placeholder (bound + place + 1))))
    parameters (fun draft item => group_eq draft (parameters item)) hwidth items (draft.push "VALUES ")

end Draft

/-- The columns of a bridge as they are listed in a statement. -/
def bridgeColumnsText : String :=
  "id, product_id, product_option_value_id, created_on, updated_on, archived_on"

/-- The draft of a batch of bridges. -/
def Draft.batch (product : Id .product) (values : List (Id .value)) : Draft :=
  ((Draft.mk "INSERT INTO product_variant_bridge (product_id, product_option_value_id) "
    []).pushValues values fun value => [.integer product.number, .integer value.number]).push
      (" RETURNING " ++ bridgeColumnsText)

/-- The group of a value with so many others before it, as it stands in the text. -/
def groupText (index : Nat) : String :=
  "($" ++ toString (2 * index + 1) ++ ", $" ++ toString (2 * index + 2) ++ ")"

/-- The most parameters that a command can have. -/
def bindLimit : Nat := 65535

/-- A command that stores the bridges from a variant to some values in one batch.  It is what
the draft of the batch comes to: one group for each value, all placeholders in a row, the
variant at the odd places and the values at the even ones. -/
structure Command.IsBatch (command : Command) (product : Id .product)
    (values : List (Id .value)) : Prop where
  drafted : Draft.batch product values = ⟨command.statement.text, command.parameters⟩
  text : command.statement.text =
    "INSERT INTO product_variant_bridge (product_id, product_option_value_id) VALUES " ++
      ", ".intercalate ((List.range values.length).map groupText) ++
      (" RETURNING " ++ bridgeColumnsText)
  count : command.parameters.length = 2 * values.length
  fits : command.parameters.length ≤ bindLimit
  product : ∀ index < values.length,
    parameterAt command.parameters (2 * index + 1) = .integer product.number
  value : ∀ (index : Nat) (h : index < values.length),
    parameterAt command.parameters (2 * (index + 1)) = .integer values[index].number

section Batch

variable (product : Id .product) (values : List (Id .value))

theorem parenthesized_places (index : Nat) :
    parenthesized .compact
        (commaSeparated [placeholder (2 * index + 1), placeholder (2 * index + 2)]) =
      groupText index := by
  have hopen : "(" ++ "$" = "($" := by decide
  have hnext : ", " ++ "$" = ", $" := by decide
  rw [parenthesized, commaSeparated, String.intercalate_cons_cons, String.intercalate_singleton,
    placeholder, placeholder, Text.integerText_natCast, Text.integerText_natCast, groupText,
    ← hopen, ← hnext]
  simp only [String.append_assoc]

theorem text_insertBridges :
    (Command.insertBridges product values).statement.text =
      "INSERT INTO product_variant_bridge (product_id, product_option_value_id) VALUES " ++
        ", ".intercalate ((List.range values.length).map groupText) ++
        (" RETURNING " ++ bridgeColumnsText) := by
  have hhead : "INSERT INTO " ++ tableName .bridge ++ " " ++
      parenthesized .compact (commaSeparated ["product_id", "product_option_value_id"]) ++
      " VALUES " =
        "INSERT INTO product_variant_bridge (product_id, product_option_value_id) VALUES " := by
    decide
  have hreturning : returningText (columnNames .bridge) = " RETURNING " ++ bridgeColumnsText := by
    decide
  have hgroups : (values.mapIdx fun index _ =>
      [Expression.parameter (2 * index + 1), .parameter (2 * index + 2)]).map (fun group =>
        parenthesized .compact (commaSeparated (group.map Expression.text))) =
      (List.range values.length).map groupText := by
    refine List.ext_getElem (by simp) fun index _ _ => ?_
    simp only [List.getElem_map, List.getElem_mapIdx, List.getElem_range]
    exact parenthesized_places index
  show "INSERT INTO " ++ tableName .bridge ++ " " ++ parenthesized .compact (commaSeparated
    ["product_id", "product_option_value_id"]) ++ " VALUES " ++ commaSeparated _ ++
    returningText (columnNames .bridge) = _
  rw [hhead, hgroups, hreturning]
  rfl

theorem batch_eq :
    Draft.batch product values =
      ⟨(Command.insertBridges product values).statement.text,
        (Command.insertBridges product values).parameters⟩ := by
  have hwidth : ∀ value : Id .value,
      [Datum.integer product.number, .integer value.number].length = 2 := fun _ => rfl
  have hgroups : (values.mapIdx fun index _ => parenthesized .compact (commaSeparated
      [placeholder (0 + 2 * index + 0 + 1), placeholder (0 + 2 * index + 1 + 1)])) =
      (List.range values.length).map groupText := by
    refine List.ext_getElem (by simp) fun index _ _ => ?_
    simp only [List.getElem_map, List.getElem_mapIdx, List.getElem_range, Nat.zero_add]
    exact parenthesized_places index
  rw [Draft.batch, Draft.pushValues_eq hwidth, text_insertBridges, ← hgroups]
  rfl

theorem parameters_insertBridges_getElem? (index : Nat) :
    (Command.insertBridges product values).parameters[2 * index]? =
        values[index]?.map (fun _ => .integer product.number) ∧
      (Command.insertBridges product values).parameters[2 * index + 1]? =
        values[index]?.map (fun value => .integer value.number) := by
  rw [Command.insertBridges]
  induction values generalizing index with
  | nil => simp
  | cons value rest ih =>
      cases index with
      | zero => simp
      | succ index =>
          have hplace : 2 * (index + 1) = 2 * index + 2 := rfl
          simpa [hplace] using ih index

theorem isBatch_insertBridges (h : values.length ≤ 32767) :
    (Command.insertBridges product values).IsBatch product values := by
  have hcount : (Command.insertBridges product values).parameters.length = 2 * values.length := by
    simp [Command.insertBridges, List.length_flatMap, List.map_const', Nat.mul_comm]
  refine
    { drafted := batch_eq product values
      text := text_insertBridges product values
      count := hcount
      fits := ?_
      product := fun index hindex => ?_
      value := fun index hindex => ?_ }
  · rw [hcount, bindLimit]
    omega
  · have hplace := (parameters_insertBridges_getElem? product values index).1
    rw [List.getElem?_eq_getElem hindex] at hplace
    rw [parameterAt, List.getD_eq_getElem?_getD, Nat.add_sub_cancel, hplace]
    rfl
  · have hplace := (parameters_insertBridges_getElem? product values index).2
    rw [List.getElem?_eq_getElem hindex] at hplace
    rw [parameterAt, List.getD_eq_getElem?_getD, Nat.mul_add_one, Nat.add_sub_assoc (by decide),
      hplace]
    rfl

end Batch

/-! ## Replies -/

variable {σ : Type}

/-- A database that also writes down the commands that it is sent. -/
def Peer.logged (peer : Peer σ) : Peer (σ × List Command) := fun command (state, sent) =>
  let (reply, after) := peer command state
  (reply, after, sent ++ [command])

/-- A reply that brings bridges with distinct identifiers. -/
structure Reply.Brings (reply : Reply) (bridges : List VariantBridge) : Prop where
  records : ∃ records, reply = .records records ∧
    List.Forall₂ (fun record bridge => Record.row record .bridge = .ok bridge) records bridges
  distinct : (bridges.map (·.id.number)).Nodup

/-- Bridges by their numbers. -/
def Ascending (bridges : List VariantBridge) : Prop :=
  bridges.Pairwise fun first second => first.id.number < second.id.number

/-- Bridges sorted by their numbers. -/
def sortedByNumber (bridges : List VariantBridge) : List VariantBridge :=
  bridges.mergeSort fun first second => first.id.number ≤ second.id.number

theorem ascending_sortedByNumber {bridges : List VariantBridge}
    (h : (bridges.map (·.id.number)).Nodup) : Ascending (sortedByNumber bridges) := by
  have hsorted : (sortedByNumber bridges).Pairwise fun first second =>
      first.id.number ≤ second.id.number := by
    refine (List.pairwise_mergeSort ?_ ?_ bridges).imp of_decide_eq_true
    · intro first second third hfirst hsecond
      simp only [decide_eq_true_eq] at hfirst hsecond ⊢
      exact Int.le_trans hfirst hsecond
    · intro first second
      simpa using Int.le_total first.id.number second.id.number
  have hnodup : ((sortedByNumber bridges).map (·.id.number)).Nodup :=
    ((List.mergeSort_perm bridges _).map _).nodup_iff.mpr h
  have hdistinct : (sortedByNumber bridges).Pairwise fun first second =>
      first.id.number ≠ second.id.number := List.pairwise_map.mp hnodup
  exact (hsorted.and hdistinct).imp Int.lt_iff_le_and_ne.mpr

theorem Ascending.eq_of_perm {first second : List VariantBridge} (hfirst : Ascending first)
    (hsecond : Ascending second) (h : first.Perm second) : first = second :=
  h.eq_of_pairwise (fun _ _ _ _ hlt hgt => absurd hlt (Int.lt_asymm hgt)) hfirst hsecond

/-- What a batch comes to with a reply. -/
def bridgesOf : Reply → Except StoreError (List VariantBridge)
  | .refused refusal => .error (Failure.inStep "create_variant_bridges" (.refused refusal))
  | reply => (reply.recordList.mapM (Record.row · .bridge)).map sortedByNumber

theorem run_createBridges {peer : Peer σ} {product : Id .product} {values : List (Id .value)}
    {state after : σ} {reply : Reply} (hvalues : values ≠ [])
    (hreply : peer (.insertBridges product values) state = (reply, after)) :
    (createBridges peer product values).run.run state = (bridgesOf reply, after) := by
  have hempty : ¬ values.isEmpty := by simpa using hvalues
  rw [createBridges, if_neg hempty, run_bind, run_fetchAll hreply]
  cases reply with
  | refused refusal => rfl
  | records records =>
      show (interpret (records.mapM (Record.row · .bridge)) >>= _).run.run after =
        ((records.mapM (Record.row · .bridge)).map sortedByNumber, after)
      rw [run_bind]
      cases records.mapM (Record.row · .bridge) <;> rfl
  | affected n => rfl
  | idle => rfl

theorem mapM_eq_ok {ε α β : Type} {f : α → Except ε β} {items : List α} {results : List β}
    (h : List.Forall₂ (fun item result => f item = .ok result) items results) :
    items.mapM f = .ok results := by
  induction h with
  | nil => rfl
  | cons hitem _ ih =>
      rw [List.mapM_cons, hitem, ih]
      rfl

theorem Reply.Brings.bridgesOf {reply : Reply} {bridges : List VariantBridge}
    (h : reply.Brings bridges) : Sql.bridgesOf reply = .ok (sortedByNumber bridges) := by
  obtain ⟨records, rfl, hrecords⟩ := h.records
  show ((Reply.records records).recordList.mapM (Record.row · .bridge)).map sortedByNumber = _
  rw [Reply.recordList, mapM_eq_ok hrecords]
  rfl

/-- Bridges from a variant to some values whose numbers follow the order of the values. -/
structure IsNumbered (bridges : List VariantBridge) (product : Id .product)
    (values : List (Id .value)) : Prop where
  links : List.Forall₂ (fun value bridge => bridge.product = product ∧ bridge.value = value)
    values bridges
  ascending : Ascending bridges

theorem IsNumbered.map_value {bridges : List VariantBridge} {product : Id .product}
    {values : List (Id .value)} (h : IsNumbered bridges product values) :
    bridges.map (·.value) = values := by
  obtain ⟨hlinks, -⟩ := h
  induction hlinks with
  | nil => rfl
  | cons hlink _ ih => rw [List.map_cons, hlink.2, ih]

/-! ## The batch -/

/-- **Bridges come back in the order of the values.**  Nothing is sent for no values.  For
others one command is sent, whatever comes back: a group for each value, the placeholders
numbered through.  A reply that brings bridges in any order ends with these bridges in the
order of their numbers; where the database has numbered them as the values stand, that is
the order of the values. -/
theorem createBridges_inOrder (peer : Peer σ) (product : Id .product) (values : List (Id .value))
    (hvalues : values.length ≤ 32767) (state : σ) (sent : List Command) :
    (values = [] → (createBridges peer.logged product values).run.run (state, sent) =
      (.ok [], state, sent)) ∧
    (values ≠ [] → ∃ command reply after outcome, command.IsBatch product values ∧
      peer command state = (reply, after) ∧
      (createBridges peer.logged product values).run.run (state, sent) =
        (outcome, after, sent ++ [command]) ∧
      ∀ bridges, reply.Brings bridges → ∃ sorted, outcome = .ok sorted ∧
        sorted.Perm bridges ∧ Ascending sorted ∧
        ∀ numbered, IsNumbered numbered product values → numbered.Perm bridges →
          sorted = numbered ∧ sorted.map (·.value) = values) := by
  constructor
  · rintro rfl
    rfl
  · intro hne
    rcases hpeer : peer (.insertBridges product values) state with ⟨reply, after⟩
    have hlogged : peer.logged (.insertBridges product values) (state, sent) =
        (reply, after, sent ++ [.insertBridges product values]) := by
      rw [Peer.logged, hpeer]
    refine ⟨_, reply, after, _, isBatch_insertBridges product values hvalues, hpeer,
      run_createBridges hne hlogged, fun bridges hbrings => ?_⟩
    have hascending : Ascending (sortedByNumber bridges) :=
      ascending_sortedByNumber hbrings.distinct
    have hperm : (sortedByNumber bridges).Perm bridges := List.mergeSort_perm bridges _
    refine ⟨_, hbrings.bridgesOf, hperm, hascending, fun numbered hnumbered hsame => ?_⟩
    have heq : sortedByNumber bridges = numbered :=
      hascending.eq_of_perm hnumbered.ascending (hperm.trans hsame.symm)
    exact ⟨heq, heq ▸ hnumbered.map_value⟩

/-- A bridge of the variant 7 as it is stored. -/
def storedBridge (number value : Int) : VariantBridge where
  id := ⟨number⟩
  product := ⟨7⟩
  value := ⟨value⟩
  lifecycle := .created (.given ⟨1551443696, 0⟩)

/-- The record of a bridge. -/
def bridgeRecord (bridge : VariantBridge) : Record :=
  [("id", .integer bridge.id.number), ("product_id", .integer bridge.product.number),
    ("product_option_value_id", .integer bridge.value.number)] ++ bridge.lifecycle.contents

/-- A database that brings two bridges back, the later one first. -/
def backwards : Peer Unit := fun _ _ =>
  (.records [bridgeRecord (storedBridge 12 3), bridgeRecord (storedBridge 11 5)], ())

/-- Two values are bridged in one batch, and the bridges come back in their order. -/
theorem createBridges_inOrder_backwards :
    Reply.Brings (backwards (.insertBridges ⟨7⟩ [⟨5⟩, ⟨3⟩]) ()).1
      [storedBridge 12 3, storedBridge 11 5] ∧
    ((createBridges backwards.logged ⟨7⟩ [⟨5⟩, ⟨3⟩]).run.run ((), [])).1 =
      .ok [storedBridge 11 5, storedBridge 12 3] := by
  have hbrings : Reply.Brings (backwards (.insertBridges ⟨7⟩ [⟨5⟩, ⟨3⟩]) ()).1
      [storedBridge 12 3, storedBridge 11 5] :=
    { records := ⟨_, rfl, .cons rfl (.cons rfl .nil)⟩
      distinct := by decide }
  have hnumbered : IsNumbered [storedBridge 11 5, storedBridge 12 3] ⟨7⟩ [⟨5⟩, ⟨3⟩] :=
    { links := .cons ⟨rfl, rfl⟩ (.cons ⟨rfl, rfl⟩ .nil)
      ascending := by simp [Ascending, storedBridge] }
  obtain ⟨-, hsome⟩ := createBridges_inOrder backwards ⟨7⟩ [⟨5⟩, ⟨3⟩] (by decide) () []
  obtain ⟨command, reply, after, outcome, -, hpeer, hrun, hreply⟩ := hsome (by decide)
  have hsame : reply = (backwards (.insertBridges ⟨7⟩ [⟨5⟩, ⟨3⟩]) ()).1 :=
    (Prod.mk.inj hpeer).1.symm
  obtain ⟨sorted, rfl, -, -, hsorted⟩ := hreply _ (hsame ▸ hbrings)
  obtain ⟨rfl, -⟩ := hsorted _ hnumbered (List.Perm.swap _ _ _)
  exact ⟨hbrings, congrArg Prod.fst hrun⟩

end Sql

end VariantCatalog
