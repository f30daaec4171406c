/-
# What the editing operations write

Each editing body reads the row of its target, asks whether the new name or value
is free, and writes the row back with what the edit changes.  It finds the row as
it was when the transaction began, so what it writes depends on that row, on the
request, and on the clock.

Where all constraints are kept, an editing body that fails has not found its target
live, or it has found the new name or text with another row; a fault apart, there is
nothing else.
-/

import VariantCatalog.Proofs.Memory.Fitting
import VariantCatalog.Proofs.Operation.Archiving

namespace VariantCatalog

/-- Another live option of the same root has a name. -/
def Tables.IsNameTaken (tables : Tables) (option : ProductOption) (name : String) : Prop :=
  ∃ rival ∈ tables.options.rows, rival.id ≠ option.id ∧ rival.lifecycle.isLive ∧
    rival.root = option.root ∧ rival.name = name

/-- Another live value of the same option has a text. -/
def Tables.IsTextTaken (tables : Tables) (value : OptionValue) (text : String) : Prop :=
  ∃ rival ∈ tables.values.rows, rival.id ≠ value.id ∧ rival.lifecycle.isLive ∧
    rival.option = value.option ∧ rival.value = text

instance (tables : Tables) (option : ProductOption) (name : String) :
    Decidable (tables.IsNameTaken option name) :=
  inferInstanceAs (Decidable (∃ rival ∈ tables.options.rows, rival.id ≠ option.id ∧
    rival.lifecycle.isLive ∧ rival.root = option.root ∧ rival.name = name))

instance (tables : Tables) (value : OptionValue) (text : String) :
    Decidable (tables.IsTextTaken value text) :=
  inferInstanceAs (Decidable (∃ rival ∈ tables.values.rows, rival.id ≠ value.id ∧
    rival.lifecycle.isLive ∧ rival.option = value.option ∧ rival.value = text))

namespace Operation

open Memory Calendar Program

variable {origin : Tables} {session : Session} {calm : Prop} {reason : CatalogError → Prop}

/-- Why an edit is refused: its target is not live, or what the edit would make of it is
taken. -/
def Objects (origin : Tables) {kind : EntityKind} (id : Id kind) (taken : kind.Row → Prop)
    (error : CatalogError) : Prop :=
  Misses origin id error ∨ error.isConflict ∧ ∃ row, origin.live? id = some row ∧ taken row

theorem isLive_loaded (tables : Tables) {kind : EntityKind} (row : kind.Row) :
    Row.isLive (loaded tables row) = Row.isLive row := by
  cases kind <;> rfl

/-- An operation that reads its target goes on with the row that was found live. -/
theorem withstands_getLive {α : Type} {kind : EntityKind} {id : Id kind}
    {next : kind.Row → Program α} {ok : α → Session → Prop}
    (h : session.transaction = ⟨origin, []⟩)
    (habsent : origin.live? id = none → reason (.absent id))
    (hnext : ∀ row after, origin.live? id = some row → after.transaction = ⟨origin, []⟩ →
      Withstands calm ok reason (next (loaded origin row)) after) :
    Withstands calm ok reason (getLive id >>= next) session := by
  rw [getLive, bind_assoc]
  apply withstands_askThen
  intro middle hmiddle
  rw [h] at hmiddle ⊢
  apply endures_bind.mpr
  apply endures_requireSome.mpr
  cases hfind : origin.find? id with
  | none =>
      have hlive : origin.live? id = none := by
        show (origin.find? id).filter Row.isLive = none
        rw [hfind]
        rfl
      simp only [answerQuery, hfind, Option.map_none, Option.filter_none]
      exact .inl (habsent hlive)
  | some row =>
      simp only [answerQuery, hfind, Option.map_some, Option.filter_some, isLive_loaded]
      cases hlive : Row.isLive row with
      | false =>
          have hnone : origin.live? id = none := by
            show (origin.find? id).filter Row.isLive = none
            rw [hfind, Option.filter_some, hlive]
            rfl
          simp only [Bool.false_eq_true, if_false]
          exact .inl (habsent hnone)
      | true =>
          simp only [if_true]
          exact hnext row middle (Tables.live?_eq_some.mpr ⟨hfind, hlive⟩) hmiddle

/-- What a patch makes of the row of a variant. -/
def patched (patch : ProductPatch) (row : Product) (moment : Moment) : Product :=
  { row with
    details := patch.details row.details
    optionValues := []
    availableOn := patch.availableOn.getD row.availableOn
    lifecycle := row.lifecycle.update moment }

/-- What a new name makes of the row of an option. -/
def renamed (name : String) (row : ProductOption) (moment : Moment) : ProductOption :=
  { row with name, lifecycle := row.lifecycle.update moment }

/-- What a new text makes of the row of a value. -/
def reworded (value : String) (row : OptionValue) (moment : Moment) : OptionValue :=
  { row with value, lifecycle := row.lifecycle.update moment }

/-- Of the tables that a transaction began on, it has written over one live row, and
done nothing else. -/
structure Revises (origin : Tables) (kind : EntityKind) (old new : kind.Row)
    (tx : Transaction) : Prop where
  live : origin.live? (Row.id old) = some old
  transaction : tx = (⟨origin, []⟩ : Transaction).write new .updated

/-- A variant was patched, and is handed back with the values that it is made of. -/
def Patches (origin : Tables) (id : Id .product) (patch : ProductPatch) (result : Product)
    (tx : Transaction) : Prop :=
  ∃ row moment, row.id = id ∧ Revises origin .product row (patched patch row moment) tx ∧
    result = { patched patch row moment with
      optionValues := (origin.withOptionValues row).optionValues }

/-- An option was renamed, and is handed back with its live values. -/
def Renames (origin : Tables) (id : Id .option) (name : String) (result : ProductOption)
    (tx : Transaction) : Prop :=
  ∃ row moment, row.id = id ∧ Revises origin .option row (renamed name row moment) tx ∧
    result = { renamed name row moment with values := origin.values.liveRows (·.option = id) }

/-- A value was given another text. -/
def Rewords (origin : Tables) (id : Id .value) (value : String) (result : OptionValue)
    (tx : Transaction) : Prop :=
  ∃ row moment, row.id = id ∧ Revises origin .value row (reworded value row moment) tx ∧
    result = reworded value row moment

/-- To ask whether a name is free makes a difference only when it is not. -/
theorem withstands_askRequire {α : Type} {read : Query} {free : read.Reply → Bool}
    {error : CatalogError} {program : Program α} {ok : α → Session → Prop}
    (htaken : free (answerQuery session.transaction.working read) = false → reason error)
    (hprogram : ∀ after, after.transaction = session.transaction →
      Withstands calm ok reason program after) :
    Withstands calm ok reason
      (ask read >>= fun reply => require (free reply) error >>= fun _ => program) session := by
  apply withstands_askThen
  intro middle hmiddle
  apply endures_bind.mpr
  apply endures_require.mpr
  cases hfree : free (answerQuery session.transaction.working read) with
  | false =>
      simp only [Bool.false_eq_true, if_false]
      exact .inl (htaken hfree)
  | true =>
      simp only [if_true]
      exact hprogram middle hmiddle

/-- An edit that is not checked finds its row. -/
theorem not_fails_revise {kind : EntityKind} {id : Id kind} {row : kind.Row}
    {edit : kind.Row → Moment → kind.Row} {after : Session} {error : StoreError}
    (hlive : session.transaction.working.live? id = some row) :
    (revise kind id edit).run.run session ≠ (.error error, after) := by
  simp only [run_revise, hlive]
  nofun

/-- One that is checked fails because the row that it makes does not fit. -/
theorem check_of_run_reviseChecked {kind : EntityKind} {id : Id kind} {row : kind.Row}
    {edit : kind.Row → Moment → kind.Row} {after : Session} {error : StoreError}
    (hlive : session.transaction.working.live? id = some row)
    (hrun : (reviseChecked kind id edit).run.run session = (.error error, after)) :
    ∃ moment, session.transaction.working.check (edit row moment) = .error error := by
  simp only [run_reviseChecked, hlive] at hrun
  cases hcheck : session.transaction.working.check (edit row session.now) with
  | ok _ =>
      rw [hcheck] at hrun
      cases hrun
  | error failure =>
      rw [hcheck] at hrun
      cases hrun
      exact ⟨session.now, hcheck⟩

/-- A new name does not fit if another option has it. -/
theorem isNameTaken_of_check {row : ProductOption} {name : String} {moment : Moment}
    {error : StoreError} (hintact : origin.Intact) (hrow : origin.live? row.id = some row)
    (hcheck : @Tables.check origin .option (renamed name row moment) = .error error) :
    (CatalogError.ofStore error).isConflict ∧ origin.IsNameTaken row name := by
  obtain ⟨rfl, rival, hrival, hne, hclash⟩ :=
    @Tables.Intact.exists_rival origin .option (renamed name row moment) hintact row error
      (Tables.live?_eq_some.mp hrow).1 rfl hcheck
  obtain ⟨_, hlive, hroot, hname⟩ := Tables.clash_option_iff.mp hclash
  exact ⟨rfl, rival, Tables.mem_iff.mpr hrival, hne, hlive, hroot.symm, hname.symm⟩

/-- A new text does not fit if another value has it. -/
theorem isTextTaken_of_check {row : OptionValue} {text : String} {moment : Moment}
    {error : StoreError} (hintact : origin.Intact) (hrow : origin.live? row.id = some row)
    (hcheck : @Tables.check origin .value (reworded text row moment) = .error error) :
    (CatalogError.ofStore error).isConflict ∧ origin.IsTextTaken row text := by
  obtain ⟨rfl, rival, hrival, hne, hclash⟩ :=
    @Tables.Intact.exists_rival origin .value (reworded text row moment) hintact row error
      (Tables.live?_eq_some.mp hrow).1 rfl hcheck
  obtain ⟨_, hlive, hoption, hvalue⟩ := Tables.clash_value_iff.mp hclash
  exact ⟨rfl, rival, Tables.mem_iff.mpr hrival, hne, hlive, hoption.symm, hvalue.symm⟩

/-- Whoever was found to have the name is another option. -/
theorem isNameTaken_of_holder {row : ProductOption} {name : String}
    (hheld : (answerQuery origin (.optionByName row.root name)).all (·.id = row.id) = false) :
    origin.IsNameTaken row name := by
  rw [answerQuery] at hheld
  cases hholder : (origin.options.liveRows fun option =>
      option.root = row.root && option.name = name).head? with
  | none =>
      rw [hholder] at hheld
      cases hheld
  | some rival =>
      rw [hholder] at hheld
      obtain ⟨hmem, hlive, hcondition⟩ := Table.mem_liveRows.mp (List.mem_of_head? hholder)
      simp only [Bool.and_eq_true, decide_eq_true_eq] at hcondition
      exact ⟨rival, hmem, of_decide_eq_false hheld, hlive, hcondition⟩

/-- A live value that has a text is not one that has another. -/
theorem isTextTaken_of_holder {row : OptionValue} {text : String} (hne : row.value ≠ text)
    (hrow : origin.live? row.id = some row)
    (hheld : (!answerQuery origin (.hasValue row.option text)) = false) :
    origin.IsTextTaken row text := by
  obtain ⟨rival, hrival, hcondition⟩ := @Tables.exists_of_liveRows origin .value
    (fun value => value.option = row.option && value.value = text)
    ((Bool.not_not _).symm.trans hheld)
  simp only [Bool.and_eq_true, decide_eq_true_eq] at hcondition
  obtain ⟨hfound, hlive⟩ := Tables.live?_eq_some.mp hrival
  refine ⟨rival, Tables.mem_iff.mpr hfound, fun hid => ?_, hlive, hcondition⟩
  rw [show Row.id rival = row.id from hid, hrow] at hrival
  cases hrival
  exact hne hcondition.2

theorem withstands_reviseProduct (id : Id .product) (patch : ProductPatch)
    (h : session.transaction = ⟨origin, []⟩) :
    Withstands calm (fun result after => Patches origin id patch result after.transaction)
      (Misses origin id) (reviseProduct id patch) session := by
  apply withstands_getLive h fun hlive => ⟨rfl, hlive⟩
  intro row first hrow hfirst
  obtain rfl := Tables.id_of_find? (Tables.live?_eq_some.mp hrow).1
  apply endures_bind.mpr
  apply withstands_order
  · intro registers moment second hrun
    obtain ⟨found, hfound, hwritten⟩ := write_of_run_revise hrun
    rw [hfirst] at hfound hwritten
    cases hrow.symm.trans hfound
    exact endures_pure.mpr ⟨row, moment, rfl, ⟨hrow, hwritten⟩, rfl⟩
  · intro registers error after hrun
    rw [hfirst] at hrun
    exact absurd hrun (@not_fails_revise ⟨registers, ⟨origin, []⟩⟩ .product _ _ _ _ _ hrow)

theorem withstands_reviseOption (hintact : origin.Intact) (id : Id .option) (name : String)
    (h : session.transaction = ⟨origin, []⟩) :
    Withstands calm (fun result after => Renames origin id name result after.transaction)
      (Objects origin id (origin.IsNameTaken · name)) (reviseOption id name) session := by
  apply withstands_getLive h fun hlive => .inl ⟨rfl, hlive⟩
  intro (row : ProductOption) first hrow hfirst
  obtain rfl := Tables.id_of_find? (Tables.live?_eq_some.mp hrow).1
  have hwrite : ∀ middle : Session, middle.transaction = ⟨origin, []⟩ →
      Withstands calm
        (fun result after => Renames origin row.id name result after.transaction)
        (Objects origin row.id (origin.IsNameTaken · name))
        (do
          let moment ← order (.updateOption row.id name)
          let values ← ask (.valuesOf row.id)
          return { row with name, values, lifecycle := row.lifecycle.update moment })
        middle := by
    intro middle hmiddle
    apply endures_bind.mpr
    apply withstands_order
    · intro registers moment second hrun
      obtain ⟨found, hfound, hwritten⟩ := write_of_run_reviseChecked hrun
      rw [hmiddle] at hfound hwritten
      cases hrow.symm.trans hfound
      apply withstands_askThen
      intro third hthird
      rw [hwritten] at hthird ⊢
      exact endures_pure.mpr ⟨row, moment, rfl, ⟨hrow, hthird⟩, rfl⟩
    · intro registers error after hrun
      rw [hmiddle] at hrun
      obtain ⟨moment, hcheck⟩ := @check_of_run_reviseChecked ⟨registers, ⟨origin, []⟩⟩ .option
        _ _ _ _ _ hrow hrun
      obtain ⟨hconflict, htaken⟩ := isNameTaken_of_check hintact hrow hcheck
      exact .inr ⟨hconflict, row, hrow, htaken⟩
  dsimp only
  split
  · refine withstands_askRequire (fun hheld => .inr ⟨rfl, row, hrow, ?_⟩) fun middle hmiddle =>
      hwrite middle (hmiddle.trans hfirst)
    rw [hfirst] at hheld
    exact isNameTaken_of_holder hheld
  · exact hwrite first hfirst

theorem withstands_reviseValue (hintact : origin.Intact) (id : Id .value) (text : String)
    (h : session.transaction = ⟨origin, []⟩) :
    Withstands calm (fun result after => Rewords origin id text result after.transaction)
      (Objects origin id (origin.IsTextTaken · text)) (reviseValue id text) session := by
  apply withstands_getLive h fun hlive => .inl ⟨rfl, hlive⟩
  intro (row : OptionValue) first hrow hfirst
  obtain rfl := Tables.id_of_find? (Tables.live?_eq_some.mp hrow).1
  have hwrite : ∀ middle : Session, middle.transaction = ⟨origin, []⟩ →
      Withstands calm
        (fun result after => Rewords origin row.id text result after.transaction)
        (Objects origin row.id (origin.IsTextTaken · text))
        (do
          let moment ← order (.updateValue row.id text)
          return { row with value := text, lifecycle := row.lifecycle.update moment })
        middle := by
    intro middle hmiddle
    apply endures_bind.mpr
    apply withstands_order
    · intro registers moment second hrun
      obtain ⟨found, hfound, hwritten⟩ := write_of_run_reviseChecked hrun
      rw [hmiddle] at hfound hwritten
      cases hrow.symm.trans hfound
      exact endures_pure.mpr ⟨row, moment, rfl, ⟨hrow, hwritten⟩, rfl⟩
    · intro registers error after hrun
      rw [hmiddle] at hrun
      obtain ⟨moment, hcheck⟩ := @check_of_run_reviseChecked ⟨registers, ⟨origin, []⟩⟩ .value
        _ _ _ _ _ hrow hrun
      obtain ⟨hconflict, htaken⟩ := isTextTaken_of_check hintact hrow hcheck
      exact .inr ⟨hconflict, row, hrow, htaken⟩
  dsimp only
  split
  · next hne =>
    refine withstands_askRequire (fun hheld => .inr ⟨rfl, row, hrow, ?_⟩) fun middle hmiddle =>
      hwrite middle (hmiddle.trans hfirst)
    rw [hfirst] at hheld
    exact isTextTaken_of_holder hne hrow hheld
  · exact hwrite first hfirst

end Operation

end VariantCatalog
