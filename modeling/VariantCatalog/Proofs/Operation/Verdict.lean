/-
# The verdict on an operation

Nine operations have a row that they are about: the row that they archive or edit, or the
one that they add something to.  What such an operation comes to when nobody disturbs it can
be told beforehand, from the request and from what is committed.  It is rejected if it is
malformed, its subject is missed if it is not live, it is refused if another live row has
the name or the text that it gives, and it is granted otherwise; there is no fifth way
(`perform_verdict`).

Names and texts of archived rows are in nobody's way: only live rows are asked about.
-/

import VariantCatalog.Proofs.Operation.Availability
import VariantCatalog.Proofs.Operation.Performance

namespace VariantCatalog

open Memory Text

/-- What can become of an operation. -/
inductive Verdict where
  | malformed
  | absent
  | taken
  | granted
  deriving DecidableEq

/-- The verdict that an outcome tells. An error of the storage tells none. -/
def Verdict.of? {α : Type} : Except CatalogError α → Option Verdict
  | .ok _ => some .granted
  | .error (.validation _) => some .malformed
  | .error (.notFound _) => some .absent
  | .error (.conflict _) => some .taken
  | .error (.storage _) => none

namespace Operation

/-- The row that an operation is about: the one that it archives or edits, or adds something
to. -/
def subject? : Operation → Option RowKey
  | addOption root _ => some ⟨.root, root⟩
  | addValue option _ => some ⟨.option, option⟩
  | archiveRoot id => some ⟨.root, id⟩
  | archiveVariant id => some ⟨.product, id⟩
  | archiveOption id => some ⟨.option, id⟩
  | archiveValue id => some ⟨.value, id⟩
  | updateProduct id _ => some ⟨.product, id⟩
  | renameOption id _ => some ⟨.option, id⟩
  | updateValue id _ => some ⟨.value, id⟩
  | commit _ => none
  | rootGraph _ => none
  | productBySku _ => none
  | skuExists _ => none

/-- The row that an operation archives or edits. -/
def altered? : Operation → Option RowKey
  | addOption _ _ => none
  | addValue _ _ => none
  | operation => operation.subject?

/-- An operation on a row is malformed when it gives a blank name or text, adds an option
without values, or patches nothing, blanks a name, or empties a package. -/
def IsMalformed : Operation → Prop
  | addOption _ spec =>
    isBlankText spec.name ∨ spec.values = [] ∨ ∃ text ∈ spec.values, isBlankText text
  | addValue _ text => isBlankText text
  | updateProduct _ patch =>
    patch = .empty ∨ (∃ name ∈ patch.name, isBlankText name) ∨
      ∃ quantity ∈ patch.quantityPerPackage, quantity < 1
  | renameOption _ name => isBlankText name
  | updateValue _ text => isBlankText text
  | _ => False

/-- Whether a name or a text that an operation gives is taken by another live row, or given
twice. -/
def Clashes (tables : Tables) : Operation → Prop
  | addOption root spec =>
    (∃ rival ∈ tables.options.rows,
      rival.lifecycle.isLive ∧ rival.root = root ∧ rival.name = spec.name) ∨
        ¬ spec.values.Nodup
  | addValue option text => ∃ rival ∈ tables.values.rows,
    rival.lifecycle.isLive ∧ rival.option = option ∧ rival.value = text
  | renameOption id name => ∃ row ∈ tables.options.rows, row.id = id ∧
    tables.IsNameTaken row name
  | updateValue id text => ∃ row ∈ tables.values.rows, row.id = id ∧
    tables.IsTextTaken row text
  | _ => False

/-- Whether the subject of an operation is live. -/
def HasSubject (tables : Tables) (operation : Operation) : Prop :=
  ∃ subject ∈ operation.subject?, (tables.live? subject.id).isSome

instance : (operation : Operation) → Decidable operation.IsMalformed
  | addOption _ spec => inferInstanceAs (Decidable
      (isBlankText spec.name ∨ spec.values = [] ∨ ∃ text ∈ spec.values, isBlankText text))
  | addValue _ text => inferInstanceAs (Decidable (isBlankText text))
  | updateProduct _ patch => inferInstanceAs (Decidable
      (patch = .empty ∨ (∃ name ∈ patch.name, isBlankText name) ∨
        ∃ quantity ∈ patch.quantityPerPackage, quantity < 1))
  | renameOption _ name => inferInstanceAs (Decidable (isBlankText name))
  | updateValue _ text => inferInstanceAs (Decidable (isBlankText text))
  | commit _ | archiveRoot _ | archiveVariant _ | archiveOption _ | archiveValue _
  | rootGraph _ | productBySku _ | skuExists _ => instDecidableFalse

instance (tables : Tables) : (operation : Operation) → Decidable (operation.Clashes tables)
  | addOption root spec => inferInstanceAs (Decidable
      ((∃ rival ∈ tables.options.rows,
        rival.lifecycle.isLive ∧ rival.root = root ∧ rival.name = spec.name) ∨
          ¬ spec.values.Nodup))
  | addValue option text => inferInstanceAs (Decidable (∃ rival ∈ tables.values.rows,
      rival.lifecycle.isLive ∧ rival.option = option ∧ rival.value = text))
  | renameOption id name => inferInstanceAs (Decidable (∃ row ∈ tables.options.rows,
      row.id = id ∧ tables.IsNameTaken row name))
  | updateValue id text => inferInstanceAs (Decidable (∃ row ∈ tables.values.rows,
      row.id = id ∧ tables.IsTextTaken row text))
  | commit _ | archiveRoot _ | archiveVariant _ | archiveOption _ | archiveValue _
  | updateProduct _ _ | rootGraph _ | productBySku _ | skuExists _ => instDecidableFalse

instance (tables : Tables) (operation : Operation) : Decidable (operation.HasSubject tables) :=
  inferInstanceAs (Decidable (∃ subject ∈ operation.subject?, (tables.live? subject.id).isSome))

/-- The verdict on an operation, from what is committed. -/
def verdict (tables : Tables) (operation : Operation) : Verdict :=
  if operation.IsMalformed then .malformed
  else if ¬ operation.HasSubject tables then .absent
  else if operation.Clashes tables then .taken
  else .granted

theorem isRead_of_subject? {operation : Operation} {subject : RowKey}
    (h : operation.subject? = some subject) : operation.isRead = false := by
  cases operation with
  | rootGraph id => cases h
  | productBySku sku => cases h
  | skuExists sku => cases h
  | _ => rfl

theorem subject?_of_altered? {operation : Operation} {target : RowKey}
    (h : operation.altered? = some target) : operation.subject? = some target := by
  cases operation with
  | addOption root spec => cases h
  | addValue option text => cases h
  | _ => exact h

/-! ## Malformed operations -/

/-- An option is rejected just if it is malformed. -/
theorem validate_cases (spec : OptionSpec) (root : Id .root) :
    (addOption root spec).IsMalformed ∧ (∃ flaw, spec.validate = .error flaw) ∨
      ¬ (addOption root spec).IsMalformed ∧ spec.validate = .ok () := by
  rw [OptionSpec.validate, IsMalformed]
  split
  · next hname => exact .inl ⟨.inl hname, _, rfl⟩
  · next hname =>
    split
    · next hempty => exact .inl ⟨.inr (.inl (List.isEmpty_iff.mp hempty)), _, rfl⟩
    · next hempty =>
      split
      · next hvalue => exact .inl ⟨.inr (.inr (List.any_eq_true.mp hvalue)), _, rfl⟩
      · next hvalue =>
        refine .inr ⟨?_, rfl⟩
        rintro (hblank | hnil | hblank)
        · exact hname hblank
        · exact hempty (List.isEmpty_iff.mpr hnil)
        · exact hvalue (List.any_eq_true.mpr hblank)

/-- So is a patch. -/
theorem validate_patch_cases (patch : ProductPatch) (id : Id .product) :
    (updateProduct id patch).IsMalformed ∧ (∃ flaw, patch.validate = .error flaw) ∨
      ¬ (updateProduct id patch).IsMalformed ∧ patch.validate = .ok () := by
  rw [ProductPatch.validate, IsMalformed]
  split
  · next hempty => exact .inl ⟨.inl (of_decide_eq_true hempty), _, rfl⟩
  · next hempty =>
    split
    · next hname => exact .inl ⟨.inr (.inl ((Option.any_eq_true _ _).mp hname)), _, rfl⟩
    · next hname =>
      split
      · next hpackage =>
        obtain ⟨quantity, hquantity, hlt⟩ := (Option.any_eq_true _ _).mp hpackage
        exact .inl ⟨.inr (.inr ⟨quantity, hquantity, of_decide_eq_true hlt⟩), _, rfl⟩
      · next hpackage =>
        refine .inr ⟨?_, rfl⟩
        rintro (heq | hblank | ⟨quantity, hquantity, hlt⟩)
        · exact hempty (decide_eq_true heq)
        · exact hname ((Option.any_eq_true _ _).mpr hblank)
        · exact hpackage ((Option.any_eq_true _ _).mpr ⟨quantity, hquantity, decide_eq_true hlt⟩)

/-- An operation on a row is rejected just if it is malformed. -/
theorem check_cases {operation : Operation} {subject : RowKey} (limit : Option Nat)
    (h : operation.subject? = some subject) :
    operation.IsMalformed ∧ (∃ flaw, operation.check limit = .error flaw) ∨
      ¬ operation.IsMalformed ∧ operation.check limit = .ok () := by
  have hblank : ∀ (text : String) (flaw : Flaw),
      isBlankText text = true ∧
          (∃ found, (if isBlankText text then .error flaw else .ok ()) = Except.error found) ∨
        ¬ isBlankText text = true ∧
          (if isBlankText text then .error flaw else .ok ()) = (.ok () : Except Flaw Unit) := by
    intro text flaw
    cases isBlankText text with
    | true => exact .inl ⟨rfl, flaw, rfl⟩
    | false => exact .inr ⟨Bool.false_ne_true, rfl⟩
  cases operation with
  | addOption root spec => exact validate_cases spec root
  | addValue option text => exact hblank text .blankValue
  | updateProduct id patch => exact validate_patch_cases patch id
  | renameOption id name => exact hblank name .blankOptionName
  | updateValue id text => exact hblank text .blankValue
  | archiveRoot id => exact .inr ⟨False.elim, rfl⟩
  | archiveVariant id => exact .inr ⟨False.elim, rfl⟩
  | archiveOption id => exact .inr ⟨False.elim, rfl⟩
  | archiveValue id => exact .inr ⟨False.elim, rfl⟩
  | commit creation => cases h
  | rootGraph id => cases h
  | productBySku sku => cases h
  | skuExists sku => cases h

/-! ## Why a body fails -/

/-- An operation has missed its subject, or has come upon a clash. -/
def Deserves (tables : Tables) (operation : Operation) (error : CatalogError) : Prop :=
  (∃ detail, error = .notFound detail) ∧ ¬ operation.HasSubject tables ∨
    error.isConflict ∧ operation.HasSubject tables ∧ operation.Clashes tables

variable {origin : Tables} {session : Session}

theorem hasSubject_iff {operation : Operation} {subject : RowKey}
    (h : operation.subject? = some subject) :
    operation.HasSubject origin ↔ (origin.live? subject.id).isSome := by
  rw [HasSubject, h]
  constructor
  · rintro ⟨_, ⟨⟩, hlive⟩
    exact hlive
  · exact fun hlive => ⟨subject, rfl, hlive⟩

theorem Misses.deserves {operation : Operation} {kind : EntityKind} {id : Id kind}
    {error : CatalogError} (hsubject : operation.subject? = some ⟨kind, id⟩)
    (h : Misses origin id error) : operation.Deserves origin error := by
  obtain ⟨rfl, hnone⟩ := h
  refine .inl ⟨⟨_, rfl⟩, fun hlive => ?_⟩
  rw [hasSubject_iff hsubject, hnone] at hlive
  cases hlive

theorem Objects.deserves {operation : Operation} {subject : RowKey} {error : CatalogError}
    (hsubject : operation.subject? = some subject)
    (h : Objects origin subject.id (fun _ => operation.Clashes origin) error) :
    operation.Deserves origin error := by
  rcases h with hmisses | ⟨hconflict, row, hrow, hclashes⟩
  · exact hmisses.deserves hsubject
  · exact .inr ⟨hconflict, (hasSubject_iff hsubject).mpr (Option.isSome_of_eq_some hrow), hclashes⟩

/-- An addition fails when its parent is not live, or else for a clash. -/
theorem concludes_whenLive {α : Type} {operation : Operation} {kind : EntityKind} {id : Id kind}
    {program : Program α} (hsubject : operation.subject? = some ⟨kind, id⟩)
    (h : session.transaction = ⟨origin, []⟩)
    (hprogram : (origin.find? id).isSome → Achieves (operation.Clashes origin) program session) :
    (Program.ask (.isLive id) >>= fun live =>
        Program.require live (.absent id) >>= fun _ => program).Concludes
      (fun request before => (answerCall request).run.run before) (fun _ _ => True)
      (operation.Deserves origin) session := by
  apply Program.concludes_bind.mpr
  show Program.Concludes _ _ _ (_ >>= fun _ => program) session
  apply Program.concludes_bind.mpr
  apply Program.concludes_require.mpr
  rw [h]
  cases hlive : origin.live? id with
  | none =>
      simp only [answerQuery, hlive, Option.isSome_none, Bool.false_eq_true, if_false]
      exact Misses.deserves hsubject ⟨rfl, hlive⟩
  | some row =>
      simp only [answerQuery, hlive, Option.isSome_some, if_true]
      have hsome := Option.isSome_of_eq_some (Tables.live?_eq_some.mp hlive).1
      have hsubjectLive := (hasSubject_iff hsubject).mpr (Option.isSome_of_eq_some hlive)
      apply ((hprogram hsome).mono fun _ _ _ => trivial).mono_error
      rintro error ⟨hconflict, hclashes⟩
      exact .inr ⟨hconflict, hsubjectLive, hclashes⟩

/-- What is taken clashes. -/
theorem Objects.clashes {operation : Operation} {kind : EntityKind} {id : Id kind}
    {taken : kind.Row → Prop} {error : CatalogError} (h : Objects origin id taken error)
    (hclashes : ∀ row ∈ (origin.table kind).rows, Row.id row = id → taken row →
      operation.Clashes origin) :
    Objects origin id (fun _ => operation.Clashes origin) error := by
  refine h.imp_right ?_
  rintro ⟨hconflict, row, hrow, htaken⟩
  obtain ⟨hfound, _⟩ := Tables.live?_eq_some.mp hrow
  obtain rfl := Tables.id_of_find? hfound
  exact ⟨hconflict, row, hrow, hclashes row (Tables.mem_iff.mpr hfound) rfl htaken⟩

/-- Whatever others do meanwhile, the body of an archive or an edit fails because its target
is not live in the tables that it began on, or because what it gives is taken there. -/
theorem withstands_body {calm : Prop} {operation : Operation} {target : RowKey}
    (haltered : operation.altered? = some target) (hintact : origin.Intact)
    (h : session.transaction = ⟨origin, []⟩) :
    Withstands calm (fun _ _ => True)
      (Objects origin target.id fun _ => operation.Clashes origin) operation.body session := by
  have hmisses : ∀ {kind : EntityKind} {id : Id kind} {ok : operation.Result → Session → Prop}
      {program : Program operation.Result},
      Withstands calm ok (Misses origin id) program session →
        Withstands calm (fun _ _ => True) (Objects origin id fun _ => operation.Clashes origin)
          program session :=
    fun hbody => (hbody.mono fun _ _ _ => trivial).mono_error fun _ hexplained =>
      hexplained.mono fun _ => .inl
  cases operation with
  | archiveRoot id =>
      cases haltered
      exact hmisses (withstands_retireRoot id h)
  | archiveVariant id =>
      cases haltered
      exact hmisses (withstands_retireVariant id h)
  | archiveOption id =>
      cases haltered
      exact hmisses (withstands_retireOption id h)
  | archiveValue id =>
      cases haltered
      exact hmisses (withstands_retireValue id h)
  | updateProduct id patch =>
      cases haltered
      exact hmisses (withstands_reviseProduct id patch h)
  | renameOption id name =>
      cases haltered
      apply ((withstands_reviseOption hintact id name h).mono fun _ _ _ => trivial).mono_error
      exact fun _ hexplained => hexplained.mono fun _ hobjects =>
        hobjects.clashes fun row hrow hid htaken => ⟨row, hrow, hid, htaken⟩
  | updateValue id text =>
      cases haltered
      apply ((withstands_reviseValue hintact id text h).mono fun _ _ _ => trivial).mono_error
      exact fun _ hexplained => hexplained.mono fun _ hobjects =>
        hobjects.clashes fun row hrow hid htaken => ⟨row, hrow, hid, htaken⟩
  | addOption root spec => cases haltered
  | addValue option text => cases haltered
  | commit creation => cases haltered
  | rootGraph id => cases haltered
  | productBySku sku => cases haltered
  | skuExists sku => cases haltered

/-- When nobody disturbs it, the body of an archive or an edit fails only as it deserves. -/
theorem concludes_altering {operation : Operation} {target : RowKey}
    (haltered : operation.altered? = some target) (hcalm : session.registers.fault = none)
    (hintact : origin.Intact) (hbegin : session.transaction = ⟨origin, []⟩) :
    operation.body.Concludes (fun request before => (answerCall request).run.run before)
      (fun _ _ => True) (operation.Deserves origin) session :=
  ((withstands_body haltered hintact hbegin).concludes hcalm).mono_error fun _ =>
    Objects.deserves (subject?_of_altered? haltered)

/-- When nobody disturbs it, the body of an operation on a row fails only as it deserves. -/
theorem concludes_body {operation : Operation} {subject : RowKey}
    (hsubject : operation.subject? = some subject) (h : session.Sound)
    (hbegin : session.transaction = ⟨origin, []⟩) :
    operation.body.Concludes (fun request before => (answerCall request).run.run before)
      (fun _ _ => True) (operation.Deserves origin) session := by
  have hworking : session.transaction.working = origin := by rw [hbegin]
  have hintact : origin.Intact := hworking ▸ h.intact
  cases operation with
  | addOption root spec =>
      cases hsubject
      apply @concludes_whenLive _ _ _ _ _ root _ rfl hbegin
      intro hroot
      apply achieves_createOption h (hworking.symm ▸ hroot)
      · intro id rival hrival hparent hname
        rw [hworking] at hrival
        obtain ⟨hfound, hlive⟩ := Tables.live?_eq_some.mp hrival
        exact .inl ⟨rival, Table.mem_of_find? hfound, hlive, hparent, hname⟩
      · exact .inr
  | addValue option text =>
      cases hsubject
      apply @concludes_whenLive _ _ _ _ _ option _ rfl hbegin
      intro hoption
      apply achieves_createValue h (hworking.symm ▸ hoption)
      intro id rival hrival hparent htext
      rw [hworking] at hrival
      obtain ⟨hfound, hlive⟩ := Tables.live?_eq_some.mp hrival
      exact ⟨rival, Table.mem_of_find? hfound, hlive, hparent, htext⟩
  | archiveRoot id => exact concludes_altering hsubject h.calm hintact hbegin
  | archiveVariant id => exact concludes_altering hsubject h.calm hintact hbegin
  | archiveOption id => exact concludes_altering hsubject h.calm hintact hbegin
  | archiveValue id => exact concludes_altering hsubject h.calm hintact hbegin
  | updateProduct id patch => exact concludes_altering hsubject h.calm hintact hbegin
  | renameOption id name => exact concludes_altering hsubject h.calm hintact hbegin
  | updateValue id text => exact concludes_altering hsubject h.calm hintact hbegin
  | commit creation => cases hsubject
  | rootGraph id => cases hsubject
  | productBySku sku => cases hsubject
  | skuExists sku => cases hsubject

/-! ## Why an operation succeeds -/

variable {tx : Transaction}

/-- What a row is written over with clashes with none of the others. -/
theorem Revises.clash_eq_false {kind : EntityKind} {old new row rival : kind.Row}
    (h : Revises origin kind old new tx) (hintact : tx.working.Intact)
    (hnew : Row.id new = Row.id old) (hrow : row ∈ (origin.table kind).rows)
    (hid : Row.id row = Row.id old) (hrival : rival ∈ (origin.table kind).rows)
    (hne : Row.id rival ≠ Row.id row) : row = old ∧ Tables.clash new rival = false := by
  have hworking : tx.working = origin.put new := by
    rw [h.transaction]
    rfl
  rw [hworking] at hintact
  rw [Tables.mem_iff] at hrow hrival
  rw [hid, (Tables.live?_eq_some.mp h.live).1] at hrow
  cases hrow
  have hkey : (⟨kind, Row.id new⟩ : RowKey) ≠ ⟨kind, Row.id rival⟩ := by
    intro heq
    rw [hnew] at heq
    exact hne (eq_of_heq (RowKey.mk.inj heq).2).symm
  refine ⟨rfl, hintact.clash_eq_false (Tables.find?_put_self origin new)
    ((Tables.find?_put_of_key_ne origin new _ hkey).trans hrival) ?_⟩
  rw [hnew]
  exact hne.symm

/-- A value that was created was not there before. -/
theorem not_clashes_addValue {option : Id .option} {text : String} {value : OptionValue}
    (hlists : OptionSpec.Lists option text value) (h : Inserts origin [⟨.value, value⟩] tx)
    (hdeparts : Departs origin tx) (hintact : tx.working.Intact) :
    ¬ (addValue option text).Clashes origin := by
  rintro ⟨rival, hmem, hlive, hparent, htext⟩
  have hapart := h.clash_eq_false hdeparts hintact List.mem_cons_self
    ((@Tables.mem_iff origin .value rival).mp hmem)
  exact Bool.eq_false_iff.mp hapart (Tables.clash_value_iff.mpr
    ⟨hlists.live, hlive, hlists.parent.trans hparent.symm, hlists.value.trans htext.symm⟩)

/-- Nor was an option, and its values are different from each other. -/
theorem not_clashes_addOption {root : Id .root} {spec : OptionSpec} {option : ProductOption}
    (hdescribes : spec.Describes root option) (h : Inserts origin option.rows tx)
    (hdeparts : Departs origin tx) (hintact : tx.working.Intact) :
    ¬ (addOption root spec).Clashes origin := by
  rintro (⟨rival, hmem, hlive, hparent, hname⟩ | hnot)
  · have hapart := h.clash_eq_false hdeparts hintact List.mem_cons_self
      ((@Tables.mem_iff origin .option rival).mp hmem)
    exact Bool.eq_false_iff.mp hapart (Tables.clash_option_iff.mpr ⟨hdescribes.live, hlive,
      hdescribes.parent.trans hparent.symm, hdescribes.name.trans hname.symm⟩)
  · exact hnot (hdescribes.nodup_of_apart
      (h.pairwise_clash_eq_false hintact (List.sublist_cons_self _ _)))

theorem not_clashes_renameOption {id : Id .option} {name : String} {result : ProductOption}
    (h : Renames origin id name result tx) (hintact : tx.working.Intact) :
    ¬ (renameOption id name).Clashes origin := by
  obtain ⟨row, moment, rfl, hrevises, _⟩ := h
  rintro ⟨other, hother, hid, rival, hmem, hne, hlive, hparent, hname⟩
  obtain ⟨rfl, hapart⟩ := hrevises.clash_eq_false hintact rfl hother hid hmem hne
  have hnewLive : (renamed name other moment).lifecycle.isLive :=
    (Tables.live?_eq_some.mp hrevises.live).2
  exact Bool.eq_false_iff.mp hapart (Tables.clash_option_iff.mpr
    ⟨hnewLive, hlive, hparent.symm, hname.symm⟩)

theorem not_clashes_updateValue {id : Id .value} {text : String} {result : OptionValue}
    (h : Rewords origin id text result tx) (hintact : tx.working.Intact) :
    ¬ (updateValue id text).Clashes origin := by
  obtain ⟨row, moment, rfl, hrevises, _⟩ := h
  rintro ⟨other, hother, hid, rival, hmem, hne, hlive, hparent, htext⟩
  obtain ⟨rfl, hapart⟩ := hrevises.clash_eq_false hintact rfl hother hid hmem hne
  have hnewLive : (reworded text other moment).lifecycle.isLive :=
    (Tables.live?_eq_some.mp hrevises.live).2
  exact Bool.eq_false_iff.mp hapart (Tables.clash_value_iff.mpr
    ⟨hnewLive, hlive, hparent.symm, htext.symm⟩)

/-- An operation on a row that comes to a result has found its subject live, and nothing in
its way. -/
theorem Effect.granted {operation : Operation} {subject : RowKey} {result : operation.Result}
    (h : operation.Effect origin result tx) (hsubject : operation.subject? = some subject)
    (hdeparts : Departs origin tx) (hintact : tx.working.Intact) :
    operation.HasSubject origin ∧ ¬ operation.Clashes origin := by
  rw [hasSubject_iff hsubject]
  cases operation with
  | addOption root spec =>
      obtain ⟨⟨row, hrow⟩, hdescribes, hinserts⟩ := h
      cases hsubject
      exact ⟨Option.isSome_of_eq_some hrow,
        not_clashes_addOption hdescribes hinserts hdeparts hintact⟩
  | addValue option text =>
      obtain ⟨⟨row, hrow⟩, hlists, hinserts⟩ := h
      cases hsubject
      exact ⟨Option.isSome_of_eq_some hrow, not_clashes_addValue hlists hinserts hdeparts hintact⟩
  | archiveRoot id =>
      obtain ⟨row, hrow, _⟩ := h
      cases hsubject
      exact ⟨Option.isSome_of_eq_some hrow, False.elim⟩
  | archiveVariant id =>
      obtain ⟨row, hrow, _⟩ := h
      cases hsubject
      exact ⟨Option.isSome_of_eq_some hrow, False.elim⟩
  | archiveOption id =>
      obtain ⟨row, hrow, _⟩ := h
      cases hsubject
      exact ⟨Option.isSome_of_eq_some hrow, False.elim⟩
  | archiveValue id =>
      obtain ⟨row, hrow, _⟩ := h
      cases hsubject
      exact ⟨Option.isSome_of_eq_some hrow, False.elim⟩
  | updateProduct id patch =>
      obtain ⟨row, moment, rfl, hrevises, _⟩ := h
      cases hsubject
      exact ⟨Option.isSome_of_eq_some hrevises.live, False.elim⟩
  | renameOption id name =>
      have hfree := not_clashes_renameOption h hintact
      obtain ⟨row, moment, rfl, hrevises, _⟩ := h
      cases hsubject
      exact ⟨Option.isSome_of_eq_some hrevises.live, hfree⟩
  | updateValue id text =>
      have hfree := not_clashes_updateValue h hintact
      obtain ⟨row, moment, rfl, hrevises, _⟩ := h
      cases hsubject
      exact ⟨Option.isSome_of_eq_some hrevises.live, hfree⟩
  | commit creation => cases hsubject
  | rootGraph id => cases hsubject
  | productBySku sku => cases hsubject
  | skuExists sku => cases hsubject

end Operation

/-! ## The verdict -/

namespace Memory

open Operation

/-- On sound tables, an operation on a row that nobody disturbs comes to what its verdict
tells. -/
theorem perform_verdict {memory : Memory} {operation : Operation} {subject : RowKey}
    (limit : Option Nat) (h : Session.Sound ⟨memory.registers, memory.begin⟩)
    (hsubject : operation.subject? = some subject) :
    Verdict.of? (store.perform limit operation memory).1 =
      some (operation.verdict memory.committed.tables) := by
  rcases check_cases limit hsubject with ⟨hmalformed, flaw, hflaw⟩ | ⟨hwell, hcheck⟩
  · rw [Store.perform, Operation.screen, hflaw, verdict, if_pos hmalformed]
    rfl
  · rw [verdict, if_neg hwell]
    rcases perform_cases h (isRead_of_subject? hsubject) hcheck (concludes_body hsubject h rfl) with
      ⟨result, last, hok, hintact, hdeparts, heffect, _⟩ | ⟨error, herror, hdeserves⟩
    · obtain ⟨hlive, hfree⟩ := heffect.granted hsubject hdeparts hintact
      rw [hok, if_neg (not_not.mpr hlive), if_neg hfree]
      rfl
    · rw [herror]
      rcases hdeserves with ⟨⟨detail, rfl⟩, hnone⟩ | ⟨hconflict, hlive, hclashes⟩
      · rw [if_pos hnone]
        rfl
      · rw [if_neg (not_not.mpr hlive), if_pos hclashes]
        cases error with
        | conflict detail => rfl
        | _ => cases hconflict

end Memory

end VariantCatalog
