/-
# Rows that fit

Whether a new row can be stored is a question of the other rows alone: if those that it
refers to are there, it is refused only when another row claims its unique key.  So as
long as the working tables of a session keep all constraints and no fault is armed, a
program that creates rows has no other way to fail than a conflict, and for each conflict
there is a row in its way.

`Achieves` puts this together along a program.  It does not say what the results are;
that is known already from what the program makes.
-/

import VariantCatalog.Proofs.Memory.Insertion
import VariantCatalog.Proofs.Store.Conclusion

namespace VariantCatalog

open Memory Calendar

/-- Whether an error says that something is taken. -/
def CatalogError.isConflict : CatalogError → Bool
  | .conflict _ => true
  | _ => false

/-! ## Rows that fit as before -/

namespace Row

variable {kind : EntityKind} {old new : kind.Row}

theorem parents_archive (row : kind.Row) (moment : Moment) :
    parents (archive row moment) = parents row := by
  cases kind <;> rfl

theorem SameAnchor.parents_eq (h : SameAnchor old new) (hkind : kind.IsAnchored) :
    parents new = parents old := by
  cases kind with
  | root => rfl
  | product =>
      have hroot : Product.root new = Product.root old := h.1
      simp only [parents, hroot]
  | option => cases hkind
  | value => cases hkind
  | bridge => cases hkind

theorem SameAnchor.clash_eq (h : SameAnchor old new) (hkind : kind.IsAnchored)
    (rival : kind.Row) : Tables.clash new rival = Tables.clash old rival := by
  cases kind with
  | root =>
      have hprefix : ProductRoot.skuPrefix new = ProductRoot.skuPrefix old := h
      simp only [Tables.clash, hprefix]
  | product =>
      have hsku : Product.sku new = Product.sku old := h.2.1
      simp only [Tables.clash, hsku]
  | option => cases hkind
  | value => cases hkind
  | bridge => cases hkind

/-- What a row clashes with once it is archived it clashed with before. -/
theorem clash_of_clash_archive {row rival : kind.Row} {moment : Moment}
    (h : Tables.clash (archive row moment) rival = true) : Tables.clash row rival = true := by
  have hdead := isLive_archive row moment
  cases kind with
  | root => exact h
  | product => exact h
  | option =>
      exact absurd (Tables.clash_option_iff.mp h).1 (Bool.eq_false_iff.mp hdead)
  | value =>
      exact absurd (Tables.clash_value_iff.mp h).1 (Bool.eq_false_iff.mp hdead)
  | bridge =>
      exact absurd (Tables.clash_bridge_iff.mp h).1 (Bool.eq_false_iff.mp hdead)

end Row

/-! ## Tables with one more row -/

namespace Tables

variable {tables : Tables} {kind : EntityKind} {row : kind.Row}

/-- A row that refers to rows that are there fits, unless another one claims its key. -/
theorem check_cases (hparents : ∀ parent ∈ Row.parents row, (tables.find? parent.id).isSome) :
    tables.check row = .ok () ∨
      tables.check row = .error (.uniqueViolation (uniqueKeyName kind)) ∧
        ∃ rival : kind.Row, tables.find? (Row.id rival) = some rival ∧ Row.id rival ≠ Row.id row ∧
          clash row rival = true := by
  rw [check, brokenReference?_eq_none.mpr hparents]
  cases hrival : tables.hasRival row with
  | false => exact .inl rfl
  | true =>
      obtain ⟨rival, hmem, hboth⟩ := List.any_eq_true.mp hrival
      obtain ⟨hne, hclash⟩ := Bool.and_eq_true_iff.mp hboth
      exact .inr ⟨rfl, rival, mem_iff.mp hmem, of_decide_eq_true hne, hclash⟩

/-- Where all constraints are kept, rows under different numbers do not clash. -/
theorem Intact.clash_eq_false (h : tables.Intact) {firstId secondId : Id kind}
    {first second : kind.Row} (hfirst : tables.find? firstId = some first)
    (hsecond : tables.find? secondId = some second) (hne : firstId ≠ secondId) :
    clash first second = false := by
  rw [Bool.eq_false_iff]
  intro hclash
  have hsame := congrArg Row.id (h.unrivalled hfirst hsecond hclash)
  rw [id_of_find? hfirst, id_of_find? hsecond] at hsame
  exact hne hsame

theorem Intact.pairwise_clash_eq_false (h : tables.Intact) {rows : List kind.Row}
    (hrows : rows.Pairwise Row.Precedes)
    (hfound : ∀ row ∈ rows, tables.find? (Row.id row) = some row) :
    rows.Pairwise fun first second => clash first second = false := by
  apply hrows.imp_of_mem
  intro first second hfirst hsecond hlt
  apply h.clash_eq_false (hfound first hfirst) (hfound second hsecond)
  exact fun hid => Int.ne_of_lt hlt (congrArg Id.number hid)

/-- The rows of tables that keep all constraints fit among each other. -/
theorem Intact.check_eq_ok (h : tables.Intact) {id : Id kind} (hrow : tables.find? id = some row) :
    tables.check row = .ok () := by
  refine Tables.check_eq_ok.mpr ⟨brokenReference?_eq_none.mpr (h.referenced hrow), ?_⟩
  refine hasRival_eq_false.mpr fun rival hrival hne => ?_
  exact h.clash_eq_false (id_of_find? hrow ▸ hrow) hrival hne.symm

/-- To put a row that fits breaks nothing, whether it is a new one or written over another. -/
theorem Intact.put (h : tables.Intact) (hcheck : tables.check row = .ok ())
    (hbare : Row.IsBare row) : (tables.put row).Intact := by
  obtain ⟨hreferences, hrival⟩ := Tables.check_eq_ok.mp hcheck
  have hkept : ∀ {other : EntityKind} {id : Id other}, (tables.find? id).isSome →
      ((tables.put row).find? id).isSome := by
    intro other id hsome
    by_cases hkey : (⟨kind, Row.id row⟩ : RowKey) = ⟨other, id⟩
    · cases hkey
      exact Option.isSome_of_eq_some (find?_put_self tables row)
    · rwa [find?_put_of_key_ne tables row id hkey]
  have hclash : ∀ {id : Id kind} {rival : kind.Row},
      (⟨kind, Row.id row⟩ : RowKey) ≠ ⟨kind, id⟩ → tables.find? id = some rival →
        clash row rival = false := by
    intro id rival hkey hfound
    obtain rfl := id_of_find? hfound
    exact hasRival_eq_false.mp hrival rival hfound fun heq => hkey (heq ▸ rfl)
  refine ⟨fun {other id found} hfind parent hparent => ?_, ?_, bare_put h.bare hbare⟩
  · rcases of_find?_put hfind with heq | ⟨_, hfound⟩
    · cases heq
      exact hkept (brokenReference?_eq_none.mp hreferences parent hparent)
    · exact hkept (h.referenced hfound parent hparent)
  · intro other firstId secondId first second hfirst hsecond hboth
    rcases of_find?_put hfirst with heq | ⟨hfirstKey, hfirstOld⟩
    · cases heq
      rcases of_find?_put hsecond with heq | ⟨hsecondKey, hsecondOld⟩
      · cases heq
        rfl
      · rw [hclash hsecondKey hsecondOld] at hboth
        cases hboth
    · rcases of_find?_put hsecond with heq | ⟨_, hsecondOld⟩
      · cases heq
        rw [clash_comm, hclash hfirstKey hfirstOld] at hboth
        cases hboth
      · exact h.unrivalled hfirstOld hsecondOld hboth

/-- What becomes of a row does not fit only if another row claims its key. -/
theorem Intact.exists_rival (h : tables.Intact) {old : kind.Row} {error : StoreError}
    (hold : tables.find? (Row.id row) = some old) (hparents : Row.parents row = Row.parents old)
    (hcheck : tables.check row = .error error) :
    error = .uniqueViolation (uniqueKeyName kind) ∧ ∃ rival : kind.Row,
      tables.find? (Row.id rival) = some rival ∧ Row.id rival ≠ Row.id row ∧
        clash row rival = true := by
  rcases check_cases (hparents ▸ h.referenced hold) with hok | ⟨herror, hrival⟩
  · rw [hok] at hcheck
    cases hcheck
  · rw [herror] at hcheck
    cases hcheck
    exact ⟨rfl, hrival⟩

/-- What becomes of a row fits if it refers to the same rows and clashes with no more. -/
theorem Intact.check_of_clash (h : tables.Intact) {old : kind.Row}
    (hold : tables.find? (Row.id row) = some old)
    (hparents : Row.parents row = Row.parents old)
    (hclash : ∀ rival, clash row rival = true → clash old rival = true) :
    tables.check row = .ok () := by
  refine Tables.check_eq_ok.mpr ⟨brokenReference?_eq_none.mpr ?_, hasRival_eq_false.mpr ?_⟩
  · rw [hparents]
    exact h.referenced hold
  · intro rival hrival hne
    rw [Bool.eq_false_iff]
    intro hboth
    have hsame := h.unrivalled hold hrival (hclash rival hboth)
    rw [← hsame, id_of_find? hold] at hne
    exact hne rfl

end Tables

namespace Memory

/-- No stroke breaks a constraint of the working tables. -/
theorem Stroke.intact {session after : Session} (h : Stroke session after)
    (hintact : session.transaction.working.Intact) : after.transaction.working.Intact := by
  cases h with
  | tick => exact hintact
  | draw => exact hintact
  | create row _ _ hbare hfits => exact hintact.put hfits hbare
  | revise old new hfound _ _ hsucceeds hbare hfits =>
      apply hintact.put _ (hbare (hintact.bare hfound))
      rcases hfits with hkind | hcheck
      · apply hintact.check_of_clash hfound (hsucceeds.anchor.parents_eq hkind)
        exact fun rival hclash => (hsucceeds.anchor.clash_eq hkind rival).symm.trans hclash
      · exact hcheck
  | retire row moment hfound _ =>
      apply hintact.put _ ((Row.isBare_archive moment).mpr (hintact.bare hfound))
      have hstamped : session.transaction.working.find? (Row.id (Row.archive row moment)) =
          some row := by
        rw [Row.id_archive]
        exact hfound
      apply hintact.check_of_clash hstamped (Row.parents_archive row moment)
      exact fun rival => Row.clash_of_clash_archive

/-- In working tables that keep all constraints, what was created clashes with nothing that
was there. -/
theorem Inserts.clash_eq_false {origin : Tables} {rows : List AnyRow} {tx : Transaction}
    (h : Inserts origin rows tx) (hdeparts : Departs origin tx) (hintact : tx.working.Intact)
    {kind : EntityKind} {new old : kind.Row} (hnew : (⟨kind, new⟩ : AnyRow) ∈ rows)
    {id : Id kind} (hold : origin.find? id = some old) : Tables.clash new old = false := by
  have hnotCreated : (⟨kind, id⟩ : RowKey) ∉ rows.map AnyRow.key := by
    intro hkey
    rw [(hdeparts.created.mp (h.mem_journal.mpr ⟨rfl, hkey⟩)).1] at hold
    cases hold
  apply hintact.clash_eq_false (h.find?_of_mem hnew)
    (h.find?_eq_some.mpr (.inr ⟨hnotCreated, hold⟩))
  rintro rfl
  exact hnotCreated (List.mem_map.mpr ⟨_, hnew, rfl⟩)

/-- Nor do two of the rows that were created. -/
theorem Inserts.pairwise_clash_eq_false {origin : Tables} {rows : List AnyRow}
    {tx : Transaction} (h : Inserts origin rows tx) (hintact : tx.working.Intact)
    {kind : EntityKind} {created : List kind.Row}
    (hcreated : (AnyRow.ofRows kind created).Sublist rows) :
    created.Pairwise fun first second => Tables.clash first second = false := by
  apply hintact.pairwise_clash_eq_false (precedes_of_ascending h.ascending hcreated)
  exact fun row hrow => h.find?_of_mem (hcreated.subset (AnyRow.mem_ofRows.mpr hrow))

/-! ## Sound sessions -/

/-- The working tables keep all constraints, new numbers lead nowhere, and no fault is
armed. -/
structure Session.Sound (session : Session) : Prop where
  intact : session.transaction.working.Intact
  drawn : session.transaction.working.Drawn session.registers.sequences
  calm : session.registers.fault = none

variable {session : Session} {obstacle : Prop}

theorem Session.Sound.tick (h : session.Sound) : session.tick.Sound :=
  ⟨h.intact, h.drawn, h.calm⟩

/-- What was there refers to nothing that was created since. -/
theorem Adds.parent_not_mem {before after : Session} {rows : List AnyRow}
    (h : Adds before rows after) (hbefore : before.Sound) {kind : EntityKind} {id : Id kind}
    {row : kind.Row} (hrow : before.transaction.working.find? id = some row) {parent : RowKey}
    (hparent : parent ∈ Row.parents row) : parent ∉ rows.map AnyRow.key := by
  intro hmem
  have hsome := hbefore.intact.referenced hrow parent hparent
  obtain ⟨new, hnew, hid⟩ := AnyRow.exists_of_mem_keys hmem
  rw [← hid, h.find?_eq_none hbefore.drawn hnew] at hsome
  cases hsome

/-- A row is created, unless another one that it clashes with is in its way. -/
theorem create_cases {kind : EntityKind} {build : Id kind → kind.Row} (h : session.Sound)
    (hid : ∀ id, Row.id (build id) = id) (hbare : ∀ id, Row.IsBare (build id))
    (hparents : ∀ id, ∀ parent ∈ Row.parents (build id),
      (session.transaction.working.find? parent.id).isSome)
    (hobstacle : ∀ (id : Id kind) (rival : kind.Row),
      session.transaction.working.find? (Row.id rival) = some rival →
        Tables.clash (build id) rival = true → obstacle) :
    (∃ row after, (create kind build).run.run session = (.ok row, after) ∧ after.Sound) ∨
      ∃ constraint after,
        (create kind build).run.run session = (.error (.uniqueViolation constraint), after) ∧
          obstacle := by
  have hnew := Stroke.find?_nextId h.drawn kind
  rw [run_create]
  rcases Tables.check_cases (hparents (session.nextId kind)) with
    hcheck | ⟨hcheck, rival, hrival, _, hclash⟩
  · rw [hcheck]
    refine .inl ⟨_, _, rfl, ?_, ?_, h.calm⟩
    · exact h.intact.put hcheck (hbare _)
    · apply Tables.Drawn.put (h.drawn.mono (Sequences.le_advance _ kind))
      rw [hid]
      exact Int.le_refl _
  · rw [hcheck]
    exact .inr ⟨_, _, rfl, hobstacle _ rival hrival hclash⟩

/-! ## Programs that can only be in conflict -/

/-- A program that comes to an end and leaves its session sound, or else is refused with a
conflict because of an obstacle. -/
abbrev Achieves {α : Type} (obstacle : Prop) (program : Program α) (session : Session) : Prop :=
  program.Concludes (fun request before => (answerCall request).run.run before)
    (fun _ after => after.Sound) (fun error => error.isConflict ∧ obstacle) session

variable {α β : Type}

/-- A call can be answered as it is when nobody has used the registers meanwhile. -/
theorem answers_of_run {request : Call} {before after : Session} {reply : request.Reply}
    (h : (answerCall request).run.run before = (.ok reply, after)) :
    Answers request before reply after :=
  ⟨_, Sequences.le_refl _, h⟩

/-- What follows a first program starts from what is known of its results. -/
theorem Achieves.bind {first : Program α} {next : α → Program β} {fits : α → Session → Prop}
    (h : Achieves obstacle first session) (hfits : Secures fits first session)
    (hnext : ∀ result after, fits result after → after.Sound →
      Achieves obstacle (next result) after) : Achieves obstacle (first >>= next) session := by
  apply Program.concludes_bind.mpr
  exact (h.and_ensures answers_of_run hfits).mono fun result after hafter =>
    hnext result after hafter.2 hafter.1

/-- What is handed back makes no difference. -/
theorem Achieves.andReturn {program : Program α} (h : Achieves obstacle program session)
    (view : α → β) : Achieves obstacle (program >>= fun result => pure (view result)) session :=
  Program.concludes_bind.mpr h

/-- What is asked before something is created shows an obstacle, or makes no
difference. -/
theorem Achieves.askRequire {read : Query} {free : read.Reply → Bool} {error : CatalogError}
    {program : Program α} (herror : error.isConflict = true)
    (hobstacle : free (answerQuery session.transaction.working read) = false → obstacle)
    (h : Achieves obstacle program session) :
    Achieves obstacle
      (Program.ask read >>= fun reply => Program.require (free reply) error >>= fun _ => program)
      session := by
  apply Program.concludes_bind.mpr
  show Program.Concludes _ _ _ (_ >>= fun _ => program) session
  apply Program.concludes_bind.mpr
  apply Program.concludes_require.mpr
  cases hfree : free (answerQuery session.transaction.working read) with
  | true => exact h
  | false => exact ⟨herror, hobstacle hfree⟩

/-- An order succeeds, or is refused because its row clashes with another one. -/
theorem achieves_order {change : Write} (h : session.Sound)
    (hcarried : (∃ reply after,
        (carryOut change).run.run session = (.ok reply, after) ∧ after.Sound) ∨
      ∃ constraint after,
        (carryOut change).run.run session = (.error (.uniqueViolation constraint), after) ∧
          obstacle) : Achieves obstacle (Program.order change) session := by
  have hspared : session.registers.fault ≠ some (faultPoint change) := by
    rw [h.calm]
    nofun
  have hrun : (answerCall (.write change)).run.run session =
      (carryOut change).run.run session := by
    rw [run_write, if_neg hspared]
  show Program.Concludes _ _ _ (.call (.write change) .done) session
  rw [Program.Concludes, hrun]
  rcases hcarried with ⟨reply, after, hcarry, hafter⟩ | ⟨constraint, after, hcarry, hobstacle⟩
  · rw [hcarry]
    exact hafter
  · rw [hcarry]
    exact ⟨rfl, hobstacle⟩

theorem achieves_newRoot {new : NewRoot} (h : session.Sound)
    (hobstacle : ∀ (id : Id .root) (rival : ProductRoot),
      session.transaction.working.find? id = some rival → rival.skuPrefix = new.skuPrefix →
        obstacle) : Achieves obstacle (Program.order (.createRoot new)) session := by
  apply achieves_order h
  apply @create_cases session.tick obstacle .root (rootRow new session.now) h.tick
  · exact fun _ => rfl
  · exact fun _ => trivial
  · exact fun _ _ hparent => nomatch hparent
  · exact fun _ rival hrival hclash => hobstacle _ rival hrival (of_decide_eq_true hclash).symm

theorem achieves_newOption {new : NewOption} (h : session.Sound)
    (hroot : (session.transaction.working.find? new.root).isSome)
    (hobstacle : ∀ (id : Id .option) (rival : ProductOption),
      session.transaction.working.live? id = some rival → rival.root = new.root →
        rival.name = new.name → obstacle) :
    Achieves obstacle (Program.order (.createOption new)) session := by
  apply achieves_order h
  apply @create_cases session.tick obstacle .option
    (fun id => ⟨id, new.root, new.name, [], .created session.now⟩) h.tick
  · exact fun _ => rfl
  · exact fun _ => rfl
  · exact fun _ => List.forall_mem_singleton.mpr hroot
  · intro id rival hrival hclash
    obtain ⟨_, hlive, hsame, hname⟩ := Tables.clash_option_iff.mp hclash
    exact hobstacle _ rival (Tables.live?_eq_some.mpr ⟨hrival, hlive⟩) hsame.symm hname.symm

theorem achieves_newValue {new : NewValue} (h : session.Sound)
    (hoption : (session.transaction.working.find? new.option).isSome)
    (hobstacle : ∀ (id : Id .value) (rival : OptionValue),
      session.transaction.working.live? id = some rival → rival.option = new.option →
        rival.value = new.value → obstacle) :
    Achieves obstacle (Program.order (.createValue new)) session := by
  apply achieves_order h
  apply @create_cases session.tick obstacle .value
    (fun id => ⟨id, new.option, new.value, .created session.now⟩) h.tick
  · exact fun _ => rfl
  · exact fun _ => trivial
  · exact fun _ => List.forall_mem_singleton.mpr hoption
  · intro id rival hrival hclash
    obtain ⟨_, hlive, hsame, hvalue⟩ := Tables.clash_value_iff.mp hclash
    exact hobstacle _ rival (Tables.live?_eq_some.mpr ⟨hrival, hlive⟩) hsame.symm hvalue.symm

theorem achieves_newProduct {new : NewProduct} (h : session.Sound)
    (hroot : (session.transaction.working.find? new.root).isSome)
    (hobstacle : ∀ (id : Id .product) (rival : Product),
      session.transaction.working.find? id = some rival → rival.sku = new.sku → obstacle) :
    Achieves obstacle (Program.order (.createProduct new)) session := by
  apply achieves_order h
  apply @create_cases session.tick obstacle .product (productRow new session.now) h.tick
  · exact fun _ => rfl
  · exact fun _ => rfl
  · exact fun _ => List.forall_mem_singleton.mpr hroot
  · exact fun _ rival hrival hclash => hobstacle _ rival hrival (of_decide_eq_true hclash).symm

/-- A bridge from a variant to a value is created, if there is none yet. -/
theorem createBridge_ok {product : Id .product} {value : Id .value} {moment : Moment}
    (h : session.Sound) (hproduct : (session.transaction.working.find? product).isSome)
    (hvalue : (session.transaction.working.find? value).isSome)
    (hfree : ∀ (id : Id .bridge) (bridge : VariantBridge),
      session.transaction.working.find? id = some bridge → bridge.product = product →
        bridge.value ≠ value) :
    ∃ bridge after, (create .bridge (⟨·, product, value, .created moment⟩)).run.run session =
      (.ok bridge, after) ∧ after.Sound := by
  have hnothing : ∀ (id : Id .bridge) (rival : VariantBridge),
      session.transaction.working.find? rival.id = some rival →
        @Tables.clash .bridge ⟨id, product, value, .created moment⟩ rival = true → False := by
    intro id rival hrival hclash
    obtain ⟨_, _, hsame, hrivalValue⟩ := Tables.clash_bridge_iff.mp hclash
    exact hfree _ rival hrival hsame.symm hrivalValue.symm
  rcases @create_cases session False .bridge (⟨·, product, value, .created moment⟩) h
    (fun _ => rfl) (fun _ => trivial)
    (fun _ => List.forall_mem_cons.mpr ⟨hproduct, List.forall_mem_singleton.mpr hvalue⟩) hnothing
    with hcreated | ⟨_, _, _, hfalse⟩
  · exact hcreated
  · exact hfalse.elim

/-- So are bridges to different values. -/
theorem createBridges_ok {product : Id .product} {moment : Moment} (values : List (Id .value))
    (h : session.Sound) (hproduct : (session.transaction.working.find? product).isSome)
    (hvalues : ∀ value ∈ values, (session.transaction.working.find? value).isSome)
    (hdistinct : values.Nodup)
    (hfree : ∀ (id : Id .bridge) (bridge : VariantBridge),
      session.transaction.working.find? id = some bridge → bridge.product = product →
        bridge.value ∉ values) :
    ∃ bridges after, (createBridges product values moment).run.run session =
      (.ok bridges, after) ∧ after.Sound := by
  induction values generalizing session with
  | nil => exact ⟨[], session, rfl, h⟩
  | cons value rest ih =>
      obtain ⟨hvalue, hdistinct⟩ := List.nodup_cons.mp hdistinct
      obtain ⟨hfound, hvalues⟩ := List.forall_mem_cons.mp hvalues
      obtain ⟨bridge, middle, hrun, hmiddle⟩ := @createBridge_ok session product value moment h
        hproduct hfound fun id bridge hbridge hsame heq =>
          hfree id bridge hbridge hsame (heq ▸ List.mem_cons_self)
      obtain ⟨⟨id, rfl⟩, hadds⟩ := adds_of_create (fun _ => rfl) hrun
      have hmore : ∃ bridges after, (createBridges product rest moment).run.run middle =
          (.ok bridges, after) ∧ after.Sound := by
        refine ih hmiddle (hadds.isSome_of_before h.drawn hproduct)
          (fun other hother => hadds.isSome_of_before h.drawn (hvalues other hother)) hdistinct ?_
        intro other bridge hbridge hsame
        rcases hadds.find?_cases hbridge with hnew | hold
        · cases List.mem_singleton.mp hnew
          exact hvalue
        · exact fun hmem => hfree other bridge hold hsame (List.mem_cons_of_mem value hmem)
      obtain ⟨bridges, last, hrest, hlast⟩ := hmore
      rw [createBridges, List.mapM_cons, ← createBridges, run_bind, hrun]
      dsimp only
      rw [run_bind, hrest]
      exact ⟨_, last, rfl, hlast⟩

theorem achieves_newBridges {product : Id .product} {values : List (Id .value)}
    (h : session.Sound) (hproduct : (session.transaction.working.find? product).isSome)
    (hvalues : ∀ value ∈ values, (session.transaction.working.find? value).isSome)
    (hdistinct : values.Nodup)
    (hfree : ∀ (id : Id .bridge) (bridge : VariantBridge),
      session.transaction.working.find? id = some bridge → bridge.product = product →
        bridge.value ∉ values) :
    Achieves obstacle (Program.order (.createBridges product values)) session := by
  obtain ⟨bridges, after, hcreated, hafter⟩ :=
    @createBridges_ok session.tick product session.now values h.tick hproduct hvalues hdistinct
      hfree
  have hrun : (carryOut (.createBridges product values)).run.run session =
      (.ok bridges, after) := by
    rw [carryOut, run_bind, run_readClock]
    exact hcreated
  exact achieves_order h (.inl ⟨bridges, after, hrun, hafter⟩)

end Memory

end VariantCatalog
