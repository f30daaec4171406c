/-
# Where a variant comes from

Every row that is committed was made by an operation, at its commit (`exists_making`).  Of
the four kinds of deeds only one makes variants, so every variant was made by a creation,
together with its root, the options of the root and the values that the variant is made of
(`exists_birth`).  This is a fact about the course of a catalog and not about a state of it:
tables do not tell whether a value is as old as its option or was added later.

Much follows from it, since whoever has one row of a creation in his snapshot has them all.
No bridge is ever added to a variant, and an archive that takes an option away from a
variant has seen the bridge between them.
-/

import VariantCatalog.Proofs.Interleaving.Retrieval

namespace VariantCatalog.Memory.System

open Operation

variable {moves : List Move}

/-- A step of an operation commits nothing, or it merges what one of the four deeds has made
of what was committed before. -/
theorem committed_move_cases (hservice : ∀ move ∈ moves, move.isService) {last : Move}
    (hlast : last.isService) :
    (run (moves ++ [last])).memory.committed = (run moves).memory.committed ∨
      ∃ earlier tx, earlier <+: moves ∧
        Deed (run earlier).memory.committed.tables tx ∧
        Meets (run earlier).memory.committed.tables (run moves).memory.committed tx
          (run (moves ++ [last])).memory.committed := by
  have hcoherent := coherent_of_initial hservice (List.prefix_refl moves)
  rw [run_append]
  rcases (run moves).committed_service_cases hlast with
    hsame | ⟨name, origin, operation, tx, result, committed, rfl, hclient, hmerge, hafter⟩
  · exact .inl hsame
  · obtain ⟨earlier, hearlier, horigin⟩ := origin_run hclient
    dsimp only at horigin
    subst horigin
    obtain ⟨hwrites, heffect⟩ := keeps_run moves hclient
    rw [hafter]
    exact .inr ⟨earlier, tx, hearlier, heffect.deed hwrites, (hcoherent.meets hclient hmerge).1⟩

/-- Of what was committed something has become, and it hangs where it hung. -/
theorem foreruns_of_initial (hservice : ∀ move ∈ moves, move.isService) {earlier : List Move}
    (hearlier : earlier <+: moves) :
    (run earlier).memory.committed.tables.Becomes (run moves).memory.committed.tables ∧
      (run earlier).memory.committed.tables.Foreruns (run moves).memory.committed.tables := by
  induction moves using List.reverseRecOn with
  | nil =>
      rw [List.prefix_nil.mp hearlier]
      exact ⟨Tables.becomes_refl _, Tables.foreruns_refl _⟩
  | append_singleton moves last ih =>
      obtain ⟨hservice, hlast⟩ := List.forall_mem_append.mp hservice
      rcases List.prefix_concat_iff.mp hearlier with rfl | hearlier
      · exact ⟨Tables.becomes_refl _, Tables.foreruns_refl _⟩
      obtain ⟨hbecomes, hforeruns⟩ := ih hservice hearlier
      rcases committed_move_cases hservice (hlast last List.mem_cons_self) with
        hsame | ⟨_, tx, _, _, hmeets⟩
      · rw [hsame]
        exact ⟨hbecomes, hforeruns⟩
      · exact ⟨hbecomes.trans hmeets.becomes_after,
          hforeruns.trans hbecomes hmeets.foreruns_after hmeets.becomes_after⟩

/-! ## Who makes a row -/

/-- A client commits a row that its operation has created. -/
structure Making (done : List Move) (name : Nat) (origin : Tables) (operation : Operation)
    (result : operation.Result) (tx : Transaction) {kind : EntityKind} (born : kind.Row) :
    Prop where
  client : (run done).client name = some ⟨origin, .serving operation (.committing tx result)⟩
  meets : Meets origin (run done).memory.committed tx
    (run (done ++ [.advance name])).memory.committed
  created : (⟨kind, Row.id born, .created⟩ : Entry) ∈ tx.journal
  found : tx.working.find? (Row.id born) = some born

/-- Every row was made by an operation, and what is committed is what has become of it. -/
theorem exists_making (hservice : ∀ move ∈ moves, move.isService) {kind : EntityKind}
    {id : Id kind} {row : kind.Row} (h : (run moves).memory.committed.tables.find? id = some row) :
    ∃ done name origin operation result tx, ∃ born : kind.Row,
      done ++ [.advance name] <+: moves ∧ Making done name origin operation result tx born ∧
        Row.Succeeds born row := by
  -- The last move has made the row, or it has found it there.
  induction moves using List.reverseRecOn generalizing row with
  | nil =>
      have hempty : Tables.empty.find? id = some row := h
      rw [Tables.find?_empty] at hempty
      cases hempty
  | append_singleton moves last ih =>
      obtain ⟨hservice, hlast⟩ := List.forall_mem_append.mp hservice
      have hcoherent := coherent_of_initial hservice (List.prefix_refl moves)
      have hearlier {old : kind.Row}
          (hold : (run moves).memory.committed.tables.find? id = some old)
          (hlater : Row.Succeeds old row) :
          ∃ done name origin operation result tx, ∃ born : kind.Row,
            done ++ [.advance name] <+: moves ++ [last] ∧
              Making done name origin operation result tx born ∧ Row.Succeeds born row := by
        obtain ⟨done, name, origin, operation, result, tx, born, hdone, hmaking, hsucceeds⟩ :=
          ih hservice hold
        exact ⟨done, name, origin, operation, result, tx, born,
          hdone.trans (List.prefix_append moves [last]), hmaking, hsucceeds.trans hlater⟩
      have hcases := (run moves).committed_service_cases (hlast last List.mem_cons_self)
      rw [← run_append] at hcases
      rcases hcases with
        hsame | ⟨name, origin, operation, tx, result, committed, rfl, hclient, hmerge, rfl⟩
      · rw [hsame] at h
        exact hearlier h (Row.Succeeds.refl row)
      obtain ⟨hmeets, _⟩ := hcoherent.meets hclient hmerge
      cases hold : (run moves).memory.committed.tables.find? id with
      | some old => exact hearlier hold (hmeets.becomes_after.succeeds hold h)
      | none =>
          obtain ⟨hcreated, hfound⟩ := hmeets.find?_of_new hold h
          obtain rfl := Tables.id_of_find? hfound
          exact ⟨moves, name, origin, operation, result, tx, row, List.prefix_refl _,
            ⟨hclient, hmeets, hcreated, hfound⟩, Row.Succeeds.refl row⟩

/-! ## Births -/

/-- A move has committed what a creation has made. -/
structure Birth (done : List Move) (move : Move) (growth : Growth) : Prop where
  expands : ∃ creation : Creation, creation.Expands growth
  gains : (run done).memory.committed.Gains growth.rows (run (done ++ [move])).memory.committed

/-- Every variant was made by a creation. -/
theorem exists_birth (hservice : ∀ move ∈ moves, move.isService) {id : Id .product}
    {product : Product} (h : (run moves).memory.committed.tables.find? id = some product) :
    ∃ done move growth, done ++ [move] <+: moves ∧ Birth done move growth ∧
      ∃ variant ∈ growth.variants, variant.product.id = id := by
  obtain ⟨done, name, origin, operation, result, tx, born, hdone, hmaking, hsucceeds⟩ :=
    exists_making hservice h
  obtain rfl := Tables.id_of_find? h
  obtain ⟨hwrites, heffect⟩ := keeps_run done hmaking.client
  have hmeets := hmaking.meets
  have hcreated := hmaking.created
  cases heffect.deed hwrites with
  | @grow creation growth hexpands hinserts =>
      obtain ⟨row, hrow, hid⟩ := AnyRow.exists_of_mem_keys (hinserts.mem_journal.mp hcreated).2
      obtain ⟨variant, hvariant, rfl⟩ := Growth.product_mem_rows.mp hrow
      exact ⟨done, .advance name, growth, hdone,
        ⟨⟨creation, hexpands⟩, hinserts.gains_merge hmeets.fresh hmeets.merged⟩,
        variant, hvariant, hid.trans hsucceeds.id.symm⟩
  | add hkinds _ _ hinserts =>
      obtain ⟨row, hrow, _⟩ := AnyRow.exists_of_mem_keys (hinserts.mem_journal.mp hcreated).2
      rcases hkinds _ hrow with hkind | hkind
      · cases hkind
      · cases hkind
  | retire _ _ hretires => exact absurd hcreated hretires.settled.created
  | revise hrevises hkind _ _ => exact absurd hcreated (hrevises.settled hkind).created

namespace Birth

variable {done : List Move} {move : Move} {growth : Growth} (h : Birth done move growth)
  (hservice : ∀ move ∈ moves, move.isService)

include h

/-- What was made is there right afterwards. -/
theorem find?_of_mem {kind : EntityKind} {row : kind.Row}
    (hrow : (⟨kind, row⟩ : AnyRow) ∈ growth.rows) :
    (run (done ++ [move])).memory.committed.tables.find? (Row.id row) = some row :=
  h.gains.find?_of_mem hrow

include hservice

/-- Who has one row of a creation in his snapshot came after the creation. -/
theorem prefix_of_find? (hbirth : done ++ [move] <+: moves) {earlier : List Move}
    (hearlier : earlier <+: moves) {any : AnyRow} (hany : any ∈ growth.rows)
    (hsome : ((run earlier).memory.committed.tables.find? (Row.id any.row)).isSome) :
    done ++ [move] <+: earlier := by
  rcases List.prefix_or_prefix_of_prefix hbirth hearlier with hbefore | hafter
  · exact hbefore
  rcases List.prefix_concat_iff.mp hafter with rfl | hafter
  · exact List.prefix_refl _
  have hdone : ∀ move ∈ done, move.isService :=
    fun move hmem => hservice move (hbirth.subset (List.mem_append_left _ hmem))
  have hthere := (foreruns_of_initial hdone hafter).1.isSome hsome
  rw [h.gains.absent any hany] at hthere
  cases hthere

/-- What has become of a row that was made hangs where it hung. -/
theorem exists_find? (hbirth : done ++ [move] <+: moves) {kind : EntityKind} {row : kind.Row}
    (hrow : (⟨kind, row⟩ : AnyRow) ∈ growth.rows) :
    ∃ later, (run moves).memory.committed.tables.find? (Row.id row) = some later ∧
      Row.Succeeds row later ∧ Row.SameLinks row later := by
  obtain ⟨hbecomes, hforeruns⟩ := foreruns_of_initial hservice hbirth
  obtain ⟨later, hlater, hsucceeds⟩ := hbecomes (h.find?_of_mem hrow)
  exact ⟨later, hlater, hsucceeds, hforeruns.linked (h.find?_of_mem hrow) hlater⟩

/-- A bridge of a variant was made with the variant. -/
theorem exists_bridge (hbirth : done ++ [move] <+: moves) {variant : Variant}
    (hvariant : variant ∈ growth.variants) {id : Id .bridge} {bridge : VariantBridge}
    (hbridge : (run moves).memory.committed.tables.find? id = some bridge)
    (hproduct : bridge.product = variant.product.id) :
    ∃ born ∈ variant.bridges, born.id = id ∧ @Row.SameLinks .bridge born bridge := by
  obtain ⟨creation, hexpands⟩ := h.expands
  obtain ⟨_, hforeruns⟩ := foreruns_of_initial hservice hbirth
  have hrow := Growth.product_mem_rows.mpr ⟨variant, hvariant, rfl⟩
  have hfound := h.find?_of_mem hrow
  have hkeeper : ((run (done ++ [move])).memory.committed.tables.find? bridge.product).isSome := by
    rw [hproduct]
    exact Option.isSome_of_eq_some hfound
  obtain ⟨born, hborn⟩ := Option.isSome_iff_exists.mp
    (hforeruns.complete hbridge ⟨.product, bridge.product⟩ List.mem_cons_self hkeeper)
  have hlinks : Row.SameLinks born bridge := hforeruns.linked hborn hbridge
  obtain rfl := Tables.id_of_find? hborn
  have hparent : born.product = variant.product.id := (Eq.symm hlinks.1).trans hproduct
  have hkey : (⟨.product, born.product⟩ : RowKey) ∈ growth.rows.map AnyRow.key := by
    rw [hparent]
    exact List.mem_map.mpr ⟨_, hrow, rfl⟩
  have hmem := h.gains.mem_of_parent (sound_run done).intact hborn List.mem_cons_self hkey
  exact ⟨born, hexpands.mem_bridges h.gains hvariant hmem hparent, rfl, hlinks⟩

section Values

variable {bridge : VariantBridge} {option : ProductOption} {value : OptionValue}
  (hbridge : (⟨.bridge, bridge⟩ : AnyRow) ∈ growth.rows) (hoption : option ∈ growth.options)
  (hvalue : value ∈ option.values) (hjoins : bridge.value = value.id)

include hbridge hoption hvalue hjoins

/-- A merge that leaves a bridge to a value live leaves the option of the value live: who has
seen the option has seen the bridge and the value as well. -/
theorem live?_option_of_meets (hbirth : done ++ [move] <+: moves) {earlier : List Move}
    {tx : Transaction} {after : Committed} (hearlier : earlier <+: moves)
    (hdeed : Deed (run earlier).memory.committed.tables tx)
    (hmeets : Meets (run earlier).memory.committed.tables (run moves).memory.committed tx after)
    (hbefore : ((run moves).memory.committed.tables.live? option.id).isSome)
    (hlive : (after.tables.live? bridge.id).isSome) : (after.tables.live? option.id).isSome := by
  apply hmeets.live?_after hbefore
  intro horigin
  obtain ⟨creation, hexpands⟩ := h.expands
  obtain ⟨spec, hdescribes⟩ := hexpands.option hoption
  have hoptionRow := Growth.option_mem_rows.mpr ⟨option, hoption, rfl⟩
  have hvalueRow := Growth.value_mem_rows.mpr ⟨option, hoption, hvalue⟩
  have hborn := h.prefix_of_find? hservice hbirth hearlier hoptionRow horigin
  have hservice : ∀ move ∈ earlier, move.isService :=
    fun move hmem => hservice move (hearlier.subset hmem)
  have hcoherent := (coherent_of_initial hservice (List.prefix_refl _)).committed
  obtain ⟨first, hfirst, _, _, hfirstValue⟩ := h.exists_find? hservice hborn hbridge
  obtain ⟨kept, hkept, hsucceeds, _⟩ := h.exists_find? hservice hborn hvalueRow
  obtain ⟨chosen, hchosen⟩ := Option.isSome_iff_exists.mp horigin
  have hfirstLive := (hmeets.becomes.trans hmeets.becomes_after).live?_eq_some hfirst hlive
  have hchosenLive := hmeets.becomes.live?_eq_some hchosen hbefore
  have hvalueId : first.value = Row.id value := Eq.trans hfirstValue hjoins
  have hkeptLive := Tables.live?_of_find? (hvalueId ▸ hkept) (hcoherent.live hfirstLive
    ⟨.value, first.value⟩ (List.mem_cons_of_mem _ List.mem_cons_self))
  have hparent : kept.option = option.id := Eq.trans hsucceeds.anchor (hdescribes.value hvalue).1
  have hmine := hdeed.live?_option hmeets.departs hcoherent hfirstLive hkeptLive
  rw [hparent] at hmine
  apply hmine (Option.isSome_of_eq_some hchosenLive)
  obtain ⟨later, hlater⟩ := Option.isSome_iff_exists.mp hlive
  exact Option.isSome_iff_exists.mpr (hmeets.live?_working (Option.isSome_of_eq_some hfirst) hlater)

/-- So a variant is joined to a value only as long as the option of the value is live. -/
theorem live?_option (hbirth : done ++ [move] <+: moves)
    (hlive : ((run moves).memory.committed.tables.live? bridge.id).isSome) :
    ((run moves).memory.committed.tables.live? option.id).isSome := by
  -- The induction is on what has happened since the creation.
  obtain ⟨more, rfl⟩ := hbirth
  induction more using List.reverseRecOn with
  | nil =>
      obtain ⟨creation, hexpands⟩ := h.expands
      obtain ⟨spec, hdescribes⟩ := hexpands.option hoption
      have hfound := h.find?_of_mem (Growth.option_mem_rows.mpr ⟨option, hoption, rfl⟩)
      rw [List.append_nil]
      exact Tables.isSome_live? hfound hdescribes.live
  | append_singleton more last ih =>
      rw [← List.append_assoc] at hservice hlive ⊢
      obtain ⟨hservice, hlast⟩ := List.forall_mem_append.mp hservice
      have hbirth := List.prefix_append (done ++ [move]) more
      rcases committed_move_cases hservice (hlast last List.mem_cons_self) with
        hsame | ⟨earlier, tx, hearlier, hdeed, hmeets⟩
      · rw [hsame] at hlive ⊢
        exact ih hservice hlive
      · obtain ⟨before, hbefore, _⟩ := h.exists_find? hservice hbirth hbridge
        have hstillLive := hmeets.becomes_after.live?_eq_some hbefore hlive
        exact h.live?_option_of_meets hservice hbridge hoption hvalue hjoins hbirth hearlier hdeed
          hmeets (ih hservice (Option.isSome_of_eq_some hstillLive)) hlive

end Values

end Birth

end VariantCatalog.Memory.System
