/-
# Four kinds of deeds

Whatever an operation is about, if it changes the catalog its transaction is of one of four
kinds: a root was made with all that belongs to it, an option or a value was added below
what is live, a row was archived with all that hangs below it, or one row was written over
and stayed where it was.  `Effect.deed` sorts the operations once and for all, and what is
asked of every operation is from then on asked of the four kinds.
-/

import VariantCatalog.Proofs.Operation.Upkeep

namespace VariantCatalog

open Memory

namespace Operation

/-- What a transaction has done to the tables that it began on. -/
inductive Deed (origin : Tables) (tx : Transaction) : Prop where
  /-- A root was made with its options and variants. -/
  | grow {creation : Creation} {growth : Growth} (expands : creation.Expands growth)
    (inserts : Inserts origin growth.rows tx)
  /-- Options and values were added below each other, or below what is live. -/
  | add {rows : List AnyRow} (kinds : ∀ any ∈ rows, any.kind = .option ∨ any.kind = .value)
    (rooted : AreRooted rows)
    (stems : ∀ {kind : EntityKind} {row : kind.Row}, (⟨kind, row⟩ : AnyRow) ∈ rows →
      ∀ stem ∈ Row.stems row, stem ∈ rows.map AnyRow.key ∨ (origin.live? stem.id).isSome)
    (inserts : Inserts origin rows tx)
  /-- Rows were archived with all that hangs below them. -/
  | retire {rows : List AnyRow} (encloses : origin.Coherent → origin.Encloses rows)
    (uproots : origin.Uproots rows) (retires : Retires origin rows tx)
  /-- A row was written over. -/
  | revise {kind : EntityKind} {old new : kind.Row} (revises : Revises origin kind old new tx)
    (notBridge : kind ≠ .bridge) (id : Row.id new = Row.id old) (live : Row.isLive new)

variable {origin : Tables} {tx : Transaction}

/-- Every operation that changes the catalog does one of these. -/
theorem Effect.deed {operation : Operation} {result : operation.Result}
    (h : Effect operation origin result tx) (hwrites : operation.isRead = false) :
    Deed origin tx := by
  cases operation with
  | commit creation =>
      obtain ⟨growth, _, hexpands, hinserts⟩ := h
      exact .grow hexpands hinserts
  | addOption root spec =>
      obtain ⟨⟨row, hlive⟩, hdescribes, hinserts⟩ := h
      refine .add ?_ hdescribes.areRooted_rows (fun hrow stem hstem => ?_) hinserts
      · intro any hany
        rcases List.mem_cons.mp hany with rfl | hvalue
        · exact .inl rfl
        · obtain ⟨value, _, rfl⟩ := List.mem_map.mp hvalue
          exact .inr rfl
      · rcases hdescribes.stems hrow hstem with rfl | hmem
        · exact .inr (Option.isSome_of_eq_some hlive)
        · exact .inl hmem
  | addValue option text =>
      obtain ⟨⟨row, hlive⟩, hlists, hinserts⟩ := h
      refine .add ?_ hlists.areRooted (fun hrow stem hstem => ?_) hinserts
      · intro any hany
        rw [List.mem_singleton.mp hany]
        exact .inr rfl
      · cases List.mem_singleton.mp hrow
        rw [List.mem_singleton.mp hstem, hlists.parent]
        exact .inr (Option.isSome_of_eq_some hlive)
  | archiveRoot id =>
      obtain ⟨row, _, hretires⟩ := h
      exact .retire (Tables.encloses_cascadeOfRoot · row) (Tables.uproots_cascadeOfRoot row) hretires
  | archiveVariant id =>
      obtain ⟨row, _, hretires⟩ := h
      exact .retire (fun _ => Tables.encloses_cascadeOfVariant row)
        (Tables.uproots_cascadeOfVariant row) hretires
  | archiveOption id =>
      obtain ⟨row, _, hretires⟩ := h
      exact .retire (fun _ => Tables.encloses_cascadeOfOption row)
        (Tables.uproots_cascadeOfOption row) hretires
  | archiveValue id =>
      obtain ⟨row, _, hretires⟩ := h
      exact .retire (fun _ => Tables.encloses_cascadeOfValue row)
        (Tables.uproots_cascadeOfValue row) hretires
  | updateProduct id patch =>
      obtain ⟨row, moment, _, hrevises, _⟩ := h
      exact .revise hrevises nofun rfl (Tables.live?_eq_some.mp hrevises.live).2
  | renameOption id name =>
      obtain ⟨row, moment, _, hrevises, _⟩ := h
      exact .revise hrevises nofun rfl (Tables.live?_eq_some.mp hrevises.live).2
  | updateValue id value =>
      obtain ⟨row, moment, _, hrevises, _⟩ := h
      exact .revise hrevises nofun rfl (Tables.live?_eq_some.mp hrevises.live).2
  | rootGraph id => cases hwrites
  | productBySku sku => cases hwrites
  | skuExists sku => cases hwrites

namespace Deed

/-- What is created is rooted, and coherent tables are left coherent. -/
theorem upkeep (h : Deed origin tx) (hdeparts : Departs origin tx) (hcoherent : origin.Coherent) :
    tx.working.Coherent ∧ tx.Rooted := by
  cases h with
  | grow hexpands hinserts =>
      have hrooted := hexpands.areRooted_rows
      exact ⟨hinserts.coherent hdeparts hcoherent hrooted, hinserts.rooted hrooted⟩
  | add _ hrooted _ hinserts =>
      exact ⟨hinserts.coherent hdeparts hcoherent hrooted, hinserts.rooted hrooted⟩
  | retire hencloses _ hretires =>
      exact ⟨hretires.coherent hdeparts hcoherent (hencloses hcoherent), hretires.settled.rooted⟩
  | revise hrevises hkind _ hlive =>
      exact ⟨hrevises.coherent hdeparts hcoherent hkind hlive, (hrevises.settled hkind).rooted⟩

/-- What is created is live, and attached tables are left attached. -/
theorem attaches (h : Deed origin tx) (hdeparts : Departs origin tx)
    (hattached : origin.Attached) : tx.Attaches := by
  cases h with
  | grow hexpands hinserts =>
      exact hinserts.attaches hdeparts hattached hexpands.areRooted_rows.live
        fun hrow stem hstem => .inl (hexpands.stems hrow hstem)
  | add _ hrooted hstems hinserts =>
      exact hinserts.attaches hdeparts hattached hrooted.live hstems
  | retire _ huproots hretires => exact hretires.attaches hattached huproots
  | revise hrevises hkind _ hlive =>
      exact (hrevises.settled hkind).attaches hdeparts hattached (hrevises.isSome_live? hlive)

/-- Where a bridge is left live, so is the option of its value. -/
theorem live?_option (h : Deed origin tx) (hdeparts : Departs origin tx)
    (hcoherent : origin.Coherent) {id : Id .bridge} {bridge : VariantBridge} {value : OptionValue}
    (hbridge : origin.live? id = some bridge) (hvalue : origin.live? bridge.value = some value)
    (hoption : (origin.live? value.option).isSome) (hkept : (tx.working.live? id).isSome) :
    (tx.working.live? value.option).isSome := by
  obtain ⟨option, hlive⟩ := Option.isSome_iff_exists.mp hoption
  obtain ⟨hfound, hisLive⟩ := Tables.live?_eq_some.mp hlive
  cases h with
  | grow _ hinserts => exact Tables.isSome_live? (hinserts.find?_of_origin hdeparts hfound) hisLive
  | add _ _ _ hinserts =>
      exact Tables.isSome_live? (hinserts.find?_of_origin hdeparts hfound) hisLive
  | revise hrevises _ _ hnew => exact hrevises.isSome_live? hnew hoption
  | @retire rows hencloses huproots hretires =>
      apply Option.isSome_of_eq_some
      refine hretires.live?_eq_some.mpr ⟨hlive, fun hmem => ?_⟩
      obtain rfl := Tables.id_of_find? (Tables.live?_eq_some.mp hbridge).1
      -- An option goes with its values, and a value with the bridges to it.
      have hid := Tables.id_of_find? (Tables.live?_eq_some.mp hvalue).1
      rw [← hid] at hvalue
      have hvalueMem := huproots.mem_of_stem hvalue List.mem_cons_self hmem
      have hkeeper : (⟨.value, bridge.value⟩ : RowKey) ∈ rows.map AnyRow.key :=
        List.mem_map.mpr ⟨_, hvalueMem, congrArg (RowKey.mk .value) hid⟩
      have hbridgeMem := (hencloses hcoherent).mem_of_keeper hbridge
        (List.mem_cons_of_mem _ List.mem_cons_self) hkeeper
      obtain ⟨mine, hmine⟩ := Option.isSome_iff_exists.mp hkept
      exact (hretires.live?_eq_some.mp hmine).2 (List.mem_map.mpr ⟨_, hbridgeMem, rfl⟩)

end Deed

end Operation

end VariantCatalog
