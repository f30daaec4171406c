/-
# What an operation leaves in its transaction

`Effect` says, for each operation, what its transaction is at the end of its body,
from nothing but the request and the tables that the transaction began on: rows
that were created in a known order, a cascade of rows that were archived, or one
row that was written over.  No operation does two of these.

The effect does not depend on what others do meanwhile, and an operation in any
interleaving that comes to the end of its body has it (`System.keeps_run`).
-/

import VariantCatalog.Proofs.Interleaving.Integrity
import VariantCatalog.Proofs.Interleaving.Service
import VariantCatalog.Proofs.Operation.Creation
import VariantCatalog.Proofs.Operation.Editing

namespace VariantCatalog

open Memory

namespace Operation

open Program

/-- What the transaction of an operation is at the end of its body. -/
def Effect : Account
  | commit creation, origin, graph, tx => ∃ growth : Growth, growth.graph = graph ∧
      creation.Expands growth ∧ Inserts origin growth.rows tx
  | addOption root spec, origin, option, tx => (∃ row, origin.live? root = some row) ∧
      spec.Describes root option ∧ Inserts origin option.rows tx
  | addValue option text, origin, value, tx => (∃ row, origin.live? option = some row) ∧
      OptionSpec.Lists option text value ∧ Inserts origin [⟨.value, value⟩] tx
  | archiveRoot id, origin, _, tx => ∃ row, origin.live? id = some row ∧
      Retires origin (origin.cascadeOfRoot row) tx
  | archiveVariant id, origin, _, tx => ∃ row, origin.live? id = some row ∧
      Retires origin (origin.cascadeOfVariant row) tx
  | archiveOption id, origin, _, tx => ∃ row, origin.live? id = some row ∧
      Retires origin (origin.cascadeOfOption row) tx
  | archiveValue id, origin, _, tx => ∃ row, origin.live? id = some row ∧
      Retires origin (origin.cascadeOfValue row) tx
  | updateProduct id patch, origin, result, tx => Patches origin id patch result tx
  | renameOption id name, origin, result, tx => Renames origin id name result tx
  | updateValue id value, origin, result, tx => Rewords origin id value result tx
  | rootGraph _, _, _, _ => True
  | productBySku _, _, _, _ => True
  | skuExists _, _, _, _ => True

variable {origin : Tables} {session : Session}

/-- An operation that asks first whether its target is live goes on with the row that
was found. -/
theorem secures_whenLive {α : Type} {kind : EntityKind} {id : Id kind} {error : CatalogError}
    {program : Program α} {ok : α → Session → Prop}
    (h : session.transaction = ⟨origin, []⟩)
    (hprogram : ∀ row after, origin.live? id = some row → after.transaction = ⟨origin, []⟩ →
      Secures ok program after) :
    Secures ok (ask (.isLive id) >>= fun live => require live error >>= fun _ => program)
      session := by
  apply ensures_bind.mpr
  intro live middle hanswers
  obtain ⟨hlive, htx⟩ := answers_query hanswers
  rw [h] at hlive htx
  apply ensures_bind.mpr
  apply ensures_require.mpr
  split
  · next hisLive =>
    rw [hlive] at hisLive
    obtain ⟨row, hrow⟩ := Option.isSome_iff_exists.mp hisLive
    exact hprogram row middle hrow htx
  · trivial

/-- Every body that sets out from tables that keep all constraints has its effect, whatever
others do meanwhile. -/
theorem secures_effect (hintact : origin.Intact) (operation : Operation)
    (h : session.transaction = ⟨origin, []⟩) :
    Secures (fun result after => Effect operation origin result after.transaction)
      operation.body session := by
  cases operation with
  | commit creation =>
      apply (makes_createGraph creation session).mono
      rintro graph after ⟨growth, hgraph, hexpands, hadds⟩
      exact ⟨growth, hgraph, hexpands, hadds.inserts h⟩
  | addOption root spec =>
      apply secures_whenLive h
      intro row middle hrow hmiddle
      apply (makes_createOption root spec middle).mono
      rintro option after ⟨made, rfl, hdescribes, hadds⟩
      exact ⟨⟨row, hrow⟩, hdescribes, hadds.inserts hmiddle⟩
  | addValue option value =>
      apply secures_whenLive h
      intro row middle hrow hmiddle
      apply (makes_createValue option value middle).mono
      rintro result after ⟨made, rfl, hlists, hadds⟩
      exact ⟨⟨row, hrow⟩, hlists, hadds.inserts hmiddle⟩
  | archiveRoot id => exact (withstands_retireRoot id h).secures
  | archiveVariant id => exact (withstands_retireVariant id h).secures
  | archiveOption id => exact (withstands_retireOption id h).secures
  | archiveValue id => exact (withstands_retireValue id h).secures
  | updateProduct id patch => exact (withstands_reviseProduct id patch h).secures
  | renameOption id name => exact (withstands_reviseOption hintact id name h).secures
  | updateValue id value => exact (withstands_reviseValue hintact id value h).secures
  | rootGraph id => exact Ensures.of_forall (fun _ _ => trivial) fun _ => trivial
  | productBySku sku => exact Ensures.of_forall (fun _ _ => trivial) fun _ => trivial
  | skuExists sku => exact Ensures.of_forall (fun _ _ => trivial) fun _ => trivial

end Operation

/-- In any interleaving, an operation that has come to the end of its body has its
effect. -/
theorem Memory.System.keeps_run (moves : List Move) : (run moves).Keeps Operation.Effect :=
  keeps_of_secures (fun done _ operation _ =>
    Operation.secures_effect (sound_run done).intact operation rfl) moves

end VariantCatalog
