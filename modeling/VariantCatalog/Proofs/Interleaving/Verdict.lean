/-
# Verdicts in the course of a catalog

Whatever has been done to a catalog, the next operation on a row that nobody disturbs comes
to what its verdict tells: the constraints that every interleaving keeps leave it no other
way to fail.  What is still under way when it begins makes no difference either, since
nothing of that has been committed.
-/

import VariantCatalog.Proofs.Interleaving.Acceptance
import VariantCatalog.Proofs.Interleaving.Archival
import VariantCatalog.Proofs.Operation.Verdict

namespace VariantCatalog.Memory

open Operation

/-- Between the moves of others, an operation that is carried out in one go comes to what
its verdict tells. -/
theorem System.perform_run_verdict (moves : List Move) (limit : Option Nat)
    {operation : Operation} {subject : RowKey} (hsubject : operation.subject? = some subject)
    (hcalm : (run moves).memory.registers.fault = none) :
    Verdict.of? (store.perform limit operation (run moves).memory).1 =
      some (operation.verdict (run moves).memory.committed.tables) :=
  perform_verdict limit (sound_begin moves hcalm) hsubject

/-- **When operations are carried out one after the other, each that is about a row comes to
what its verdict tells.** It is rejected if it is malformed, its subject is missed if it is
not live, it is refused if a live row has the name or the text that it gives, and it is
granted otherwise. -/
theorem sequel_verdict (errands : List Errand) (limit : Option Nat) (operation : Operation)
    (subject : RowKey) (hsubject : operation.subject? = some subject)
    (hcalm : (sequel errands).registers.fault = none) :
    Verdict.of? (store.perform limit operation (sequel errands)).1 =
      some (operation.verdict (sequel errands).committed.tables) := by
  obtain ⟨moves, _, hmemory⟩ := System.exists_moves errands
  rw [← hmemory] at hcalm ⊢
  exact System.perform_run_verdict moves limit hsubject hcalm

/-- The shirt that has lost its smaller size can have it again, but not a second larger one.
Its option has a name, and cannot be given a blank one; a hat is not there. -/
theorem sequel_verdict_shirt :
    let outcome operation := Verdict.of? (store.perform none operation (sequel trimmedShirt)).1
    outcome (.addValue ⟨1⟩ "S") = some .granted ∧
      outcome (.addValue ⟨1⟩ "M") = some .taken ∧
      outcome (.updateValue ⟨2⟩ "S") = some .granted ∧
      outcome (.updateValue ⟨1⟩ "L") = some .absent ∧
      outcome (.addOption ⟨1⟩ ⟨"Size", ["S"]⟩) = some .taken ∧
      outcome (.addOption ⟨1⟩ ⟨"Color", ["red", "red"]⟩) = some .taken ∧
      outcome (.renameOption ⟨1⟩ " ") = some .malformed ∧
      outcome (.archiveRoot ⟨2⟩) = some .absent := by
  have hverdict := fun (operation : Operation) (subject : RowKey)
      (hsubject : operation.subject? = some subject) =>
    sequel_verdict trimmedShirt none operation subject hsubject (by decide +kernel)
  refine ⟨(hverdict _ _ rfl).trans ?_, (hverdict _ _ rfl).trans ?_, (hverdict _ _ rfl).trans ?_,
    (hverdict _ _ rfl).trans ?_, (hverdict _ _ rfl).trans ?_, (hverdict _ _ rfl).trans ?_,
    (hverdict _ _ rfl).trans ?_, (hverdict _ _ rfl).trans ?_⟩
  all_goals decide +kernel

end VariantCatalog.Memory
