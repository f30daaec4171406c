/-
# When a creation succeeds

Whatever has happened to a catalog before, a creation that is well-formed and that nobody
disturbs succeeds just if the names that it gives are free, and is refused with a conflict
otherwise.  There is no third way: no reference can be broken, since all that it refers
to it has created itself, and nothing can be missing, since it asks for no row that was
there before.
-/

import VariantCatalog.Proofs.Interleaving.Growth
import VariantCatalog.Proofs.Interleaving.Integrity
import VariantCatalog.Proofs.Operation.Availability
import VariantCatalog.Proofs.Operation.Performance
import VariantCatalog.Proofs.Operation.Refusal

namespace VariantCatalog.Memory

open Operation

/-- A creation on sound tables succeeds with free names, or is in conflict. -/
theorem perform_commit_cases {memory : Memory} {limit : Option Nat} {creation : Creation}
    (h : Session.Sound ⟨memory.registers, memory.begin⟩)
    (hvalid : creation.validate limit = .ok ()) :
    (∃ graph, (store.perform limit (.commit creation) memory).1 = .ok graph ∧
        creation.Unclaimed memory.committed.tables) ∨
      ∃ detail, (store.perform limit (.commit creation) memory).1 = .error (.conflict detail) ∧
        ¬ creation.Unclaimed memory.committed.tables := by
  have hachieves := achieves_createGraph h (values_ne_nil_of_validate hvalid)
  rcases @perform_cases _ limit (.commit creation) _ _ h rfl hvalid hachieves with
    ⟨graph, last, hok, hintact, hdeparts, ⟨growth, _, hexpands, hinserts⟩, _⟩ |
      ⟨error, herror, hbad⟩
  · exact .inl ⟨graph, hok, hexpands.unclaimed hinserts hdeparts hintact⟩
  · cases error with
    | conflict detail => exact .inr ⟨detail, herror, hbad.2⟩
    | _ => cases hbad.1

namespace System

/-- Where no fault is armed, every transaction begins as a sound session. -/
theorem sound_begin (moves : List Move) (hcalm : (run moves).memory.registers.fault = none) :
    Session.Sound ⟨(run moves).memory.registers, (run moves).memory.begin⟩ :=
  ⟨(sound_run moves).intact, (orderly_run moves).drawn, hcalm⟩

/-- **A creation succeeds just if its names are free.** Whatever was done before, a
creation that is well-formed and that neither a fault nor anybody else comes between
succeeds when all names that it gives are free, and is refused with a conflict when one
is not. -/
theorem commit_succeeds_iff (moves : List Move) (limit : Option Nat) (creation : Creation)
    (hcalm : (run moves).memory.registers.fault = none)
    (hvalid : creation.validate limit = .ok ()) :
    ((∃ graph, (store.perform limit (.commit creation) (run moves).memory).1 = .ok graph) ↔
        creation.Unclaimed (run moves).memory.committed.tables) ∧
      (¬ creation.Unclaimed (run moves).memory.committed.tables →
        ∃ detail, (store.perform limit (.commit creation) (run moves).memory).1 =
          .error (.conflict detail)) := by
  rcases perform_commit_cases (sound_begin moves hcalm) hvalid with
    ⟨graph, hok, hfree⟩ | ⟨detail, herror, hnot⟩
  · exact ⟨⟨fun _ => hfree, fun _ => ⟨graph, hok⟩⟩, fun hnot => absurd hfree hnot⟩
  · refine ⟨⟨fun ⟨graph, hok⟩ => ?_, fun hfree => absurd hfree hnot⟩, fun _ => ⟨detail, herror⟩⟩
    rw [herror] at hok
    cases hok

/-- A product without options that has the SKU of the small shirt. -/
def smallShirt : Creation := .ofDraft { shirt.product with sku := "shirt_s" }

/-- A shirt in two sizes that differ in their case only. -/
def twinShirt : Creation := (Creation.ofDraft shirt.product).withOption "Size" ["S", "s"]

/-- The shirt can be created beside the hat. Once it is there, its small size is in the way of
a product that has the same SKU, and a shirt whose SKUs are all the same can be created
nowhere. -/
theorem commit_succeeds_iff_shirt :
    (∃ graph, (store.perform none (.commit shirt) (run shirtMoves).memory).1 = .ok graph) ∧
      (∃ detail, (store.perform none (.commit smallShirt)
        (run (shirtMoves ++ [.advance 0])).memory).1 = .error (.conflict detail)) ∧
      ∃ detail, (store.perform none (.commit twinShirt) (run []).memory).1 =
        .error (.conflict detail) := by
  have hshirt : shirt.Unclaimed (run shirtMoves).memory.committed.tables := by decide +kernel
  have hsmall : ¬ smallShirt.Unclaimed
      (run (shirtMoves ++ [.advance 0])).memory.committed.tables := by decide +kernel
  have htwin : ¬ twinShirt.Unclaimed (run []).memory.committed.tables := by decide +kernel
  have hsucceeds := commit_succeeds_iff shirtMoves none shirt (by decide +kernel)
    (by decide +kernel)
  have hconflict := commit_succeeds_iff (shirtMoves ++ [.advance 0]) none smallShirt
    (by decide +kernel) (by decide +kernel)
  have hclash := commit_succeeds_iff [] none twinShirt (by decide +kernel) (by decide +kernel)
  exact ⟨hsucceeds.1.mpr hshirt, hconflict.2 hsmall, hclash.2 htwin⟩

end System

end VariantCatalog.Memory
