/-
# A creation adds exactly what it asks for

When a creation succeeds, the committed tables are those from right before, whatever
others have committed since it began, and the rows that it created: nothing is
missing, nothing is in excess, and no row that was there is touched.  Its transaction
is known from its body, its rows have numbers that nobody else was given, and a merge
of such a transaction adds its rows and does nothing else.
-/

import VariantCatalog.Proofs.Interleaving.Order
import VariantCatalog.Proofs.Operation.Effect

namespace VariantCatalog

open Memory Operation

/-- The committed tables have gained some rows, in the order of their numbers, and
nothing else has happened to them; the journal tells that the rows were created. -/
structure Committed.Gains (before : Committed) (rows : List AnyRow) (after : Committed) :
    Prop where
  absent : ∀ any ∈ rows, before.tables.find? (Row.id any.row) = none
  found : ∀ {kind : EntityKind} (id : Id kind) (row : kind.Row),
    after.tables.find? id = some row ↔
      before.tables.find? id = some row ∨ (⟨kind, row⟩ : AnyRow) ∈ rows ∧ Row.id row = id
  ascending : rows.Pairwise fun first second =>
    first.kind = second.kind → first.number < second.number
  journal : after.journal =
    before.journal ++ rows.map fun any => ⟨any.kind, Row.id any.row, .created⟩

namespace Memory.Inserts

variable {origin : Tables} {rows : List AnyRow} {tx : Transaction}

/-- A merge of rows that are not there adds them. -/
theorem gains_merge (h : Inserts origin rows tx) {before after : Committed}
    (hfresh : ∀ {kind : EntityKind} {id : Id kind},
      (⟨kind, id, .created⟩ : Entry) ∈ tx.journal → before.tables.find? id = none)
    (hmerge : before.merge tx = .ok after) : before.Gains rows after := by
  obtain ⟨_, _, rfl⟩ := Committed.merge_eq_ok.mp hmerge
  have habsent : ∀ any ∈ rows, before.tables.find? (Row.id any.row) = none := by
    intro any hany
    apply hfresh
    rw [h.journal_eq]
    exact List.mem_map.mpr ⟨any, hany, rfl⟩
  refine ⟨habsent, fun {kind} id row => ?_, h.ascending, ?_⟩
  · rw [Committed.find?_overlay, h.keys_eq]
    by_cases hkey : (⟨kind, id⟩ : RowKey) ∈ rows.map AnyRow.key
    · obtain ⟨new, hnew, rfl⟩ := AnyRow.exists_of_mem_keys hkey
      rw [if_pos hkey, h.find?_of_mem hnew, habsent _ hnew]
      constructor
      · intro heq
        cases heq
        exact .inr ⟨hnew, rfl⟩
      · rintro (heq | ⟨hrow, hid⟩)
        · cases heq
        · have hfind := h.find?_of_mem hrow
          rw [hid, h.find?_of_mem hnew] at hfind
          exact hfind
    · rw [if_neg hkey]
      constructor
      · exact .inl
      · rintro (hfind | ⟨hrow, rfl⟩)
        · exact hfind
        · exact absurd (List.mem_map.mpr ⟨_, hrow, rfl⟩) hkey
  · rw [h.journal_eq]

end Memory.Inserts

namespace Memory.System

/-- The creation of a client that has succeeded, and what was handed back. -/
def grown? (system : System) (name : Nat) : Option (Creation × RootGraph) :=
  match system.client name with
  | some ⟨_, .serving (.commit creation) (.ended (.ok graph))⟩ => some (creation, graph)
  | _ => none

theorem client_of_grown? {system : System} {name : Nat} {creation : Creation}
    {graph : RootGraph} (h : system.grown? name = some (creation, graph)) :
    ∃ origin, system.client name =
      some ⟨origin, .serving (.commit creation) (.ended (.ok graph))⟩ := by
  rw [grown?] at h
  split at h
  · next origin found handed hclient =>
    cases h
    exact ⟨origin, hclient⟩
  · cases h

/-- A creation that succeeds with a move completes with it. -/
theorem completes_of_grown? {system : System} {name : Nat} {creation : Creation}
    {graph : RootGraph} (hopen : system.grown? name = none)
    (hdone : (system.move (.advance name)).grown? name = some (creation, graph)) :
    ∃ origin, system.Completes name origin (.commit creation) graph := by
  obtain ⟨after, hafter⟩ := client_of_grown? hdone
  rcases system.move_advance_cases name with
    hnone | ⟨origin, operation, progress, hclient, hmove⟩
  · rw [hnone, hopen] at hdone
    cases hdone
  · have hsucceeds := hafter
    rw [hmove, client_seat_self] at hafter
    obtain ⟨rfl, hstanding⟩ := Client.mk.inj (Option.some.inj hafter)
    obtain ⟨rfl, hprogress⟩ := Standing.serving.inj hstanding
    refine ⟨origin, ⟨progress, ?_, hclient⟩, hsucceeds⟩
    cases progress with
    | working tx rest => rfl
    | committing tx result => rfl
    | ended outcome =>
        cases eq_of_heq hprogress
        rw [grown?, hclient] at hopen
        cases hopen

/-- A creation that succeeds with a move had come to the second half of its commit,
and with this move its transaction is merged. -/
theorem merge_of_grown? {system : System} {name : Nat} {creation : Creation}
    {graph : RootGraph} (hopen : system.grown? name = none)
    (hdone : (system.move (.advance name)).grown? name = some (creation, graph)) :
    ∃ origin tx committed,
      system.client name = some ⟨origin, .serving (.commit creation) (.committing tx graph)⟩ ∧
        system.memory.committed.merge tx = .ok committed ∧
          (system.move (.advance name)).memory.committed = committed := by
  obtain ⟨origin, hcompletes⟩ := completes_of_grown? hopen hdone
  exact ⟨origin, hcompletes.merged rfl⟩

/-- A shirt in two sizes. -/
def shirt : Creation where
  product :=
    { sku := "shirt"
      details := ⟨"Shirt", none, "", none, none, none, 1, 1, true, 990, false, none, 400,
        .zero, .zero⟩
      availableOn := none }
  options := [⟨"Size", ["S", "M"]⟩]

/-- Somebody creates the shirt while somebody else creates and commits another root. -/
def shirtMoves : List Move :=
  [.enter 0 none (.commit shirt), .begin 1,
    .call 1 (.write (.createRoot { NewRoot.ofDraft shirt.product with skuPrefix := "hat" })),
    .prepare 1, .apply 1] ++ List.replicate 13 (.advance 0)

end Memory.System

end VariantCatalog
