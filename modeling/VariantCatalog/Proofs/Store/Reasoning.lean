/-
# Reasoning about programs

What a program over a store is worth depends on the answers that it can get.
`Ensures` takes those as a relation and says that, whichever of them it gets, the
program ends with a result of one kind or refuses for a reason of another.  A call
that fails ends the program, so the relation is about replies only.

The rules follow the ways in which programs are put together: one after the other,
a question or an order, a condition, and a loop over a list with an invariant of
the part that is done.
-/

import VariantCatalog.Store.Program

namespace VariantCatalog.Program

variable {α β σ : Type}

/-- Whatever the answers are, the program ends with a result in a state of the one
kind, or it refuses to go on for a reason of the other. -/
def Ensures (answers : (request : Call) → σ → request.Reply → σ → Prop) (ok : α → σ → Prop)
    (bad : CatalogError → Prop) : Program α → σ → Prop
  | .done result, state => ok result state
  | .refuse error, _ => bad error
  | .call request next, state =>
    ∀ reply after, answers request state reply after → (next reply).Ensures answers ok bad after

variable {answers : (request : Call) → σ → request.Reply → σ → Prop}
  {ok : α → σ → Prop} {bad : CatalogError → Prop} {state : σ}

/-- What is asked of every result and every refusal is ensured by any program. -/
theorem Ensures.of_forall {program : Program α} (hok : ∀ result after, ok result after)
    (hbad : ∀ error, bad error) : program.Ensures answers ok bad state := by
  induction program generalizing state with
  | done result => exact hok result state
  | refuse error => exact hbad error
  | call request rest ih => exact fun reply after _ => ih reply

theorem ensures_bind {first : Program α} {next : α → Program β} {ok : β → σ → Prop} :
    (first >>= next).Ensures answers ok bad state ↔
      first.Ensures answers (fun result after => (next result).Ensures answers ok bad after) bad
        state := by
  show (first.andThen next).Ensures answers ok bad state ↔ _
  induction first generalizing state with
  | done result => exact Iff.rfl
  | refuse error => exact Iff.rfl
  | call request rest ih =>
      exact forall_congr' fun reply => forall_congr' fun after =>
        imp_congr_right fun _ => ih reply

theorem Ensures.mono {program : Program α} {weaker : α → σ → Prop}
    (h : program.Ensures answers ok bad state)
    (hweaker : ∀ result after, ok result after → weaker result after) :
    program.Ensures answers weaker bad state := by
  induction program generalizing state with
  | done result => exact hweaker result state h
  | refuse error => exact h
  | call request rest ih => exact fun reply after hanswers => ih reply (h reply after hanswers)

theorem Ensures.bind {first : Program α} {next : α → Program β} {middle : α → σ → Prop}
    {ok : β → σ → Prop} (h : first.Ensures answers middle bad state)
    (hnext : ∀ result after, middle result after → (next result).Ensures answers ok bad after) :
    (first >>= next).Ensures answers ok bad state := by
  rw [ensures_bind]
  exact h.mono hnext

theorem ensures_pure {result : α} :
    (pure result : Program α).Ensures answers ok bad state ↔ ok result state := Iff.rfl

theorem ensures_ask {read : Query} {ok : read.Reply → σ → Prop} :
    (ask read).Ensures answers ok bad state ↔
      ∀ reply after, answers (.query read) state reply after → ok reply after := Iff.rfl

theorem ensures_order {change : Write} {ok : change.Reply → σ → Prop} :
    (order change).Ensures answers ok bad state ↔
      ∀ reply after, answers (.write change) state reply after → ok reply after := Iff.rfl

theorem ensures_require {condition : Bool} {error : CatalogError} {ok : Unit → σ → Prop} :
    (require condition error).Ensures answers ok bad state ↔
      if condition then ok () state else bad error := by
  rw [require]
  cases condition <;> exact Iff.rfl

theorem ensures_discard {program : Program α} {ok : Unit → σ → Prop} :
    (discard program).Ensures answers ok bad state ↔
      program.Ensures answers (fun _ after => ok () after) bad state :=
  ensures_bind

/-- A loop that collects a result for each item of a list keeps an invariant of the
items that it is done with and their results. -/
theorem Ensures.mapM {f : α → Program β} (invariant : List α → List β → σ → Prop)
    (items : List α)
    (hstep : ∀ done item results state, done ++ [item] <+: items → invariant done results state →
      (f item).Ensures answers
        (fun result after => invariant (done ++ [item]) (results ++ [result]) after) bad state)
    (hstart : invariant [] [] state) :
    (items.mapM f).Ensures answers (invariant items) bad state := by
  have hloop : ∀ (rest done : List α) (results : List β) (state : σ), done ++ rest = items →
      invariant done results state →
        (rest.mapM f).Ensures answers (fun more after => invariant items (results ++ more) after)
          bad state := by
    intro rest
    induction rest with
    | nil =>
        intro done results state hitems h
        rw [List.append_nil] at hitems
        rw [List.mapM_nil, ensures_pure, List.append_nil, ← hitems]
        exact h
    | cons item rest ih =>
        intro done results state hitems h
        have hnext : (done ++ [item]) ++ rest = items := by
          rw [List.append_assoc]
          exact hitems
        rw [List.mapM_cons]
        refine (hstep done item results state ⟨rest, hnext⟩ h).bind fun result after hafter => ?_
        refine (ih _ _ after hnext hafter).bind fun more last hlast => ?_
        rw [ensures_pure]
        rwa [List.append_assoc] at hlast
  exact hloop items [] [] state rfl hstart

/-- A loop over a list keeps an invariant of the items that it is done with. -/
theorem Ensures.forM {f : α → Program PUnit} (invariant : List α → σ → Prop) (items : List α)
    (hstep : ∀ done item state, done ++ [item] <+: items → invariant done state →
      (f item).Ensures answers (fun _ after => invariant (done ++ [item]) after) bad state)
    (hstart : invariant [] state) :
    (items.forM f).Ensures answers (fun _ after => invariant items after) bad state := by
  have hloop : ∀ (rest done : List α) (state : σ), done ++ rest = items → invariant done state →
      (rest.forM f).Ensures answers (fun _ after => invariant items after) bad state := by
    intro rest
    induction rest with
    | nil =>
        intro done state hitems h
        rw [List.append_nil] at hitems
        rw [← hitems]
        exact h
    | cons item rest ih =>
        intro done state hitems h
        have hnext : (done ++ [item]) ++ rest = items := by
          rw [List.append_assoc]
          exact hitems
        exact (hstep done item state ⟨rest, hnext⟩ h).bind fun _ after hafter =>
          ih _ after hnext hafter
  exact hloop items [] state rfl hstart

end VariantCatalog.Program
