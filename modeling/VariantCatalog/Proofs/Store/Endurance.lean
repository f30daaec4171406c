/-
# What programs come to among others

A program that shares its store with others cannot foresee how a call ends.  `Endures` takes
what each call can come to as a relation, errors included, and says that the program comes to
a result of one kind or to an error of another, whichever of them it meets.

It stands between the two logics that are there.  `Ensures` follows from it where errors do
not matter, and `Concludes` where every call can end in one way only.
-/

import VariantCatalog.Proofs.Store.Conclusion

namespace VariantCatalog

variable {α β σ : Type}

/-- Whatever its calls come to, the program ends with a result in a state of the one kind, or
with an error of the other. The error of a call that fails is the program's own. -/
def Program.Endures
    (comes : (request : Call) → σ → Except StoreError request.Reply → σ → Prop)
    (ok : α → σ → Prop) (bad : CatalogError → Prop) : Program α → σ → Prop
  | .done result, state => ok result state
  | .refuse error, _ => bad error
  | .call request next, state =>
    (∀ error after, comes request state (.error error) after → bad (.ofStore error)) ∧
      ∀ reply after, comes request state (.ok reply) after →
        (next reply).Endures comes ok bad after

namespace Program

variable {comes : (request : Call) → σ → Except StoreError request.Reply → σ → Prop}
  {ok : α → σ → Prop} {bad : CatalogError → Prop} {state : σ}

theorem endures_bind {first : Program α} {next : α → Program β} {ok : β → σ → Prop} :
    (first >>= next).Endures comes ok bad state ↔
      first.Endures comes (fun result after => (next result).Endures comes ok bad after) bad
        state := by
  show (first.andThen next).Endures comes ok bad state ↔ _
  induction first generalizing state with
  | done result => exact Iff.rfl
  | refuse error => exact Iff.rfl
  | call request rest ih =>
      apply and_congr_right'
      exact forall_congr' fun reply => forall_congr' fun after =>
        imp_congr_right fun _ => ih reply

theorem Endures.mono {program : Program α} {weaker : α → σ → Prop}
    (h : program.Endures comes ok bad state)
    (hweaker : ∀ result after, ok result after → weaker result after) :
    program.Endures comes weaker bad state := by
  induction program generalizing state with
  | done result => exact hweaker result state h
  | refuse error => exact h
  | call request rest ih =>
      exact ⟨h.1, fun reply after hcomes => ih reply (h.2 reply after hcomes)⟩

theorem Endures.mono_error {program : Program α} {worse : CatalogError → Prop}
    (h : program.Endures comes ok bad state) (hworse : ∀ error, bad error → worse error) :
    program.Endures comes ok worse state := by
  induction program generalizing state with
  | done result => exact h
  | refuse error => exact hworse error h
  | call request rest ih =>
      refine ⟨fun error after hcomes => hworse _ (h.1 error after hcomes), ?_⟩
      exact fun reply after hcomes => ih reply (h.2 reply after hcomes)

theorem Endures.bind {first : Program α} {next : α → Program β} {middle : α → σ → Prop}
    {ok : β → σ → Prop} (h : first.Endures comes middle bad state)
    (hnext : ∀ result after, middle result after → (next result).Endures comes ok bad after) :
    (first >>= next).Endures comes ok bad state := by
  rw [endures_bind]
  exact h.mono hnext

theorem endures_pure {result : α} :
    (pure result : Program α).Endures comes ok bad state ↔ ok result state := Iff.rfl

theorem endures_require {condition : Bool} {error : CatalogError} {ok : Unit → σ → Prop} :
    (require condition error).Endures comes ok bad state ↔
      if condition then ok () state else bad error := by
  rw [require]
  cases condition <;> exact Iff.rfl

theorem endures_requireSome {row : Option α} {error : CatalogError} :
    (requireSome row error).Endures comes ok bad state ↔
      match row with
      | some row => ok row state
      | none => bad error := by
  cases row <;> exact Iff.rfl

theorem endures_discard {program : Program α} {ok : Unit → σ → Prop} :
    (discard program).Endures comes ok bad state ↔
      program.Endures comes (fun _ after => ok () after) bad state :=
  endures_bind

/-- A loop over a list keeps an invariant of the items that it is done with. -/
theorem Endures.forM {f : α → Program PUnit} (invariant : List α → σ → Prop) (items : List α)
    (hstep : ∀ done item state, done ++ [item] <+: items → invariant done state →
      (f item).Endures comes (fun _ after => invariant (done ++ [item]) after) bad state)
    (hstart : invariant [] state) :
    (items.forM f).Endures comes (fun _ after => invariant items after) bad state := by
  have hloop : ∀ (rest done : List α) (state : σ), done ++ rest = items → invariant done state →
      (rest.forM f).Endures comes (fun _ after => invariant items after) bad state := by
    intro rest
    induction rest with
    | nil =>
        intro done state hitems h
        rw [List.append_nil] at hitems
        rw [← hitems]
        exact h
    | cons item rest ih =>
        intro done state hitems h
        have hnext : (done ++ [item]) ++ rest = items := by
          rw [List.append_assoc]
          exact hitems
        exact (hstep done item state ⟨rest, hnext⟩ h).bind fun _ after hafter =>
          ih _ after hnext hafter
  exact hloop items [] state rfl hstart

/-- What a program endures it ensures when only replies are looked at. -/
theorem Endures.ensures {program : Program α}
    {answers : (request : Call) → σ → request.Reply → σ → Prop} {worse : CatalogError → Prop}
    (h : program.Endures comes ok bad state)
    (hanswers : ∀ {request : Call} {before after : σ} {reply : request.Reply},
      answers request before reply after → comes request before (.ok reply) after)
    (hworse : ∀ error, bad error → worse error) : program.Ensures answers ok worse state := by
  induction program generalizing state with
  | done result => exact h
  | refuse error => exact hworse error h
  | call request rest ih =>
      exact fun reply after hanswer => ih reply (h.2 reply after (hanswers hanswer))

/-- On a store that gives one answer to every call, a program concludes as it endures, as
long as the answers are what the calls can come to. -/
theorem Endures.concludes {program : Program α}
    {answer : (request : Call) → σ → Except StoreError request.Reply × σ}
    {worse : CatalogError → Prop} (fits : σ → Prop) (h : program.Endures comes ok bad state)
    (hstart : fits state)
    (hanswer : ∀ request before, fits before →
      comes request before (answer request before).1 (answer request before).2)
    (hfits : ∀ {request before reply after}, fits before →
      answer request before = (.ok reply, after) → fits after)
    (hworse : ∀ error, bad error → worse error) : program.Concludes answer ok worse state := by
  induction program generalizing state with
  | done result => exact h
  | refuse error => exact hworse error h
  | call request rest ih =>
      have hcomes := hanswer request state hstart
      rw [Concludes]
      cases hanswered : answer request state with
      | mk outcome after =>
          rw [hanswered] at hcomes
          cases outcome with
          | error error => exact hworse _ (h.1 error after hcomes)
          | ok reply => exact ih reply (h.2 reply after hcomes) (hfits hstart hanswered)

end Program

end VariantCatalog
