/-
# How programs end

`Ensures` says nothing of a program whose calls fail.  `Concludes` does: on a store that
answers every call in one way, a program comes either to a result of one kind or to an
error of another, and the error of a call that fails counts as the program's own.  So a
program that concludes with no error has a result.

What a program ensures of its results and how it concludes are proved apart, and a program
that does both does them at once (`Concludes.and_ensures`).
-/

import VariantCatalog.Proofs.Store.Reasoning

namespace VariantCatalog

variable {α β σ : Type}

/-- On a store that gives the answers, the program ends with a result of the one kind or
an error of the other. -/
def Program.Concludes (answer : (request : Call) → σ → Except StoreError request.Reply × σ)
    (ok : α → σ → Prop) (bad : CatalogError → Prop) : Program α → σ → Prop
  | .done result, state => ok result state
  | .refuse error, _ => bad error
  | .call request next, state =>
    match answer request state with
    | (.error error, _) => bad (.ofStore error)
    | (.ok reply, after) => (next reply).Concludes answer ok bad after

namespace Program

variable {answer : (request : Call) → σ → Except StoreError request.Reply × σ}
  {ok : α → σ → Prop} {bad : CatalogError → Prop} {state : σ}

theorem concludes_bind {first : Program α} {next : α → Program β} {ok : β → σ → Prop} :
    (first >>= next).Concludes answer ok bad state ↔
      first.Concludes answer (fun result after => (next result).Concludes answer ok bad after) bad
        state := by
  show (first.andThen next).Concludes answer ok bad state ↔ _
  induction first generalizing state with
  | done result => exact Iff.rfl
  | refuse error => exact Iff.rfl
  | call request rest ih =>
      simp only [andThen, Concludes]
      split
      · exact Iff.rfl
      · exact ih _

theorem Concludes.mono {program : Program α} {weaker : α → σ → Prop}
    (h : program.Concludes answer ok bad state)
    (hweaker : ∀ result after, ok result after → weaker result after) :
    program.Concludes answer weaker bad state := by
  induction program generalizing state with
  | done result => exact hweaker result state h
  | refuse error => exact h
  | call request rest ih =>
      simp only [Concludes] at h ⊢
      split
      · next heq => simpa only [heq] using h
      · next reply after heq =>
        apply ih reply
        simpa only [heq] using h

theorem Concludes.mono_error {program : Program α} {worse : CatalogError → Prop}
    (h : program.Concludes answer ok bad state) (hworse : ∀ error, bad error → worse error) :
    program.Concludes answer ok worse state := by
  induction program generalizing state with
  | done result => exact h
  | refuse error => exact hworse error h
  | call request rest ih =>
      simp only [Concludes] at h ⊢
      split
      · next heq =>
        apply hworse
        simpa only [heq] using h
      · next reply after heq =>
        apply ih reply
        simpa only [heq] using h

/-- What a program ensures of its results it ensures of those that it comes to. -/
theorem Concludes.and_ensures {program : Program α}
    {answers : (request : Call) → σ → request.Reply → σ → Prop} {fits : α → σ → Prop}
    {worse : CatalogError → Prop}
    (hanswers : ∀ {request : Call} {before after : σ} {reply : request.Reply},
      answer request before = (.ok reply, after) → answers request before reply after)
    (h : program.Concludes answer ok bad state)
    (hensures : program.Ensures answers fits worse state) :
    program.Concludes answer (fun result after => ok result after ∧ fits result after) bad
      state := by
  induction program generalizing state with
  | done result => exact ⟨h, hensures⟩
  | refuse error => exact h
  | call request rest ih =>
      simp only [Concludes] at h ⊢
      split
      · next heq => simpa only [heq] using h
      · next reply after heq =>
        refine ih reply ?_ (hensures reply after (hanswers heq))
        simpa only [heq] using h

theorem concludes_require {condition : Bool} {error : CatalogError} {ok : Unit → σ → Prop} :
    (require condition error).Concludes answer ok bad state ↔
      if condition then ok () state else bad error := by
  rw [require]
  cases condition <;> exact Iff.rfl

end Program

end VariantCatalog
