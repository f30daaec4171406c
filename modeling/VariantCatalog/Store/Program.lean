/-
# Programs over a store

A program is the body of a transaction: it makes calls one after the other, each
depending on the replies so far, and ends with a result or refuses to go on.  It
does not say how calls are answered, so the same program runs on every store.
-/

import VariantCatalog.Store.Call

namespace VariantCatalog

/-- The body of a transaction. -/
inductive Program (α : Type) where
  | done (result : α)
  | refuse (error : CatalogError)
  | call (request : Call) (next : request.Reply → Program α)

namespace Program

variable {α β γ : Type}

/-- Go on with another program after the result of a first one. -/
def andThen : Program α → (α → Program β) → Program β
  | .done result, next => next result
  | .refuse error, _ => .refuse error
  | .call request first, next => .call request fun reply => (first reply).andThen next

instance : Monad Program where
  pure := .done
  bind := .andThen

/-- Ask a query. -/
def ask (read : Query) : Program read.Reply :=
  .call (.query read) .done

/-- Order a write. -/
def order (change : Write) : Program change.Reply :=
  .call (.write change) .done

/-- Refuse to go on unless a condition holds. -/
def require (condition : Bool) (error : CatalogError) : Program Unit :=
  if condition then .done () else .refuse error

/-- Go on with a row that must be there. -/
def requireSome (row : Option α) (error : CatalogError) : Program α :=
  match row with
  | some row => .done row
  | none => .refuse error

theorem andThen_done (program : Program α) : program.andThen .done = program := by
  induction program with
  | done result => rfl
  | refuse error => rfl
  | call request next ih => simp only [andThen, ih]

theorem andThen_assoc (program : Program α) (f : α → Program β) (g : β → Program γ) :
    (program.andThen f).andThen g = program.andThen fun result => (f result).andThen g := by
  induction program with
  | done result => rfl
  | refuse error => rfl
  | call request next ih => simp only [andThen, ih]

instance : LawfulMonad Program :=
  LawfulMonad.mk' Program
    (fun program => andThen_done program)
    (fun _ _ => rfl)
    (fun program f g => andThen_assoc program f g)

end Program

end VariantCatalog
