import StopAlign.Fault

/-!
# Source — streams that may end with a fault

- `Source`         : what a stream yields, and the fault that ends it
- `Source.collect` : results up to the first fault
-/

namespace StopAlign

/-- What a stream yields, and the fault that ends it, if one does. -/
structure Source (α : Type) where
  items : List α
  fault : Option Fault
  deriving DecidableEq

namespace Source

/-- Put results behind items in reverse order, up to the first fault. -/
def collectOnto {α : Type} (last : Option Fault) (done : List α) :
    List (Except Fault α) → Source α
  | [] => ⟨done.reverse, last⟩
  | .ok a :: rest => collectOnto last (a :: done) rest
  | .error f :: _ => ⟨done.reverse, some f⟩

/-- The results up to the first fault. `last` is the fault that follows them all. -/
def collect {α : Type} (results : List (Except Fault α)) (last : Option Fault) : Source α :=
  collectOnto last [] results

theorem collectOnto_eq {α : Type} (last : Option Fault) (done : List α)
    (results : List (Except Fault α)) :
    collectOnto last done results =
      ⟨done.reverse ++ (collect results last).items, (collect results last).fault⟩ := by
  induction results generalizing done with
  | nil => simp [collect, collectOnto]
  | cons r rest ih =>
    cases r with
    | error f => simp [collect, collectOnto]
    | ok a =>
      simp only [collect, collectOnto]
      rw [ih (a :: done), ih [a]]
      simp

@[simp]
theorem collect_ok {α : Type} (a : α) (rest : List (Except Fault α)) (last : Option Fault) :
    collect (.ok a :: rest) last =
      ⟨a :: (collect rest last).items, (collect rest last).fault⟩ := by
  rw [collect, collectOnto, collectOnto_eq]
  rfl

@[simp]
theorem collect_error {α : Type} (f : Fault) (rest : List (Except Fault α))
    (last : Option Fault) : collect (.error f :: rest) last = ⟨[], some f⟩ := rfl

@[simp]
theorem collect_nil {α : Type} (last : Option Fault) :
    collect ([] : List (Except Fault α)) last = ⟨[], last⟩ := rfl

end Source

end StopAlign
