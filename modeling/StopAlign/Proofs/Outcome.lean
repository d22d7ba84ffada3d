import Mathlib.Data.List.Forall2

/-!
# Outcome — computations that may end with a fault, taken apart

- `bind_eq_ok`, `bind_eq_error` : two steps, one after the other
- `exists_ok_of_any` : a result of which something is checked
- `mapM_eq_ok`, `mapM_of_forall₂`, `map_eq_of_mapM`, `mem_of_mapM`, `mapM_eq_error` : one step for
  each member
- `getElem?_mapM`, `getElem?_of_mapM` : the results stand at the places of their members
-/

namespace StopAlign
namespace Outcome

variable {ε α β : Type}

theorem bind_eq_ok {x : Except ε α} {f : α → Except ε β} {b : β} :
    x >>= f = .ok b ↔ ∃ a, x = .ok a ∧ f a = .ok b := by
  cases x with
  | error e => simp [bind, Except.bind]
  | ok a => simp [bind, Except.bind]

theorem bind_eq_error {x : Except ε α} {f : α → Except ε β} {e : ε} :
    x >>= f = .error e ↔ x = .error e ∨ ∃ a, x = .ok a ∧ f a = .error e := by
  cases x with
  | error e => simp [bind, Except.bind]
  | ok a => simp [bind, Except.bind]

/-- What a check on a result finds is there. -/
theorem exists_ok_of_any {x : Except ε α} {p : α → Bool} (h : x.toOption.any p = true) :
    ∃ a, x = .ok a ∧ p a = true := by
  cases x with
  | error e => cases h
  | ok a => exact ⟨a, rfl, h⟩

/-- What is said of the result, if there is one, can be decided where it can be of any result. -/
instance decidableForallOk (x : Except ε α) (p : α → Prop) [DecidablePred p] :
    Decidable (∀ a, x = .ok a → p a) :=
  match x with
  | .error _ => isTrue fun _ h => nomatch h
  | .ok a => decidable_of_iff (p a) ⟨fun h _ same => Except.ok.inj same ▸ h, fun h => h a rfl⟩

/-- All steps have ended well, each with its own result. -/
theorem mapM_eq_ok {f : α → Except ε β} {xs : List α} {ys : List β} (h : xs.mapM f = .ok ys) :
    List.Forall₂ (fun x y => f x = .ok y) xs ys := by
  induction xs generalizing ys with
  | nil =>
    have none : ys = [] := by simpa [pure, Except.pure] using h.symm
    rw [none]
    exact List.Forall₂.nil
  | cons x xs ih =>
    rw [List.mapM_cons] at h
    rcases bind_eq_ok.mp h with ⟨y, first, h⟩
    rcases bind_eq_ok.mp h with ⟨later, rest, last⟩
    cases last
    exact List.Forall₂.cons first (ih rest)

theorem mapM_of_forall₂ {f : α → Except ε β} {xs : List α} {ys : List β}
    (h : List.Forall₂ (fun x y => f x = .ok y) xs ys) : xs.mapM f = .ok ys := by
  induction h with
  | nil => rfl
  | cons first rest ih =>
    rw [List.mapM_cons, first, ih]
    rfl

/-- What every step keeps is kept in all members. -/
theorem map_eq_of_mapM {γ : Type} {f : α → Except ε β} {g : α → γ} {k : β → γ}
    (keeps : ∀ x y, f x = .ok y → k y = g x) {xs : List α} {ys : List β}
    (h : xs.mapM f = .ok ys) : ys.map k = xs.map g := by
  have onto := mapM_eq_ok h
  clear h
  induction onto with
  | nil => rfl
  | cons first rest ih => simp [keeps _ _ first, ih]

/-- Each result is the one of some step. -/
theorem mem_of_mapM {f : α → Except ε β} {xs : List α} {ys : List β} (h : xs.mapM f = .ok ys)
    {y : β} (member : y ∈ ys) : ∃ x ∈ xs, f x = .ok y := by
  have onto := mapM_eq_ok h
  clear h
  induction onto with
  | nil => cases member
  | cons first rest ih =>
    rcases List.mem_cons.mp member with here | later
    · exact ⟨_, List.mem_cons_self, here ▸ first⟩
    · rcases ih later with ⟨x, among, result⟩
      exact ⟨x, List.mem_cons_of_mem _ among, result⟩

/-- The fault is the one of some step. -/
theorem mapM_eq_error {f : α → Except ε β} {xs : List α} {e : ε} (h : xs.mapM f = .error e) :
    ∃ x ∈ xs, f x = .error e := by
  induction xs with
  | nil => cases h
  | cons x xs ih =>
    rw [List.mapM_cons] at h
    rcases bind_eq_error.mp h with first | ⟨y, -, h⟩
    · exact ⟨x, List.mem_cons_self, first⟩
    · rcases bind_eq_error.mp h with rest | ⟨ys, -, h⟩
      · rcases ih rest with ⟨later, member, fault⟩
        exact ⟨later, List.mem_cons_of_mem x member, fault⟩
      · cases h

theorem mapM_of_forall {f : α → Except ε β} {xs : List α} (all : ∀ x ∈ xs, ∃ y, f x = .ok y) :
    ∃ ys, xs.mapM f = .ok ys := by
  induction xs with
  | nil => exact ⟨[], rfl⟩
  | cons x xs ih =>
    rcases all x List.mem_cons_self with ⟨y, first⟩
    rcases ih fun later member => all later (List.mem_cons_of_mem x member) with ⟨ys, rest⟩
    exact ⟨y :: ys, by rw [List.mapM_cons, first, rest]; rfl⟩

theorem getElem?_mapM {f : α → Except ε β} {xs : List α} {ys : List β} (h : xs.mapM f = .ok ys)
    {k : Nat} {x : α} (here : xs[k]? = some x) : ∃ y, ys[k]? = some y ∧ f x = .ok y := by
  rcases List.forall₂_iff_get.mp (mapM_eq_ok h) with ⟨same, steps⟩
  rcases List.getElem?_eq_some_iff.mp here with ⟨within, rfl⟩
  exact ⟨ys[k], List.getElem?_eq_getElem (same ▸ within), steps k within (same ▸ within)⟩

theorem getElem?_of_mapM {f : α → Except ε β} {xs : List α} {ys : List β}
    (h : xs.mapM f = .ok ys) {k : Nat} {y : β} (here : ys[k]? = some y) :
    ∃ x, xs[k]? = some x ∧ f x = .ok y := by
  rcases List.forall₂_iff_get.mp (mapM_eq_ok h) with ⟨same, steps⟩
  rcases List.getElem?_eq_some_iff.mp here with ⟨within, rfl⟩
  exact ⟨xs[k], List.getElem?_eq_getElem (same ▸ within), steps k (same ▸ within) within⟩

end Outcome
end StopAlign
