import StopAlign.Run

/-!
# Job — computations with effects, one step at a time

- `run_bind`, `run_bind_eq_ok`, `run_bind_eq_error` : one job behind another one
- `run_log`, `run_attempt`, `run_onDisk` : the single steps
- `Job.Quiet` : a job that leaves the disk alone, with what is known of its result
-/

namespace StopAlign
namespace Job

variable {α β : Type}

/-! ## Steps -/

theorem run_pure (a : α) (e : Effects) : (pure a : Job α).run.run e = (.ok a, e) := rfl

theorem run_bind (x : Job α) (g : α → Job β) (e : Effects) :
    (x >>= g).run.run e =
      match x.run.run e with
      | (.ok a, e₁) => (g a).run.run e₁
      | (.error fault, e₁) => (.error fault, e₁) := by
  rw [ExceptT.run_bind, StateT.run_bind]
  rcases x.run.run e with ⟨outcome, e₁⟩
  cases outcome <;> rfl

theorem run_bind_eq_ok {x : Job α} {g : α → Job β} {e f : Effects} {b : β} :
    (x >>= g).run.run e = (.ok b, f) ↔
      ∃ a e₁, x.run.run e = (.ok a, e₁) ∧ (g a).run.run e₁ = (.ok b, f) := by
  rw [run_bind]
  rcases x.run.run e with ⟨outcome, e₁⟩
  cases outcome with
  | error fault =>
    constructor
    · intro h
      cases h
    · rintro ⟨_, _, h, _⟩
      cases h
  | ok a =>
    constructor
    · intro h
      exact ⟨a, e₁, rfl, h⟩
    · rintro ⟨_, _, h, last⟩
      cases h
      exact last

theorem run_bind_eq_error {x : Job α} {g : α → Job β} {e f : Effects} {fault : Fault} :
    (x >>= g).run.run e = (.error fault, f) ↔ x.run.run e = (.error fault, f) ∨
      ∃ a e₁, x.run.run e = (.ok a, e₁) ∧ (g a).run.run e₁ = (.error fault, f) := by
  rw [run_bind]
  rcases x.run.run e with ⟨outcome, e₁⟩
  cases outcome with
  | error cause =>
    constructor
    · intro h
      cases h
      exact .inl rfl
    · rintro (h | ⟨_, _, h, _⟩)
      · cases h
        rfl
      · cases h
  | ok a =>
    constructor
    · intro h
      exact .inr ⟨a, e₁, rfl, h⟩
    · rintro (h | ⟨_, _, h, last⟩)
      · cases h
      · cases h
        exact last

theorem run_log (lines : List Line) (e : Effects) :
    (log lines).run.run e = (.ok (), { e with lines := e.lines ++ lines }) := rfl

theorem log_nil : log [] = pure () := by
  have same : (fun e : Effects => { e with lines := e.lines ++ ([] : List Line) }) = id := by
    funext e
    simp
  rw [log, same]
  rfl

theorem run_attempt (r : Except Fault α) (e : Effects) : (attempt r).run.run e = (r, e) := rfl

theorem run_onDisk (change : Disk → Except Fault Disk) (e : Effects) :
    (onDisk change).run.run e =
      match change e.disk with
      | .ok disk => (.ok (), { e with disk })
      | .error fault => (.error fault, e) := by
  have start : (onDisk change).run.run e =
      (attempt (change e.disk) >>= fun disk => modify fun e => { e with disk }).run.run e := rfl
  rw [start, run_bind, run_attempt]
  cases change e.disk <;> rfl

theorem run_onDisk_eq_ok {change : Disk → Except Fault Disk} {e f : Effects} :
    (onDisk change).run.run e = (.ok (), f) ↔
      change e.disk = .ok f.disk ∧ f.lines = e.lines := by
  rw [run_onDisk]
  cases change e.disk with
  | error fault =>
    constructor
    · intro h
      cases h
    · rintro ⟨h, -⟩
      cases h
  | ok disk =>
    constructor
    · intro h
      cases h
      exact ⟨rfl, rfl⟩
    · rintro ⟨h, same⟩
      cases h
      rw [← same]

theorem run_onDisk_eq_error {change : Disk → Except Fault Disk} {e f : Effects} {fault : Fault} :
    (onDisk change).run.run e = (.error fault, f) ↔ change e.disk = .error fault ∧ f = e := by
  rw [run_onDisk]
  cases change e.disk with
  | ok disk =>
    constructor
    · intro h
      cases h
    · rintro ⟨h, -⟩
      cases h
  | error cause =>
    constructor
    · intro h
      cases h
      exact ⟨rfl, rfl⟩
    · rintro ⟨h, rfl⟩
      cases h
      rfl

/-! ## Quiet jobs -/

/-- The job leaves the disk as it was, whether it returns or not, and `R` holds of what it
returns. -/
def Quiet (x : Job α) (R : α → Prop) : Prop :=
  ∀ e, (x.run.run e).2.disk = e.disk ∧ ∀ a, (x.run.run e).1 = .ok a → R a

namespace Quiet

variable {R : α → Prop} {S : β → Prop}

theorem bind {x : Job α} {g : α → Job β} (first : Quiet x R) (later : ∀ a, R a → Quiet (g a) S) :
    Quiet (x >>= g) S := by
  intro e
  rcases first e with ⟨still, known⟩
  rw [run_bind]
  rcases ran : x.run.run e with ⟨outcome, e₁⟩
  rw [ran] at still known
  cases outcome with
  | error fault => exact ⟨still, fun _ returned => nomatch returned⟩
  | ok a =>
    rcases later a (known a rfl) e₁ with ⟨still', known'⟩
    exact ⟨still'.trans still, known'⟩

theorem pure {a : α} (known : R a) : Quiet (pure a) R :=
  fun _ => ⟨rfl, fun _ returned => Except.ok.inj returned ▸ known⟩

theorem log (lines : List Line) : Quiet (log lines) fun _ => True :=
  fun _ => ⟨rfl, fun _ _ => trivial⟩

theorem attempt (r : Except Fault α) : Quiet (attempt r) fun a => r = .ok a :=
  fun _ => ⟨rfl, fun _ returned => returned⟩

theorem weaken {x : Job α} {R' : α → Prop} (quiet : Quiet x R) (weaker : ∀ a, R a → R' a) :
    Quiet x R' :=
  fun e => ⟨(quiet e).1, fun a returned => weaker a ((quiet e).2 a returned)⟩

end Quiet

end Job
end StopAlign
