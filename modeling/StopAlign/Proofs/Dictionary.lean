import Mathlib.Data.List.Induction
import Mathlib.Data.List.Nodup
import StopAlign.Dictionary

/-!
# Dictionary — entries under other keys, and entries that come in another order

- `put_put`, `erase_put` : a value in place of another, and a key that comes and goes
- `Dictionary.map`      : keys and values replaced one by one
- `find?_map`, `map_put` : lookup and change go with it where different keys stay different
- `find?_ofList`        : what a dictionary of distinct keys holds does not depend on their order
-/

namespace StopAlign
namespace Dictionary

variable {κ κ' α β : Type} [DecidableEq κ] [DecidableEq κ']

/-! ## One key -/

@[simp]
theorem put_put (d : Dictionary κ α) (k : κ) (a b : α) : (d.put k a).put k b = d.put k b := by
  cases d with | mk entries =>
  simp only [put]
  congr 1
  induction entries with
  | nil => simp [putInto]
  | cons e rest ih =>
    by_cases same : e.1 = k
    · simp [putInto, same]
    · simp [putInto, same, ih]

/-- A key that comes and goes leaves nothing behind. -/
theorem erase_put {d : Dictionary κ α} {k : κ} (fresh : d.find? k = none) (a : α) :
    (d.put k a).erase k = d := by
  cases d with | mk entries =>
  simp only [put, erase, find?] at fresh ⊢
  congr 1
  induction entries with
  | nil => simp [putInto]
  | cons e rest ih =>
    by_cases same : e.1 = k
    · simp [same] at fresh
    · have later : (rest.find? fun e => e.1 = k).map (·.2) = none := by simpa [same] using fresh
      simpa [putInto, same] using ih later

/-! ## Other keys -/

/-- The dictionary with its keys and its values replaced. -/
def map (f : κ → κ') (g : α → β) (d : Dictionary κ α) : Dictionary κ' β :=
  ⟨d.entries.map fun e => (f e.1, g e.2)⟩

theorem find?_map {f : κ → κ'} (injective : Function.Injective f) (g : α → β)
    (d : Dictionary κ α) (k : κ) : (d.map f g).find? (f k) = (d.find? k).map g := by
  cases d with | mk entries =>
  simp only [map, find?]
  induction entries with
  | nil => rfl
  | cons e rest ih =>
    by_cases same : e.1 = k
    · simp [same]
    · have other : f e.1 ≠ f k := fun equal => same (injective equal)
      simpa [same, other] using ih

theorem map_put {f : κ → κ'} (injective : Function.Injective f) (g : α → β)
    (d : Dictionary κ α) (k : κ) (a : α) : (d.put k a).map f g = (d.map f g).put (f k) (g a) := by
  cases d with | mk entries =>
  simp only [map, put]
  congr 1
  induction entries with
  | nil => rfl
  | cons e rest ih =>
    by_cases same : e.1 = k
    · simp [putInto, same]
    · have other : f e.1 ≠ f k := fun equal => same (injective equal)
      simpa [putInto, same, other] using ih

/-! ## Lists of pairs -/

theorem ofList_concat (pairs : List (κ × α)) (e : κ × α) :
    ofList (pairs ++ [e]) = (ofList pairs).put e.1 e.2 := by
  simp [ofList, List.foldl_append]

/-- Of distinct keys each has its own value. -/
theorem find?_ofList {pairs : List (κ × α)} (distinct : (pairs.map (·.1)).Nodup) (k : κ) (a : α) :
    (ofList pairs).find? k = some a ↔ (k, a) ∈ pairs := by
  -- the last pair is put behind the others, under a key that is none of theirs
  induction pairs using List.reverseRecOn with
  | nil => simp [ofList]
  | append_singleton pairs e ih =>
    rw [List.map_append, List.map_singleton, List.nodup_append] at distinct
    rcases distinct with ⟨earlier, -, apart⟩
    rw [ofList_concat, find?_put]
    by_cases same : e.1 = k
    · subst same
      rw [if_pos rfl]
      have fresh : (e.1, a) ∉ pairs := fun member =>
        apart e.1 (List.mem_map.mpr ⟨_, member, rfl⟩) e.1 (List.mem_singleton_self _) rfl
      simp [fresh, Prod.ext_iff, eq_comm]
    · rw [if_neg same, ih earlier]
      have other : (k, a) ≠ e := fun equal => same (equal ▸ rfl)
      simp [other]

theorem find?_ofList_perm {pairs others : List (κ × α)} (perm : others.Perm pairs)
    (distinct : (pairs.map (·.1)).Nodup) (k : κ) :
    (ofList others).find? k = (ofList pairs).find? k := by
  have distinct' : (others.map (·.1)).Nodup := (perm.map _).nodup_iff.mpr distinct
  apply Option.ext
  intro a
  rw [find?_ofList distinct', find?_ofList distinct, perm.mem_iff]

end Dictionary
end StopAlign
