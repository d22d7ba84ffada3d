/-!
# Dictionary — values under keys, in the order of the keys' first appearance

- `Dictionary`      : pairs with distinct keys
- `Dictionary.find?` : the value under a key
- `Dictionary.put`  : a value under a key; a key that is there keeps its place
- `Dictionary.erase` : no value under a key
- `Dictionary.ofList` : the pairs of a list, where the last value of a key counts
-/

namespace StopAlign

/-- Values under distinct keys, in the order in which the keys came. -/
structure Dictionary (κ α : Type) where
  entries : List (κ × α)
  deriving DecidableEq

namespace Dictionary

variable {κ α : Type} [DecidableEq κ]

def empty : Dictionary κ α := ⟨[]⟩

def find? (d : Dictionary κ α) (k : κ) : Option α :=
  (d.entries.find? fun e => e.1 = k).map (·.2)

def contains (d : Dictionary κ α) (k : κ) : Bool := (d.find? k).isSome

def putInto (k : κ) (a : α) : List (κ × α) → List (κ × α)
  | [] => [(k, a)]
  | e :: rest => if e.1 = k then (k, a) :: rest else e :: putInto k a rest

def put (d : Dictionary κ α) (k : κ) (a : α) : Dictionary κ α :=
  ⟨putInto k a d.entries⟩

def erase (d : Dictionary κ α) (k : κ) : Dictionary κ α :=
  ⟨d.entries.filter fun e => e.1 ≠ k⟩

def ofList (pairs : List (κ × α)) : Dictionary κ α :=
  pairs.foldl (fun d e => d.put e.1 e.2) empty

@[simp]
theorem find?_empty (k : κ) : (empty : Dictionary κ α).find? k = none := rfl

theorem find?_put (d : Dictionary κ α) (k j : κ) (a : α) :
    (d.put k a).find? j = if k = j then some a else d.find? j := by
  cases d with | mk entries =>
  simp only [put, find?]
  induction entries with
  | nil => by_cases h : k = j <;> simp [putInto, h]
  | cons e rest ih =>
    unfold putInto
    by_cases hk : e.1 = k
    · rw [if_pos hk]
      by_cases h : k = j <;> simp [hk, h]
    · rw [if_neg hk]
      by_cases he : e.1 = j
      · have hne : k ≠ j := fun h => hk (he.trans h.symm)
        simp [he, hne]
      · simp only [List.find?_cons, decide_eq_false he]
        exact ih

@[simp]
theorem find?_put_self (d : Dictionary κ α) (k : κ) (a : α) : (d.put k a).find? k = some a := by
  simp [find?_put]

end Dictionary

end StopAlign
