import StopAlign.Proofs.Sequences
import StopAlign.Trip.Ledger

/-!
# Findings — what requests find, said without a ledger

- `Finding.offsets?`, `Finding.entry` : the offsets of a finding, and its entry
- `Ledger.firstFinding?` : what the first request with a key that does not fail finds
- `Ledger.foundKeys`, `Ledger.matchedKeys` : the keys with a finding, and those with offsets
- `Ledger.entryOf?` : the entry of a key, where the rows go by `Ledger.matchedKeys`

Each of them is followed through one more request: either the request adds nothing, or it has the
first finding of its key.
-/

namespace StopAlign

/-- The reason of an entry without a row. -/
def Entry.reason? : Entry → Option Reason
  | .row _ => none
  | .without reason => some reason

namespace Finding

/-- The offsets that were found. -/
def offsets? : Finding → Option (List Int)
  | .byDistance offsets => some (offsets.map Int.ofNat)
  | .byPlace offsets => some offsets
  | .without _ _ => none

/-- The entry of a finding, where offsets go to the given row. -/
def entry (row : Nat) : Finding → Entry
  | .without reason _ => .without reason
  | _ => .row row

theorem entry_congr {f : Finding} {a b : Nat} (h : f.offsets?.isSome = true → a = b) :
    f.entry a = f.entry b := by
  cases f with
  | byDistance offsets => exact congrArg Entry.row (h rfl)
  | byPlace offsets => exact congrArg Entry.row (h rfl)
  | without reason stop => rfl

end Finding

namespace Ledger

namespace Request

/-- The pattern of a request. -/
def pattern : Request → Pattern
  | .resolve pattern _ => pattern
  | .assign trip => trip.pattern

/-- The distances of a request. -/
def travelled : Request → List Float
  | .resolve _ travelled => travelled
  | .assign trip => trip.travelled

/-- The pattern under which a request is entered. -/
def key (r : Request) : Pattern := r.pattern.plain

/-- What a request finds on its own. -/
def finding? (net : Network) (r : Request) : Option Finding :=
  (net.find r.pattern r.travelled).toOption

theorem finding?_of_ok {net : Network} {r : Request} {f : Finding}
    (h : net.find r.pattern r.travelled = .ok f) : r.finding? net = some f := by
  rw [finding?, h]
  rfl

theorem find_of_finding? {net : Network} {r : Request} {f : Finding}
    (h : r.finding? net = some f) : net.find r.pattern r.travelled = .ok f := by
  cases search : net.find r.pattern r.travelled with
  | ok g => simpa [finding?, search, Except.toOption] using h
  | error fault => simp [finding?, search, Except.toOption] at h

theorem finding?_of_error {net : Network} {r : Request} {fault : Fault}
    (h : net.find r.pattern r.travelled = .error fault) : r.finding? net = none := by
  rw [finding?, h]
  rfl

end Request

/-! ## What requests find -/

section Findings

variable (net : Network)

/-- What the first request with a key that does not fail on its own finds. -/
def firstFinding? (rs : List Request) (key : Pattern) : Option Finding :=
  rs.findSome? fun r => if r.key = key then r.finding? net else none

/-- The keys that have a finding, in the order of their first findings. -/
def foundKeys (rs : List Request) : List Pattern :=
  ((rs.filter fun r => (r.finding? net).isSome).map Request.key).eraseDups

/-- The offsets of a key. -/
def offsetsOf? (rs : List Request) (key : Pattern) : Option (List Int) :=
  (firstFinding? net rs key).bind Finding.offsets?

/-- The keys that have offsets, in the order of their first findings. -/
def matchedKeys (rs : List Request) : List Pattern :=
  (foundKeys net rs).filter fun key => (offsetsOf? net rs key).isSome

/-- The offsets of these keys. -/
def matchedOffsets (rs : List Request) : List (List Int) :=
  (matchedKeys net rs).map fun key => (offsetsOf? net rs key).getD []

/-- The entry of a key in a ledger whose table had the given size at first. -/
def entryOf? (size : Nat) (rs : List Request) (key : Pattern) : Option Entry :=
  (firstFinding? net rs key).map fun f => f.entry (size + (matchedKeys net rs).idxOf key)

variable {net}

theorem firstFinding?_concat (rs : List Request) (r : Request) (key : Pattern) :
    firstFinding? net (rs ++ [r]) key =
      (firstFinding? net rs key).or (if r.key = key then r.finding? net else none) := by
  simp [firstFinding?, List.findSome?_append]

theorem firstFinding?_of_entryOf? {size : Nat} {rs : List Request} {key : Pattern} {e : Entry}
    (h : entryOf? net size rs key = some e) : (firstFinding? net rs key).isSome = true := by
  simpa [entryOf?] using congrArg Option.isSome h

theorem mem_foundKeys {rs : List Request} {key : Pattern} :
    key ∈ foundKeys net rs ↔ (firstFinding? net rs key).isSome = true := by
  simp only [foundKeys, firstFinding?, List.mem_eraseDups, List.mem_map, List.mem_filter,
    List.findSome?_isSome_iff]
  constructor
  · rintro ⟨r, ⟨member, found⟩, same⟩
    exact ⟨r, member, by rwa [if_pos same]⟩
  · rintro ⟨r, member, found⟩
    by_cases same : r.key = key
    · rw [if_pos same] at found
      exact ⟨r, ⟨member, found⟩, same⟩
    · rw [if_neg same] at found
      cases found

theorem nodup_foundKeys (rs : List Request) : (foundKeys net rs).Nodup :=
  nodup_eraseDups _

theorem nodup_matchedKeys (rs : List Request) : (matchedKeys net rs).Nodup :=
  (nodup_foundKeys rs).filter _

theorem mem_matchedKeys {rs : List Request} {key : Pattern} :
    key ∈ matchedKeys net rs ↔ (offsetsOf? net rs key).isSome = true := by
  rw [matchedKeys, List.mem_filter, mem_foundKeys, and_iff_right_of_imp]
  intro matched
  cases found : firstFinding? net rs key with
  | none =>
    rw [offsetsOf?, found] at matched
    cases matched
  | some f => rfl

/-- A request that fails on its own, or has a key with a finding, adds nothing. -/
theorem firstFinding?_concat_old {rs : List Request} {r : Request}
    (h : (firstFinding? net rs r.key).isSome = true ∨ r.finding? net = none) :
    firstFinding? net (rs ++ [r]) = firstFinding? net rs := by
  funext key
  rw [firstFinding?_concat]
  by_cases same : r.key = key
  · subst same
    rcases h with known | failed
    · rw [Option.or_of_isSome known]
    · rw [failed, ite_self, Option.or_none]
  · rw [if_neg same, Option.or_none]

theorem foundKeys_concat_old {rs : List Request} {r : Request}
    (h : (firstFinding? net rs r.key).isSome = true ∨ r.finding? net = none) :
    foundKeys net (rs ++ [r]) = foundKeys net rs := by
  cases own : r.finding? net with
  | none => simp [foundKeys, own]
  | some f =>
    have known := h.resolve_right (by simp [own])
    have member := mem_foundKeys.mpr known
    rw [foundKeys, List.mem_eraseDups] at member
    simp only [foundKeys, List.filter_append, List.filter_singleton, own, Option.isSome_some,
      cond_true, List.map_append, List.map_singleton, eraseDups_concat, if_pos member]

theorem matchedOffsets_concat_old {rs : List Request} {r : Request}
    (h : (firstFinding? net rs r.key).isSome = true ∨ r.finding? net = none) :
    matchedOffsets net (rs ++ [r]) = matchedOffsets net rs := by
  unfold matchedOffsets matchedKeys offsetsOf?
  rw [foundKeys_concat_old h, firstFinding?_concat_old h]

theorem entryOf?_concat_old {rs : List Request} {r : Request} (size : Nat)
    (h : (firstFinding? net rs r.key).isSome = true ∨ r.finding? net = none) :
    entryOf? net size (rs ++ [r]) = entryOf? net size rs := by
  funext key
  unfold entryOf? matchedKeys offsetsOf?
  rw [foundKeys_concat_old h, firstFinding?_concat_old h]

/-- A new finding belongs to its own key. -/
theorem firstFinding?_concat_new {rs : List Request} {r : Request} {f : Finding}
    (h : firstFinding? net rs r.key = none) (own : r.finding? net = some f) (key : Pattern) :
    firstFinding? net (rs ++ [r]) key =
      if r.key = key then some f else firstFinding? net rs key := by
  rw [firstFinding?_concat, own]
  by_cases same : r.key = key
  · subst same
    rw [h, if_pos rfl, Option.none_or]
  · rw [if_neg same, if_neg same, Option.or_none]

theorem foundKeys_concat_new {rs : List Request} {r : Request} {f : Finding}
    (h : firstFinding? net rs r.key = none) (own : r.finding? net = some f) :
    foundKeys net (rs ++ [r]) = foundKeys net rs ++ [r.key] := by
  have fresh : r.key ∉ foundKeys net rs := by
    rw [mem_foundKeys, h]
    exact Bool.false_ne_true
  rw [foundKeys, List.mem_eraseDups] at fresh
  simp only [foundKeys, List.filter_append, List.filter_singleton, own, Option.isSome_some,
    cond_true, List.map_append, List.map_singleton, eraseDups_concat, if_neg fresh]

theorem offsetsOf?_concat_new {rs : List Request} {r : Request} {f : Finding}
    (h : firstFinding? net rs r.key = none) (own : r.finding? net = some f) (key : Pattern) :
    offsetsOf? net (rs ++ [r]) key =
      if r.key = key then f.offsets? else offsetsOf? net rs key := by
  rw [offsetsOf?, firstFinding?_concat_new h own]
  by_cases same : r.key = key
  · rw [if_pos same, if_pos same, Option.bind_some]
  · rw [if_neg same, if_neg same, offsetsOf?]

theorem matchedKeys_concat_new {rs : List Request} {r : Request} {f : Finding}
    (h : firstFinding? net rs r.key = none) (own : r.finding? net = some f) :
    matchedKeys net (rs ++ [r]) =
      matchedKeys net rs ++ (if f.offsets?.isSome then [r.key] else []) := by
  have fresh : r.key ∉ foundKeys net rs := by
    rw [mem_foundKeys, h]
    exact Bool.false_ne_true
  have others : ∀ key ∈ foundKeys net rs, (offsetsOf? net (rs ++ [r]) key).isSome =
      (offsetsOf? net rs key).isSome := by
    intro key member
    have other : r.key ≠ key := fun same => fresh (same ▸ member)
    rw [offsetsOf?_concat_new h own, if_neg other]
  rw [matchedKeys, foundKeys_concat_new h own, List.filter_append, List.filter_congr others,
    List.filter_singleton, offsetsOf?_concat_new h own, if_pos rfl, matchedKeys]
  cases f.offsets?.isSome <;> rfl

theorem matchedOffsets_concat_new {rs : List Request} {r : Request} {f : Finding}
    (h : firstFinding? net rs r.key = none) (own : r.finding? net = some f) :
    matchedOffsets net (rs ++ [r]) = matchedOffsets net rs ++ f.offsets?.toList := by
  have others : ∀ key ∈ matchedKeys net rs,
      (offsetsOf? net (rs ++ [r]) key).getD [] = (offsetsOf? net rs key).getD [] := by
    intro key member
    have other : r.key ≠ key := by
      intro same
      simp [mem_matchedKeys, ← same, offsetsOf?, h] at member
    simp [offsetsOf?_concat_new h own, other]
  have new : offsetsOf? net (rs ++ [r]) r.key = f.offsets? := by
    simp [offsetsOf?_concat_new h own]
  rw [matchedOffsets, matchedKeys_concat_new h own, List.map_append, List.map_congr_left others]
  cases offsets : f.offsets? with
  | none => simp [matchedOffsets]
  | some list => simp [matchedOffsets, new, offsets]

theorem entryOf?_concat_new {rs : List Request} {r : Request} {f : Finding} (size : Nat)
    (h : firstFinding? net rs r.key = none) (own : r.finding? net = some f) (key : Pattern) :
    entryOf? net size (rs ++ [r]) key =
      if r.key = key then some (f.entry (size + (matchedKeys net rs).length))
      else entryOf? net size rs key := by
  have fresh : r.key ∉ matchedKeys net rs := by
    rw [mem_matchedKeys, offsetsOf?, h]
    exact Bool.false_ne_true
  rw [entryOf?, firstFinding?_concat_new h own, matchedKeys_concat_new h own]
  by_cases same : r.key = key
  · subst same
    rw [if_pos rfl, if_pos rfl, Option.map_some]
    refine congrArg some (Finding.entry_congr fun matched => ?_)
    rw [if_pos matched, List.idxOf_append_of_notMem fresh, List.idxOf_cons_self, Nat.add_zero]
  · rw [if_neg same, if_neg same, entryOf?]
    cases found : firstFinding? net rs key with
    | none => rfl
    | some g =>
      refine congrArg some (Finding.entry_congr fun matched => ?_)
      -- a key with offsets keeps its place among the others
      have member : key ∈ matchedKeys net rs := by
        rw [mem_matchedKeys, offsetsOf?, found]
        exact matched
      rw [List.idxOf_append_of_mem member]

/-- An entry stays. -/
theorem entryOf?_concat {size : Nat} {rs : List Request} {key : Pattern} {e : Entry}
    (h : entryOf? net size rs key = some e) (r : Request) :
    entryOf? net size (rs ++ [r]) key = some e := by
  cases known : firstFinding? net rs r.key with
  | some f => rw [entryOf?_concat_old size (.inl (known ▸ rfl)), h]
  | none =>
    cases own : r.finding? net with
    | none => rw [entryOf?_concat_old size (.inr own), h]
    | some f =>
      have other : r.key ≠ key := by
        intro same
        simp [← same, entryOf?, known] at h
      rw [entryOf?_concat_new size known own, if_neg other, h]

theorem entryOf?_append {size : Nat} {rs : List Request} {key : Pattern} {e : Entry}
    (h : entryOf? net size rs key = some e) (more : List Request) :
    entryOf? net size (rs ++ more) key = some e := by
  induction more using List.reverseRecOn with
  | nil => rwa [List.append_nil]
  | append_singleton more r ih =>
    rw [← List.append_assoc]
    exact entryOf?_concat ih r

end Findings

end Ledger
end StopAlign
