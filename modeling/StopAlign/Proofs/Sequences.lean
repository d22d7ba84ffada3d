import Mathlib.Data.List.Induction
import Mathlib.Data.List.Sort
import Mathlib.Data.Prod.Lex
import StopAlign.Sort

/-!
# Sequences — first appearances and stable order

- `eraseDups_concat`, `nodup_eraseDups` : the distinct members of a list that grows at its end
- `find?_erase_of_not`                  : a search goes past a member that it does not look for
- `map_modify_idxOf`                    : one more step for one key of a table
- `StableOrder`                         : a list in the order of a key, equal keys in input order
- `StableOrder.eq`                      : there is only one such list
- `StableOrder.rekey`, `StableOrder.within` : the same order by another key; the order in a group
- `stableOrder_stableSort`              : what the stable sort does
- `stableSort_congr`, `stableSort_perm` : the same order by another comparison, or from another list
-/

namespace StopAlign

section FirstSeen

variable {κ : Type} [DecidableEq κ]

/-! ## First appearances -/

theorem eraseDups_concat (keys : List κ) (k : κ) :
    (keys ++ [k]).eraseDups = if k ∈ keys then keys.eraseDups else keys.eraseDups ++ [k] := by
  rw [List.eraseDups_append]
  by_cases seen : k ∈ keys
  · have nothing : [k].removeAll keys = [] := by simp [List.removeAll, seen]
    rw [nothing, if_pos seen]
    simp
  · have itself : [k].removeAll keys = [k] := by simp [List.removeAll, seen]
    rw [itself, if_neg seen]
    simp [List.eraseDups_cons]

theorem nodup_eraseDups (keys : List κ) : keys.eraseDups.Nodup := by
  induction keys using List.reverseRecOn with
  | nil => exact List.nodup_nil
  | append_singleton keys k ih =>
    rw [eraseDups_concat]
    by_cases seen : k ∈ keys
    · rw [if_pos seen]
      exact ih
    · rw [if_neg seen]
      refine List.nodup_append.mpr ⟨ih, List.nodup_singleton k, ?_⟩
      intro a ha b hb same
      have hk : b = k := List.mem_singleton.mp hb
      exact seen (hk ▸ same ▸ List.mem_eraseDups.mp ha)

/-- Of distinct keys only one has its value changed. -/
theorem map_modify_idxOf {α : Type} (keys : List κ) (distinct : keys.Nodup) (k : κ) (f : κ → α)
    (g : α → α) :
    (keys.map f).modify (keys.idxOf k) g = keys.map fun j => if j = k then g (f j) else f j := by
  induction keys with
  | nil => rfl
  | cons first rest ih =>
    rcases List.nodup_cons.mp distinct with ⟨fresh, later⟩
    by_cases here : first = k
    · subst here
      have others : rest.map f = rest.map fun j => if j = first then g (f j) else f j := by
        apply List.map_congr_left
        intro j hj
        have other : j ≠ first := fun same => fresh (same ▸ hj)
        rw [if_neg other]
      simp [List.idxOf_cons_self, ← others]
    · rw [List.idxOf_cons_ne rest here, List.map_cons, List.map_cons, if_neg here,
        List.modify_succ_cons, ih later]

theorem find?_erase_of_not {p : κ → Bool} {k : κ} (h : p k = false) (keys : List κ) :
    (keys.erase k).find? p = keys.find? p := by
  induction keys with
  | nil => rfl
  | cons head keys ih =>
    by_cases same : head = k
    · subst same
      simp [h]
    · rw [List.erase_cons_tail (by simpa using same), List.find?_cons, List.find?_cons, ih]

end FirstSeen

/-! ## Stable order -/

/-- The second list is the first one in the order of a key, where members of equal key keep their
order. -/
structure StableOrder {α κ : Type} [LinearOrder κ] (key : α → κ) (xs ys : List α) : Prop where
  perm : ys.Perm xs
  ascending : ys.Pairwise fun a b => key a ≤ key b
  stable : ∀ k, (ys.filter fun a => key a = k) = xs.filter fun a => key a = k

variable {α κ : Type} [LinearOrder κ]

/-- A list that ascends is in order. -/
theorem StableOrder.refl_of_lt (key : α → κ) (xs : List α)
    (ascends : xs.Pairwise fun a b => key a < key b) : StableOrder key xs xs where
  perm := List.Perm.refl xs
  ascending := ascends.imp fun h => le_of_lt h
  stable := fun _ => rfl

/-- Of all lists with the same members, the stable order is one. -/
theorem StableOrder.eq {key : α → κ} {xs ys zs : List α} (h : StableOrder key xs ys)
    (h' : StableOrder key xs zs) : ys = zs := by
  have perm := h.perm.trans h'.perm.symm
  have level : ∀ k, (ys.filter fun a => key a = k) = zs.filter fun a => key a = k :=
    fun k => (h.stable k).trans (h'.stable k).symm
  have up := h.ascending
  have up' := h'.ascending
  clear h h'
  induction ys generalizing zs with
  | nil => exact perm.nil_eq
  | cons y ys ih =>
    cases zs with
    | nil => exact absurd perm (List.not_perm_cons_nil)
    | cons z zs =>
      rcases List.pairwise_cons.mp up with ⟨first, rest⟩
      rcases List.pairwise_cons.mp up' with ⟨first', rest'⟩
      -- both heads are least, and so are the first ones of the same key
      have le : key y ≤ key z := by
        rcases List.mem_cons.mp (perm.mem_iff.mpr List.mem_cons_self) with same | member
        · rw [same]
        · exact first z member
      have ge : key z ≤ key y := by
        rcases List.mem_cons.mp (perm.mem_iff.mp List.mem_cons_self) with same | member
        · rw [same]
        · exact first' y member
      have tie := le_antisymm ge le
      have heads := level (key y)
      simp only [List.filter_cons, tie, decide_true, if_true, List.cons.injEq] at heads
      rcases heads with ⟨rfl, -⟩
      refine congrArg (y :: ·) (ih perm.cons_inv (fun k => ?_) rest rest')
      have here := level k
      simp only [List.filter_cons] at here
      split_ifs at here
      · exact (List.cons.inj here).2
      · exact here

/-- A key that compares the members alike puts them in the same order. -/
theorem StableOrder.rekey {κ' : Type} [LinearOrder κ'] {key : α → κ} {key' : α → κ'}
    {xs ys : List α} (h : StableOrder key xs ys)
    (alike : ∀ a ∈ xs, ∀ b ∈ xs, key a ≤ key b ↔ key' a ≤ key' b) : StableOrder key' xs ys where
  perm := h.perm
  ascending := h.ascending.imp_of_mem fun {a b} ha hb le =>
    (alike a (h.perm.mem_iff.mp ha) b (h.perm.mem_iff.mp hb)).mp le
  stable := by
    intro k
    by_cases some : ∃ a ∈ xs, key' a = k
    · rcases some with ⟨a, ha, rfl⟩
      have ties : ∀ b ∈ xs, decide (key' b = key' a) = decide (key b = key a) := by
        intro b hb
        rw [decide_eq_decide, le_antisymm_iff, le_antisymm_iff, alike a ha b hb, alike b hb a ha]
      rw [List.filter_congr ties, List.filter_congr fun b hb => ties b (h.perm.mem_iff.mp hb)]
      exact h.stable (key a)
    · have none : ∀ zs : List α, (∀ b ∈ zs, b ∈ xs) → (zs.filter fun b => key' b = k) = [] :=
        fun zs among => List.filter_eq_nil_iff.mpr fun b hb same =>
          some ⟨b, among b hb, of_decide_eq_true same⟩
      rw [none xs fun _ hb => hb, none ys fun _ hb => h.perm.mem_iff.mp hb]

/-- In a group that the order puts together, the members are in the order of the rest of the key. -/
theorem StableOrder.within {σ : Type} [LinearOrder σ] {group : α → σ} {key : α → κ}
    {xs ys : List α} (h : StableOrder (fun a => toLex (group a, key a)) xs ys) (p : α → Bool)
    {s : σ} (one : ∀ a ∈ xs, p a = true → group a = s) :
    StableOrder key (xs.filter p) (ys.filter p) := by
  have one' : ∀ a ∈ ys, p a = true → group a = s := fun a ha => one a (h.perm.mem_iff.mp ha)
  have among : ∀ zs : List α, (∀ a ∈ zs, p a = true → group a = s) → ∀ k,
      ((zs.filter p).filter fun a => key a = k) =
        (zs.filter fun a => toLex (group a, key a) = toLex (s, k)).filter p := by
    intro zs here k
    rw [List.filter_filter, List.filter_filter]
    refine List.filter_congr fun a ha => ?_
    cases member : p a with
    | false => simp
    | true => simp [here a ha member]
  refine ⟨h.perm.filter p, ?_, fun k => ?_⟩
  · rw [List.pairwise_filter]
    refine h.ascending.imp_of_mem fun {a b} ha hb le hpa hpb => ?_
    rcases Prod.Lex.toLex_le_toLex.mp le with less | ⟨-, order⟩
    · exact absurd less (by rw [one' a ha hpa, one' b hb hpb]; exact lt_irrefl s)
    · exact order
  · rw [among ys one', among xs one, h.stable]

theorem stableOrder_stableSort (key : α → κ) (xs : List α) :
    StableOrder key xs (stableSort (fun a b => key a ≤ key b) xs) := by
  have trans : ∀ a b c : α, decide (key a ≤ key b) = true → decide (key b ≤ key c) = true →
      decide (key a ≤ key c) = true := by
    intro a b c hab hbc
    exact decide_eq_true (le_trans (of_decide_eq_true hab) (of_decide_eq_true hbc))
  have total : ∀ a b : α, (decide (key a ≤ key b) || decide (key b ≤ key a)) = true := by
    intro a b
    rcases le_total (key a) (key b) with h | h <;> simp [h]
  rw [stableSort_eq]
  have perm := List.mergeSort_perm xs fun a b => decide (key a ≤ key b)
  refine ⟨perm, ?_, ?_⟩
  · exact (List.pairwise_mergeSort trans total xs).imp fun h => of_decide_eq_true h
  · intro k
    -- members of one key are in order already, so sorting keeps them as a sublist
    have level : (xs.filter fun a => key a = k).Pairwise fun a b => decide (key a ≤ key b) := by
      apply List.pairwise_of_forall_mem_list
      intro a ha b hb
      have hak : key a = k := by simpa using (List.mem_filter.mp ha).2
      have hbk : key b = k := by simpa using (List.mem_filter.mp hb).2
      exact decide_eq_true (hak.trans hbk.symm).le
    have kept := (List.sublist_mergeSort trans total level List.filter_sublist).filter
      fun a => key a = k
    rw [List.filter_filter] at kept
    simp only [Bool.and_self] at kept
    exact (kept.eq_of_length (perm.filter _).length_eq.symm).symm

/-- Comparisons that agree on the members of a list sort it alike. -/
theorem stableSort_congr {le le' : α → α → Bool} {xs : List α}
    (same : ∀ a ∈ xs, ∀ b ∈ xs, le a b = le' a b) : stableSort le xs = stableSort le' xs := by
  have sorts := List.map_mergeSort (f := id) same
  simpa only [stableSort_eq, List.map_id] using sorts

/-- Where no two members share a key, the order of the list does not matter. -/
theorem stableSort_perm (key : α → κ) {xs ys : List α} (perm : xs.Perm ys)
    (distinct : ∀ a ∈ xs, ∀ b ∈ xs, key a = key b → a = b) :
    stableSort (fun a b => key a ≤ key b) xs = stableSort (fun a b => key a ≤ key b) ys := by
  have left := stableOrder_stableSort key xs
  have right := stableOrder_stableSort key ys
  refine List.Perm.eq_of_pairwise ?_ left.ascending right.ascending
    (left.perm.trans (perm.trans right.perm.symm))
  intro a b ha hb le ge
  have among : b ∈ xs := perm.mem_iff.mpr (right.perm.mem_iff.mp hb)
  exact distinct a (left.perm.mem_iff.mp ha) b among (le_antisymm le ge)

end StopAlign
