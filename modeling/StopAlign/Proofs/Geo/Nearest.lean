import StopAlign.Proofs.Geo.Distance
import StopAlign.Proofs.Number.Arithmetic
import StopAlign.Proofs.Number.Circle

/-!
# Nearest — the nearest segment of a line and of a part of it

- `FirstLeast`        : the first one of least key
- `firstLeast_foldl`  : keeping the better one of two finds it
- `greatCircle_bounds` : a distance is a finite number
- `nearest_eq_ok`     : what the nearest segment is
- `Part`              : a line that is a part of another one
- `nearest_part`      : on a part nothing is nearer than on the whole line
- `closestPoint_part` : if the nearest segment lies on a part, the closest point is the same there

A distance is always a number, so the segments of a line can be put in order by it.
-/

namespace StopAlign

open Outcome Number

/-! ## First of least key -/

/-- A member of least key, all before it with a larger one. -/
structure FirstLeast {α : Type} (key : α → Float) (xs : List α) (k : Nat) (best : α) : Prop where
  here : xs[k]? = some best
  least : ∀ x ∈ xs, key best ≤ key x
  first : ∀ j x, j < k → xs[j]? = some x → key best < key x

theorem FirstLeast.mem {α : Type} {key : α → Float} {xs : List α} {k : Nat} {best : α}
    (h : FirstLeast key xs k best) : best ∈ xs :=
  List.mem_of_getElem? h.here

/-- The member that is kept of two, the first one unless the second has a smaller key. -/
def keepLeast {α : Type} (key : α → Float) (best other : α) : α :=
  if key other < key best then other else best

/-- Going through the members keeps the first one of least key. -/
theorem firstLeast_foldl {α : Type} (key : α → Float) (first : α) (others : List α)
    (numbers : ∀ x ∈ first :: others, (key x).isNaN = false) :
    ∃ k, FirstLeast key (first :: others) k (others.foldl (keepLeast key) first) := by
  -- from the right: what is kept so far is the first one of least key of all before
  induction others using List.reverseRecOn with
  | nil =>
    have number := numbers first List.mem_cons_self
    refine ⟨0, rfl, fun x member => ?_, fun j x before _ => absurd before (Nat.not_lt_zero j)⟩
    rw [List.mem_singleton.mp member]
    exact le_of_not_below number number (not_lt_self _)
  | append_singleton others x ih =>
    rw [← List.cons_append] at numbers ⊢
    rcases ih fun y member => numbers y (List.mem_append_left _ member) with ⟨k, best⟩
    have number := numbers x (List.mem_append_right _ (List.mem_singleton.mpr rfl))
    rw [List.foldl_concat]
    generalize others.foldl (keepLeast key) first = r at best
    have number' := numbers r (List.mem_append_left _ best.mem)
    unfold keepLeast
    split_ifs with closer
    · refine ⟨(first :: others).length, List.getElem?_concat_length, fun s member => ?_,
        fun j s before here => ?_⟩
      · rcases List.mem_append.mp member with earlier | last
        · exact le_of_lt_float (lt_of_lt_le closer (best.least s earlier))
        · rw [List.mem_singleton.mp last]
          exact le_of_not_below number number (not_lt_self _)
      · rw [List.getElem?_append_left before] at here
        exact lt_of_lt_le closer (best.least s (List.mem_of_getElem? here))
    · have within := (List.getElem?_eq_some_iff.mp best.here).1
      refine ⟨k, ?_, fun s member => ?_, fun j s before here => ?_⟩
      · rw [List.getElem?_append_left within]
        exact best.here
      · rcases List.mem_append.mp member with earlier | last
        · exact best.least s earlier
        · rw [List.mem_singleton.mp last]
          exact le_of_not_below number' number closer
      · rw [List.getElem?_append_left (before.trans within)] at here
        exact best.first j s before here

/-- There is one member of least key that comes first. -/
theorem FirstLeast.unique {α : Type} {key : α → Float} {xs : List α} {k k' : Nat} {best best' : α}
    (h : FirstLeast key xs k best) (h' : FirstLeast key xs k' best') : best = best' := by
  rcases Nat.lt_trichotomy k k' with less | same | more
  · exact absurd (lt_of_lt_le (h'.first k best less h.here) (h.least best' h'.mem)) (not_lt_self _)
  · subst same
    exact Option.some.inj (h.here.symm.trans h'.here)
  · exact absurd (lt_of_lt_le (h.first k' best' more h'.here) (h'.least best h.mem)) (not_lt_self _)

/-- A distance is a finite number, never below zero. -/
theorem greatCircle_bounds {a b : Point} {metres : Float} (h : greatCircle a b = .ok metres) :
    0 ≤ metres ∧ metres < positiveInfinity := by
  unfold greatCircle at h
  rcases bind_eq_ok.mp h with ⟨_, -, h⟩
  rcases bind_eq_ok.mp h with ⟨_, -, h⟩
  rcases bind_eq_ok.mp h with ⟨_, -, h⟩
  rcases bind_eq_ok.mp h with ⟨_, -, h⟩
  rcases bind_eq_ok.mp h with ⟨root, rooted, last⟩
  cases last
  exact centralAngle_bounds rooted

namespace Polyline

/-! ## The nearest segment -/

theorem project_eq_ok {p : Point} {leg : Leg} {q : Projection} :
    leg.project p = .ok q ↔ q.leg = leg ∧ closestPointOn p leg.start leg.finish = .ok q.point ∧
      greatCircle p q.point = .ok q.distance := by
  constructor
  · intro h
    rcases bind_eq_ok.mp h with ⟨point, closest, h⟩
    rcases bind_eq_ok.mp h with ⟨distance, far, h⟩
    cases h
    exact ⟨rfl, closest, far⟩
  · rintro ⟨rfl, closest, far⟩
    exact bind_eq_ok.mpr ⟨_, closest, bind_eq_ok.mpr ⟨_, far, rfl⟩⟩

theorem distance_number {p : Point} {leg : Leg} {q : Projection} (h : leg.project p = .ok q) :
    q.distance.isNaN = false :=
  (isNaN_of_le (greatCircle_bounds (project_eq_ok.mp h).2.2).1).2

/-- The segments of a line have its neighbouring points as ends. -/
theorem getElem?_legsFrom {index k : Nat} {points : Polyline} {leg : Leg} :
    (legsFrom index points)[k]? = some leg ↔
      leg.index = index + k ∧ points[k]? = some leg.start ∧ points[k + 1]? = some leg.finish := by
  induction points generalizing index k with
  | nil => simp [legsFrom]
  | cons a tail ih =>
    cases tail with
    | nil => simp [legsFrom]
    | cons b rest =>
      cases k with
      | zero =>
        rcases leg with ⟨i, start, finish⟩
        simp only [legsFrom, List.getElem?_cons_zero, List.getElem?_cons_succ, Option.some.injEq,
          Leg.mk.injEq, Nat.add_zero]
        exact and_congr_left' eq_comm
      | succ k =>
        rw [legsFrom, List.getElem?_cons_succ, ih, Nat.add_right_comm, Nat.add_assoc]
        rfl

theorem mem_legs {points : Polyline} {leg : Leg} :
    leg ∈ legs points ↔
      points[leg.index]? = some leg.start ∧ points[leg.index + 1]? = some leg.finish := by
  constructor
  · intro member
    rcases List.mem_iff_getElem?.mp member with ⟨k, here⟩
    rcases getElem?_legsFrom.mp here with ⟨index, start, finish⟩
    rw [Nat.zero_add] at index
    rw [index]
    exact ⟨start, finish⟩
  · rintro ⟨start, finish⟩
    exact List.mem_of_getElem? (getElem?_legsFrom.mpr ⟨(Nat.zero_add _).symm, start, finish⟩)

theorem nearer_eq : Projection.nearer = keepLeast Projection.distance := rfl

/-- The projection onto the nearest segment of a line, the first one of several. -/
structure IsNearest (p : Point) (line : Polyline) (best : Projection) : Prop where
  mem : best.leg ∈ legs line
  projected : best.leg.project p = .ok best
  least : ∀ leg ∈ legs line, ∃ other, leg.project p = .ok other ∧
    best.distance ≤ other.distance ∧ (leg.index < best.leg.index → best.distance < other.distance)

theorem isNearest_of_nearest {p : Point} {line : Polyline} {best : Projection}
    (h : nearest p line = .ok best) : IsNearest p line best := by
  unfold nearest at h
  rcases bind_eq_ok.mp h with ⟨projections, all, h⟩
  match projections, h with
  | first :: others, h =>
    cases h
    have numbers : ∀ q ∈ first :: others, q.distance.isNaN = false := by
      intro q member
      rcases mem_of_mapM all member with ⟨leg, -, projected⟩
      exact distance_number projected
    rcases firstLeast_foldl Projection.distance first others numbers with ⟨k, best⟩
    rw [← nearer_eq] at best
    generalize others.foldl Projection.nearer first = q at best
    rcases getElem?_of_mapM all best.here with ⟨leg, at', projected⟩
    have own := leg_of_project projected
    have index := (getElem?_legsFrom.mp at').1
    refine ⟨own ▸ List.mem_of_getElem? at', own ▸ projected, fun other member => ?_⟩
    rcases List.mem_iff_getElem?.mp member with ⟨j, among⟩
    rcases getElem?_mapM all among with ⟨r, there, result⟩
    have index' := (getElem?_legsFrom.mp among).1
    refine ⟨r, result, best.least r (List.mem_of_getElem? there), fun earlier => ?_⟩
    rw [own, index, index'] at earlier
    exact best.first j r (by omega) there

theorem mem_legs_unique {points : Polyline} {leg leg' : Leg} (h : leg ∈ legs points)
    (h' : leg' ∈ legs points) (same : leg.index = leg'.index) : leg = leg' := by
  rw [mem_legs] at h h'
  rw [← same] at h'
  rcases leg with ⟨i, start, finish⟩
  rcases leg' with ⟨i', start', finish'⟩
  cases same
  cases h.1.symm.trans h'.1
  cases h.2.symm.trans h'.2
  rfl

theorem IsNearest.unique {p : Point} {line : Polyline} {best best' : Projection}
    (h : IsNearest p line best) (h' : IsNearest p line best') : best = best' := by
  rcases h.least _ h'.mem with ⟨q, result, le, first⟩
  rcases h'.least _ h.mem with ⟨q', result', le', first'⟩
  cases result.symm.trans h'.projected
  cases result'.symm.trans h.projected
  -- of two segments the later one would have to be strictly nearer
  have same : best.leg.index = best'.leg.index := by
    rcases Nat.lt_trichotomy best.leg.index best'.leg.index with less | same | more
    · exact absurd (lt_of_lt_le (first' less) le) (not_lt_self _)
    · exact same
    · exact absurd (lt_of_lt_le (first more) le') (not_lt_self _)
  have leg := mem_legs_unique h.mem h'.mem same
  exact Except.ok.inj (h.projected.symm.trans (leg ▸ h'.projected))

theorem nearest_eq_ok {p : Point} {line : Polyline} {best : Projection} :
    nearest p line = .ok best ↔ IsNearest p line best := by
  refine ⟨isNearest_of_nearest, fun h => ?_⟩
  rcases mapM_of_forall fun leg member => (h.least leg member).imp fun _ facts => facts.1 with
    ⟨projections, all⟩
  cases projections with
  | nil =>
    have none := (mapM_eq_ok all).length_eq
    rw [List.length_nil] at none
    exact absurd (List.length_pos_of_mem h.mem) (by omega)
  | cons first others =>
    have found : nearest p line = .ok (others.foldl Projection.nearer first) := by
      unfold nearest
      rw [all]
      rfl
    rw [found, (isNearest_of_nearest found).unique h]

/-! ## Parts of a line -/

/-- The points of a part, from the given index on. -/
structure Part (k : Nat) (part whole : Polyline) : Prop where
  points : ∀ i a, part[i]? = some a → whole[i + k]? = some a

def Leg.shift (k : Nat) (leg : Leg) : Leg := { leg with index := leg.index + k }

def Projection.shift (k : Nat) (q : Projection) : Projection := { q with leg := q.leg.shift k }

theorem project_shift {k : Nat} {p : Point} {leg : Leg} {q : Projection}
    (h : leg.project p = .ok q) : (leg.shift k).project p = .ok (q.shift k) := by
  rw [project_eq_ok] at h ⊢
  exact ⟨congrArg (Leg.shift k) h.1, h.2⟩

theorem project_of_shift {k : Nat} {p : Point} {leg : Leg} {q : Projection}
    (h : (leg.shift k).project p = .ok q) : leg.project p = .ok ⟨leg, q.point, q.distance⟩ := by
  rw [project_eq_ok] at h ⊢
  exact ⟨rfl, h.2⟩

theorem exists_nearest {p : Point} {line : Polyline} (two : 2 ≤ line.length)
    (all : ∀ leg ∈ legs line, ∃ q, leg.project p = .ok q) : ∃ best, nearest p line = .ok best := by
  cases found : nearest p line with
  | ok best => exact ⟨best, rfl⟩
  | error fault =>
    unfold nearest at found
    rcases bind_eq_error.mp found with failed | ⟨projections, measured, h⟩
    · rcases mapM_eq_error failed with ⟨leg, member, failed⟩
      rcases all leg member with ⟨q, projected⟩
      cases failed.symm.trans projected
    · have count : projections.length = line.length - 1 := by
        rw [← length_legsFrom 0 line]
        exact (mapM_eq_ok measured).length_eq.symm
      match projections, h with
      | [], _ =>
        rw [List.length_nil] at count
        omega

section Parts

variable {k : Nat} {p : Point} {part whole : Polyline} {best : Projection}

theorem Part.mem_legs (h : Part k part whole) {leg : Leg} (member : leg ∈ legs part) :
    leg.shift k ∈ legs whole := by
  rw [Polyline.mem_legs] at member ⊢
  refine ⟨h.points _ _ member.1, ?_⟩
  rw [show (leg.shift k).index + 1 = leg.index + 1 + k from Nat.add_right_comm _ _ _]
  exact h.points _ _ member.2

/-- A segment of the whole line that lies on a part is one of the part. -/
theorem Part.exists_leg (h : Part k part whole) {leg : Leg} (member : leg ∈ legs whole)
    (low : k ≤ leg.index) (high : leg.index + 1 < k + part.length) :
    ∃ own ∈ legs part, own.shift k = leg := by
  have own : ⟨leg.index - k, part[leg.index - k], part[leg.index - k + 1]⟩ ∈ legs part :=
    Polyline.mem_legs.mpr ⟨List.getElem?_eq_getElem _, List.getElem?_eq_getElem _⟩
  exact ⟨_, own, mem_legs_unique (h.mem_legs own) member (Nat.sub_add_cancel low)⟩

/-- On a part nothing is nearer than on the whole line. -/
theorem nearest_part (h : Part k part whole) (two : 2 ≤ part.length)
    (near : nearest p whole = .ok best) :
    ∃ own, nearest p part = .ok own ∧ best.distance ≤ own.distance := by
  have least := (nearest_eq_ok.mp near).least
  have all : ∀ leg ∈ legs part, ∃ q, leg.project p = .ok q := by
    intro leg member
    rcases least _ (h.mem_legs member) with ⟨q, projected, -⟩
    exact ⟨_, project_of_shift projected⟩
  rcases exists_nearest two all with ⟨own, found⟩
  have nearest := nearest_eq_ok.mp found
  rcases least _ (h.mem_legs nearest.mem) with ⟨q, projected, le, -⟩
  cases projected.symm.trans (project_shift nearest.projected)
  exact ⟨own, found, le⟩

/-- If the nearest segment lies on a part, it is the nearest one there. -/
theorem nearest_part_same (h : Part k part whole) (near : nearest p whole = .ok best)
    (low : k ≤ best.leg.index) (high : best.leg.index + 1 < k + part.length) :
    ∃ own, own.shift k = best ∧ nearest p part = .ok own := by
  rcases best with ⟨leg, point, distance⟩
  have nearest := nearest_eq_ok.mp near
  rcases h.exists_leg nearest.mem low high with ⟨own, member, rfl⟩
  refine ⟨⟨own, point, distance⟩, rfl, nearest_eq_ok.mpr ⟨member, ?_, fun other among => ?_⟩⟩
  · exact project_of_shift nearest.projected
  · rcases nearest.least _ (h.mem_legs among) with ⟨q, projected, le, first⟩
    exact ⟨_, project_of_shift projected, le, fun earlier => first (Nat.add_lt_add_right earlier k)⟩

/-- The closest point of a line of two points or more. -/
theorem closestPoint_eq_ok (two : 2 ≤ whole.length) {fit : Fit} :
    closestPoint p whole = .ok fit ↔ ∃ best toStart toFinish, nearest p whole = .ok best ∧
      greatCircle p best.leg.start = .ok toStart ∧ greatCircle p best.leg.finish = .ok toFinish ∧
      fit = ⟨if toStart ≤ toFinish then best.leg.index else best.leg.index + 1, best.distance⟩ := by
  unfold closestPoint
  rw [if_neg (Nat.not_lt.mpr two)]
  constructor
  · intro h
    rcases bind_eq_ok.mp h with ⟨best, near, h⟩
    rcases bind_eq_ok.mp h with ⟨toStart, start, h⟩
    rcases bind_eq_ok.mp h with ⟨toFinish, finish, h⟩
    refine ⟨best, toStart, toFinish, near, start, finish, ?_⟩
    split_ifs at h ⊢ <;> cases h <;> rfl
  · rintro ⟨best, toStart, toFinish, near, start, finish, rfl⟩
    refine bind_eq_ok.mpr ⟨best, near, bind_eq_ok.mpr ⟨toStart, start,
      bind_eq_ok.mpr ⟨toFinish, finish, ?_⟩⟩⟩
    split_ifs <;> rfl

/-- If the nearest segment lies on a part, the closest point is the same there, counted from the
part's beginning. -/
theorem closestPoint_part (h : Part k part whole) (near : nearest p whole = .ok best)
    (low : k ≤ best.leg.index) (high : best.leg.index + 1 < k + part.length) {fit : Fit}
    (two : 2 ≤ whole.length) (closest : closestPoint p whole = .ok fit) :
    closestPoint p part = .ok ⟨fit.offset - k, fit.distance⟩ := by
  rcases (closestPoint_eq_ok two).mp closest with ⟨b, toStart, toFinish, same, start, finish, rfl⟩
  cases near.symm.trans same
  rcases nearest_part_same h near low high with ⟨own, rfl, found⟩
  refine (closestPoint_eq_ok (by omega)).mpr ⟨own, toStart, toFinish, found, start, finish, ?_⟩
  simp only [Projection.shift, Leg.shift]
  split_ifs
  · simp
  · simp
    omega

end Parts

end Polyline
end StopAlign
