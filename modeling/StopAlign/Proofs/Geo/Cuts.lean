import StopAlign.Proofs.Geo.Nearest

/-!
# Cuts — in which order the cuts of a line lie

- `fraction`, `along`   : how far along a segment its closest point lies
- `Ahead`, `Onward`     : not being before another place on the way between two ends
- `onward_along`        : a larger fraction leads no less far, rounded as it is
- `cutsFrom_searched`   : where each cut is searched
- `cuts_order`          : segments never go back, and on one segment the fractions decide
- `cuts_back`           : two cuts on one segment of which the second goes back

The search for a cut begins with the segment of the previous one, not with the previous cut, so that
two cuts on one segment lie as the projections of their waypoints do.
-/

namespace StopAlign

open Outcome Number Float.Model

/-! ## The way along a segment -/

/-- A share of a way, from its start on. -/
structure Share (t : Float) : Prop where
  finite : t.isFinite = true
  nonneg : 0 ≤ t

theorem Share.place {t : Float} (share : Share t) : stand 0 0 0 ≤ place t :=
  (le_iff_place (by decide +kernel) (isNaN_of_isFinite share.finite)).mp share.nonneg

/-- The coordinate `y` is not before `x` on the way from `a` to `b`. -/
def Ahead (a b x y : Float) : Prop := (a ≤ b → ¬ y < x) ∧ (b ≤ a → ¬ x < y)

/-- The place `y` is not before `x` on the way from `a` to `b`. -/
def Onward (a b x y : Point) : Prop :=
  Ahead a.lat b.lat x.lat y.lat ∧ Ahead a.lon b.lon x.lon y.lon

section Way

variable {a b t u : Float}

theorem sub_up (up : a ≤ b) (number : (b - a).isNaN = false) : stand 0 0 0 ≤ place (b - a) := by
  rcases isNaN_of_le up with ⟨ha, hb⟩
  exact standing_sub_nonneg ⟨canonical_float a, canonical_float b⟩ number ha hb
    ((le_iff_place ha hb).mp up)

theorem sub_down (down : b ≤ a) (number : (b - a).isNaN = false) :
    place (b - a) ≤ stand 0 0 0 := by
  rcases isNaN_of_le down with ⟨hb, ha⟩
  exact standing_sub_nonpos ⟨canonical_float a, canonical_float b⟩ number ha hb
    ((le_iff_place hb ha).mp down)

/-- A share of the way is ahead of its start. -/
theorem ahead_start (share : Share t) : Ahead a b a (a + t * (b - a)) := by
  have canonical := And.intro (canonical_float a) (canonical_float (t * (b - a)))
  have canonical' := And.intro (canonical_float t) (canonical_float (b - a))
  constructor
  · intro up
    refine not_lt_of_place fun _ number => ?_
    have step := (isNaN_of_add number).2
    have width := isNaN_of_mul step
    exact standing_le_add canonical number
      ((standing_mul_sign canonical' share.finite share.place step).1 (sub_up up width))
  · intro down
    refine not_lt_of_place fun number _ => ?_
    have step := (isNaN_of_add number).2
    have width := isNaN_of_mul step
    exact standing_add_le canonical number
      ((standing_mul_sign canonical' share.finite share.place step).2 (sub_down down width))

/-- A larger share of the way is ahead of a smaller one. -/
theorem ahead_way (share : Share t) (share' : Share u) (le : t ≤ u) :
    Ahead a b (a + t * (b - a)) (a + u * (b - a)) := by
  have canonical := And.intro (canonical_float t) (And.intro (canonical_float u)
    (canonical_float (b - a)))
  have order : place t ≤ place u :=
    (le_iff_place (isNaN_of_isFinite share.finite) (isNaN_of_isFinite share'.finite)).mp le
  have finite := And.intro share.finite share'.finite
  constructor
  · intro up
    refine add_not_lt (not_lt_self a) (not_lt_of_place fun number number' => ?_)
    exact (standing_mul_mono canonical finite share.place order number number').1
      (sub_up up (isNaN_of_mul number))
  · intro down
    refine add_not_lt (not_lt_self a) (not_lt_of_place fun number' number => ?_)
    exact (standing_mul_mono canonical finite share.place order number number').2
      (sub_down down (isNaN_of_mul number))

end Way

/-! ## Fractions -/

/-- How far along the segment from `a` to `b` the point that is closest to `p` lies. A segment
without length has no fractions. -/
def fraction (scale : Float) (p a b : Point) : Option Float :=
  let ax := (a.lon - p.lon) * scale
  let ay := a.lat - p.lat
  let dx := (b.lon - p.lon) * scale - ax
  let dy := b.lat - p.lat - ay
  let square := dx * dx + dy * dy
  if square == 0 then none else some (clamp (-(ax * dx + ay * dy) / square))

def fractionOn (p a b : Point) : Except Fault (Option Float) := do
  let scale ← cosineOf (radians p.lat)
  return fraction scale p a b

/-- The point at a fraction of a segment, its start if there are none. -/
def along (a b : Point) : Option Float → Point
  | none => a
  | some t => ⟨a.lat + t * (b.lat - a.lat), a.lon + t * (b.lon - a.lon)⟩

/-- No fraction counts as the smallest one. -/
def NotAfter : Option Float → Option Float → Prop
  | none, _ => True
  | some _, none => False
  | some t, some u => t ≤ u

theorem closestOnSegment_eq (scale : Float) (p a b : Point) :
    closestOnSegment scale p a b = along a b (fraction scale p a b) := by
  unfold closestOnSegment closestBy fraction
  dsimp only
  split_ifs <;> rfl

theorem closestPointOn_eq_ok {p a b q : Point} (h : closestPointOn p a b = .ok q) :
    ∃ t, fractionOn p a b = .ok t ∧ q = along a b t := by
  rcases bind_eq_ok.mp h with ⟨scale, cosine, last⟩
  cases last
  exact ⟨_, bind_eq_ok.mpr ⟨scale, cosine, rfl⟩, closestOnSegment_eq scale p a b⟩

theorem isFinite_of_lt {t : Float} (low : 0 < t) (high : t < 1) : t.isFinite = true := by
  have number := (isNaN_of_lt low).2
  have order : standing (.zero .positive) ≤ place t :=
    (le_iff_place (isNaN_of_lt low).1 number).mp (le_of_lt_float low)
  refine (isFinite_of_between (x := .zero .positive) rfl number order (by simp) ?_).2
  intro infinite
  have above : place t < place 1 := (lt_iff_place number (isNaN_of_lt high).2).mp high
  rw [place, infinite] at above
  exact absurd above (by decide +kernel)

/-- A parameter is cut back to a share of the segment. -/
theorem share_clamp (t : Float) : Share (clamp t) := by
  unfold clamp
  dsimp only
  split_ifs with less low low
  · exact ⟨isFinite_of_lt low less, le_of_lt_float low⟩
  · exact ⟨by decide +kernel, by decide +kernel⟩
  · exact ⟨by decide +kernel, by decide +kernel⟩
  · exact ⟨by decide +kernel, by decide +kernel⟩

theorem share_fractionOn {p a b : Point} {x : Option Float} (h : fractionOn p a b = .ok x) :
    ∀ t, x = some t → Share t := by
  rcases bind_eq_ok.mp h with ⟨scale, -, last⟩
  cases last
  intro t here
  unfold fraction at here
  dsimp only at here
  split_ifs at here
  cases here
  exact share_clamp _

theorem onward_along {a b : Point} {x y : Option Float} (shareX : ∀ t, x = some t → Share t)
    (shareY : ∀ t, y = some t → Share t) (order : NotAfter x y) :
    Onward a b (along a b x) (along a b y) := by
  cases x with
  | none =>
    cases y with
    | none =>
      have still (a b x : Float) : Ahead a b x x :=
        ⟨fun _ => not_lt_self x, fun _ => not_lt_self x⟩
      exact ⟨still _ _ _, still _ _ _⟩
    | some u => exact ⟨ahead_start (shareY u rfl), ahead_start (shareY u rfl)⟩
  | some t =>
    cases y with
    | none => exact order.elim
    | some u =>
      exact ⟨ahead_way (shareX t rfl) (shareY u rfl) order,
        ahead_way (shareX t rfl) (shareY u rfl) order⟩

theorem notAfter_total {x y : Option Float} (shareX : ∀ t, x = some t → Share t)
    (shareY : ∀ t, y = some t → Share t) : NotAfter x y ∨ NotAfter y x := by
  cases x with
  | none => exact .inl trivial
  | some t =>
    cases y with
    | none => exact .inr trivial
    | some u =>
      have number := isNaN_of_isFinite (shareX t rfl).finite
      have number' := isNaN_of_isFinite (shareY u rfl).finite
      exact (le_total (place t) (place u)).imp (le_iff_place number number').mpr
        (le_iff_place number' number).mpr

/-! ## Cuts -/

namespace Polyline

/-- A cut at a waypoint, searched from a segment on. -/
structure Searched (whole : Polyline) (start : Nat) (p : Point) (cut : Cut) : Prop where
  found : ∃ best, nearest p (whole.drop start) = .ok best ∧
    cut = ⟨best.point, start + best.leg.index⟩

/-- A cut lies on its segment. -/
theorem Searched.ends {whole : Polyline} {start : Nat} {p : Point} {cut : Cut}
    (h : Searched whole start p cut) :
    start ≤ cut.segment ∧ ∃ a b, whole[cut.segment]? = some a ∧
      whole[cut.segment + 1]? = some b ∧ closestPointOn p a b = .ok cut.point := by
  rcases h.found with ⟨best, near, rfl⟩
  have nearest := nearest_eq_ok.mp near
  have ends := mem_legs.mp nearest.mem
  rw [List.getElem?_drop, List.getElem?_drop] at ends
  exact ⟨Nat.le_add_right _ _, _, _, ends.1, ends.2, (project_eq_ok.mp nearest.projected).2.1⟩

/-- The search for a cut begins with the segment of the previous one. -/
theorem cutsFrom_searched {whole : Polyline} {index : Nat} {waypoints : List Point}
    {found : List Cut} (h : cutsFrom index (whole.drop index) waypoints = .ok found) {k : Nat}
    {cut : Cut} {start : Nat} (here : found[k]? = some cut)
    (previous : (index :: found.map (·.segment))[k]? = some start) :
    ∃ p, waypoints[k]? = some p ∧ Searched whole start p cut := by
  induction waypoints generalizing index found k with
  | nil =>
    cases h
    cases here
  | cons p rest ih =>
    rcases bind_eq_ok.mp h with ⟨best, near, h⟩
    rcases bind_eq_ok.mp h with ⟨later, searched, last⟩
    cases last
    cases k with
    | zero =>
      cases here
      cases previous
      exact ⟨p, rfl, best, near, rfl⟩
    | succ k =>
      rw [List.drop_drop] at searched
      exact ih searched here previous

/-- Where two waypoints are cut on one segment: at their fractions, so that no cut is before the
other if its fraction is not. -/
def InTurn (a b p q c d : Point) : Prop :=
  ∃ t u, fractionOn p a b = .ok t ∧ fractionOn q a b = .ok u ∧ c = along a b t ∧ d = along a b u ∧
    (NotAfter t u ∨ NotAfter u t) ∧ (NotAfter t u → Onward a b c d) ∧
    (NotAfter u t → Onward a b d c)

theorem inTurn_of_closest {a b p q c d : Point} (first : closestPointOn p a b = .ok c)
    (second : closestPointOn q a b = .ok d) : InTurn a b p q c d := by
  rcases closestPointOn_eq_ok first with ⟨t, at', rfl⟩
  rcases closestPointOn_eq_ok second with ⟨u, at'', rfl⟩
  have share := share_fractionOn at'
  have share' := share_fractionOn at''
  exact ⟨t, u, at', at'', rfl, rfl, notAfter_total share share', onward_along share share',
    onward_along share' share⟩

/-- One cut for each waypoint. A cut is searched from the segment of the previous one on, and lies
there or on a later segment. On one segment two cuts lie as the fractions of their waypoints do, be
it forwards or backwards. -/
theorem cuts_order {whole : Polyline} {waypoints : List Point} {found : List Cut}
    (two : 2 ≤ whole.length) (h : cuts whole waypoints = .ok found) :
    found.length = waypoints.length ∧
      ∀ k c d, found[k]? = some c → found[k + 1]? = some d →
        ∃ p q, waypoints[k]? = some p ∧ waypoints[k + 1]? = some q ∧
          Searched whole c.segment q d ∧
          (c.segment < d.segment ∨
            c.segment = d.segment ∧ ∃ a b, whole[c.segment]? = some a ∧
              whole[c.segment + 1]? = some b ∧ InTurn a b p q c.point d.point) := by
  unfold cuts at h
  rw [if_neg (Nat.not_lt.mpr two)] at h
  refine ⟨(cutsFrom_segments h).1, fun k c d here next => ?_⟩
  obtain ⟨start, previous⟩ : ∃ start, (0 :: found.map (·.segment))[k]? = some start := by
    have within := (List.getElem?_eq_some_iff.mp here).1
    exact ⟨_, List.getElem?_eq_getElem (by rw [List.length_cons, List.length_map]; omega)⟩
  have segment : (0 :: found.map (·.segment))[k + 1]? = some c.segment := by
    rw [List.getElem?_cons_succ, List.getElem?_map, here]
    rfl
  rw [← List.drop_zero (l := whole)] at h
  rcases cutsFrom_searched h here previous with ⟨p, atP, searched⟩
  rcases cutsFrom_searched h next segment with ⟨q, atQ, searched'⟩
  rcases searched.ends with ⟨-, a, b, first, second, closest⟩
  rcases searched'.ends with ⟨onward, a', b', first', second', closest'⟩
  refine ⟨p, q, atP, atQ, searched', ?_⟩
  rcases onward.lt_or_eq with later | same
  · exact .inl later
  · rw [← same] at first' second'
    cases first.symm.trans first'
    cases second.symm.trans second'
    exact .inr ⟨same, a, b, first, second, inTurn_of_closest closest closest'⟩

/-- A line along the equator. -/
def eastward : Polyline := [⟨0, 0⟩, ⟨0, 0.001⟩, ⟨0, 0.002⟩, ⟨0, 0.003⟩, ⟨0, 0.004⟩]

/-- Two waypoints beside the third segment, in the order of the line. -/
theorem cuts_order_eastward :
    2 ≤ eastward.length ∧ ∃ c d,
      cuts eastward [⟨0.0001, 0.0025⟩, ⟨0.0001, 0.0027⟩] = .ok [c, d] ∧ c.segment = 2 ∧
        d.segment = 2 ∧ Searched eastward 2 ⟨0.0001, 0.0027⟩ d ∧
        InTurn ⟨0, 0.002⟩ ⟨0, 0.003⟩ ⟨0.0001, 0.0025⟩ ⟨0.0001, 0.0027⟩ c.point d.point := by
  refine ⟨by decide, ?_⟩
  have third : (cuts eastward [⟨0.0001, 0.0025⟩, ⟨0.0001, 0.0027⟩]).toOption.map
      (·.map (·.segment)) = some [2, 2] := by
    decide +kernel
  cases h : cuts eastward [⟨0.0001, 0.0025⟩, ⟨0.0001, 0.0027⟩] with
  | error fault =>
    rw [h] at third
    cases third
  | ok found =>
    rw [h] at third
    have segments : found.map (·.segment) = [2, 2] := Option.some.inj third
    match found, segments with
    | [⟨c, 2⟩, ⟨d, 2⟩], _ =>
      rcases (cuts_order (by decide) h).2 0 _ _ rfl rfl with
        ⟨p, q, first, second, searched, later | ⟨-, a, b, start, finish, turn⟩⟩
      · exact absurd later (Nat.lt_irrefl 2)
      · cases first
        cases second
        cases start
        cases finish
        exact ⟨_, _, rfl, rfl, rfl, searched, turn⟩

/-- A waypoint behind the previous one is cut on the same segment, but before it: its cut goes back
to the start of the segment. -/
theorem cuts_back :
    (cuts eastward [⟨0.0001, 0.0025⟩, ⟨0.0001, 0.0005⟩]).toOption.map
        (·.map fun c => (c.point, c.segment)) =
      some [(⟨0, 0.0025⟩, 2), (⟨0, 0.002⟩, 2)] ∧
    eastward[2]? = some ⟨0, 0.002⟩ ∧ eastward[3]? = some ⟨0, 0.003⟩ ∧
      ¬ Onward ⟨0, 0.002⟩ ⟨0, 0.003⟩ ⟨0, 0.0025⟩ ⟨0, 0.002⟩ := by
  refine ⟨by decide +kernel, by decide, by decide, fun onward => ?_⟩
  exact onward.2.1 (by decide +kernel) (by decide +kernel)

end Polyline

end StopAlign
