import StopAlign.Proofs.Dictionary
import StopAlign.Proofs.Shape.Renumbering
import StopAlign.Trip.Matching
import StopAlign.Trip.Segments

/-!
# Renumbering — trips on shapes with other indices

- `Network.Renumbered`   : two networks with the same shapes under other indices
- `Ledger.renumber`      : a ledger with other indices, likewise trips, patterns and answers
- `find_renumber`, `assign_renumber`, `matchTrips_renumber` : what is found is the same
- `offsetRow_renumber`, `matchedSegments_renumber` : and so is what is told of it

No step looks at an index but to find its shape or to compare it with another index, so that every
step goes with a renumbering that keeps different indices different.
-/

namespace StopAlign

/-- Networks with the same shapes under other indices, and with the same stops. -/
structure Network.Renumbered (σ : Int → Int) (net other : Network) : Prop where
  shapes : Renumbers σ net.pass other.pass net.store other.store
  stops : ∀ id, other.stops.find? id = net.stops.find? id
  strategy : other.strategy = net.strategy

/-! ## Other indices -/

def Trip.renumber (σ : Int → Int) (t : Trip) : Trip := { t with shape := t.shape.map σ }

def Pattern.renumber (σ : Int → Int) (p : Pattern) : Pattern := { p with shape := p.shape.map σ }

def Registered.renumber (σ : Int → Int) (r : Registered) : Registered :=
  { r with shape := r.shape.map σ }

def Ledger.renumber (σ : Int → Int) (l : Ledger) : Ledger :=
  { l with
    entries := l.entries.map (Pattern.renumber σ) id
    trips := l.trips.map id (Registered.renumber σ) }

def Answer.renumber (σ : Int → Int) (a : Answer) : Answer :=
  { a with ledger := a.ledger.renumber σ }

def Matching.renumber (σ : Int → Int) (m : Matching) : Matching :=
  { m with ledger := m.ledger.renumber σ }

theorem Pattern.renumber_injective {σ : Int → Int} (injective : Function.Injective σ) :
    Function.Injective (Pattern.renumber σ) := by
  intro p q same
  cases p with | mk shape stops =>
  cases q with | mk shape' stops' =>
  simp only [renumber, Pattern.mk.injEq] at same
  rw [Option.map_injective injective same.1, same.2]

@[simp]
theorem Pattern.plain_renumber (σ : Int → Int) (p : Pattern) :
    (p.renumber σ).plain = p.plain.renumber σ := rfl

@[simp]
theorem Trip.pattern_renumber (σ : Int → Int) (t : Trip) :
    (t.renumber σ).pattern = t.pattern.renumber σ := rfl

/-! ## Networks -/

namespace Network

variable {σ : Int → Int} {net other : Network} (renumbered : net.Renumbered σ other)

include renumbered

theorem places_renumber (stops : List Ident) : other.places stops = net.places stops := by
  induction stops with
  | nil => rfl
  | cons stop rest ih => simp only [places, renumbered.stops, ih]

theorem find_renumber (p : Pattern) (travelled : List Float) :
    other.find (p.renumber σ) travelled = net.find p travelled := by
  cases p with | mk shape stops =>
  cases shape with
  | none => rfl
  | some i =>
    simp only [find, Pattern.renumber, Option.map_some, renumbered.shapes.gaps,
      renumbered.shapes.shape, findByPlace, places_renumber renumbered, renumbered.strategy]

end Network

/-! ## Ledgers -/

namespace Ledger

variable {σ : Int → Int}

theorem registered?_renumber (l : Ledger) (trip : Ident) :
    (l.renumber σ).registered? trip = (l.registered? trip).map (Registered.renumber σ) :=
  Dictionary.find?_map Function.injective_id (Registered.renumber σ) l.trips trip.plain

@[simp]
theorem offsets?_renumber (l : Ledger) (trip : Ident) :
    (l.renumber σ).offsets? trip = l.offsets? trip := by
  rw [offsets?, offsets?, registered?_renumber, Option.bind_map]
  rfl

theorem shape?_renumber (l : Ledger) (trip : Ident) :
    (l.renumber σ).shape? trip = (l.shape? trip).map σ := by
  rw [shape?, shape?, registered?_renumber]
  cases l.registered? trip <;> rfl

theorem register_renumber (l : Ledger) (t : Trip) (entry : Entry) :
    (l.renumber σ).register (t.renumber σ) entry = (l.register t entry).renumber σ := by
  have trip : ((l.renumber σ).registered? t.id).map (·.trip) =
      (l.registered? t.id).map (·.trip) := by
    rw [registered?_renumber, Option.map_map]
    rfl
  simp only [register, Trip.renumber, trip]
  simp only [renumber, Dictionary.map_put Function.injective_id]
  rfl

variable (injective : Function.Injective σ)

include injective

theorem entry_renumber (l : Ledger) (p : Pattern) :
    (l.renumber σ).entries.find? (p.renumber σ) = l.entries.find? p := by
  have found := Dictionary.find?_map (Pattern.renumber_injective injective) id l.entries p
  rw [renumber, found, Option.map_id]
  rfl

theorem enter_renumber (l : Ledger) (p : Pattern) (f : Finding) :
    (l.renumber σ).enter (p.renumber σ) f = ((l.enter p f).1.renumber σ, (l.enter p f).2) := by
  have put := Dictionary.map_put (Pattern.renumber_injective injective) (id : Entry → Entry)
  cases f <;> simp [enter, renumber, put]

variable {net other : Network} (renumbered : net.Renumbered σ other)

include renumbered

theorem resolve_renumber (l : Ledger) (p : Pattern) (travelled : List Float) :
    (l.renumber σ).resolve other (p.renumber σ) travelled =
      (l.resolve net p travelled).renumber σ := by
  simp only [resolve, Pattern.plain_renumber, entry_renumber injective,
    Network.find_renumber renumbered]
  cases l.entries.find? p.plain with
  | some entry => rfl
  | none =>
    cases net.find p travelled with
    | error fault => rfl
    | ok finding =>
      simp only [enter_renumber injective]
      rfl

theorem assign_renumber (l : Ledger) (t : Trip) :
    (l.renumber σ).assign other (t.renumber σ) = (l.assign net t).renumber σ := by
  have travelled : (t.renumber σ).travelled = t.travelled := rfl
  simp only [assign, Trip.pattern_renumber, travelled, resolve_renumber injective renumbered]
  cases h : (l.resolve net t.pattern t.travelled).result with
  | error fault => simp only [Answer.renumber, h]
  | ok entry => simp only [Answer.renumber, h, register_renumber]; rfl

end Ledger

/-! ## A whole pass -/

section Pass

variable {σ : Int → Int} {net other : Network} (renumbered : net.Renumbered σ other)

include renumbered

theorem step_renumber (meter : Nat → List Line) (m : Matching) (t : Trip) :
    (m.renumber σ).step other meter (t.renumber σ) = (m.step net meter t).renumber σ := by
  have assigned : (m.renumber σ).ledger.assign other (t.renumber σ) =
      (m.ledger.assign net t).renumber σ :=
    Ledger.assign_renumber renumbered.shapes.injective renumbered m.ledger t
  have ended : (m.renumber σ).fault = m.fault := rfl
  simp only [Matching.step, ended, assigned]
  by_cases halted : m.fault.isSome = true
  · rw [if_pos halted, if_pos halted]
  · rw [if_neg halted, if_neg halted]
    cases h : (m.ledger.assign net t).result with
    | error fault => simp only [Answer.renumber, h]; rfl
    | ok entry => simp only [Answer.renumber, h]; rfl

/-- A pass over the same trips with other indices takes the same course. -/
theorem matchTrips_renumber (meter : Nat → List Line) (trips : List Trip) :
    matchTrips other meter (trips.map (Trip.renumber σ)) =
      (matchTrips net meter trips).renumber σ := by
  -- the passes go side by side from any state, not only from the start
  have run : ∀ m : Matching, (trips.map (Trip.renumber σ)).foldl (Matching.step other meter)
      (m.renumber σ) = (trips.foldl (Matching.step net meter) m).renumber σ := by
    induction trips with
    | nil => exact fun m => rfl
    | cons t rest ih =>
      intro m
      rw [List.map_cons, List.foldl_cons, List.foldl_cons, step_renumber renumbered, ih]
  exact run ⟨.start #[], #[], 0, none⟩

/-! ## What is told of it -/

theorem offsetRow_renumber (l : Ledger) (t : Trip) :
    offsetRow other.pass (l.renumber σ) (t.renumber σ) = offsetRow net.pass l t := by
  have shape : (t.shape.map σ).bind other.pass.id? = t.shape.bind net.pass.id? := by
    rw [Option.bind_map]
    exact congrArg t.shape.bind (funext renumbered.shapes.ident)
  have row : ((l.renumber σ).registered? t.id).bind (·.row) =
      (l.registered? t.id).bind (·.row) := by
    rw [Ledger.registered?_renumber, Option.bind_map]
    rfl
  simp only [offsetRow, Trip.renumber, shape, row, Ledger.offsets?_renumber]

theorem offsetRows_renumber (l : Ledger) (trips : List Trip) :
    offsetRows other.pass (l.renumber σ) (trips.map (Trip.renumber σ)) =
      offsetRows net.pass l trips := by
  rw [offsetRows, offsetRows, List.map_map]
  exact List.map_congr_left fun t _ => offsetRow_renumber renumbered l t

theorem polyline_renumber (l : Ledger) (trip : Ident) :
    (l.renumber σ).polyline other.store trip = l.polyline net.store trip := by
  rw [Ledger.polyline, Ledger.polyline, Ledger.offsets?_renumber, Ledger.shape?_renumber]
  by_cases matched : (l.offsets? trip).isSome = true
  · rw [if_pos matched, if_pos matched]
    cases l.shape? trip with
    | none => rfl
    | some i => exact renumbered.shapes.shape i
  · rw [if_neg matched, if_neg matched]
    rfl

theorem matchedLines_renumber (l : Ledger) (t : Trip) :
    matchedLines other (l.renumber σ) (t.renumber σ) = matchedLines net l t := by
  have id : (t.renumber σ).id = t.id := rfl
  have stops : (t.renumber σ).stops = t.stops := rfl
  simp only [matchedLines, id, stops, polyline_renumber renumbered,
    Network.places_renumber renumbered]

theorem matchedSegments_renumber (l : Ledger) (trips : List Trip) :
    matchedSegments other (l.renumber σ) (trips.map (Trip.renumber σ)) =
      matchedSegments net l trips := by
  rw [matchedSegments, matchedSegments, List.mapM_map]
  exact congrArg (· >>= _) (congrArg trips.mapM (funext (matchedLines_renumber renumbered l)))

end Pass

end StopAlign
