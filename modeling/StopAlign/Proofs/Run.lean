import StopAlign.Proofs.Disk
import StopAlign.Proofs.Feed.Trips
import StopAlign.Proofs.Job
import StopAlign.Proofs.Shape.Table

/-!
# Run — feeds whose rows come in another order

- `Job.Follows`      : a job that returns where another one does
- `Feed.Reordered`   : feeds with the rows of their shapes, stop times and stops in another order
- `Feed.Orderly`     : a feed whose rows say themselves in which order they belong
- `align_follows`    : a run on the rows in another order
- `offsetTable?_reordered` : the table of offsets does not depend on the order of the rows
- `tied_reordered`   : where two numbers of a trip are one double, it does

The numbers of the shapes do depend on it, and so do the warnings and the saved store. The stop
times of a trip have to be told apart by their numbers as these are read: a column with a number
that is no integer is one of doubles, and two integers of 2 ^ 53 and more may be one double.
-/

namespace StopAlign

open Outcome

namespace Job

variable {α β γ δ : Type}

/-! ## Two runs side by side -/

/-- From disks that `P` relates, the second job returns if the first one does, with results that `R`
relates and on disks that `Q` relates. -/
def Follows (P Q : Disk → Disk → Prop) (R : α → β → Prop) (x : Job α) (y : Job β) : Prop :=
  ∀ e e' a f, P e.disk e'.disk → x.run.run e = (.ok a, f) →
    ∃ b f', y.run.run e' = (.ok b, f') ∧ R a b ∧ Q f.disk f'.disk

namespace Follows

variable {P Q D : Disk → Disk → Prop} {R : α → β → Prop} {S : γ → δ → Prop}

theorem bind {x : Job α} {y : Job β} {g : α → Job γ} {h : β → Job δ}
    (first : Follows P Q R x y) (later : ∀ a b, R a b → Follows Q D S (g a) (h b)) :
    Follows P D S (x >>= g) (y >>= h) := by
  intro e e' c f disks run
  rcases run_bind_eq_ok.mp run with ⟨a, e₁, one, two⟩
  rcases first e e' a e₁ disks one with ⟨b, e₁', one', related, disks'⟩
  rcases later a b related e₁ e₁' c f disks' two with ⟨d, f', two', related', disks''⟩
  exact ⟨d, f', run_bind_eq_ok.mpr ⟨b, e₁', one', two'⟩, related', disks''⟩

theorem pure {a : α} {b : β} (related : R a b) : Follows P P R (pure a) (pure b) := by
  intro e e' _ _ disks run
  rw [run_pure] at run
  cases run
  exact ⟨b, e', rfl, related, disks⟩

theorem map {x : Job α} {y : Job β} (first : Follows P Q R x y) {f : α → γ} {g : β → δ}
    (later : ∀ a b, R a b → S (f a) (g b)) : Follows P Q S (f <$> x) (g <$> y) := by
  rw [map_eq_pure_bind, map_eq_pure_bind]
  exact first.bind fun a b related => .pure (later a b related)

theorem weaken {x : Job α} {y : Job β} (strong : Follows P Q R x y)
    (weaker : ∀ d d', Q d d' → D d d') : Follows P D R x y := by
  intro e e' a f disks run
  rcases strong e e' a f disks run with ⟨b, f', run', related, disks'⟩
  exact ⟨b, f', run', related, weaker _ _ disks'⟩

theorem log (lines lines' : List Line) :
    Follows P P (fun _ _ => True) (log lines) (log lines') := by
  intro e e' _ _ disks run
  rw [run_log] at run
  cases run
  exact ⟨(), _, run_log lines' e', trivial, disks⟩

/-- Lines that are only logged in some cases do not matter either. -/
theorem log_if {c c' : Bool} (lines lines' : List Line) {x : Job α} {y : Job β}
    (later : Follows P Q R x y) :
    Follows P Q R (if c then Job.log lines >>= fun _ => x else x)
      (if c' then Job.log lines' >>= fun _ => y else y) := by
  have always : ∀ (c : Bool) (lines : List Line) {α : Type} (x : Job α),
      (if c then Job.log lines >>= fun _ => x else x) =
        Job.log (if c then lines else []) >>= fun _ => x := by
    intro c lines _ x
    cases c with
    | true => rfl
    | false => exact (congrArg (· >>= fun _ => x) log_nil).symm
  rw [always, always]
  exact (Follows.log _ _).bind fun _ _ _ => later

theorem attempt {r : Except Fault α} {r' : Except Fault β}
    (h : ∀ a, r = .ok a → ∃ b, r' = .ok b ∧ R a b) : Follows P P R (attempt r) (attempt r') := by
  intro e e' a _ disks run
  rw [run_attempt] at run
  cases run
  rcases h a rfl with ⟨b, outcome, related⟩
  refine ⟨b, e', ?_, related, disks⟩
  rw [run_attempt, outcome]

theorem onDisk {change change' : Disk → Except Fault Disk}
    (h : ∀ d d' e, P d d' → change d = .ok e → ∃ e', change' d' = .ok e' ∧ Q e e') :
    Follows P Q (fun _ _ => True) (onDisk change) (onDisk change') := by
  intro e e' _ _ disks run
  rw [run_onDisk] at run
  cases changed : change e.disk with
  | error fault =>
    rw [changed] at run
    cases run
  | ok d =>
    rw [changed] at run
    cases run
    rcases h e.disk e'.disk d disks changed with ⟨d', changed', related⟩
    refine ⟨(), { e' with disk := d' }, ?_, trivial, related⟩
    rw [run_onDisk, changed']

/-- The same change of the same disk. -/
theorem onSameDisk (change : Disk → Except Fault Disk) :
    Follows Eq Eq (fun _ _ => True) (Job.onDisk change) (Job.onDisk change) :=
  onDisk fun _ _ e same changed => ⟨e, same ▸ changed, rfl⟩

end Follows

end Job

/-! ## Feeds -/

/-- The second feed has the rows of the first one, where those of the shapes, the stop times and the
stops may come in another order. -/
structure Feed.Reordered (feed other : Feed) : Prop where
  shapes : Option.Rel Csv.Reordered feed.shapes other.shapes
  trips : other.trips = feed.trips
  stopTimes : Option.Rel Csv.Reordered feed.stopTimes other.stopTimes
  stops : Option.Rel Csv.Reordered feed.stops other.stops

/-- The rows of a feed say themselves in which order they belong: the points of a shape have
different numbers, `apart` holds of the stop times, and the stops have different identifiers. -/
structure Feed.Orderly (apart : Table → Prop) (directory : String) (feed : Feed) : Prop where
  shapes : Sequenced
    (readShapes (joinPath directory shapeTableName) feed.shapes defaultBlockRows).items
  stopTimes : ∀ t,
    Table.read directory stopTimeTableName feed.stopTimes stopTimeColumns = .ok t → apart t
  stops : ∀ l, StopList.read directory feed.stops = .ok l → l.ids.Nodup

instance (apart : Table → Prop) [DecidablePred apart] (directory : String) (feed : Feed) :
    Decidable (feed.Orderly apart directory) :=
  decidable_of_iff
    (Sequenced (readShapes (joinPath directory shapeTableName) feed.shapes defaultBlockRows).items ∧
      (∀ t, Table.read directory stopTimeTableName feed.stopTimes stopTimeColumns = .ok t →
        apart t) ∧
      ∀ l, StopList.read directory feed.stops = .ok l → l.ids.Nodup)
    ⟨fun ⟨shapes, stopTimes, stops⟩ => ⟨shapes, stopTimes, stops⟩,
      fun ⟨shapes, stopTimes, stops⟩ => ⟨shapes, stopTimes, stops⟩⟩

/-! ## Stages of a run -/

theorem load_reordered {a b : Option (List UInt8)} (reordered : Option.Rel Csv.Reordered a b)
    {path : String} (sequenced : Sequenced (readShapes path a defaultBlockRows).items)
    {loaded : Pass × ShapeStore}
    (h : (load (readShapes path a defaultBlockRows) .empty).outcome = .ok loaded) :
    ∃ again, (load (readShapes path b defaultBlockRows) .empty).outcome = .ok again ∧
      ∃ σ, Renumbers σ loaded.1 again.1 loaded.2 again.2 := by
  rcases load_empty_eq_ok h with ⟨records, stream, pass, store⟩
  rw [stream] at sequenced
  rcases readShapes_reordered reordered (by decide) stream with ⟨others, stream', perm⟩
  refine ⟨_, stream' ▸ load_empty others, renumber (shapeIds records) (shapeIds others), ?_⟩
  rw [pass, store]
  exact renumbers_load perm sequenced

theorem loadShapes_follows (s : Settings) {feed other : Feed}
    (reordered : Option.Rel Csv.Reordered feed.shapes other.shapes)
    (sequenced : Sequenced
      (readShapes (joinPath s.feedDirectory shapeTableName) feed.shapes defaultBlockRows).items) :
    Job.Follows Eq Eq (fun p q => ∃ σ, Renumbers σ p.1 q.1 p.2 q.2) (loadShapes s feed)
      (loadShapes s other) := by
  unfold loadShapes
  refine .bind (.log _ _) fun _ _ _ => ?_
  refine .bind (.attempt fun meter made => ⟨meter, made, rfl⟩) fun meter _ same => ?_
  subst same
  refine .bind (.log _ _) fun _ _ _ => ?_
  refine .bind (.attempt fun loaded h => load_reordered reordered sequenced h) ?_
  rintro ⟨pass, store⟩ ⟨pass', store'⟩ renumbers
  exact .log_if _ _ (.pure renumbers)

theorem outcome_renumber {σ : Int → Int} {m : Matching} {l : Ledger} (h : m.outcome = .ok l) :
    (m.renumber σ).outcome = .ok (l.renumber σ) := by
  unfold Matching.outcome at h ⊢
  cases ended : m.fault with
  | some fault =>
    rw [ended] at h
    cases h
  | none =>
    rw [ended] at h
    cases h
    simp only [Matching.renumber, ended]
    rfl

theorem matchAll_follows (s : Settings) {σ : Int → Int} {net other : Network}
    (renumbered : net.Renumbered σ other) (trips : List Trip) :
    Job.Follows Eq Eq (fun l l' => l' = l.renumber σ) (matchAll s net trips)
      (matchAll s other (trips.map (Trip.renumber σ))) := by
  unfold matchAll
  rw [List.length_map]
  refine .bind (.attempt fun meter made => ⟨meter, made, rfl⟩) fun meter _ same => ?_
  subst same
  refine .bind (.log _ _) fun _ _ _ => .attempt fun l h => ⟨l.renumber σ, ?_, rfl⟩
  rw [matchTrips_renumber renumbered]
  exact outcome_renumber h

theorem writeOffsetTable_follows (s : Settings) (rows : List OffsetRow) :
    Job.Follows Eq Eq (fun _ _ => True) (writeOffsetTable s rows) (writeOffsetTable s rows) := by
  unfold writeOffsetTable
  refine .bind (.onSameDisk _) fun _ _ _ => ?_
  exact .bind (.onSameDisk _) fun _ _ _ => .log _ _

theorem writeSegments_follows (s : Settings) {σ : Int → Int} {net other : Network}
    (renumbered : net.Renumbered σ other) (l : Ledger) (trips : List Trip) :
    Job.Follows Eq Eq Eq (writeSegments s net l trips)
      (writeSegments s other (l.renumber σ) (trips.map (Trip.renumber σ))) := by
  unfold writeSegments
  rw [matchedSegments_renumber renumbered]
  refine .bind (.attempt fun lines h => ⟨lines, h, rfl⟩) fun lines _ same => ?_
  subst same
  by_cases none : lines.isEmpty = true
  · simp only [if_pos none]
    exact .bind (.log _ _) fun _ _ _ => .pure rfl
  · simp only [if_neg none]
    exact .bind (.onSameDisk _) fun _ _ _ => .bind (.log _ _) fun _ _ _ => .pure rfl

theorem saveStore_follows (directory : String) (store other : ShapeStore) :
    Job.Follows Eq Disk.Alike (fun _ _ => True) (saveStore directory store)
      (saveStore directory other) := by
  unfold saveStore
  refine .bind (.onDisk fun d d' e same h => ?_) fun _ _ _ => .log _ _
  subst same
  exact saveArrays_alike h

/-- A run that has its results saves the store, if it is told to. -/
theorem ending_follows (directory : Option String) (store other : ShapeStore) {a b : Alignment}
    (same : b.rows = a.rows) :
    Job.Follows Eq Disk.Alike (fun a b => b.rows = a.rows)
      (match directory with
        | some directory => saveStore directory store >>= fun _ => pure a
        | none => pure a)
      (match directory with
        | some directory => saveStore directory other >>= fun _ => pure b
        | none => pure b) := by
  cases directory with
  | some directory => exact .bind (saveStore_follows directory store other) fun _ _ _ => .pure same
  | none => exact .weaken (.pure same) fun d _ equal => equal ▸ Disk.Alike.refl d

/-! ## The whole run -/

/-- A run on the rows in another order returns as well, with the same table of offsets. -/
theorem align_follows (s : Settings) {feed other : Feed} (reordered : feed.Reordered other)
    (orderly : feed.Orderly Table.ApartAsRead s.feedDirectory) :
    Job.Follows Eq Disk.Alike (fun a b => b.rows = a.rows) (align s feed) (align s other) := by
  unfold align
  refine .bind (loadShapes_follows s reordered.shapes orderly.shapes) ?_
  rintro ⟨pass, store⟩ ⟨pass', store'⟩ ⟨σ, renumbers⟩
  refine .bind (.log _ _) fun _ _ _ => ?_
  refine .bind (.attempt fun d h => readStops_reordered reordered.stops orderly.stops h) ?_
  intro d d' same
  -- from here on the trips of the second run are those of the first one under other indices
  have trips : ∀ found, readTrips s.feedDirectory feed pass = .ok found →
      ∃ found', readTrips s.feedDirectory other pass' = .ok found' ∧
        found' = (found.1.map (Trip.renumber σ), found.2) :=
    fun _ h => ⟨_, readTrips_reordered renumbers reordered.trips reordered.stopTimes
      orderly.stopTimes h, rfl⟩
  refine .bind (.attempt trips) ?_
  rintro ⟨found, lines⟩ _ rfl
  refine .bind (.log _ _) fun _ _ _ => ?_
  have renumbered : Network.Renumbered σ ⟨store, pass, d, s.strategy⟩
      ⟨store', pass', d', s.strategy⟩ := ⟨renumbers, same, rfl⟩
  refine .bind (matchAll_follows s renumbered found) ?_
  rintro l _ rfl
  have rows := offsetRows_renumber renumbered l found
  simp only at rows ⊢
  rw [rows]
  refine .bind (writeOffsetTable_follows s _) fun _ _ _ => ?_
  -- the disks are equal until the stores are saved, whose shapes come in another order
  by_cases wanted : s.exportSegments = true
  · rw [if_pos wanted, if_pos wanted]
    have written : Job.Follows Eq Eq Eq _ _ :=
      (writeSegments_follows s renumbered l found).map fun _ _ => congrArg some
    refine written.bind ?_
    rintro lines _ rfl
    exact ending_follows s.storeDirectory store store' rfl
  · rw [if_neg wanted, if_neg wanted]
    refine .bind (.pure (rfl : none = none)) ?_
    rintro lines _ rfl
    exact ending_follows s.storeDirectory store store' rfl

/-- The table of offsets that a run brings, if it returns. -/
def offsetTable? (s : Settings) (feed : Feed) : Option (List OffsetRow) :=
  ((align s feed).run.run (.start s)).1.toOption.map (·.rows)

/-- Where the rows of a feed say themselves in which order they belong, the table of offsets does
not depend on the order in which they come. -/
theorem offsetTable?_reordered (s : Settings) {feed other : Feed}
    (reordered : feed.Reordered other) (orderly : feed.Orderly Table.ApartAsRead s.feedDirectory)
    {rows : List OffsetRow} (h : offsetTable? s feed = some rows) :
    offsetTable? s other = some rows := by
  unfold offsetTable? at h ⊢
  rcases run : (align s feed).run.run (.start s) with ⟨outcome, effects⟩
  rw [run] at h
  cases outcome with
  | error fault => cases h
  | ok a =>
    cases h
    rcases align_follows s reordered orderly _ _ a effects rfl run with ⟨b, effects', run', same, -⟩
    rw [run']
    exact congrArg some same

/-! ## Two orders of one feed -/

def plainSettings : Settings := { feedDirectory := "feed", outputDirectory := "out" }

/-- Two shapes, the second one from its end, and one trip on each: with distances, and without. -/
def twoTrips : Feed :=
  feedOf
    [["p", "0", "0", "1", "0"], ["q", "1", "2", "3", ""], ["p", "0", "1", "2", "1"],
      ["q", "1", "1", "2", ""], ["p", "0", "2", "3", "2"], ["q", "1", "0", "1", ""]]
    [["v", "p"], ["w", "q"]]
    [["v", "a", "2", "2"], ["v", "b", "1", "0"], ["w", "c", "1", ""], ["w", "d", "2", ""]]
    [["a", "0", "2"], ["b", "0", "0"], ["c", "1", "0"], ["d", "1", "1.5"]]

def twoTripsAgain : Feed :=
  feedOf
    [["q", "1", "0", "1", ""], ["q", "1", "2", "3", ""], ["p", "0", "2", "3", "2"],
      ["p", "0", "0", "1", "0"], ["q", "1", "1", "2", ""], ["p", "0", "1", "2", "1"]]
    [["v", "p"], ["w", "q"]]
    [["w", "d", "2", ""], ["v", "a", "2", "2"], ["w", "c", "1", ""], ["v", "b", "1", "0"]]
    [["d", "1", "1.5"], ["b", "0", "0"], ["a", "0", "2"], ["c", "1", "0"]]

theorem twoTrips_reordered : twoTrips.Reordered twoTripsAgain where
  shapes := .some (Csv.reordered_fileOf (by decide +kernel) (by decide +kernel) (by decide))
  trips := rfl
  stopTimes := .some (Csv.reordered_fileOf (by decide +kernel) (by decide +kernel) (by decide))
  stops := .some (Csv.reordered_fileOf (by decide +kernel) (by decide +kernel) (by decide))

def twoRows : List OffsetRow :=
  [⟨.text "v", "p", some 0, some [0, 2]⟩, ⟨.text "w", "q", some 1, some [0, 2]⟩]

theorem offsetTable?_twoTrips :
    twoTrips.Reordered twoTripsAgain ∧
      twoTrips.Orderly Table.ApartAsRead plainSettings.feedDirectory ∧
      offsetTable? plainSettings twoTrips = some twoRows ∧
      offsetTable? plainSettings twoTripsAgain = some twoRows := by
  have orderly : twoTrips.Orderly Table.ApartAsRead plainSettings.feedDirectory := by
    decide +kernel
  have rows : offsetTable? plainSettings twoTrips = some twoRows := by decide +kernel
  refine ⟨twoTrips_reordered, orderly, rows, ?_⟩
  exact offsetTable?_reordered plainSettings twoTrips_reordered orderly rows

/-! ## Numbers that are one double -/

def Feed.isRectangular (feed : Feed) : Bool :=
  [feed.shapes, feed.trips, feed.stopTimes, feed.stops].all (·.all Csv.isRectangular)

def oneTrip (stopTimes : List (List String)) : Feed :=
  feedOf [["s", "0", "0", "1", "0"], ["s", "0", "1", "2", "1"], ["s", "0", "2", "3", "2"]]
    [["t", "s"]] stopTimes [["a", "0", "0"]]

/-- A trip whose second and third stop have numbers that are one double. -/
def tied : Feed :=
  oneTrip [["t", "a", "0.5", "0"], ["t", "b", "9007199254740992", "1"],
    ["t", "c", "9007199254740993", "2"]]

def tiedAgain : Feed :=
  oneTrip [["t", "a", "0.5", "0"], ["t", "c", "9007199254740993", "2"],
    ["t", "b", "9007199254740992", "1"]]

theorem tied_reordered : tied.Reordered tiedAgain where
  shapes := .some (Csv.reordered_fileOf (by decide +kernel) (by decide +kernel) (by decide))
  trips := rfl
  stopTimes := .some (Csv.reordered_fileOf (by decide +kernel) (by decide +kernel) (by decide))
  stops := .some (Csv.reordered_fileOf (by decide +kernel) (by decide +kernel) (by decide))

theorem offsetTable?_tied :
    offsetTable? plainSettings tied = some [⟨.text "t", "s", some 0, some [0, 1, 2]⟩] := by
  decide +kernel

theorem offsetTable?_tiedAgain :
    offsetTable? plainSettings tiedAgain = some [⟨.text "t", "s", some 0, some [0, 2, 2]⟩] := by
  decide +kernel

/-- It does not do that the numbers of stop times are written differently. -/
theorem not_offsetTable?_reordered_of_apartAsWritten :
    ¬ ∀ (s : Settings) (feed other : Feed) (rows : List OffsetRow),
      feed.isRectangular = true → feed.Reordered other →
        feed.Orderly Table.ApartAsWritten s.feedDirectory →
          offsetTable? s feed = some rows → offsetTable? s other = some rows := by
  intro always
  have rectangular : tied.isRectangular = true := by decide +kernel
  have orderly : tied.Orderly Table.ApartAsWritten plainSettings.feedDirectory := by
    decide +kernel
  have same := always plainSettings tied tiedAgain _ rectangular tied_reordered orderly
    offsetTable?_tied
  rw [offsetTable?_tiedAgain] at same
  exact absurd same (by decide)

end StopAlign
