import DroneEngage.TrackAssignment
import DroneEngage.IndexedLists
import DroneEngage.JsonValues

/-!
# The track manager

Each frame of observations is joined to the tracks, one class at a time; tracks
are confirmed, missed, born and dropped; and the observations of the confirmed
tracks are published with the ids of these.
-/

namespace DroneEngage

open TrackDetail IndexedLists

structure Observation (α : Type) where
  hasTrk : Bool
  trk : Int
  cls : String
  hasClsId : Bool
  clsId : Int32
  conf : α
  x : α
  y : α
  w : α
  h : α
  attrs : Json

structure ObservationFrame (α : Type) where
  camId : String
  tmCapture : Int
  obs : List (Observation α)

structure TrackManagerConfig (α : Type) where
  confirmHits : Int32
  maxMisses : Int32
  iouMin : α
  minConf : α

namespace TrackDetail

structure Box (α : Type) where
  x : α
  y : α
  w : α
  h : α

variable {α : Type} [Arithmetic α]

/-- `std::max` and `std::min` -/
def stdMax (left right : α) : α :=
  if left < right then right else left

def stdMin (left right : α) : α :=
  if right < left then right else left

def iou (a b : Box α) : α :=
  let x1 := stdMax a.x b.x
  let y1 := stdMax a.y b.y
  let x2 := stdMin (a.x + a.w) (b.x + b.w)
  let y2 := stdMin (a.y + a.h) (b.y + b.h)
  let iw := x2 - x1
  let ih := y2 - y1
  if iw ≤ 0.0 ∨ ih ≤ 0.0 then 0.0
  else
    let inter := iw * ih
    let uni := a.w * a.h + b.w * b.h - inter
    if 0.0 < uni then inter / uni else 0.0

end TrackDetail

/-- `Track`: the last matched box, the velocity of its centre, and how many frames
in a row it was matched or missed, where an `int` that overflows wraps around. -/
structure Track (α : Type) where
  id : Int
  cls : String
  x : α
  y : α
  w : α
  h : α
  vx : α
  vy : α
  hits : Int32
  misses : Int32
  confirmed : Bool

variable {α : Type} [Arithmetic α]

def Observation.box (o : Observation α) : Box α where
  x := o.x
  y := o.y
  w := o.w
  h := o.h

/-- The copy of an observation that is published for a track. -/
def Observation.withTrack (o : Observation α) (id : Int) : Observation α :=
  { o with hasTrk := true, trk := id }

namespace Track

/-- Where the box should be now. -/
def predicted (tr : Track α) : Box α :=
  let steps : α := ((tr.misses + 1).toInt : α)
  { x := tr.x + tr.vx * steps, y := tr.y + tr.vy * steps, w := tr.w, h := tr.h }

/-- The velocity after a match. -/
def matchedVelocity (tr : Track α) (o : Observation α) : α × α :=
  if 0 < tr.hits ∨ 0 < tr.misses then
    let steps : α := ((tr.misses + 1).toInt : α)
    let ncx := o.x + o.w * 0.5
    let ncy := o.y + o.h * 0.5
    let pcx := tr.x + tr.w * 0.5
    let pcy := tr.y + tr.h * 0.5
    let mvx := (ncx - pcx) / steps
    let mvy := (ncy - pcy) / steps
    (if 0 < tr.hits then 0.5 * tr.vx + 0.5 * mvx else mvx,
      if 0 < tr.hits then 0.5 * tr.vy + 0.5 * mvy else mvy)
  else (tr.vx, tr.vy)

def update (tr : Track α) (o : Observation α) : Track α :=
  { tr with
    vx := (tr.matchedVelocity o).1
    vy := (tr.matchedVelocity o).2
    x := o.x
    y := o.y
    w := o.w
    h := o.h
    hits := tr.hits + 1
    misses := 0 }

def miss (tr : Track α) : Track α :=
  { tr with misses := tr.misses + 1, hits := 0 }

def dead (tr : Track α) (config : TrackManagerConfig α) : Bool :=
  if tr.misses = 0 then false
  else if !tr.confirmed then true
  else tr.misses > config.maxMisses

/-- Confirm a track that has been matched often enough. -/
def confirm (tr : Track α) (config : TrackManagerConfig α) : Track α :=
  if !tr.confirmed && tr.hits ≥ config.confirmHits then { tr with confirmed := true }
  else tr

/-- A new track, from the detection that it is born from. -/
def born (config : TrackManagerConfig α) (id : Int) (o : Observation α) : Track α :=
  let tr : Track α :=
    { id := id, cls := o.cls, x := 0, y := 0, w := 0, h := 0, vx := 0, vy := 0
      hits := 0, misses := 0, confirmed := false }
  (tr.update o).confirm config

/-- A track that is not confirmed yet was matched less often than an `int` can count. -/
def Counted (tr : Track α) : Prop :=
  tr.confirmed = false → 0 ≤ tr.hits ∧ tr.hits < Int32.maxValue

section Counters

variable {tr : Track α} {config : TrackManagerConfig α} {o : Observation α}

omit [Arithmetic α] in
theorem toInt_succ {count : Int32} (below : count < Int32.maxValue) :
    (count + 1).toInt = count.toInt + 1 := by
  rw [Int32.lt_iff_toInt_lt, Int32.toInt_maxValue] at below
  have least := Int32.minValue_le_toInt count
  rw [Int32.toInt_minValue] at least
  rw [Int32.toInt_add, Int32.toInt_one]
  exact Int.bmod_eq_of_le (by omega) (by omega)

omit [Arithmetic α] in
theorem two_le_iff {count : Int32} : 2 ≤ count ↔ ¬ count ≤ 1 := by
  have two : Int32.toInt 2 = 2 := rfl
  rw [Int32.le_iff_toInt_le, Int32.le_iff_toInt_le, two, Int32.toInt_one]
  omega

theorem Counted.matched (counted : tr.Counted) (o : Observation α) :
    ((tr.update o).confirm config).Counted := by
  unfold confirm
  split
  · exact nofun
  · rename_i few
    intro tentative
    obtain ⟨nonneg, below⟩ := counted tentative
    have counts := toInt_succ below
    have short : tr.hits + 1 < config.confirmHits := by
      rw [show (tr.update o).confirmed = false from tentative] at few
      simpa [update] using few
    have most := Int32.le_maxValue config.confirmHits
    rw [Int32.le_iff_toInt_le] at nonneg most
    rw [Int32.lt_iff_toInt_lt] at short
    refine ⟨Int32.le_iff_toInt_le.mpr ?_, Int32.lt_iff_toInt_lt.mpr ?_⟩
    · change Int32.toInt 0 ≤ (tr.hits + 1).toInt
      omega
    · exact short.trans_le most

omit [Arithmetic α] in
theorem counted_of_noHits (none : tr.hits = 0) : tr.Counted := by
  intro _
  rw [none]
  decide

omit [Arithmetic α] in
/-- The next hit of a track that is not confirmed is at least its first. -/
theorem Counted.one_le_succ (counted : tr.Counted) (tentative : tr.confirmed = false) :
    1 ≤ tr.hits + 1 := by
  obtain ⟨nonneg, below⟩ := counted tentative
  have counts := toInt_succ below
  rw [Int32.le_iff_toInt_le] at nonneg ⊢
  rw [Int32.toInt_zero] at nonneg
  rw [counts, Int32.toInt_one]
  omega

theorem counted_born (config : TrackManagerConfig α) (id : Int) (o : Observation α) :
    (born config id o).Counted := by
  apply Counted.matched
  exact counted_of_noHits rfl

end Counters

end Track

def TrackManagerConfig.sanitize (config : TrackManagerConfig α) : TrackManagerConfig α :=
  let clamp (value : α) : α :=
    let raised := if value < 0.0 then 0.0 else value
    if 1.0 < raised then 1.0 else raised
  { confirmHits := if config.confirmHits < 1 then 1 else config.confirmHits
    maxMisses := if config.maxMisses < 0 then 0 else config.maxMisses
    iouMin := clamp config.iouMin
    minConf := clamp config.minConf }

section Association

/-- The cost of a pair that may not be joined. -/
def big : α := 1e6

/-- The cost of joining a track and a detection of one class. -/
def pairCost (iouMin : α) (predicted boxes : List (Box α)) (t d : Nat) : α :=
  match predicted[t]?, boxes[d]? with
  | some track, some det =>
      let v := iou track det
      if iouMin ≤ v then 1.0 - v else big
  | _, _ => big

/-- The pairs of rows and columns that are assigned and may be joined. -/
def assignedPairs (cost : Nat → Nat → α) {n m : Nat} (fits : n ≤ m) : List (Nat × Nat) :=
  (List.range n).filterMap fun a =>
    (assignment cost fits a).bind fun b => if big ≤ cost a b then none else some (a, b)

/-- The tracks and detections of one class that are joined, by their places in the
class.  The rows are the smaller side. -/
def matchClass (iouMin : α) (predicted boxes : List (Box α)) : List (Nat × Nat) :=
  if rowsAreTracks : predicted.length ≤ boxes.length then
    assignedPairs (pairCost iouMin predicted boxes) rowsAreTracks
  else
    (assignedPairs (fun d t => pairCost iouMin predicted boxes t d)
      (Nat.le_of_not_le rowsAreTracks)).map Prod.swap

/-- The tracks and detections of one class that are joined, by their indices. -/
def joinClass (iouMin : α) (tracks : List (Track α)) (dets : List (Observation α))
    (cls : String) : List (Nat × Nat) :=
  let ti := indexed (fun tr => tr.cls = cls) tracks
  let di := indexed (fun o => o.cls = cls) dets
  (matchClass iouMin (ti.map fun tr => tr.1.predicted) (di.map fun o => o.1.box)).filterMap
    fun pair => ti[pair.1]?.bind fun tr => di[pair.2]?.map fun o => (tr.2, o.2)

/-- The classes of the detections, in the order in which they appear. -/
def classes (dets : List (Observation α)) : List String :=
  dets.foldl (fun found o => if o.cls ∈ found then found else found ++ [o.cls]) []

/-- All indices of tracks and detections that are joined. -/
def joins (iouMin : α) (tracks : List (Track α)) (dets : List (Observation α)) :
    List (Nat × Nat) :=
  (classes dets).flatMap (joinClass iouMin tracks dets)

end Association

/-- A manager, none of whose counts on the way to a confirmation can overflow. -/
@[ext]
structure TrackManager (α : Type) where
  config : TrackManagerConfig α
  tracks : List (Track α)
  nextId : Int
  counted : ∀ tr ∈ tracks, tr.Counted

namespace TrackManager

def fresh (config : TrackManagerConfig α) : TrackManager α where
  config := config.sanitize
  tracks := []
  nextId := 1
  counted := nofun

def setConfig (manager : TrackManager α) (config : TrackManagerConfig α) : TrackManager α :=
  { manager with config := config.sanitize }

def reset (manager : TrackManager α) : TrackManager α :=
  { manager with
    tracks := []
    counted := nofun }

variable (manager : TrackManager α)

/-- The observations of a frame that may start or extend a track. -/
def dets (frame : ObservationFrame α) : List (Observation α) :=
  frame.obs.filter fun o => manager.config.minConf ≤ o.conf

section Phases

variable (dets : List (Observation α))

/-- `det_track`: the index of the track that a detection joins. -/
def detTrack : Nat → Option Nat :=
  (joins manager.config.iouMin manager.tracks dets).foldl
    (fun track pair => Function.update track pair.2 (some pair.1)) fun _ => none

def trackMatched : Nat → Bool :=
  (joins manager.config.iouMin manager.tracks dets).foldl
    (fun marks pair => Function.update marks pair.1 true) fun _ => false

def takeDetections : List (Track α) :=
  dets.zipIdx.foldl
    (fun tracks o =>
      match manager.detTrack dets o.2 with
      | some t => tracks.modify t fun tr => (tr.update o.1).confirm manager.config
      | none => tracks) manager.tracks

def missOthers : List (Track α) :=
  (manager.takeDetections dets).mapIdx fun t tr =>
    if manager.trackMatched dets t then tr else tr.miss

def newDets : List (Observation α) :=
  (dets.zipIdx.filter fun o => manager.detTrack dets o.2 = none).map Prod.fst

def births (config : TrackManagerConfig α) : Int → List (Observation α) → List (Track α)
  | _, [] => []
  | nextId, o :: rest => Track.born config nextId o :: births config (nextId + 1) rest

def publishMatched : List (Observation α) :=
  dets.zipIdx.filterMap fun o =>
    ((manager.detTrack dets o.2).bind fun t => (manager.missOthers dets)[t]?).bind fun tr =>
      if tr.confirmed then some (o.1.withTrack tr.id) else none

/-- The detections of the new tracks that are confirmed at once. -/
def publishBorn (newDets : List (Observation α)) (born : List (Track α)) :
    List (Observation α) :=
  (newDets.zip born).filterMap fun new =>
    if new.2.confirmed then some (new.1.withTrack new.2.id) else none

theorem counted_takeDetections : ∀ tr ∈ manager.takeDetections dets, tr.Counted := by
  unfold takeDetections
  refine List.foldlRecOn (motive := fun tracks : List (Track α) => ∀ tr ∈ tracks, tr.Counted) _ _
    manager.counted fun tracks counted o _ => ?_
  cases manager.detTrack dets o.2 with
  | none => exact counted
  | some t => exact forall_mem_modify counted fun _ before => before.matched o.1

theorem counted_missOthers : ∀ tr ∈ manager.missOthers dets, tr.Counted := by
  intro tr listed
  obtain ⟨t, within, rfl⟩ := List.mem_mapIdx.mp listed
  split
  · exact manager.counted_takeDetections dets _ (List.getElem_mem within)
  · exact Track.counted_of_noHits rfl

theorem counted_births (config : TrackManagerConfig α) (nextId : Int) :
    ∀ tr ∈ births config nextId dets, tr.Counted := by
  induction dets generalizing nextId with
  | nil => exact nofun
  | cons o dets ih =>
      exact List.forall_mem_cons.mpr ⟨Track.counted_born config nextId o, ih (nextId + 1)⟩

end Phases

def update (frame : ObservationFrame α) : ObservationFrame α × TrackManager α :=
  let dets := manager.dets frame
  let newDets := manager.newDets dets
  let born := births manager.config manager.nextId newDets
  ({ frame with obs := manager.publishMatched dets ++ publishBorn newDets born },
    { manager with
      tracks := (manager.missOthers dets).filter (fun tr => !tr.dead manager.config) ++ born
      nextId := manager.nextId + newDets.length
      counted := List.forall_mem_append.mpr
        ⟨fun tr live => manager.counted_missOthers dets tr (List.mem_filter.mp live).1,
          counted_births newDets manager.config manager.nextId⟩ })

end TrackManager

end DroneEngage
