import DroneEngage.TrackSteps
import DroneEngage.EventRuns

/-!
# What a track manager has done

A watch keeps what each call on a manager did, the newest first: the observations
it published, the ids that were matched and born, and the ids that live after it.
The ids of the tracks increase along the list and stay below the next id.
-/

namespace DroneEngage

open EventRuns TrackManager

inductive TrackCall (α : Type)
  | update (frame : ObservationFrame α)
  | reset
  | setConfig (config : TrackManagerConfig α)

inductive TrackMoment (α : Type)
  | frame (published : List (Observation α)) (matched born live : List Int)
  | forgotten
  | configured (live : List Int)

namespace TrackMoment

variable {α : Type}

def published : TrackMoment α → List (Observation α)
  | frame published _ _ _ => published
  | _ => []

def matched : TrackMoment α → List Int
  | frame _ matched _ _ => matched
  | _ => []

def born : TrackMoment α → List Int
  | frame _ _ born _ => born
  | _ => []

def live : TrackMoment α → List Int
  | frame _ _ _ live => live
  | forgotten => []
  | configured live => live

/-- The track was matched by a detection of the frame, or born from one. -/
def sees (moment : TrackMoment α) (id : Int) : Bool :=
  id ∈ moment.matched || id ∈ moment.born

end TrackMoment

variable {α : Type} [Arithmetic α]

namespace TrackManager

variable (manager : TrackManager α)

def ids : List Int :=
  manager.tracks.map Track.id

def matchedIds (frame : ObservationFrame α) : List Int :=
  (manager.tracks.zipIdx.filter fun tr =>
    manager.trackMatched (manager.dets frame) tr.2).map fun tr => tr.1.id

def bornIds (frame : ObservationFrame α) : List Int :=
  (births manager.config manager.nextId (manager.newDets (manager.dets frame))).map Track.id

end TrackManager

/-- A manager, and what its calls have done, the newest first. -/
structure TrackWatch (α : Type) where
  manager : TrackManager α
  history : List (TrackMoment α)

namespace TrackWatch

def fresh (config : TrackManagerConfig α) : TrackWatch α where
  manager := .fresh config
  history := []

def step (watch : TrackWatch α) : TrackCall α → Option (TrackWatch α)
  | .update frame =>
      let updated := watch.manager.update frame
      some
        { manager := updated.2
          history :=
            .frame updated.1.obs (watch.manager.matchedIds frame) (watch.manager.bornIds frame)
              updated.2.ids :: watch.history }
  | .reset => some { manager := watch.manager.reset, history := .forgotten :: watch.history }
  | .setConfig config =>
      some
        { manager := watch.manager.setConfig config
          history := .configured watch.manager.ids :: watch.history }

end TrackWatch

namespace TrackManager

variable {manager : TrackManager α}

/-- The ids are positive, increase along the list and are below the next one. -/
structure IdsOrdered (manager : TrackManager α) : Prop where
  increasing : manager.ids.Pairwise (· < ·)
  positive : ∀ id ∈ manager.ids, 0 < id
  below : ∀ id ∈ manager.ids, id < manager.nextId
  nextPositive : 0 < manager.nextId

theorem IdsOrdered.fresh (config : TrackManagerConfig α) : IdsOrdered (.fresh config) where
  increasing := .nil
  positive := nofun
  below := nofun
  nextPositive := Int.one_pos

omit [Arithmetic α] in
theorem IdsOrdered.reset (ordered : manager.IdsOrdered) : manager.reset.IdsOrdered where
  increasing := .nil
  positive := nofun
  below := nofun
  nextPositive := ordered.nextPositive

theorem IdsOrdered.setConfig (ordered : manager.IdsOrdered) (config : TrackManagerConfig α) :
    (manager.setConfig config).IdsOrdered :=
  ⟨ordered.increasing, ordered.positive, ordered.below, ordered.nextPositive⟩

theorem missOthers_ids (dets : List (Observation α)) :
    (manager.missOthers dets).map Track.id = manager.ids := by
  apply List.ext_getElem?
  intro t
  rw [missOthers_eq, ids, List.getElem?_map, List.getElem?_mapIdx, List.getElem?_map,
    Option.map_map]
  congr 1
  funext tr
  exact Track.evolve_id _ _ _

theorem births_ids (config : TrackManagerConfig α) (nextId : Int)
    (newDets : List (Observation α)) :
    ((births config nextId newDets).map Track.id).Pairwise (· < ·) ∧
      ∀ id ∈ (births config nextId newDets).map Track.id,
        nextId ≤ id ∧ id < nextId + newDets.length := by
  induction newDets generalizing nextId with
  | nil => exact ⟨.nil, nofun⟩
  | cons o newDets ih =>
      obtain ⟨increasing, bounds⟩ := ih (nextId + 1)
      rw [births, List.map_cons, (Track.born_eq config nextId o).1, List.length_cons]
      refine ⟨.cons (fun id member => ?_) increasing, fun id member => ?_⟩
      · have := bounds id member
        omega
      · rcases List.mem_cons.mp member with rfl | member
        · omega
        · have := bounds id member
          omega

/-- The ids after an update: some of those before, then the new ones. -/
theorem update_ids (manager : TrackManager α) (frame : ObservationFrame α) :
    ∃ kept, kept.Sublist manager.ids ∧
      (manager.update frame).2.ids = kept ++ manager.bornIds frame := by
  refine ⟨((manager.missOthers (manager.dets frame)).filter
    fun tr => !tr.dead manager.config).map Track.id, ?_, ?_⟩
  · rw [← missOthers_ids (manager.dets frame)]
    exact List.filter_sublist.map Track.id
  · exact List.map_append

theorem IdsOrdered.update (ordered : manager.IdsOrdered) (frame : ObservationFrame α) :
    (manager.update frame).2.IdsOrdered := by
  obtain ⟨kept, within, same⟩ := manager.update_ids frame
  obtain ⟨increasing, bounds⟩ := births_ids manager.config manager.nextId
    (manager.newDets (manager.dets frame))
  have nextPositive := ordered.nextPositive
  have next : (manager.update frame).2.nextId =
    manager.nextId + (manager.newDets (manager.dets frame)).length := rfl
  refine ⟨?_, fun id member => ?_, fun id member => ?_, ?_⟩
  · rw [same, List.pairwise_append]
    refine ⟨ordered.increasing.sublist within, increasing, fun old oldMem new newMem => ?_⟩
    exact (ordered.below old (within.subset oldMem)).trans_le (bounds new newMem).1
  · rcases List.mem_append.mp (same ▸ member) with old | new
    · exact ordered.positive id (within.subset old)
    · exact nextPositive.trans_le (bounds id new).1
  · rw [next]
    rcases List.mem_append.mp (same ▸ member) with old | new
    · have := ordered.below id (within.subset old)
      omega
    · exact (bounds id new).2
  · rw [next]
    omega

omit [Arithmetic α] in
/-- Two tracks with one id are one track. -/
theorem IdsOrdered.index_unique (ordered : manager.IdsOrdered) {t t' : Nat}
    {tr tr' : Track α} (place : manager.tracks[t]? = some tr)
    (place' : manager.tracks[t']? = some tr') (same : tr.id = tr'.id) : t = t' := by
  have id : manager.ids[t]? = some tr.id := by
    rw [ids, List.getElem?_map, place]
    rfl
  have id' : manager.ids[t']? = some tr.id := by
    rw [ids, List.getElem?_map, place', same]
    rfl
  have nodup : manager.ids.Nodup := ordered.increasing.imp fun before => before.ne
  exact (List.getElem?_inj (List.getElem?_eq_some_iff.mp id).1 nodup).mp (id.trans id'.symm)

theorem mem_matchedIds {frame : ObservationFrame α} {id : Int} :
    id ∈ manager.matchedIds frame ↔
      ∃ (t : Nat) (old : Track α), manager.tracks[t]? = some old ∧
        (manager.joinedDet (manager.dets frame) t).isSome ∧ old.id = id := by
  rw [matchedIds, List.mem_map]
  constructor
  · rintro ⟨⟨old, t⟩, listed, same⟩
    obtain ⟨listed, matched⟩ := List.mem_filter.mp listed
    exact ⟨t, old, List.mem_zipIdx_iff_getElem?.mp listed,
      (manager.joinedDet_isSome_iff _).trans matched, same⟩
  · rintro ⟨t, old, place, taken, same⟩
    refine ⟨(old, t), List.mem_filter.mpr ⟨List.mem_zipIdx_iff_getElem?.mpr place, ?_⟩, same⟩
    exact (manager.joinedDet_isSome_iff _).symm.trans taken

theorem mem_bornIds {frame : ObservationFrame α} {id : Int} :
    id ∈ manager.bornIds frame ↔
      ∃ (k : Nat) (o : Observation α), (manager.newDets (manager.dets frame))[k]? = some o ∧
        id = manager.nextId + k := by
  rw [bornIds, List.mem_map]
  constructor
  · rintro ⟨tr, born, rfl⟩
    obtain ⟨k, o, place, rfl⟩ := mem_births.mp born
    exact ⟨k, o, place, (Track.born_eq _ _ _).1⟩
  · rintro ⟨k, o, place, rfl⟩
    exact ⟨_, mem_births.mpr ⟨k, o, place, rfl⟩, (Track.born_eq _ _ _).1⟩

theorem IdsOrdered.not_born (ordered : manager.IdsOrdered) {frame : ObservationFrame α}
    {id : Int} (live : id ∈ manager.ids) : id ∉ manager.bornIds frame := by
  intro born
  obtain ⟨k, -, -, rfl⟩ := mem_bornIds.mp born
  have := ordered.below _ live
  omega

theorem IdsOrdered.not_matched (ordered : manager.IdsOrdered) {frame : ObservationFrame α}
    {t : Nat} {old : Track α} (place : manager.tracks[t]? = some old)
    (unjoined : manager.joinedDet (manager.dets frame) t = none) :
    old.id ∉ manager.matchedIds frame := by
  intro matched
  obtain ⟨t', other, place', taken, same⟩ := mem_matchedIds.mp matched
  obtain rfl := ordered.index_unique place place' same.symm
  rw [unjoined] at taken
  cases taken

end TrackManager

/-- A frame with one person. -/
def personFrame : ObservationFrame ℚ where
  camId := "front"
  tmCapture := 100
  obs := [{ hasTrk := false, trk := 0, cls := "person", hasClsId := false, clsId := 0
            conf := 9 / 10, x := 1 / 4, y := 1 / 4, w := 1 / 8, h := 1 / 4, attrs := .null }]

/-- A configuration that confirms a track with its third hit. -/
def threeHits : TrackManagerConfig ℚ where
  confirmHits := 3
  maxMisses := 5
  iouMin := 1 / 4
  minConf := 0

end DroneEngage
