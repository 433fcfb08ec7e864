import DroneEngage.TrackRestriction
import Mathlib.Data.Int.ConditionallyCompleteOrder
import Mathlib.Order.Monotone.Basic

/-!
# Tracks with other ids

A manager whose tracks have other ids does the same, with the other ids.  The tracks
of one class, born among others, have the ids that they would have alone, up to a
strictly increasing renaming that leaves the ids from before as they are.
-/

namespace DroneEngage

open TrackDetail IndexedLists

variable {α : Type} [Arithmetic α]

/-- Give a track another id. -/
def Track.rename (rename : Int → Int) (tr : Track α) : Track α :=
  { tr with id := rename tr.id }

/-- Publish an observation under another id. -/
def Observation.rename (rename : Int → Int) (o : Observation α) : Observation α :=
  { o with trk := rename o.trk }

section Tracks

variable (rename : Int → Int) (config : TrackManagerConfig α) (tr : Track α)

theorem Track.evolve_rename (o : Option (Observation α)) :
    (tr.rename rename).evolve config o = (tr.evolve config o).rename rename := by
  cases o with
  | none => rfl
  | some o =>
      rw [Track.evolve, Track.evolve, Track.confirm_eq, Track.confirm_eq]
      rfl

theorem Track.born_rename (id : Int) (o : Observation α) :
    (Track.born config id o).rename rename = Track.born config (rename id) o := by
  rw [Track.born, Track.born, Track.confirm_eq, Track.confirm_eq]
  rfl

theorem joins_rename (iouMin : α) (tracks : List (Track α)) (dets : List (Observation α)) :
    joins iouMin (tracks.map (Track.rename rename)) dets = joins iouMin tracks dets := by
  have sameClass (cls : String) :
      joinClass iouMin (tracks.map (Track.rename rename)) dets cls =
        joinClass iouMin tracks dets cls := by
    have places : indexed (fun tr => tr.cls = cls) (tracks.map (Track.rename rename)) =
        (indexed (fun tr => tr.cls = cls) tracks).map
          (Prod.map (Track.rename rename) id) := indexed_map _ _
    simp only [joinClass, places, List.map_map, List.getElem?_map, Option.bind_map]
    rfl
  rw [joins, funext sameClass, joins]

end Tracks

namespace TrackManager

/-- The manager with other ids. -/
def rename (rename : Int → Int) (manager : TrackManager α) : TrackManager α :=
  { manager with
    tracks := manager.tracks.map (Track.rename rename)
    counted := List.forall_mem_map.mpr manager.counted }

section Phases

variable (rename : Int → Int) (manager : TrackManager α) (dets : List (Observation α))

theorem detTrack_rename : (manager.rename rename).detTrack dets = manager.detTrack dets := by
  rw [detTrack, detTrack, TrackManager.rename, joins_rename]

theorem missOthers_rename :
    (manager.rename rename).missOthers dets =
      (manager.missOthers dets).map (Track.rename rename) := by
  have joined (t : Nat) :
      (manager.rename rename).joinedDet dets t = manager.joinedDet dets t := by
    rw [joinedDet, joinedDet, detTrack_rename]
  apply List.ext_getElem?
  intro t
  rw [missOthers_eq, missOthers_eq, List.getElem?_mapIdx, List.getElem?_map,
    List.getElem?_mapIdx, joined, TrackManager.rename, List.getElem?_map, Option.map_map,
    Option.map_map]
  congr 1
  funext tr
  exact tr.evolve_rename rename manager.config (manager.joinedDet dets t)

theorem newDets_rename : (manager.rename rename).newDets dets = manager.newDets dets := by
  rw [newDets, newDets, detTrack_rename]

theorem publishMatched_rename :
    (manager.rename rename).publishMatched dets =
      (manager.publishMatched dets).map (Observation.rename rename) := by
  rw [publishMatched, publishMatched, detTrack_rename, missOthers_rename, List.map_filterMap]
  congr 1
  funext o
  cases manager.detTrack dets o.2 with
  | none => rfl
  | some t =>
      simp only [Option.bind_some, List.getElem?_map]
      cases (manager.missOthers dets)[t]? with
      | none => rfl
      | some tr =>
          cases confirmed : tr.confirmed <;> simp [Track.rename, confirmed]
          rfl

end Phases

end TrackManager

/-- A renaming of ids that takes the next ids, here from one id on, to the next ids,
there from another one on. -/
structure Renames (next joint : Int) (rename : Int → Int) : Prop where
  increasing : StrictMono rename
  next : ∀ k : Nat, rename (next + k) = joint + k

namespace Renames

variable {next joint : Int} {rename : Int → Int}

theorem refl (next : Int) : Renames next next id :=
  ⟨strictMono_id, fun _ => rfl⟩

/-- An id that is issued on both sides. -/
theorem both (renames : Renames next joint rename) :
    Renames (next + 1) (joint + 1) rename := by
  refine ⟨renames.increasing, fun k => ?_⟩
  have := renames.next (k + 1)
  push_cast at this
  rw [Int.add_assoc, Int.add_comm 1, this]
  omega

/-- An id that is issued there alone. -/
theorem skip (renames : Renames next joint rename) :
    Renames next (joint + 1) fun id => if id < next then rename id else rename id + 1 := by
  refine ⟨fun left right before => ?_, fun k => ?_⟩
  · have := renames.increasing before
    split <;> split <;> omega
  · rw [if_neg (by omega), renames.next]
    omega

end Renames

namespace TrackManager

/-- The tracks of a class that are born among others. -/
theorem births_ofClass (config : TrackManagerConfig α) (cls : String)
    (newDets : List (Observation α)) {next joint : Int} {rename : Int → Int}
    (renames : Renames next joint rename) :
    ∃ rename', Renames (next + (ofClass cls newDets).length) (joint + newDets.length) rename' ∧
      (∀ id < next, rename' id = rename id) ∧
      (births config joint newDets).filter (fun tr => tr.cls = cls) =
        (births config next (ofClass cls newDets)).map (Track.rename rename') ∧
      ofClass cls (publishBorn newDets (births config joint newDets)) =
        (publishBorn (ofClass cls newDets) (births config next (ofClass cls newDets))).map
          (Observation.rename rename') := by
  induction newDets generalizing next joint rename with
  | nil =>
      refine ⟨rename, ?_, fun _ _ => rfl, rfl, rfl⟩
      simpa [ofClass] using renames
  | cons o newDets ih =>
      obtain ⟨bornId, bornClass, -⟩ := Track.born_eq config joint o
      by_cases isClass : o.cls = cls
      · obtain ⟨rename', renames', same, tracks, published⟩ := ih renames.both
        have nextSame : rename' next = joint := by
          have := renames.next 0
          rw [same next (by omega)]
          simpa using this
        have class' : ofClass cls (o :: newDets) = o :: ofClass cls newDets := by
          simp [ofClass, isClass]
        have bornSame := Track.born_rename rename' config next o
        rw [nextSame] at bornSame
        refine ⟨rename', ?_, fun id before => same id (by omega), ?_, ?_⟩
        · rw [class', List.length_cons, List.length_cons, Nat.cast_succ, Nat.cast_succ,
            Int.add_comm _ 1, Int.add_comm _ 1, ← Int.add_assoc, ← Int.add_assoc]
          exact renames'
        · rw [class', births, births, List.filter_cons_of_pos (by simp [bornClass, isClass]),
            List.map_cons, tracks, bornSame]
        · rw [class', births, births, publishBorn_cons, publishBorn_cons, List.map_append,
            ← published, ofClass, List.filter_append, ← bornSame]
          congr 1
          cases confirmed : (Track.born config next o).confirmed <;>
            simp [Track.rename, confirmed, Observation.withTrack, isClass, Observation.rename]
      · obtain ⟨rename', renames', same, tracks, published⟩ := ih renames.skip
        have class' : ofClass cls (o :: newDets) = ofClass cls newDets := by
          simp [ofClass, isClass]
        refine ⟨rename', ?_, fun id before => ?_, ?_, ?_⟩
        · rw [class', List.length_cons, Nat.cast_succ, Int.add_comm _ 1, ← Int.add_assoc]
          exact renames'
        · rw [same id before, if_pos before]
        · rw [class', births, List.filter_cons_of_neg (by simp [bornClass, isClass]), tracks]
        · rw [class', births, publishBorn_cons, ← published, ofClass, List.filter_append, ofClass,
            List.append_left_eq_self]
          cases (Track.born config joint o).confirmed <;>
            simp [Observation.withTrack, isClass]

end TrackManager

end DroneEngage
