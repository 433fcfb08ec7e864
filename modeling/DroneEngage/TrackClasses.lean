import DroneEngage.TrackIdentity
import DroneEngage.TrackRenaming
import DroneEngage.KeyedTransducers

/-!
# Each class on its own

What a manager publishes of one class is what a manager publishes that gets the
observations of this class alone, frame by frame, up to one strictly increasing
renaming of the ids.
-/

namespace DroneEngage

open TrackManager KeyedTransducers

variable {α : Type} [Arithmetic α]

/-- A frame with its observations of one class. -/
def ObservationFrame.ofClass (cls : String) (frame : ObservationFrame α) : ObservationFrame α :=
  { frame with obs := DroneEngage.ofClass cls frame.obs }

/-- A frame with other ids. -/
def ObservationFrame.rename (rename : Int → Int) (frame : ObservationFrame α) :
    ObservationFrame α :=
  { frame with obs := frame.obs.map (Observation.rename rename) }

omit [Arithmetic α] in
theorem ObservationFrame.rename_congr {rename rename' : Int → Int} (frame : ObservationFrame α)
    (agree : ∀ o ∈ frame.obs, rename o.trk = rename' o.trk) :
    frame.rename rename = frame.rename rename' := by
  have obs : frame.obs.map (Observation.rename rename) =
      frame.obs.map (Observation.rename rename') :=
    List.map_congr_left fun o member => by
      rw [Observation.rename, Observation.rename, agree o member]
  rw [ObservationFrame.rename, obs]
  rfl

/-- A call with the observations of one class. -/
def TrackCall.ofClass (cls : String) : TrackCall α → TrackCall α
  | .update frame => .update (frame.ofClass cls)
  | .reset => .reset
  | .setConfig config => .setConfig config

namespace TrackManager

/-- What a call makes of a manager, and the frame that it publishes. -/
def call (manager : TrackManager α) : TrackCall α → TrackManager α × Option (ObservationFrame α)
  | .update frame => ((manager.update frame).2, some (manager.update frame).1)
  | .reset => (manager.reset, none)
  | .setConfig config => (manager.setConfig config, none)

/-- A manager that gets one class alone does as one that gets all classes: its tracks are
those of the class there, up to a renaming of the ids. -/
structure Alone (cls : String) (joint alone : TrackManager α) (rename : Int → Int) : Prop where
  config : joint.config = alone.config
  tracks : joint.tracks.filter (fun tr => tr.cls = cls) = alone.tracks.map (Track.rename rename)
  ordered : alone.IdsOrdered
  renames : Renames alone.nextId joint.nextId rename

theorem Alone.fresh (cls : String) (config : TrackManagerConfig α) :
    Alone cls (.fresh config) (.fresh config) id :=
  ⟨rfl, rfl, .fresh config, .refl _⟩

section Steps

variable {cls : String} {joint alone : TrackManager α} {rename : Int → Int}

omit [Arithmetic α] in
theorem Alone.onlyClass (related : Alone cls joint alone rename) :
    joint.onlyClass cls = { alone.rename rename with nextId := joint.nextId } :=
  TrackManager.ext related.config related.tracks rfl

theorem Alone.dets (related : Alone cls joint alone rename) (frame : ObservationFrame α) :
    alone.dets (frame.ofClass cls) = ofClass cls (joint.dets frame) := by
  rw [TrackManager.dets, TrackManager.dets, related.config]
  exact List.filter_comm _ _ _

section Phases

variable (frame : ObservationFrame α) {rename' : Int → Int}

theorem Alone.newDets (related : Alone cls joint alone rename) :
    DroneEngage.ofClass cls (joint.newDets (joint.dets frame)) =
      alone.newDets (alone.dets (frame.ofClass cls)) := by
  rw [newDets_onlyClass, related.onlyClass, related.dets]
  exact newDets_rename rename alone _

/-- The tracks evolve alike, also under a renaming that says more. -/
theorem Alone.missOthers (related : Alone cls joint alone rename)
    (agree : ∀ id < alone.nextId, rename' id = rename id) :
    (joint.missOthers (joint.dets frame)).filter (fun tr => tr.cls = cls) =
      (alone.missOthers (alone.dets (frame.ofClass cls))).map (Track.rename rename') := by
  rw [missOthers_onlyClass, related.onlyClass, ← related.dets]
  refine (missOthers_rename rename alone _).trans (List.map_congr_left fun tr member => ?_)
  have live : tr.id ∈ alone.ids :=
    missOthers_ids (alone.dets (frame.ofClass cls)) ▸ List.mem_map_of_mem member
  rw [Track.rename, Track.rename, agree _ (related.ordered.below _ live)]

theorem Alone.publishMatched (related : Alone cls joint alone rename)
    (agree : ∀ id < alone.nextId, rename' id = rename id) :
    DroneEngage.ofClass cls (joint.publishMatched (joint.dets frame)) =
      (alone.publishMatched (alone.dets (frame.ofClass cls))).map
        (Observation.rename rename') := by
  rw [publishMatched_onlyClass, related.onlyClass, ← related.dets]
  refine (publishMatched_rename rename alone _).trans (List.map_congr_left fun o member => ?_)
  have live := related.ordered.below _ (mem_ids_of_publishMatched member)
  rw [Observation.rename, Observation.rename, agree _ live]

end Phases

theorem Alone.update (related : Alone cls joint alone rename) (frame : ObservationFrame α) :
    ∃ rename', Alone cls (joint.update frame).2 (alone.update (frame.ofClass cls)).2 rename' ∧
      (∀ id < alone.nextId, rename' id = rename id) ∧
      (joint.update frame).1.ofClass cls =
        (alone.update (frame.ofClass cls)).1.rename rename' := by
  obtain ⟨rename', renames', agree, born, publishedBorn⟩ :=
    births_ofClass joint.config cls (joint.newDets (joint.dets frame)) related.renames
  rw [related.newDets frame] at renames' born publishedBorn
  refine ⟨rename', ⟨related.config, ?_, related.ordered.update _, renames'⟩, agree, ?_⟩
  · calc (joint.update frame).2.tracks.filter (fun tr => tr.cls = cls)
        = ((joint.missOthers (joint.dets frame)).filter (fun tr => tr.cls = cls)).filter
              (fun tr => !tr.dead joint.config) ++
            (births joint.config joint.nextId (joint.newDets (joint.dets frame))).filter
              (fun tr => tr.cls = cls) := by
          rw [List.filter_comm]
          exact List.filter_append _ _
      _ = (alone.update (frame.ofClass cls)).2.tracks.map (Track.rename rename') := by
          rw [related.missOthers frame agree, born, related.config, List.filter_map]
          exact List.map_append.symm
  · have published : DroneEngage.ofClass cls (joint.update frame).1.obs =
        (alone.update (frame.ofClass cls)).1.obs.map (Observation.rename rename') :=
      calc DroneEngage.ofClass cls (joint.update frame).1.obs
          = DroneEngage.ofClass cls (joint.publishMatched (joint.dets frame)) ++
              DroneEngage.ofClass cls (publishBorn (joint.newDets (joint.dets frame))
                (births joint.config joint.nextId (joint.newDets (joint.dets frame)))) :=
            List.filter_append _ _
        _ = (alone.update (frame.ofClass cls)).1.obs.map (Observation.rename rename') := by
            rw [related.publishMatched frame agree, publishedBorn, related.config]
            exact List.map_append.symm
    rw [ObservationFrame.ofClass, published]
    rfl

/-- One call, with all classes and with one. -/
theorem Alone.call (related : Alone cls joint alone rename) (call : TrackCall α) :
    ∃ rename', Alone cls (joint.call call).1 (alone.call (call.ofClass cls)).1 rename' ∧
      (∀ id < alone.nextId, rename' id = rename id) ∧
      (joint.call call).2.map (ObservationFrame.ofClass cls) =
        (alone.call (call.ofClass cls)).2.map (ObservationFrame.rename rename') := by
  cases call with
  | update frame =>
      obtain ⟨rename', next, agree, published⟩ := related.update frame
      exact ⟨rename', next, agree, congrArg some published⟩
  | reset =>
      exact ⟨rename, ⟨related.config, rfl, related.ordered.reset, related.renames⟩,
        fun _ _ => rfl, rfl⟩
  | setConfig config =>
      exact ⟨rename, ⟨rfl, related.tracks, related.ordered.setConfig config, related.renames⟩,
        fun _ _ => rfl, rfl⟩

/-- What a call publishes has ids that are issued by then. -/
theorem IdsOrdered.published_below {manager : TrackManager α} (ordered : manager.IdsOrdered)
    {call : TrackCall α} {frame : ObservationFrame α}
    (published : (manager.call call).2 = some frame) :
    ∀ o ∈ frame.obs, o.trk < (manager.call call).1.nextId := by
  intro o member
  cases call with
  | update given =>
      cases published
      obtain ⟨tr, live, sameId, -⟩ := exists_track_of_published member
      exact sameId ▸ (ordered.update given).below _ (List.mem_map_of_mem live)
  | reset => cases published
  | setConfig config => cases published

theorem nextId_le_call (manager : TrackManager α) (call : TrackCall α) :
    manager.nextId ≤ (manager.call call).1.nextId := by
  cases call with
  | update frame => exact Int.le_add_of_nonneg_right (Int.natCast_nonneg _)
  | reset => exact le_rfl
  | setConfig config => exact le_rfl

end Steps

/-- Both runs, from managers that are related. -/
theorem Alone.runs {cls : String} {joint alone : TrackManager α} {rename : Int → Int}
    (related : Alone cls joint alone rename) (calls : List (TrackCall α)) :
    ∃ rename', StrictMono rename' ∧ (∀ id < alone.nextId, rename' id = rename id) ∧
      (run TrackManager.call joint calls).2.map (ObservationFrame.ofClass cls) =
        (run TrackManager.call alone (calls.map (TrackCall.ofClass cls))).2.map
          (ObservationFrame.rename rename') := by
  induction calls generalizing joint alone rename with
  | nil => exact ⟨rename, related.renames.increasing, fun _ _ => rfl, rfl⟩
  | cons first calls ih =>
      obtain ⟨renameFirst, next, agree, published⟩ := related.call first
      obtain ⟨rename', increasing, agreeNext, publishedNext⟩ := ih next
      have issued := alone.nextId_le_call (first.ofClass cls)
      refine ⟨rename', increasing, fun id before => ?_, ?_⟩
      · rw [agreeNext id (before.trans_le issued), agree id before]
      · rw [List.map_cons, run_cons, run_cons, List.map_append, List.map_append, publishedNext]
        congr 1
        rw [← Option.toList_map, published, ← Option.toList_map]
        cases made : (alone.call (first.ofClass cls)).2 with
        | none => rfl
        | some frame =>
            -- the ids of this frame are issued, so later calls do not rename them again
            have below := related.ordered.published_below made
            exact congrArg (fun frame => [frame]) (frame.rename_congr fun o member =>
              (agreeNext _ (below o member)).symm)

/-- Classes are tracked independently: the observations of a class that a manager
publishes are those that a fresh manager publishes, which gets this class alone, under
one strictly increasing renaming of the ids. -/
theorem classes_independent (config : TrackManagerConfig α) (calls : List (TrackCall α))
    (cls : String) :
    ∃ rename : Int → Int, StrictMono rename ∧
      (run TrackManager.call (.fresh config) calls).2.map (ObservationFrame.ofClass cls) =
        (run TrackManager.call (.fresh config) (calls.map (TrackCall.ofClass cls))).2.map
          (ObservationFrame.rename rename) := by
  obtain ⟨rename, increasing, -, published⟩ := (Alone.fresh cls config).runs calls
  exact ⟨rename, increasing, published⟩

end TrackManager

end DroneEngage
