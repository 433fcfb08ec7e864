import DroneEngage.TrackSteps

/-!
# The order of what is published

The detections that join a track are published before those that start one.  So the
published observations are in the order of the frame where no track is confirmed at
its first detection, or where this order is that of the frame anyway.
-/

namespace DroneEngage

variable {α : Type}

/-- An observation without the track that it is published for. -/
def Observation.untracked (o : Observation α) : Observation α :=
  { o with hasTrk := false, trk := 0 }

/-- The observations of a frame are some of those of another one, in their order and
but for their tracks the same. -/
structure KeepsOrder (frame published : ObservationFrame α) : Prop where
  camId : published.camId = frame.camId
  tmCapture : published.tmCapture = frame.tmCapture
  obs : ∃ sources : List (Observation α), sources.Sublist frame.obs ∧
    sources.map Observation.untracked = published.obs.map Observation.untracked

theorem Observation.conf_eq_of_untracked {o source : Observation α}
    (same : source.untracked = o.untracked) : source.conf = o.conf := by
  have conf : source.untracked.conf = o.untracked.conf := congrArg Observation.conf same
  exact conf

namespace TrackManager

variable [Arithmetic α] (manager : TrackManager α) (dets : List (Observation α))

/-- The detections that join a track. -/
def joinedDets : List (Observation α) :=
  (dets.zipIdx.filter fun o => manager.detTrack dets o.2 ≠ none).map Prod.fst

theorem joinedDets_append_newDets_perm :
    (manager.joinedDets dets ++ manager.newDets dets).Perm dets := by
  have parts := List.filter_append_perm (fun o => decide (manager.detTrack dets o.2 ≠ none))
    dets.zipIdx
  have whole := parts.map Prod.fst
  rw [List.map_append, List.zipIdx_map_fst] at whole
  have new : manager.newDets dets = (dets.zipIdx.filter fun o =>
      !decide (manager.detTrack dets o.2 ≠ none)).map Prod.fst := by
    rw [newDets]
    congr 2
    funext o
    simp
  rw [joinedDets, new]
  exact whole

/-- What is published for the tracks that are there comes in the order of the frame. -/
theorem publishMatched_keepsOrder :
    ∃ sources : List (Observation α), sources.Sublist dets ∧
      sources.map Observation.untracked =
        (manager.publishMatched dets).map Observation.untracked := by
  have inOrder (listed : List (Observation α × Nat)) :
      ∃ sources : List (Observation α), sources.Sublist (listed.map Prod.fst) ∧
        sources.map Observation.untracked =
          (listed.filterMap fun o =>
            ((manager.detTrack dets o.2).bind fun t => (manager.missOthers dets)[t]?).bind
              fun tr => if tr.confirmed then some (o.1.withTrack tr.id) else none).map
                Observation.untracked := by
    induction listed with
    | nil => exact ⟨[], .slnil, rfl⟩
    | cons o listed ih =>
        obtain ⟨sources, within, same⟩ := ih
        rw [List.filterMap_cons, List.map_cons]
        split
        · exact ⟨sources, within.cons _, same⟩
        · rename_i published isPublished
          obtain ⟨t, old, -, -, -, rfl⟩ := (manager.publish_eq_some_iff dets).mp isPublished
          refine ⟨o.1 :: sources, within.cons_cons _, ?_⟩
          rw [List.map_cons, List.map_cons, same]
          rfl
  have found := inOrder dets.zipIdx
  rw [List.zipIdx_map_fst] at found
  exact found

variable {manager}

/-- A track that is confirmed at its first detection is so at every later one. -/
theorem publishMatched_untracked (atOnce : manager.config.confirmHits ≤ 1) :
    (manager.publishMatched dets).map Observation.untracked =
      (manager.joinedDets dets).map Observation.untracked := by
  rw [publishMatched, joinedDets, List.map_filterMap, List.map_map, ← List.filterMap_eq_filter,
    List.map_filterMap]
  apply List.filterMap_congr
  intro o member
  cases joined : manager.detTrack dets o.2 with
  | none => simp [joined]
  | some t =>
      obtain ⟨old, -, place, -, -⟩ :=
        exists_of_mem_joins ((manager.detTrack_eq_some_iff dets).mp joined)
      have taken : manager.joinedDet dets t = some o.1 :=
        (manager.joinedDet_eq_some_iff dets).mpr
          ⟨o.2, joined, List.mem_zipIdx_iff_getElem?.mp member⟩
      have confirmed : (old.evolve manager.config (manager.joinedDet dets t)).confirmed = true := by
        rw [taken, (Track.evolve_some _ _ _).2.2, Bool.or_eq_true, decide_eq_true_eq]
        refine or_iff_not_imp_left.mpr fun tentative => Int32.le_trans atOnce ?_
        exact (manager.counted old (List.mem_of_getElem? place)).one_le_succ
          (Bool.eq_false_of_not_eq_true tentative)
      have published := (manager.publish_eq_some_iff dets).mpr
        ⟨t, old, joined, place, confirmed, rfl⟩
      rw [joined] at published
      rw [published]
      simp [joined, Option.guard]
      rfl

theorem publishBorn_untracked (atOnce : manager.config.confirmHits ≤ 1)
    (newDets : List (Observation α)) (nextId : Int) :
    (publishBorn newDets (births manager.config nextId newDets)).map Observation.untracked =
      newDets.map Observation.untracked := by
  induction newDets generalizing nextId with
  | nil => rfl
  | cons o newDets ih =>
      have confirmed : (Track.born manager.config nextId o).confirmed = true := by
        rw [(Track.born_eq _ _ _).2.2.2.2]
        exact decide_eq_true atOnce
      rw [births, publishBorn_cons, if_pos confirmed, List.map_append, ih (nextId + 1)]
      rfl

theorem publishBorn_of_later (later : 2 ≤ manager.config.confirmHits)
    (newDets : List (Observation α)) (nextId : Int) :
    publishBorn newDets (births manager.config nextId newDets) = [] := by
  induction newDets generalizing nextId with
  | nil => rfl
  | cons o newDets ih =>
      have tentative : (Track.born manager.config nextId o).confirmed = false := by
        rw [(Track.born_eq _ _ _).2.2.2.2]
        exact decide_eq_false (Track.two_le_iff.mp later)
      rw [births, publishBorn_cons, tentative, ih (nextId + 1)]
      rfl

/-- What is published is in the order of the frame exactly where no track is confirmed
at its first detection, or moving the detections that join no track behind the others
changes nothing. -/
theorem update_keepsOrder_iff (manager : TrackManager α) (frame : ObservationFrame α) :
    KeepsOrder frame (manager.update frame).1 ↔
      2 ≤ manager.config.confirmHits ∨
        (manager.joinedDets (manager.dets frame) ++ manager.newDets (manager.dets frame)).map
            Observation.untracked =
          (manager.dets frame).map Observation.untracked := by
  obtain ⟨dets, isDets⟩ : ∃ dets, dets = manager.dets frame := ⟨_, rfl⟩
  have within : dets.Sublist frame.obs := isDets ▸ List.filter_sublist
  have published : (manager.update frame).1.obs = manager.publishMatched dets ++
      publishBorn (manager.newDets dets)
        (births manager.config manager.nextId (manager.newDets dets)) := by
    rw [isDets]
    rfl
  rw [← isDets]
  by_cases later : 2 ≤ manager.config.confirmHits
  · refine iff_of_true ⟨rfl, rfl, ?_⟩ (.inl later)
    obtain ⟨sources, inOrder, same⟩ := manager.publishMatched_keepsOrder dets
    rw [published, publishBorn_of_later later, List.append_nil]
    exact ⟨sources, inOrder.trans within, same⟩
  · rw [or_iff_right later]
    have atOnce : manager.config.confirmHits ≤ 1 := by
      rwa [Track.two_le_iff, not_not] at later
    have all : (manager.update frame).1.obs.map Observation.untracked =
        (manager.joinedDets dets ++ manager.newDets dets).map Observation.untracked := by
      rw [published, List.map_append, publishMatched_untracked dets atOnce,
        publishBorn_untracked atOnce, ← List.map_append]
    constructor
    · rintro ⟨-, -, sources, inOrder, same⟩
      rw [all] at same
      have sure (source : Observation α) (member : source ∈ sources) :
          decide (manager.config.minConf ≤ source.conf) = true := by
        have listed : source.untracked ∈ sources.map Observation.untracked :=
          List.mem_map_of_mem member
        rw [same] at listed
        obtain ⟨o, isDet, sameSource⟩ := List.mem_map.mp listed
        have member := (manager.joinedDets_append_newDets_perm dets).subset isDet
        rw [isDets] at member
        rw [← Observation.conf_eq_of_untracked sameSource]
        exact (List.mem_filter.mp member).2
      have inDets : sources.Sublist dets := by
        have kept := inOrder.filter fun o => decide (manager.config.minConf ≤ o.conf)
        rw [List.filter_eq_self.mpr sure] at kept
        exact isDets ▸ kept
      have lengths := congrArg List.length same
      rw [List.length_map, List.length_map,
        (manager.joinedDets_append_newDets_perm dets).length_eq] at lengths
      rw [← same, inDets.eq_of_length lengths]
    · intro unmoved
      refine ⟨rfl, rfl, dets, within, ?_⟩
      rw [all, unmoved]

section Example

def seenAs (cls : String) : Observation ℚ :=
  { hasTrk := false, trk := 0, cls := cls, hasClsId := false, clsId := 0, conf := 1
    x := 0, y := 0, w := 1, h := 1, attrs := .object [] }

/-- Tracks are confirmed at once, and a person is tracked. -/
def trackingPerson : TrackManager ℚ where
  config := { confirmHits := 1, maxMisses := 0, iouMin := 0, minConf := 0 }
  tracks :=
    [{ id := 1, cls := "person", x := 0, y := 0, w := 1, h := 1, vx := 0, vy := 0
       hits := 1, misses := 0, confirmed := true }]
  nextId := 2
  counted := by simp [Track.Counted]

def carBeforePerson : ObservationFrame ℚ where
  camId := "DE-CAM1"
  tmCapture := 1
  obs := [seenAs "car", seenAs "person"]

/-- A new car is published behind the person that comes after it in the frame. -/
theorem update_keepsOrder_fails :
    ¬ KeepsOrder carBeforePerson (trackingPerson.update carBeforePerson).1 := by
  rintro ⟨-, -, sources, inOrder, same⟩
  have published : (trackingPerson.update carBeforePerson).1.obs.map (fun o => o.cls) =
      ["person", "car"] := by
    decide +kernel
  have classes : sources.map (fun o => o.cls) = ["person", "car"] := by
    have both := congrArg (List.map fun o : Observation ℚ => o.cls) same
    rw [List.map_map, List.map_map] at both
    exact both.trans published
  have lengths : sources.length = carBeforePerson.obs.length := by
    have count := congrArg List.length classes
    rw [List.length_map] at count
    exact count
  rw [inOrder.eq_of_length lengths] at classes
  exact absurd classes (by decide)

end Example

end TrackManager

end DroneEngage
