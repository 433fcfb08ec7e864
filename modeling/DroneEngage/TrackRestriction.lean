import DroneEngage.TrackSteps

/-!
# The tracks of one class

An update acts on each class alone: what it makes of the tracks and detections of a
class is what it makes of them when there are no others.  And it does not look at
the ids of the tracks that are there.
-/

namespace DroneEngage

open TrackDetail IndexedLists

variable {α : Type} [Arithmetic α]

section Joins

variable {iouMin : α} {tracks : List (Track α)} {dets : List (Observation α)} {cls : String}

omit [Arithmetic α] in
theorem filter_filter_cls_self {Item : Type} (classOf : Item → String) (items : List Item) :
    (items.filter fun item => classOf item = cls).filter (fun item => classOf item = cls) =
      items.filter fun item => classOf item = cls := by
  rw [List.filter_filter]
  simp

theorem classMatch_filter :
    classMatch iouMin (tracks.filter fun tr => tr.cls = cls) (dets.filter fun o => o.cls = cls)
      cls = classMatch iouMin tracks dets cls := by
  rw [classMatch, filter_filter_cls_self, filter_filter_cls_self, classMatch]

/-- In a list of one class the places in the class are the places in the list. -/
theorem indexed_filter_eq_some_iff {Item : Type} {classOf : Item → String} {items : List Item}
    {other : String} {k place : Nat} {item : Item} :
    (indexed (fun item => classOf item = other)
        (items.filter fun item => classOf item = cls))[k]? = some (item, place) ↔
      other = cls ∧ k = place ∧ (items.filter fun item => classOf item = cls)[k]? = some item := by
  have allOf (item : Item) (member : item ∈ items.filter fun item => classOf item = cls) :
      classOf item = cls := of_decide_eq_true (List.mem_filter.mp member).2
  constructor
  · intro found
    obtain ⟨there, kept⟩ := mem_indexed_of_getElem? found
    obtain rfl : other = cls := (of_decide_eq_true kept).symm.trans
      (allOf item (List.mem_of_getElem? there))
    rw [indexed_of_all (fun item member => decide_eq_true (allOf item member)),
      List.getElem?_zipIdx, Option.map_eq_some_iff] at found
    obtain ⟨_, there, same⟩ := found
    rw [Nat.zero_add] at same
    cases same
    exact ⟨rfl, rfl, there⟩
  · rintro ⟨rfl, rfl, there⟩
    rw [indexed_of_all (fun item member => decide_eq_true (allOf item member)),
      List.getElem?_zipIdx, there, Nat.zero_add]
    rfl

/-- Whether a track and a detection of one class are joined does not depend on the
other classes. -/
theorem mem_joins_filter_iff {k t l d : Nat} {tr : Track α} {o : Observation α}
    (foundTrack : (indexed (fun tr => tr.cls = cls) tracks)[k]? = some (tr, t))
    (foundDet : (indexed (fun o => o.cls = cls) dets)[l]? = some (o, d)) :
    (k, l) ∈ joins iouMin (tracks.filter fun tr => tr.cls = cls)
        (dets.filter fun o => o.cls = cls) ↔
      (t, d) ∈ joins iouMin tracks dets := by
  have isClass : tr.cls = cls := of_decide_eq_true (mem_indexed_of_getElem? foundTrack).2
  have atClass := mem_indexed_of_getElem? foundTrack
  rw [mem_joins_iff, mem_joins_iff]
  constructor
  · rintro ⟨other, k', l', tr', o', matched, foundTrack', foundDet'⟩
    obtain ⟨rfl, rfl, -⟩ := indexed_filter_eq_some_iff.mp foundTrack'
    obtain ⟨-, rfl, -⟩ := indexed_filter_eq_some_iff.mp foundDet'
    rw [classMatch_filter] at matched
    exact ⟨other, k', l', tr, o, matched, foundTrack, foundDet⟩
  · rintro ⟨other, k', l', tr', o', matched, foundTrack', foundDet'⟩
    obtain ⟨there, kept⟩ := mem_indexed_of_getElem? foundTrack'
    obtain rfl := Option.some.inj (there.symm.trans atClass.1)
    obtain rfl : other = cls := (of_decide_eq_true kept).symm.trans isClass
    obtain rfl := indexed_injective foundTrack foundTrack'
    obtain rfl := indexed_injective foundDet foundDet'
    rw [← classMatch_filter] at matched
    exact ⟨other, k, l, tr', o, matched,
      indexed_filter_eq_some_iff.mpr ⟨rfl, rfl, getElem?_filter_of_indexed foundTrack⟩,
      indexed_filter_eq_some_iff.mpr ⟨rfl, rfl, getElem?_filter_of_indexed foundDet⟩⟩

end Joins

/-- The observations of a class. -/
def ofClass (cls : String) (obs : List (Observation α)) : List (Observation α) :=
  obs.filter fun o => o.cls = cls

namespace TrackManager

/-- The manager with the tracks of one class alone. -/
def onlyClass (manager : TrackManager α) (cls : String) : TrackManager α :=
  { manager with
    tracks := manager.tracks.filter fun tr => tr.cls = cls
    counted := fun tr listed => manager.counted tr (List.mem_filter.mp listed).1 }

variable {manager : TrackManager α} {dets : List (Observation α)} {cls : String}

theorem detTrack_onlyClass {l d k : Nat} {o : Observation α}
    (foundDet : (indexed (fun o => o.cls = cls) dets)[l]? = some (o, d)) :
    (manager.onlyClass cls).detTrack (ofClass cls dets) l = some k ↔
      ∃ t tr, (indexed (fun tr => tr.cls = cls) manager.tracks)[k]? = some (tr, t) ∧
        manager.detTrack dets d = some t := by
  simp only [detTrack_eq_some_iff]
  constructor
  · intro joined
    obtain ⟨tr, -, there, -, -⟩ := exists_of_mem_joins joined
    obtain ⟨t, foundTrack⟩ := exists_indexed_of_getElem?_filter there
    exact ⟨t, tr, foundTrack, (mem_joins_filter_iff foundTrack foundDet).mp joined⟩
  · rintro ⟨t, tr, foundTrack, joined⟩
    exact (mem_joins_filter_iff foundTrack foundDet).mpr joined

/-- A detection of a class joins a track of the class. -/
theorem exists_indexed_of_detTrack {d t : Nat} {o : Observation α}
    (place : dets[d]? = some o) (isClass : o.cls = cls)
    (joined : manager.detTrack dets d = some t) :
    ∃ (k : Nat) (tr : Track α),
      (indexed (fun tr => tr.cls = cls) manager.tracks)[k]? = some (tr, t) := by
  obtain ⟨tr, other, placeTrack, placeDet, sameClass⟩ :=
    exists_of_mem_joins ((manager.detTrack_eq_some_iff dets).mp joined)
  obtain rfl := Option.some.inj (place.symm.trans placeDet)
  obtain ⟨k, foundTrack⟩ := exists_indexed (fun tr => tr.cls = cls) placeTrack
    (decide_eq_true (sameClass.trans isClass))
  exact ⟨k, tr, foundTrack⟩

theorem detTrack_onlyClass_eq_none_iff {l d : Nat} {o : Observation α}
    (foundDet : (indexed (fun o => o.cls = cls) dets)[l]? = some (o, d)) :
    (manager.onlyClass cls).detTrack (ofClass cls dets) l = none ↔
      manager.detTrack dets d = none := by
  rw [← not_iff_not, ← ne_eq, ← ne_eq, Option.ne_none_iff_exists', Option.ne_none_iff_exists']
  constructor
  · rintro ⟨k, joined⟩
    obtain ⟨t, -, -, joined⟩ := (detTrack_onlyClass foundDet).mp joined
    exact ⟨t, joined⟩
  · rintro ⟨t, joined⟩
    obtain ⟨place, kept⟩ := mem_indexed_of_getElem? foundDet
    obtain ⟨k, tr, foundTrack⟩ := exists_indexed_of_detTrack place (of_decide_eq_true kept) joined
    exact ⟨k, (detTrack_onlyClass foundDet).mpr ⟨t, tr, foundTrack, joined⟩⟩

/-- A track takes the detection that it takes when there are no other classes. -/
theorem joinedDet_onlyClass {k t : Nat} {tr : Track α}
    (foundTrack : (indexed (fun tr => tr.cls = cls) manager.tracks)[k]? = some (tr, t)) :
    (manager.onlyClass cls).joinedDet (ofClass cls dets) k =
      manager.joinedDet dets t := by
  ext o
  rw [joinedDet_eq_some_iff, joinedDet_eq_some_iff]
  constructor
  · rintro ⟨l, joined, place⟩
    obtain ⟨d, foundDet⟩ := exists_indexed_of_getElem?_filter place
    obtain ⟨t', tr', foundTrack', joined⟩ := (detTrack_onlyClass foundDet).mp joined
    rw [foundTrack] at foundTrack'
    cases foundTrack'
    exact ⟨d, joined, (mem_indexed_of_getElem? foundDet).1⟩
  · rintro ⟨d, joined, place⟩
    obtain ⟨tr', o', placeTrack, placeDet, sameClass⟩ :=
      exists_of_mem_joins ((manager.detTrack_eq_some_iff dets).mp joined)
    obtain ⟨there, kept⟩ := mem_indexed_of_getElem? foundTrack
    obtain rfl := Option.some.inj (there.symm.trans placeTrack)
    obtain rfl := Option.some.inj (place.symm.trans placeDet)
    obtain ⟨l, foundDet⟩ := exists_indexed (fun o => o.cls = cls) place
      (decide_eq_true (sameClass.symm.trans (of_decide_eq_true kept)))
    exact ⟨l, (detTrack_onlyClass foundDet).mpr ⟨t, tr, foundTrack, joined⟩,
      getElem?_filter_of_indexed foundDet⟩

/-- The tracks of a class evolve as they do when there are no other classes. -/
theorem missOthers_onlyClass :
    (manager.missOthers dets).filter (fun tr => tr.cls = cls) =
      (manager.onlyClass cls).missOthers (ofClass cls dets) := by
  rw [missOthers_eq, missOthers_eq]
  refine filter_mapIdx (fun t tr => ?_) fun k t tr foundTrack => ?_
  · rw [Track.evolve_cls]
  · rw [joinedDet_onlyClass foundTrack]
    rfl

theorem newDets_eq_filterMap :
    manager.newDets dets = dets.zipIdx.filterMap fun o =>
      if manager.detTrack dets o.2 = none then some o.1 else none := by
  rw [newDets, ← List.filterMap_eq_filter, List.map_filterMap]
  congr 1
  funext o
  simp [Option.guard]

theorem newDets_onlyClass :
    ofClass cls (manager.newDets dets) =
      (manager.onlyClass cls).newDets (ofClass cls dets) := by
  rw [newDets_eq_filterMap, newDets_eq_filterMap]
  refine filter_filterMap_zipIdx (fun o other made => ?_) fun l d o foundDet => ?_
  · obtain ⟨-, same⟩ := Option.ite_none_right_eq_some.mp made
    cases same
    rfl
  · simp only [detTrack_onlyClass_eq_none_iff foundDet]

/-- The observations that are published for the tracks of a class are those that are
published when there are no other classes. -/
theorem publishMatched_onlyClass :
    ofClass cls (manager.publishMatched dets) =
      (manager.onlyClass cls).publishMatched (ofClass cls dets) := by
  refine filter_filterMap_zipIdx (fun o other made => ?_) fun l d o foundDet => ?_
  · obtain ⟨-, -, -, -, -, rfl⟩ := (manager.publish_eq_some_iff dets).mp made
    rfl
  · ext published
    rw [publish_eq_some_iff, publish_eq_some_iff]
    constructor
    · rintro ⟨t, old, joined, place, confirmed, same⟩
      obtain ⟨placeDet, kept⟩ := mem_indexed_of_getElem? foundDet
      obtain ⟨k, tr, foundTrack⟩ :=
        exists_indexed_of_detTrack placeDet (of_decide_eq_true kept) joined
      obtain rfl := Option.some.inj ((mem_indexed_of_getElem? foundTrack).1.symm.trans place)
      refine ⟨k, tr, (detTrack_onlyClass foundDet).mpr ⟨t, tr, foundTrack, joined⟩,
        getElem?_filter_of_indexed foundTrack, ?_, same⟩
      rw [joinedDet_onlyClass foundTrack]
      exact confirmed
    · rintro ⟨k, old, joined, place, confirmed, same⟩
      obtain ⟨t, tr, foundTrack, joined⟩ := (detTrack_onlyClass foundDet).mp joined
      obtain rfl := Option.some.inj ((getElem?_filter_of_indexed foundTrack).symm.trans place)
      rw [joinedDet_onlyClass foundTrack] at confirmed
      exact ⟨t, tr, joined, (mem_indexed_of_getElem? foundTrack).1, confirmed, same⟩

end TrackManager

end DroneEngage
