import DroneEngage.TrackManager

/-!
# What an update does

No detection joins two tracks and no track takes two detections, and what is joined
is of one class.  So an update acts on each track alone: it takes its detection, or
misses.
-/

namespace DroneEngage

open TrackDetail IndexedLists

variable {α : Type} [Arithmetic α]

theorem mem_assignedPairs {cost : Nat → Nat → α} {n m : Nat} (fits : n ≤ m) {a b : Nat} :
    (a, b) ∈ assignedPairs cost fits ↔
      a < n ∧ assignment cost fits a = some b ∧ ¬ big ≤ cost a b := by
  rw [assignedPairs, List.mem_filterMap]
  constructor
  · rintro ⟨row, isRow, given⟩
    obtain ⟨column, assigned, given⟩ := Option.bind_eq_some_iff.mp given
    obtain ⟨joinable, given⟩ := Option.ite_none_left_eq_some.mp given
    cases given
    exact ⟨List.mem_range.mp isRow, assigned, joinable⟩
  · rintro ⟨isRow, assigned, joinable⟩
    refine ⟨a, List.mem_range.mpr isRow, ?_⟩
    rw [assigned, Option.bind_some, if_neg joinable]

theorem assignedPairs_isMatching (cost : Nat → Nat → α) {n m : Nat} (fits : n ≤ m) :
    IsMatching (assignedPairs cost fits) := by
  intro a b a' b' first second
  obtain ⟨-, assigned, -⟩ := (mem_assignedPairs fits).mp first
  obtain ⟨-, assigned', -⟩ := (mem_assignedPairs fits).mp second
  constructor
  · rintro rfl
    exact Option.some.inj (assigned.symm.trans assigned')
  · rintro rfl
    exact assignment_injective cost fits assigned assigned'

theorem matchClass_isMatching (iouMin : α) (predicted boxes : List (Box α)) :
    IsMatching (matchClass iouMin predicted boxes) := by
  unfold matchClass
  split
  · exact assignedPairs_isMatching _ _
  · intro t d t' d' first second
    obtain ⟨⟨row, column⟩, listed, same⟩ := List.mem_map.mp first
    obtain ⟨⟨row', column'⟩, listed', same'⟩ := List.mem_map.mp second
    cases same
    cases same'
    exact (assignedPairs_isMatching _ _ row column row' column' listed listed').symm

omit [Arithmetic α] in
theorem mem_classes {dets : List (Observation α)} {o : Observation α} (member : o ∈ dets) :
    o.cls ∈ classes dets := by
  have collects (found : List String) (dets : List (Observation α)) (cls : String)
      (reason : cls ∈ found ∨ ∃ o ∈ dets, o.cls = cls) :
      cls ∈ dets.foldl
        (fun found o => if o.cls ∈ found then found else found ++ [o.cls]) found := by
    induction dets generalizing found with
    | nil => exact reason.elim id fun ⟨_, absent, _⟩ => nomatch absent
    | cons first dets ih =>
        refine ih _ ?_
        rcases reason with listed | ⟨o, member, rfl⟩
        · refine .inl ?_
          dsimp only
          split
          · exact listed
          · exact List.mem_append_left _ listed
        · rcases List.mem_cons.mp member with rfl | member
          · refine .inl ?_
            dsimp only
            split
            · assumption
            · exact List.mem_append_right _ (List.mem_singleton_self _)
          · exact .inr ⟨o, member, rfl⟩
  exact collects [] dets o.cls (.inr ⟨o, member, rfl⟩)

section Joins

variable {iouMin : α} {tracks : List (Track α)} {dets : List (Observation α)} {t d : Nat}

/-- The places that one class joins, in the class. -/
def classMatch (iouMin : α) (tracks : List (Track α)) (dets : List (Observation α))
    (cls : String) : List (Nat × Nat) :=
  matchClass iouMin ((tracks.filter fun tr => tr.cls = cls).map Track.predicted)
    ((dets.filter fun o => o.cls = cls).map Observation.box)

/-- Two indices are joined where their places in one class are. -/
theorem mem_joins_iff :
    (t, d) ∈ joins iouMin tracks dets ↔
      ∃ cls k l tr o, (k, l) ∈ classMatch iouMin tracks dets cls ∧
        (indexed (fun tr => tr.cls = cls) tracks)[k]? = some (tr, t) ∧
        (indexed (fun o => o.cls = cls) dets)[l]? = some (o, d) := by
  have sameTracks (cls : String) : (indexed (fun tr => tr.cls = cls) tracks).map
      (fun tr => tr.1.predicted) =
        (tracks.filter fun tr => tr.cls = cls).map Track.predicted := by
    rw [← indexed_map_fst, List.map_map]
    rfl
  have sameDets (cls : String) : (indexed (fun o => o.cls = cls) dets).map
      (fun o => o.1.box) =
        (dets.filter fun o => o.cls = cls).map Observation.box := by
    rw [← indexed_map_fst, List.map_map]
    rfl
  simp only [joins, joinClass, List.mem_flatMap, List.mem_filterMap, sameTracks, sameDets]
  constructor
  · rintro ⟨cls, -, ⟨k, l⟩, matched, given⟩
    obtain ⟨⟨tr, t⟩, foundTrack, given⟩ := Option.bind_eq_some_iff.mp given
    obtain ⟨⟨o, d⟩, foundDet, given⟩ := Option.map_eq_some_iff.mp given
    cases given
    exact ⟨cls, k, l, tr, o, matched, foundTrack, foundDet⟩
  · rintro ⟨cls, k, l, tr, o, matched, foundTrack, foundDet⟩
    obtain ⟨place, kept⟩ := mem_indexed_of_getElem? foundDet
    have sameClass : o.cls = cls := of_decide_eq_true kept
    refine ⟨cls, sameClass ▸ mem_classes (List.mem_of_getElem? place), (k, l), matched, ?_⟩
    dsimp only
    rw [foundTrack, foundDet]
    rfl

/-- What is joined is there, and of one class. -/
theorem exists_of_mem_joins (joined : (t, d) ∈ joins iouMin tracks dets) :
    ∃ tr o, tracks[t]? = some tr ∧ dets[d]? = some o ∧ tr.cls = o.cls := by
  obtain ⟨cls, k, l, tr, o, -, foundTrack, foundDet⟩ := mem_joins_iff.mp joined
  obtain ⟨placeTrack, keptTrack⟩ := mem_indexed_of_getElem? foundTrack
  obtain ⟨placeDet, keptDet⟩ := mem_indexed_of_getElem? foundDet
  exact ⟨tr, o, placeTrack, placeDet,
    (of_decide_eq_true keptTrack).trans (of_decide_eq_true keptDet).symm⟩

theorem joins_isMatching (iouMin : α) (tracks : List (Track α)) (dets : List (Observation α)) :
    IsMatching (joins iouMin tracks dets) := by
  intro t d t' d' first second
  obtain ⟨cls, k, l, tr, o, matched, foundTrack, foundDet⟩ := mem_joins_iff.mp first
  obtain ⟨cls', k', l', tr', o', matched', foundTrack', foundDet'⟩ := mem_joins_iff.mp second
  obtain ⟨placeTrack, keptTrack⟩ := mem_indexed_of_getElem? foundTrack
  obtain ⟨placeDet, keptDet⟩ := mem_indexed_of_getElem? foundDet
  obtain ⟨placeTrack', keptTrack'⟩ := mem_indexed_of_getElem? foundTrack'
  obtain ⟨placeDet', keptDet'⟩ := mem_indexed_of_getElem? foundDet'
  constructor
  · rintro rfl
    obtain rfl := Option.some.inj (placeTrack.symm.trans placeTrack')
    obtain rfl : cls = cls' := (of_decide_eq_true keptTrack).symm.trans
      (of_decide_eq_true keptTrack')
    have sameRow := indexed_injective foundTrack foundTrack'
    obtain rfl := (matchClass_isMatching _ _ _ k l k' l' matched matched').mp sameRow
    exact congrArg Prod.snd (Option.some.inj (foundDet.symm.trans foundDet'))
  · rintro rfl
    obtain rfl := Option.some.inj (placeDet.symm.trans placeDet')
    obtain rfl : cls = cls' := (of_decide_eq_true keptDet).symm.trans
      (of_decide_eq_true keptDet')
    have sameColumn := indexed_injective foundDet foundDet'
    obtain rfl := (matchClass_isMatching _ _ _ k l k' l' matched matched').mpr sameColumn
    exact congrArg Prod.snd (Option.some.inj (foundTrack.symm.trans foundTrack'))

end Joins

namespace TrackManager

variable (manager : TrackManager α) (dets : List (Observation α))

theorem detTrack_eq_some_iff {t d : Nat} :
    manager.detTrack dets d = some t ↔
      (t, d) ∈ joins manager.config.iouMin manager.tracks dets := by
  change written (joins manager.config.iouMin manager.tracks dets) (fun _ => none) d =
    some t ↔ _
  rw [written_eq_some_iff (joins_isMatching _ _ _), or_iff_left fun absent => nomatch absent.2]

theorem trackMatched_iff {t : Nat} :
    manager.trackMatched dets t ↔
      ∃ d, (t, d) ∈ joins manager.config.iouMin manager.tracks dets :=
  foldl_update_true_iff _

theorem detTrack_injective {t d d' : Nat} (first : manager.detTrack dets d = some t)
    (second : manager.detTrack dets d' = some t) : d = d' :=
  (joins_isMatching _ _ _ t d t d' ((manager.detTrack_eq_some_iff dets).mp first)
    ((manager.detTrack_eq_some_iff dets).mp second)).mp rfl

/-- The detection that a track takes. -/
def joinedDet (t : Nat) : Option (Observation α) :=
  (dets.zipIdx.find? fun o => manager.detTrack dets o.2 = some t).map Prod.fst

theorem joinedDet_eq_some_iff {t : Nat} {o : Observation α} :
    manager.joinedDet dets t = some o ↔
      ∃ d, manager.detTrack dets d = some t ∧ dets[d]? = some o := by
  rw [joinedDet, Option.map_eq_some_iff]
  constructor
  · rintro ⟨⟨o, d⟩, found, rfl⟩
    have joined := List.find?_some found
    exact ⟨d, of_decide_eq_true joined,
      List.mem_zipIdx_iff_getElem?.mp (List.mem_of_find?_eq_some found)⟩
  · rintro ⟨d, joined, place⟩
    have listed : (o, d) ∈ dets.zipIdx := List.mem_zipIdx_iff_getElem?.mpr place
    cases found : dets.zipIdx.find? fun o => manager.detTrack dets o.2 = some t with
    | none =>
        have apart := List.find?_eq_none.mp found _ listed
        exact absurd (decide_eq_true joined) apart
    | some other =>
        have passes := List.find?_some found
        have otherJoined := of_decide_eq_true passes
        have same : other.2 = d := manager.detTrack_injective dets otherJoined joined
        have otherPlace := List.mem_zipIdx_iff_getElem?.mp (List.mem_of_find?_eq_some found)
        rw [same, place] at otherPlace
        exact ⟨other, rfl, (Option.some.inj otherPlace).symm⟩

theorem joinedDet_isSome_iff {t : Nat} :
    (manager.joinedDet dets t).isSome = manager.trackMatched dets t := by
  rw [Bool.eq_iff_iff, trackMatched_iff, Option.isSome_iff_exists]
  constructor
  · rintro ⟨o, joined⟩
    obtain ⟨d, same, -⟩ := (manager.joinedDet_eq_some_iff dets).mp joined
    exact ⟨d, (manager.detTrack_eq_some_iff dets).mp same⟩
  · rintro ⟨d, joined⟩
    obtain ⟨-, o, -, place, -⟩ := exists_of_mem_joins joined
    exact ⟨o, (manager.joinedDet_eq_some_iff dets).mpr
      ⟨d, (manager.detTrack_eq_some_iff dets).mpr joined, place⟩⟩

end TrackManager

/-- What an update makes of a track, with the detection that it takes. -/
def Track.evolve (config : TrackManagerConfig α) (tr : Track α) :
    Option (Observation α) → Track α
  | some o => (tr.update o).confirm config
  | none => tr.miss

namespace TrackManager

variable (manager : TrackManager α) (dets : List (Observation α))

theorem takeDetections_getElem? (t : Nat) :
    (manager.takeDetections dets)[t]? = manager.tracks[t]?.map fun tr =>
      match manager.joinedDet dets t with
      | some o => (tr.update o).confirm manager.config
      | none => tr := by
  have unique : dets.zipIdx.Pairwise fun left right =>
      decide (manager.detTrack dets left.2 = some t) →
        ¬ decide (manager.detTrack dets right.2 = some t) := by
    have places : (dets.zipIdx.map Prod.snd).Pairwise (· < ·) := by
      rw [List.zipIdx_map_snd]
      exact List.pairwise_lt_range'
    refine (List.pairwise_map.mp places).imp fun before joined joined' => ?_
    have same := manager.detTrack_injective dets (of_decide_eq_true joined)
      (of_decide_eq_true joined')
    omega
  have folded := getElem?_foldl_modify (fun o => manager.detTrack dets o.2)
    (fun o (tr : Track α) => (tr.update o.1).confirm manager.config) dets.zipIdx
    manager.tracks t
  rw [filter_eq_toList_find? unique] at folded
  refine folded.trans ?_
  rw [joinedDet]
  cases dets.zipIdx.find? fun o => manager.detTrack dets o.2 = some t <;> rfl

/-- An update acts on each track alone. -/
theorem missOthers_eq :
    manager.missOthers dets =
      manager.tracks.mapIdx fun t tr => tr.evolve manager.config (manager.joinedDet dets t) := by
  apply List.ext_getElem?
  intro t
  rw [missOthers, List.getElem?_mapIdx, List.getElem?_mapIdx, takeDetections_getElem?,
    Option.map_map, ← joinedDet_isSome_iff]
  congr 1
  funext tr
  cases manager.joinedDet dets t <;> rfl

end TrackManager

section Tracks

variable (config : TrackManagerConfig α) (tr : Track α)

omit [Arithmetic α] in
theorem Track.confirm_eq :
    tr.confirm config =
      { tr with confirmed := tr.confirmed || tr.hits ≥ config.confirmHits } := by
  unfold Track.confirm
  obtain ⟨id, cls, x, y, w, h, vx, vy, hits, misses, confirmed⟩ := tr
  cases confirmed <;> cases decide (hits ≥ config.confirmHits) <;> rfl

@[simp]
theorem Track.evolve_id (o : Option (Observation α)) : (tr.evolve config o).id = tr.id := by
  cases o with
  | none => rfl
  | some o => rw [Track.evolve, Track.confirm_eq]; rfl

@[simp]
theorem Track.evolve_cls (o : Option (Observation α)) : (tr.evolve config o).cls = tr.cls := by
  cases o with
  | none => rfl
  | some o => rw [Track.evolve, Track.confirm_eq]; rfl

/-- A track that is matched counts a hit, and is confirmed if these are enough. -/
theorem Track.evolve_some (o : Observation α) :
    (tr.evolve config (some o)).hits = tr.hits + 1 ∧
      (tr.evolve config (some o)).misses = 0 ∧
      (tr.evolve config (some o)).confirmed =
        (tr.confirmed || tr.hits + 1 ≥ config.confirmHits) := by
  rw [Track.evolve, Track.confirm_eq]
  exact ⟨rfl, rfl, rfl⟩

/-- A track that is not matched counts a miss. -/
theorem Track.evolve_none :
    (tr.evolve config none).hits = 0 ∧ (tr.evolve config none).misses = tr.misses + 1 ∧
      (tr.evolve config none).confirmed = tr.confirmed :=
  ⟨rfl, rfl, rfl⟩

theorem Track.born_eq (id : Int) (o : Observation α) :
    (Track.born config id o).id = id ∧ (Track.born config id o).cls = o.cls ∧
      (Track.born config id o).hits = 1 ∧ (Track.born config id o).misses = 0 ∧
      (Track.born config id o).confirmed = decide (1 ≥ config.confirmHits) := by
  rw [Track.born, Track.confirm_eq]
  exact ⟨rfl, rfl, rfl, rfl, rfl⟩

omit [Arithmetic α] in
theorem Track.dead_iff : tr.dead config ↔
    tr.misses ≠ 0 ∧ (tr.confirmed → config.maxMisses < tr.misses) := by
  unfold Track.dead
  split
  · simp_all
  · rename_i missed
    cases tr.confirmed <;> simp [missed]

end Tracks

namespace TrackManager

variable (manager : TrackManager α)

theorem births_getElem? (config : TrackManagerConfig α) (nextId : Int)
    (newDets : List (Observation α)) (k : Nat) :
    (births config nextId newDets)[k]? =
      newDets[k]?.map fun o => Track.born config (nextId + k) o := by
  induction newDets generalizing nextId k with
  | nil => rfl
  | cons o newDets ih =>
      cases k with
      | zero => simp [births]
      | succ k =>
          rw [births, List.getElem?_cons_succ, List.getElem?_cons_succ, ih]
          congr 1
          funext o
          rw [Nat.cast_succ, Int.add_assoc, Int.add_comm 1]

theorem mem_births {config : TrackManagerConfig α} {nextId : Int}
    {newDets : List (Observation α)} {tr : Track α} :
    tr ∈ births config nextId newDets ↔
      ∃ (k : Nat) (o : Observation α), newDets[k]? = some o ∧
        tr = Track.born config (nextId + k) o := by
  rw [List.mem_iff_getElem?]
  refine exists_congr fun k => ?_
  rw [births_getElem?, Option.map_eq_some_iff]
  exact exists_congr fun o => and_congr_right fun _ => eq_comm

theorem missOthers_getElem?_eq_some_iff (dets : List (Observation α)) {t : Nat}
    {tr : Track α} :
    (manager.missOthers dets)[t]? = some tr ↔
      ∃ old, manager.tracks[t]? = some old ∧
        tr = old.evolve manager.config (manager.joinedDet dets t) := by
  rw [missOthers_eq, List.getElem?_mapIdx, Option.map_eq_some_iff]
  exact exists_congr fun _ => and_congr_right fun _ => eq_comm

/-- The tracks after an update: those that were there, each evolved, unless they are
dead then, and the new ones. -/
theorem mem_tracks_update {frame : ObservationFrame α} {tr : Track α} :
    tr ∈ (manager.update frame).2.tracks ↔
      (∃ (t : Nat) (old : Track α), manager.tracks[t]? = some old ∧
        tr = old.evolve manager.config (manager.joinedDet (manager.dets frame) t) ∧
        ¬ tr.dead manager.config) ∨
      tr ∈ births manager.config manager.nextId (manager.newDets (manager.dets frame)) := by
  change tr ∈ (manager.missOthers (manager.dets frame)).filter _ ++ _ ↔ _
  rw [List.mem_append, List.mem_filter, Bool.not_eq_true', List.mem_iff_getElem?]
  refine or_congr_left ?_
  simp only [missOthers_getElem?_eq_some_iff, Bool.not_eq_true]
  constructor
  · rintro ⟨⟨t, old, place, same⟩, alive⟩
    exact ⟨t, old, place, same, alive⟩
  · rintro ⟨t, old, place, same, alive⟩
    exact ⟨⟨t, old, place, same⟩, alive⟩

/-- A detection that is published belongs to a confirmed track that it is joined to. -/
theorem publish_eq_some_iff (dets : List (Observation α)) {o : Observation α × Nat}
    {published : Observation α} :
    (((manager.detTrack dets o.2).bind fun t => (manager.missOthers dets)[t]?).bind fun tr =>
        if tr.confirmed then some (o.1.withTrack tr.id) else none) = some published ↔
      ∃ (t : Nat) (old : Track α), manager.detTrack dets o.2 = some t ∧
        manager.tracks[t]? = some old ∧
        (old.evolve manager.config (manager.joinedDet dets t)).confirmed ∧
        published = o.1.withTrack old.id := by
  constructor
  · intro given
    obtain ⟨tr, found, given⟩ := Option.bind_eq_some_iff.mp given
    obtain ⟨t, joined, place⟩ := Option.bind_eq_some_iff.mp found
    obtain ⟨old, placeOld, rfl⟩ := (manager.missOthers_getElem?_eq_some_iff _).mp place
    obtain ⟨confirmed, same⟩ := Option.ite_none_right_eq_some.mp given
    rw [Track.evolve_id] at same
    exact ⟨t, old, joined, placeOld, confirmed, (Option.some.inj same).symm⟩
  · rintro ⟨t, old, joined, placeOld, confirmed, rfl⟩
    have place := (manager.missOthers_getElem?_eq_some_iff dets).mpr ⟨old, placeOld, rfl⟩
    rw [joined, Option.bind_some, place, Option.bind_some, if_pos confirmed, Track.evolve_id]

omit [Arithmetic α] in
theorem publishBorn_cons (o : Observation α) (newDets : List (Observation α)) (tr : Track α)
    (born : List (Track α)) :
    publishBorn (o :: newDets) (tr :: born) =
      (if tr.confirmed then [o.withTrack tr.id] else []) ++ publishBorn newDets born := by
  rw [publishBorn, List.zip_cons_cons, List.filterMap_cons]
  cases tr.confirmed <;> rfl

/-- What is published: the detections of the tracks that are matched and confirmed,
and those of the new tracks that are confirmed at once. -/
theorem mem_published {frame : ObservationFrame α} {o : Observation α} :
    o ∈ (manager.update frame).1.obs ↔
      (∃ (t : Nat) (old : Track α) (det : Observation α), manager.tracks[t]? = some old ∧
        manager.joinedDet (manager.dets frame) t = some det ∧
        (old.evolve manager.config (some det)).confirmed ∧ o = det.withTrack old.id) ∨
      (∃ (k : Nat) (det : Observation α), (manager.newDets (manager.dets frame))[k]? = some det ∧
        (Track.born manager.config (manager.nextId + k) det).confirmed ∧
        o = det.withTrack (manager.nextId + k)) := by
  change o ∈ manager.publishMatched (manager.dets frame) ++
    publishBorn (manager.newDets (manager.dets frame))
      (births manager.config manager.nextId (manager.newDets (manager.dets frame))) ↔ _
  rw [List.mem_append]
  refine or_congr ?_ ?_
  · rw [publishMatched, List.mem_filterMap]
    simp only [publish_eq_some_iff]
    constructor
    · rintro ⟨⟨det, d⟩, listed, t, old, joined, placeOld, confirmed, same⟩
      have taken : manager.joinedDet (manager.dets frame) t = some det :=
        (manager.joinedDet_eq_some_iff _).mpr ⟨d, joined, List.mem_zipIdx_iff_getElem?.mp listed⟩
      exact ⟨t, old, det, placeOld, taken, taken ▸ confirmed, same⟩
    · rintro ⟨t, old, det, placeOld, taken, confirmed, same⟩
      obtain ⟨d, joined, place⟩ := (manager.joinedDet_eq_some_iff _).mp taken
      exact ⟨(det, d), List.mem_zipIdx_iff_getElem?.mpr place, t, old, joined, placeOld,
        taken ▸ confirmed, same⟩
  · rw [publishBorn, List.mem_filterMap]
    constructor
    · rintro ⟨⟨det, tr⟩, listed, given⟩
      obtain ⟨k, zipped⟩ := List.mem_iff_getElem?.mp listed
      obtain ⟨place, born⟩ := List.getElem?_zip_eq_some.mp zipped
      rw [births_getElem?, place] at born
      obtain rfl : Track.born manager.config (manager.nextId + k) det = tr :=
        Option.some.inj born
      obtain ⟨confirmed, same⟩ := Option.ite_none_right_eq_some.mp given
      rw [(Track.born_eq _ _ _).1] at same
      exact ⟨k, det, place, confirmed, (Option.some.inj same).symm⟩
    · rintro ⟨k, det, place, confirmed, rfl⟩
      refine ⟨(det, Track.born manager.config (manager.nextId + k) det), ?_, ?_⟩
      · refine List.mem_iff_getElem?.mpr ⟨k, List.getElem?_zip_eq_some.mpr ⟨place, ?_⟩⟩
        rw [births_getElem?, place]
        rfl
      · rw [if_pos confirmed, (Track.born_eq _ _ _).1]

end TrackManager

end DroneEngage
