import DroneEngage.TrackHistory

/-!
# The identity of a track

Ids stand for one track for ever: they are distinct among the live tracks and within
a frame, an id is published for one class only, and an id that has left never comes
back.
-/

namespace DroneEngage

open EventRuns TrackManager

variable {α : Type} [Arithmetic α]

namespace TrackManager

variable {manager : TrackManager α} {frame : ObservationFrame α}

/-- A published observation belongs to a confirmed track, seen in this frame, of its
class. -/
theorem exists_track_of_published {o : Observation α}
    (published : o ∈ (manager.update frame).1.obs) :
    ∃ tr ∈ (manager.update frame).2.tracks, tr.id = o.trk ∧ tr.cls = o.cls ∧
      tr.misses = 0 ∧ tr.confirmed := by
  rcases (mem_published manager).mp published with
    ⟨t, old, det, place, taken, confirmed, rfl⟩ | ⟨k, det, place, confirmed, rfl⟩
  · obtain ⟨-, noMisses, -⟩ := Track.evolve_some manager.config old det
    have alive : ¬ (old.evolve manager.config (some det)).dead manager.config :=
      fun dead => (Track.dead_iff _ _).mp dead |>.1 noMisses
    refine ⟨old.evolve manager.config (some det), (mem_tracks_update manager).mpr
      (.inl ⟨t, old, place, by rw [taken], alive⟩), Track.evolve_id _ _ _, ?_, noMisses,
      confirmed⟩
    obtain ⟨d, joined, placeDet⟩ := (manager.joinedDet_eq_some_iff _).mp taken
    obtain ⟨other, otherDet, placeOther, placeOtherDet, sameClass⟩ :=
      exists_of_mem_joins ((manager.detTrack_eq_some_iff _).mp joined)
    obtain rfl := Option.some.inj (place.symm.trans placeOther)
    obtain rfl := Option.some.inj (placeDet.symm.trans placeOtherDet)
    exact (Track.evolve_cls _ _ _).trans sameClass
  · obtain ⟨sameId, sameClass, -, noMisses, -⟩ :=
      Track.born_eq manager.config (manager.nextId + k) det
    exact ⟨_, (mem_tracks_update manager).mpr (.inr (mem_births.mpr ⟨k, det, place, rfl⟩)),
      sameId, sameClass, noMisses, confirmed⟩

/-- A track after an update was there before, with its class, or is new. -/
theorem track_before_update {tr : Track α} (live : tr ∈ (manager.update frame).2.tracks) :
    (∃ old ∈ manager.tracks, old.id = tr.id ∧ old.cls = tr.cls) ∨ manager.nextId ≤ tr.id := by
  rcases (mem_tracks_update manager).mp live with ⟨t, old, place, rfl, -⟩ | born
  · exact .inl ⟨old, List.mem_of_getElem? place, (Track.evolve_id _ _ _).symm,
      (Track.evolve_cls _ _ _).symm⟩
  · obtain ⟨k, o, -, rfl⟩ := mem_births.mp born
    rw [(Track.born_eq _ _ _).1]
    omega

omit [Arithmetic α] in
theorem publishBorn_sublist (newDets : List (Observation α)) (born : List (Track α)) :
    ((publishBorn newDets born).map Observation.trk).Sublist (born.map Track.id) := by
  induction newDets generalizing born with
  | nil => exact List.nil_sublist _
  | cons o newDets ih =>
      cases born with
      | nil => exact List.nil_sublist _
      | cons tr born =>
          rw [publishBorn_cons]
          cases tr.confirmed with
          | false => exact (ih born).cons tr.id
          | true => exact (ih born).cons_cons tr.id

theorem IdsOrdered.publishMatched_nodup (ordered : manager.IdsOrdered)
    (dets : List (Observation α)) :
    ((manager.publishMatched dets).map Observation.trk).Nodup := by
  have places : (dets.zipIdx.map Prod.snd).Pairwise (· < ·) := by
    rw [List.zipIdx_map_snd]
    exact List.pairwise_lt_range'
  rw [List.Nodup, List.pairwise_map, publishMatched, List.pairwise_filterMap]
  refine (List.pairwise_map.mp places).imp fun {first second} before o given o' given' same => ?_
  obtain ⟨t, old, joined, place, -, rfl⟩ := (manager.publish_eq_some_iff dets).mp given
  obtain ⟨t', old', joined', place', -, rfl⟩ := (manager.publish_eq_some_iff dets).mp given'
  obtain rfl := ordered.index_unique place place' same
  exact before.ne (manager.detTrack_injective dets joined joined')

theorem mem_ids_of_publishMatched {dets : List (Observation α)} {o : Observation α}
    (published : o ∈ manager.publishMatched dets) : o.trk ∈ manager.ids := by
  obtain ⟨det, -, given⟩ := List.mem_filterMap.mp published
  obtain ⟨t, old, -, place, -, rfl⟩ := (manager.publish_eq_some_iff _).mp given
  exact List.mem_map_of_mem (List.mem_of_getElem? place)

/-- The ids within a frame are distinct. -/
theorem IdsOrdered.published_nodup (ordered : manager.IdsOrdered)
    (frame : ObservationFrame α) :
    ((manager.update frame).1.obs.map Observation.trk).Nodup := by
  obtain ⟨increasing, bounds⟩ := births_ids manager.config manager.nextId
    (manager.newDets (manager.dets frame))
  have within := publishBorn_sublist (manager.newDets (manager.dets frame))
    (births manager.config manager.nextId (manager.newDets (manager.dets frame)))
  change ((manager.publishMatched _ ++ publishBorn _ _).map Observation.trk).Nodup
  rw [List.map_append, List.nodup_append]
  refine ⟨ordered.publishMatched_nodup _, ?_, fun matched matchedMem born bornMem same => ?_⟩
  · exact (increasing.imp fun before => before.ne).sublist within
  · have new := (bounds born (within.subset bornMem)).1
    obtain ⟨o, listed, rfl⟩ := List.mem_map.mp matchedMem
    have below := ordered.below _ (mem_ids_of_publishMatched listed)
    omega

end TrackManager

namespace TrackWatch

/-- What one call adds to the history of a manager with ordered ids. -/
structure CallEffect (before after : TrackManager α) (moment : TrackMoment α) : Prop where
  ordered : after.IdsOrdered
  live : moment.live = after.ids
  nextId : before.nextId ≤ after.nextId
  tracks : ∀ tr ∈ after.tracks,
    (∃ old ∈ before.tracks, old.id = tr.id ∧ old.cls = tr.cls) ∨ before.nextId ≤ tr.id
  published : ∀ o ∈ moment.published, ∃ tr ∈ after.tracks, tr.id = o.trk ∧ tr.cls = o.cls
  nodup : (moment.published.map Observation.trk).Nodup

theorem callEffect {watch next : TrackWatch α} {call : TrackCall α}
    (ordered : watch.manager.IdsOrdered) (stepped : watch.step call = some next) :
    ∃ moment, next.history = moment :: watch.history ∧
      CallEffect watch.manager next.manager moment := by
  cases call with
  | update frame =>
      cases stepped
      refine ⟨_, rfl, ordered.update frame, rfl, ?_, fun tr live => track_before_update live,
        fun o published => ?_, ordered.published_nodup frame⟩
      · exact Int.le_add_of_nonneg_right (Int.natCast_nonneg _)
      · obtain ⟨tr, live, sameId, sameClass, -, -⟩ := exists_track_of_published published
        exact ⟨tr, live, sameId, sameClass⟩
  | reset =>
      cases stepped
      exact ⟨_, rfl, ordered.reset, rfl, le_rfl, nofun, nofun, .nil⟩
  | setConfig config =>
      cases stepped
      exact ⟨_, rfl, ordered.setConfig config, rfl, le_rfl,
        fun tr live => .inl ⟨tr, live, rfl, rfl⟩, nofun, .nil⟩

/-- The identity of tracks along a history. -/
structure KeepsIdentity (watch : TrackWatch α) : Prop where
  ordered : watch.manager.IdsOrdered
  current : ∀ moment ∈ watch.history.head?, moment.live = watch.manager.ids
  known : ∀ moment ∈ watch.history, ∀ id ∈ moment.live, id < watch.manager.nextId
  publishedLive : ∀ moment ∈ watch.history, ∀ o ∈ moment.published, o.trk ∈ moment.live
  nodup : ∀ moment ∈ watch.history, (moment.published.map Observation.trk).Nodup
  trackClass : ∀ moment ∈ watch.history, ∀ o ∈ moment.published,
    ∀ tr ∈ watch.manager.tracks, tr.id = o.trk → tr.cls = o.cls
  oneClass : ∀ moment ∈ watch.history, ∀ other ∈ watch.history, ∀ o ∈ moment.published,
    ∀ o' ∈ other.published, o.trk = o'.trk → o.cls = o'.cls
  gone : ∀ later moment middle earlier was id,
    watch.history = later ++ moment :: middle ++ was :: earlier →
      id ∈ was.live → id ∉ moment.live → ∀ after ∈ later, id ∉ after.live

theorem KeepsIdentity.fresh (config : TrackManagerConfig α) : KeepsIdentity (fresh config) where
  ordered := .fresh config
  current := nofun
  known := nofun
  publishedLive := nofun
  nodup := nofun
  trackClass := nofun
  oneClass := nofun
  gone := by
    intro later moment middle earlier was id split
    exact absurd split (by simp [TrackWatch.fresh])

omit [Arithmetic α] in
/-- An id that has left is not among the ids now. -/
theorem KeepsIdentity.not_live_now {watch : TrackWatch α} (keeps : KeepsIdentity watch)
    {later middle earlier : List (TrackMoment α)} {moment was : TrackMoment α} {id : Int}
    (split : watch.history = later ++ moment :: middle ++ was :: earlier)
    (wasLive : id ∈ was.live) (left : id ∉ moment.live) : id ∉ watch.manager.ids := by
  cases later with
  | nil =>
      rw [← keeps.current moment (by rw [split]; rfl)]
      exact left
  | cons last later =>
      rw [← keeps.current last (by rw [split]; rfl)]
      exact keeps.gone _ _ _ _ _ id split wasLive left last List.mem_cons_self

section Effects

variable {watch : TrackWatch α} {manager : TrackManager α} {moment : TrackMoment α}

omit [Arithmetic α] in
/-- What was ever published of a track that is live has its class. -/
theorem KeepsIdentity.class_of_live (keeps : KeepsIdentity watch)
    (effect : CallEffect watch.manager manager moment) :
    ∀ m ∈ moment :: watch.history, ∀ o ∈ m.published, ∀ tr ∈ manager.tracks,
      tr.id = o.trk → tr.cls = o.cls := by
  intro m member o published tr live sameId
  rcases List.mem_cons.mp member with rfl | old
  · obtain ⟨owner, ownerLive, ownerId, ownerClass⟩ := effect.published o published
    obtain ⟨t, place⟩ := List.mem_iff_getElem?.mp live
    obtain ⟨t', place'⟩ := List.mem_iff_getElem?.mp ownerLive
    obtain rfl := effect.ordered.index_unique place place' (sameId.trans ownerId.symm)
    rw [Option.some.inj (place.symm.trans place')]
    exact ownerClass
  · rcases effect.tracks tr live with ⟨before, liveBefore, sameBefore, sameClass⟩ | new
    · exact sameClass ▸ keeps.trackClass m old o published before liveBefore
        (sameBefore.trans sameId)
    · have := keeps.known m old _ (keeps.publishedLive m old o published)
      omega

omit [Arithmetic α] in
/-- What is published now and what was published under the same id is of one class. -/
theorem KeepsIdentity.class_of_published (keeps : KeepsIdentity watch)
    (effect : CallEffect watch.manager manager moment) :
    ∀ o ∈ moment.published, ∀ other ∈ moment :: watch.history, ∀ o' ∈ other.published,
      o.trk = o'.trk → o.cls = o'.cls := by
  intro o published other member o' published' sameId
  obtain ⟨tr, live, sameTrack, sameClass⟩ := effect.published o published
  exact sameClass ▸ keeps.class_of_live effect other member o' published' tr live
    (sameTrack.trans sameId)

omit [Arithmetic α] in
/-- An id that has left stays away. -/
theorem KeepsIdentity.gone_of_effect (keeps : KeepsIdentity watch)
    (effect : CallEffect watch.manager manager moment)
    {later middle earlier : List (TrackMoment α)} {left was : TrackMoment α} {id : Int}
    (split : moment :: watch.history = later ++ left :: middle ++ was :: earlier)
    (wasLive : id ∈ was.live) (leftNot : id ∉ left.live) : ∀ after ∈ later, id ∉ after.live := by
  intro after member
  cases later with
  | nil => exact absurd member List.not_mem_nil
  | cons last later =>
      obtain ⟨rfl, before⟩ := List.cons_eq_cons.mp split
      rcases List.mem_cons.mp member with rfl | earlierMember
      · have gone := keeps.not_live_now before wasLive leftNot
        have known := keeps.known was (by rw [before]; simp) id wasLive
        intro liveAgain
        rw [effect.live] at liveAgain
        obtain ⟨tr, live, rfl⟩ := List.mem_map.mp liveAgain
        rcases effect.tracks tr live with ⟨old, oldLive, sameId, -⟩ | new
        · exact gone (sameId ▸ List.mem_map_of_mem oldLive)
        · omega
      · exact keeps.gone later left middle earlier was id before wasLive leftNot after
          earlierMember

end Effects

theorem KeepsIdentity.step {watch next : TrackWatch α} {call : TrackCall α}
    (keeps : KeepsIdentity watch) (stepped : watch.step call = some next) :
    KeepsIdentity next := by
  obtain ⟨moment, history, effect⟩ := callEffect keeps.ordered stepped
  obtain ⟨manager, nextHistory⟩ := next
  subst history
  refine ⟨effect.ordered, ?_, ?_, ?_, ?_, keeps.class_of_live effect, ?_, ?_⟩
  · rintro _ ⟨⟩
    exact effect.live
  · intro m member id live
    rcases List.mem_cons.mp member with rfl | member
    · rw [effect.live] at live
      exact effect.ordered.below id live
    · exact (keeps.known m member id live).trans_le effect.nextId
  · intro m member o published
    rcases List.mem_cons.mp member with rfl | member
    · obtain ⟨tr, live, sameId, -⟩ := effect.published o published
      rw [effect.live, ← sameId]
      exact List.mem_map_of_mem live
    · exact keeps.publishedLive m member o published
  · exact List.forall_mem_cons.mpr ⟨effect.nodup, keeps.nodup⟩
  · intro m member other otherMember o published o' published' sameId
    rcases List.mem_cons.mp member with rfl | old
    · exact keeps.class_of_published effect o published other otherMember o' published' sameId
    · rcases List.mem_cons.mp otherMember with rfl | otherOld
      · exact (keeps.class_of_published effect o' published' m member o published
          sameId.symm).symm
      · exact keeps.oneClass m old other otherOld o published o' published' sameId
  · intro later left middle earlier was id split wasLive leftNot
    exact keeps.gone_of_effect effect split wasLive leftNot

/-- In every run the ids of the live tracks are positive, increase along the list and
stay below the next id; the ids within a frame are distinct; one id is published for
one class; and an id that has left is never live or published again. -/
theorem identity_of_run (config : TrackManagerConfig α) {calls : List (TrackCall α)}
    {watch : TrackWatch α} (run : Run step (fresh config) calls watch) :
    (watch.manager.ids.Pairwise (· < ·) ∧
      ∀ id ∈ watch.manager.ids, 0 < id ∧ id < watch.manager.nextId) ∧
    (∀ moment ∈ watch.history, (moment.published.map Observation.trk).Nodup) ∧
    (∀ moment ∈ watch.history, ∀ other ∈ watch.history, ∀ o ∈ moment.published,
      ∀ o' ∈ other.published, o.trk = o'.trk → o.cls = o'.cls) ∧
    (∀ later moment middle earlier was id,
      watch.history = later ++ moment :: middle ++ was :: earlier →
        id ∈ was.live → id ∉ moment.live →
          id ∉ watch.manager.ids ∧ ∀ after ∈ later,
            id ∉ after.live ∧ ∀ o ∈ after.published, o.trk ≠ id) := by
  have keeps : KeepsIdentity watch :=
    run.invariant KeepsIdentity (.fresh config) fun _ stepped keeps => keeps.step stepped
  refine ⟨⟨keeps.ordered.increasing, fun id live =>
    ⟨keeps.ordered.positive id live, keeps.ordered.below id live⟩⟩, keeps.nodup,
    keeps.oneClass, ?_⟩
  intro later moment middle earlier was id split wasLive left
  refine ⟨keeps.not_live_now split wasLive left, fun after member => ?_⟩
  have gone := keeps.gone later moment middle earlier was id split wasLive left after member
  refine ⟨gone, fun o published same => gone ?_⟩
  have listed : after ∈ watch.history := by
    rw [split]
    simp [member]
  exact same ▸ keeps.publishedLive after listed o published

theorem identity_of_run_reset :
    ∃ watch, Run step (fresh threeHits) ([.update personFrame] ++ [.reset]) watch ∧
      watch.manager.tracks = [] ∧
      ∀ moment ∈ watch.history, (moment.published.map Observation.trk).Nodup := by
  have run := (Run.nil.snoc (show step (fresh threeHits) (.update personFrame) = some _
    from rfl)).snoc (show step _ .reset = some _ from rfl)
  exact ⟨_, run, rfl, (identity_of_run threeHits run).2.1⟩

end TrackWatch

end DroneEngage
