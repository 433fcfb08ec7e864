import DroneEngage.TrackIdentity

/-!
# The lifecycle of a track

The counters of a track are how often in a row it was matched, until it is confirmed,
and missed.  So a track is confirmed exactly when it was matched often enough from its
birth on, a tentative track leaves with its first miss, and a confirmed one with the
first miss that is too many.  An `int` cannot count the miss that is too many where
`max_misses` is the largest one: the counter wraps around, and the track never leaves.
-/

namespace DroneEngage

open EventRuns TrackManager

variable {α : Type}

/-- For how many calls in a row, up to now, a track was not seen. -/
def missedInARow (history : List (TrackMoment α)) (id : Int) : Nat :=
  (history.takeWhile fun moment => !moment.sees id).length

/-- At some frame up to now, the track had been matched in so many consecutive frames,
the first of them that of its birth. -/
def WasConfirmed (confirmHits : Int) (history : List (TrackMoment α)) (id : Int) : Prop :=
  ∃ later streak birth earlier, history = later ++ streak ++ birth :: earlier ∧
    id ∈ birth.born ∧ (∀ moment ∈ streak, id ∈ moment.matched) ∧
    (streak.length : Int) + 1 = confirmHits

section Counting

variable {history : List (TrackMoment α)} {moment : TrackMoment α} {id : Int}

theorem missedInARow_cons_of_sees (sees : moment.sees id) :
    missedInARow (moment :: history) id = 0 := by
  rw [missedInARow, List.takeWhile_cons_of_neg (by simp [sees])]
  rfl

theorem missedInARow_cons_of_misses (misses : ¬ moment.sees id) :
    missedInARow (moment :: history) id = missedInARow history id + 1 := by
  rw [missedInARow, List.takeWhile_cons_of_pos (by simp [misses])]
  rfl

theorem WasConfirmed.cons {confirmHits : Int} (was : WasConfirmed confirmHits history id) :
    WasConfirmed confirmHits (moment :: history) id := by
  obtain ⟨later, streak, birth, earlier, rfl, born, matched, length⟩ := was
  exact ⟨moment :: later, streak, birth, earlier, rfl, born, matched, length⟩

end Counting

/-- A track that was matched in all frames since its birth, so many in all. -/
def MatchedSinceBirth (history : List (TrackMoment α)) (id : Int) (frames : Nat) : Prop :=
  ∃ streak birth earlier, history = streak ++ birth :: earlier ∧ id ∈ birth.born ∧
    (∀ moment ∈ streak, id ∈ moment.matched ∧ id ∉ moment.born) ∧
    (∀ moment ∈ earlier, id ∉ moment.born) ∧ streak.length + 1 = frames

theorem MatchedSinceBirth.not_wasConfirmed {history : List (TrackMoment α)} {id : Int}
    {frames : Nat} {confirmHits : Int} (since : MatchedSinceBirth history id frames)
    (short : (frames : Int) < confirmHits) : ¬ WasConfirmed confirmHits history id := by
  rintro ⟨later, streak', birth', earlier', same, born', -, length'⟩
  obtain ⟨streak, birth, earlier, rfl, -, matched, notBorn, length⟩ := since
  have front := IndexedLists.split_unique (fun moment => id ∈ moment.born) same
    (fun moment member => (matched moment member).2) notBorn born'
  have := congrArg List.length front
  rw [List.length_append] at this
  omega

theorem MatchedSinceBirth.seen_now {history : List (TrackMoment α)} {id : Int} {frames : Nat}
    (since : MatchedSinceBirth history id frames) : ∃ moment ∈ history.head?, moment.sees id := by
  obtain ⟨streak, birth, earlier, rfl, born, matched, -⟩ := since
  cases streak with
  | nil => exact ⟨birth, rfl, by simp [TrackMoment.sees, born]⟩
  | cons last streak =>
      exact ⟨last, rfl, by simp [TrackMoment.sees, (matched last List.mem_cons_self).1]⟩

/-- The fields of a track say what the history says of its id. -/
structure Tracked (config : TrackManagerConfig α) (history : List (TrackMoment α))
    (tr : Track α) : Prop where
  misses : tr.misses.toInt = missedInARow history tr.id
  tentative : tr.confirmed = false → tr.misses = 0 ∧ tr.hits < config.confirmHits ∧
    ∃ frames : Nat, tr.hits.toInt = frames ∧ MatchedSinceBirth history tr.id frames
  confirmed : tr.confirmed → WasConfirmed config.confirmHits.toInt history tr.id ∧
    tr.misses ≤ config.maxMisses

theorem Tracked.confirmed_iff {config : TrackManagerConfig α} {history : List (TrackMoment α)}
    {tr : Track α} (tracked : Tracked config history tr) :
    tr.confirmed ↔ WasConfirmed config.confirmHits.toInt history tr.id := by
  cases confirmed : tr.confirmed with
  | true => exact iff_of_true rfl (tracked.confirmed confirmed).1
  | false =>
      obtain ⟨-, short, frames, hits, since⟩ := tracked.tentative confirmed
      rw [Int32.lt_iff_toInt_lt, hits] at short
      exact iff_of_false Bool.false_ne_true (since.not_wasConfirmed short)

section Evolving

variable [Arithmetic α] {config : TrackManagerConfig α} {history : List (TrackMoment α)}
  {moment : TrackMoment α} {tr : Track α}

/-- A track that the frame matches, with its detection. -/
theorem Tracked.matched (tracked : Tracked config history tr) (o : Observation α)
    (matched : tr.id ∈ moment.matched) (notBorn : tr.id ∉ moment.born)
    (nonneg : 0 ≤ config.maxMisses) :
    Tracked config (moment :: history) (tr.evolve config (some o)) := by
  have sees : moment.sees tr.id := by simp [TrackMoment.sees, matched]
  obtain ⟨hits, noMisses, confirmed⟩ := tr.evolve_some config o
  have counts (short : tr.hits < config.confirmHits) :
      (tr.hits + 1).toInt = tr.hits.toInt + 1 :=
    Track.toInt_succ (Int32.lt_of_lt_of_le short (Int32.le_maxValue _))
  refine ⟨?_, fun tentative => ?_, fun isConfirmed => ⟨?_, ?_⟩⟩
  · rw [noMisses, Track.evolve_id, missedInARow_cons_of_sees sees]
    rfl
  · rw [confirmed, Bool.or_eq_false_iff, decide_eq_false_iff_not] at tentative
    obtain ⟨-, short, frames, before, streak, birth, earlier, rfl, born, all, none, length⟩ :=
      tracked.tentative tentative.1
    rw [hits, noMisses, Track.evolve_id]
    refine ⟨rfl, Int32.not_le.mp tentative.2, frames + 1, ?_, moment :: streak, birth, earlier,
      rfl, born, ?_, none, ?_⟩
    · rw [counts short, before]
      rfl
    · exact List.forall_mem_cons.mpr ⟨⟨matched, notBorn⟩, all⟩
    · rw [List.length_cons, length]
  · rw [Track.evolve_id]
    cases before : tr.confirmed with
    | true => exact (tracked.confirmed before).1.cons
    | false =>
        -- the hit that confirms the track ends its streak
        obtain ⟨-, short, frames, hitsBefore, streak, birth, earlier, rfl, born, all, none,
          length⟩ := tracked.tentative before
        rw [confirmed, before, Bool.false_or, decide_eq_true_eq] at isConfirmed
        refine ⟨[], moment :: streak, birth, earlier, rfl, born, ?_, ?_⟩
        · exact List.forall_mem_cons.mpr ⟨matched, fun m member => (all m member).1⟩
        · have enough : config.confirmHits.toInt ≤ (tr.hits + 1).toInt :=
            Int32.le_iff_toInt_le.mp isConfirmed
          rw [counts short] at enough
          rw [Int32.lt_iff_toInt_lt] at short
          rw [List.length_cons]
          omega
  · rw [noMisses]
    exact nonneg

omit [Arithmetic α] in
/-- A miss more than a track has had so far can be counted. -/
theorem Tracked.toInt_miss (tracked : Tracked config history tr)
    (below : config.maxMisses < Int32.maxValue) :
    (tr.misses + 1).toInt = missedInARow history tr.id + 1 ∧ tr.misses + 1 ≠ 0 := by
  have room : tr.misses < Int32.maxValue := by
    cases confirmed : tr.confirmed with
    | true => exact Int32.lt_of_le_of_lt (tracked.confirmed confirmed).2 below
    | false =>
        rw [(tracked.tentative confirmed).1]
        decide
  have counts := Track.toInt_succ room
  rw [tracked.misses] at counts
  refine ⟨counts, fun zero => ?_⟩
  rw [zero, Int32.toInt_zero] at counts
  omega

/-- A track that the frame misses, if it survives. -/
theorem Tracked.missed (tracked : Tracked config history tr) (misses : ¬ moment.sees tr.id)
    (below : config.maxMisses < Int32.maxValue) (alive : ¬ (tr.evolve config none).dead config) :
    Tracked config (moment :: history) (tr.evolve config none) := by
  obtain ⟨-, missed, confirmed⟩ := tr.evolve_none config
  obtain ⟨counts, nonzero⟩ := tracked.toInt_miss below
  rw [Track.dead_iff, missed, confirmed, not_and, Classical.not_imp, Int32.not_lt] at alive
  obtain ⟨isConfirmed, bounded⟩ := alive nonzero
  refine ⟨?_, fun tentative => ?_, fun _ => ⟨?_, ?_⟩⟩
  · rw [missed, Track.evolve_id, missedInARow_cons_of_misses misses, counts]
    rfl
  · rw [confirmed, isConfirmed] at tentative
    cases tentative
  · rw [Track.evolve_id]
    exact (tracked.confirmed isConfirmed).1.cons
  · rw [missed]
    exact bounded

/-- A track that the frame bears. -/
theorem Tracked.born (id : Int) (o : Observation α) (born : id ∈ moment.born)
    (unknown : ∀ earlier ∈ history, ¬ earlier.sees id) (atLeastOne : 1 ≤ config.confirmHits)
    (nonneg : 0 ≤ config.maxMisses) :
    Tracked config (moment :: history) (Track.born config id o) := by
  have sees : moment.sees id := by simp [TrackMoment.sees, born]
  obtain ⟨sameId, -, hits, noMisses, confirmed⟩ := Track.born_eq config id o
  refine ⟨?_, fun tentative => ?_, fun isConfirmed => ⟨?_, ?_⟩⟩
  · rw [noMisses, sameId, missedInARow_cons_of_sees sees]
    rfl
  · rw [confirmed, decide_eq_false_iff_not] at tentative
    rw [hits, noMisses, sameId]
    refine ⟨rfl, Int32.not_le.mp tentative, 1, rfl, [], moment, history, rfl, born, nofun,
      fun earlier member bornAgain => ?_, rfl⟩
    exact unknown earlier member (by simp [TrackMoment.sees, bornAgain])
  · rw [confirmed, decide_eq_true_eq] at isConfirmed
    rw [sameId]
    refine ⟨[], [], moment, history, rfl, born, nofun, ?_⟩
    rw [Int32.le_antisymm isConfirmed atLeastOne]
    rfl
  · rw [noMisses]
    exact nonneg

end Evolving

theorem TrackManagerConfig.sanitize_bounds [Arithmetic α] (config : TrackManagerConfig α)
    (below : config.maxMisses < Int32.maxValue) :
    1 ≤ config.sanitize.confirmHits ∧ 0 ≤ config.sanitize.maxMisses ∧
      config.sanitize.maxMisses < Int32.maxValue := by
  unfold TrackManagerConfig.sanitize
  refine ⟨?_, ?_, ?_⟩
  · dsimp only
    split
    · exact Int32.le_refl 1
    · exact Int32.not_lt.mp ‹_›
  · dsimp only
    split
    · exact Int32.le_refl 0
    · exact Int32.not_lt.mp ‹_›
  · dsimp only
    split
    · decide
    · exact below

namespace TrackWatch

variable [Arithmetic α]

/-- What is published at a call: what it sees of the tracks that were confirmed. -/
def PublishesConfirmed (confirmHits : Int) (history : List (TrackMoment α)) : Prop :=
  ∀ later moment earlier, history = later ++ moment :: earlier → ∀ id,
    (∃ o ∈ moment.published, o.trk = id) ↔
      moment.sees id ∧ WasConfirmed confirmHits (moment :: earlier) id

/-- The manager does as its configuration says. -/
structure KeepsLifecycle (config : TrackManagerConfig α) (watch : TrackWatch α) : Prop where
  sameConfig : watch.manager.config = config
  ordered : watch.manager.IdsOrdered
  known : ∀ moment ∈ watch.history, ∀ id, moment.sees id → id < watch.manager.nextId
  tracked : ∀ tr ∈ watch.manager.tracks, Tracked config watch.history tr
  publishes : PublishesConfirmed config.confirmHits.toInt watch.history

section Frames

variable {config : TrackManagerConfig α} {watch : TrackWatch α} {frame : ObservationFrame α}

/-- The moment that a frame adds. -/
def frameMoment (watch : TrackWatch α) (frame : ObservationFrame α) : TrackMoment α :=
  .frame (watch.manager.update frame).1.obs (watch.manager.matchedIds frame)
    (watch.manager.bornIds frame) (watch.manager.update frame).2.ids

theorem sees_frameMoment_iff {id : Int} :
    (watch.frameMoment frame).sees id ↔
      id ∈ watch.manager.matchedIds frame ∨ id ∈ watch.manager.bornIds frame := by
  rw [TrackMoment.sees, Bool.or_eq_true, decide_eq_true_eq, decide_eq_true_eq]
  rfl

/-- What the frame makes of the tracks that were there. -/
theorem KeepsLifecycle.tracked_evolve (keeps : KeepsLifecycle config watch)
    (nonneg : 0 ≤ config.maxMisses) (below : config.maxMisses < Int32.maxValue) {t : Nat}
    {old : Track α}
    (place : watch.manager.tracks[t]? = some old)
    (alive : ¬ (old.evolve config
      (watch.manager.joinedDet (watch.manager.dets frame) t)).dead config) :
    Tracked config (watch.frameMoment frame :: watch.history)
      (old.evolve config (watch.manager.joinedDet (watch.manager.dets frame) t)) := by
  have live := List.mem_of_getElem? place
  have notBorn : old.id ∉ watch.manager.bornIds frame :=
    keeps.ordered.not_born (List.mem_map_of_mem live)
  have tracked := keeps.tracked old live
  cases taken : watch.manager.joinedDet (watch.manager.dets frame) t with
  | some o =>
      have matched : old.id ∈ watch.manager.matchedIds frame :=
        mem_matchedIds.mpr ⟨t, old, place, Option.isSome_iff_exists.mpr ⟨o, taken⟩, rfl⟩
      exact tracked.matched o matched notBorn nonneg
  | none =>
      rw [taken] at alive
      refine tracked.missed (fun sees => ?_) below alive
      exact (sees_frameMoment_iff.mp sees).elim (keeps.ordered.not_matched place taken) notBorn

theorem KeepsLifecycle.tracked_update (keeps : KeepsLifecycle config watch)
    (atLeastOne : 1 ≤ config.confirmHits) (nonneg : 0 ≤ config.maxMisses)
    (below : config.maxMisses < Int32.maxValue) :
    ∀ tr ∈ (watch.manager.update frame).2.tracks,
      Tracked config (watch.frameMoment frame :: watch.history) tr := by
  intro tr live
  rcases (mem_tracks_update watch.manager).mp live with ⟨t, old, place, rfl, alive⟩ | born
  · rw [keeps.sameConfig] at alive ⊢
    exact keeps.tracked_evolve nonneg below place alive
  · obtain ⟨k, o, place, rfl⟩ := mem_births.mp born
    rw [keeps.sameConfig]
    refine .born _ o (mem_bornIds.mpr ⟨k, o, place, rfl⟩) (fun earlier member sees => ?_)
      atLeastOne nonneg
    have := keeps.known earlier member _ sees
    omega

/-- What a frame sees is live after it, with no miss. -/
theorem exists_track_of_sees {id : Int} (sees : (watch.frameMoment frame).sees id) :
    ∃ tr ∈ (watch.manager.update frame).2.tracks, tr.id = id ∧
      (tr.confirmed → ∃ o ∈ (watch.manager.update frame).1.obs, o.trk = id) := by
  rcases sees_frameMoment_iff.mp sees with matched | born
  · obtain ⟨t, old, place, taken, rfl⟩ := mem_matchedIds.mp matched
    obtain ⟨o, taken⟩ := Option.isSome_iff_exists.mp taken
    obtain ⟨-, noMisses, -⟩ := Track.evolve_some watch.manager.config old o
    refine ⟨old.evolve watch.manager.config (some o), (mem_tracks_update _).mpr
      (.inl ⟨t, old, place, by rw [taken], fun dead => ?_⟩), Track.evolve_id _ _ _,
      fun confirmed => ?_⟩
    · exact ((Track.dead_iff _ _).mp dead).1 noMisses
    · exact ⟨_, (mem_published _).mpr (.inl ⟨t, old, o, place, taken, confirmed, rfl⟩), rfl⟩
  · obtain ⟨k, o, place, rfl⟩ := mem_bornIds.mp born
    refine ⟨_, (mem_tracks_update _).mpr (.inr (mem_births.mpr ⟨k, o, place, rfl⟩)),
      (Track.born_eq _ _ _).1, fun confirmed => ?_⟩
    exact ⟨_, (mem_published _).mpr (.inr ⟨k, o, place, confirmed, rfl⟩), rfl⟩

theorem KeepsLifecycle.publishes_update (keeps : KeepsLifecycle config watch)
    (atLeastOne : 1 ≤ config.confirmHits) (nonneg : 0 ≤ config.maxMisses)
    (below : config.maxMisses < Int32.maxValue) (id : Int) :
    (∃ o ∈ (watch.manager.update frame).1.obs, o.trk = id) ↔
      (watch.frameMoment frame).sees id ∧
        WasConfirmed config.confirmHits.toInt (watch.frameMoment frame :: watch.history) id := by
  constructor
  · rintro ⟨o, published, rfl⟩
    obtain ⟨tr, live, sameId, -, noMisses, confirmed⟩ := exists_track_of_published published
    have tracked := keeps.tracked_update atLeastOne nonneg below tr live
    rw [← sameId]
    refine ⟨?_, tracked.confirmed_iff.mp confirmed⟩
    by_contra misses
    have := tracked.misses
    rw [noMisses, Int32.toInt_zero, missedInARow_cons_of_misses misses] at this
    omega
  · rintro ⟨sees, was⟩
    obtain ⟨tr, live, rfl, published⟩ := exists_track_of_sees sees
    exact published ((keeps.tracked_update atLeastOne nonneg below tr live).confirmed_iff.mpr was)

end Frames

/-- A call that leaves the configuration as it is. -/
def KeepsConfig : TrackCall α → Prop
  | .setConfig _ => False
  | _ => True

theorem KeepsLifecycle.step {config : TrackManagerConfig α} {watch next : TrackWatch α}
    {call : TrackCall α} (keeps : KeepsLifecycle config watch)
    (atLeastOne : 1 ≤ config.confirmHits) (nonneg : 0 ≤ config.maxMisses)
    (below : config.maxMisses < Int32.maxValue)
    (stepped : watch.step call = some next) (keepsConfig : KeepsConfig call) :
    KeepsLifecycle config next := by
  have publishes {moment : TrackMoment α}
      (new : ∀ id, (∃ o ∈ moment.published, o.trk = id) ↔ moment.sees id ∧
        WasConfirmed config.confirmHits.toInt (moment :: watch.history) id) :
      PublishesConfirmed config.confirmHits.toInt (moment :: watch.history) := by
    intro later other earlier split
    rcases List.cons_eq_append_iff.mp split with ⟨-, same⟩ | ⟨rest, -, same⟩
    · cases same
      exact new
    · exact keeps.publishes rest other earlier same
  cases call with
  | update frame =>
      cases stepped
      refine ⟨keeps.sameConfig, keeps.ordered.update frame, fun moment member id sees => ?_,
        keeps.tracked_update atLeastOne nonneg below,
        publishes (keeps.publishes_update atLeastOne nonneg below)⟩
      rcases List.mem_cons.mp member with rfl | member
      · obtain ⟨tr, live, rfl, -⟩ := exists_track_of_sees sees
        exact (keeps.ordered.update frame).below _ (List.mem_map_of_mem live)
      · exact (keeps.known moment member id sees).trans_le
          (Int.le_add_of_nonneg_right (Int.natCast_nonneg _))
  | reset =>
      cases stepped
      refine ⟨keeps.sameConfig, keeps.ordered.reset, fun moment member id sees => ?_, nofun,
        publishes fun id => ?_⟩
      · rcases List.mem_cons.mp member with rfl | member
        · cases sees
        · exact keeps.known moment member id sees
      · exact iff_of_false (fun ⟨_, absent, _⟩ => nomatch absent) fun seen => nomatch seen.1
  | setConfig config => exact absurd keepsConfig id

/-- An update drops a confirmed track exactly when it has missed one frame too many. -/
theorem KeepsLifecycle.leaves_iff {config : TrackManagerConfig α} {watch : TrackWatch α}
    (keeps : KeepsLifecycle config watch) (nonneg : 0 ≤ config.maxMisses)
    (below : config.maxMisses < Int32.maxValue) (frame : ObservationFrame α) {tr : Track α}
    (live : tr ∈ watch.manager.tracks) (confirmed : tr.confirmed) :
    tr.id ∉ (watch.manager.update frame).2.ids ↔
      (missedInARow (watch.frameMoment frame :: watch.history) tr.id : Int) =
        config.maxMisses.toInt + 1 := by
  obtain ⟨t, place⟩ := List.mem_iff_getElem?.mp live
  have tracked := keeps.tracked tr live
  have bounded := (tracked.confirmed confirmed).2
  have notBorn : tr.id ∉ watch.manager.bornIds frame :=
    keeps.ordered.not_born (List.mem_map_of_mem live)
  cases taken : watch.manager.joinedDet (watch.manager.dets frame) t with
  | some o =>
      have matched : tr.id ∈ watch.manager.matchedIds frame :=
        mem_matchedIds.mpr ⟨t, tr, place, Option.isSome_iff_exists.mpr ⟨o, taken⟩, rfl⟩
      have sees := sees_frameMoment_iff.mpr (.inl matched)
      obtain ⟨after, liveAfter, sameId, -⟩ := exists_track_of_sees sees
      refine iff_of_false (not_not.mpr (sameId ▸ List.mem_map_of_mem liveAfter)) ?_
      rw [missedInARow_cons_of_sees sees]
      rw [Int32.le_iff_toInt_le, Int32.toInt_zero] at nonneg
      omega
  | none =>
      have misses : ¬ (watch.frameMoment frame).sees tr.id := fun sees =>
        (sees_frameMoment_iff.mp sees).elim (keeps.ordered.not_matched place taken) notBorn
      have leaves : tr.id ∉ (watch.manager.update frame).2.ids ↔
          (tr.evolve config none).dead config := by
        rw [not_iff_comm]
        constructor
        · intro alive
          refine List.mem_map.mpr ⟨tr.evolve config none, (mem_tracks_update _).mpr
            (.inl ⟨t, tr, place, ?_, ?_⟩), Track.evolve_id _ _ _⟩
          · rw [taken, keeps.sameConfig]
          · rwa [keeps.sameConfig]
        · intro stays
          obtain ⟨after, liveAfter, sameId⟩ := List.mem_map.mp stays
          rcases (mem_tracks_update _).mp liveAfter with ⟨t', old, place', rfl, alive⟩ | born
          · rw [Track.evolve_id] at sameId
            obtain rfl := keeps.ordered.index_unique place' place sameId
            obtain rfl := Option.some.inj (place'.symm.trans place)
            rwa [taken, keeps.sameConfig] at alive
          · exact absurd (List.mem_map.mpr ⟨after, born, sameId⟩) notBorn
      obtain ⟨counts, nonzero⟩ := tracked.toInt_miss below
      rw [Int32.le_iff_toInt_le, tracked.misses] at bounded
      rw [leaves, missedInARow_cons_of_misses misses, Track.dead_iff,
        (tr.evolve_none config).2.1, (tr.evolve_none config).2.2, Int32.lt_iff_toInt_lt, counts]
      simp only [confirmed, forall_const, nonzero, ne_eq, not_false_eq_true, true_and]
      omega

theorem KeepsLifecycle.fresh (config : TrackManagerConfig α) :
    KeepsLifecycle config.sanitize (fresh config) where
  sameConfig := rfl
  ordered := .fresh config
  known := nofun
  tracked := nofun
  publishes := fun later _ _ split => absurd split (by simp [TrackWatch.fresh])

/-- An id is published exactly in the frames that see its track once that was matched in
`confirm_hits` frames from its birth on.  A track that is live and not yet confirmed was
seen just now, a confirmed one missed at most `max_misses` frames in a row, and it leaves
with the next miss or at a reset. -/
structure FollowsLifecycle (config : TrackManagerConfig α) (watch : TrackWatch α) : Prop where
  publishes : PublishesConfirmed config.confirmHits.toInt watch.history
  live : ∀ tr ∈ watch.manager.tracks,
    (tr.confirmed ↔ WasConfirmed config.confirmHits.toInt watch.history tr.id) ∧
    (tr.confirmed = false → ∃ moment ∈ watch.history.head?, moment.sees tr.id) ∧
    (tr.confirmed → (missedInARow watch.history tr.id : Int) ≤ config.maxMisses.toInt)
  leaves : ∀ call next, watch.step call = some next → KeepsConfig call →
    ∀ tr ∈ watch.manager.tracks, tr.confirmed →
      (tr.id ∉ next.manager.ids ↔ call = .reset ∨
        (missedInARow next.history tr.id : Int) = config.maxMisses.toInt + 1)

/-- A run with one configuration follows the lifecycle, if the miss that is too many can be
counted. -/
theorem lifecycle_of_run (config : TrackManagerConfig α)
    (below : config.maxMisses < Int32.maxValue) {calls : List (TrackCall α)}
    {watch : TrackWatch α}
    (run : RunWhere step (fun _ call => KeepsConfig call) (fresh config) calls watch) :
    FollowsLifecycle config.sanitize watch := by
  obtain ⟨atLeastOne, nonneg, below⟩ := config.sanitize_bounds below
  have keeps : KeepsLifecycle config.sanitize watch :=
    run.invariant _ (.fresh config) fun _ stepped keepsConfig keeps =>
      keeps.step atLeastOne nonneg below stepped keepsConfig
  refine ⟨keeps.publishes, fun tr live => ?_, fun call next stepped keepsConfig tr live
    confirmed => ?_⟩
  · have tracked := keeps.tracked tr live
    refine ⟨tracked.confirmed_iff, fun tentative => ?_, fun confirmed => ?_⟩
    · obtain ⟨-, -, frames, -, since⟩ := tracked.tentative tentative
      exact since.seen_now
    · rw [← tracked.misses]
      exact Int32.le_iff_toInt_le.mp (tracked.confirmed confirmed).2
  · cases call with
    | update frame =>
        cases stepped
        rw [or_iff_right nofun]
        exact keeps.leaves_iff nonneg below frame live confirmed
    | reset =>
        cases stepped
        exact iff_of_true List.not_mem_nil (.inl rfl)
    | setConfig config => exact absurd keepsConfig id

theorem lifecycle_of_run_person :
    ∃ watch, RunWhere step (fun _ call => KeepsConfig call) (fresh threeHits)
        ([.update personFrame] ++ [.reset] ++ [.update personFrame]) watch ∧
      FollowsLifecycle threeHits.sanitize watch := by
  have seen : RunWhere step (fun _ call => KeepsConfig call) (fresh threeHits)
      [.update personFrame] _ :=
    RunWhere.nil.snoc (show step _ (.update personFrame) = some _ from rfl) trivial
  have forgotten := seen.snoc (show step _ .reset = some _ from rfl) trivial
  have seenAgain := forgotten.snoc (show step _ (.update personFrame) = some _ from rfl) trivial
  exact ⟨_, seenAgain, lifecycle_of_run threeHits (by decide) seenAgain⟩

section Patience

/-- A configuration that waits as long as it can. -/
def patient : TrackManagerConfig ℚ where
  confirmHits := 1
  maxMisses := Int32.maxValue
  iouMin := 1 / 4
  minConf := 0

def emptyFrame : ObservationFrame ℚ where
  camId := "front"
  tmCapture := 100
  obs := []

/-- A confirmed track that was missed so many times in a row. -/
def Waits (watch : TrackWatch ℚ) (misses : Nat) : Prop :=
  watch.manager.config.maxMisses = Int32.maxValue ∧
    ∃ tr ∈ watch.manager.tracks, tr.confirmed ∧ missedInARow watch.history tr.id = misses

/-- No counter is larger than the largest `int`. -/
theorem Waits.update {watch : TrackWatch ℚ} {misses : Nat} (waits : watch.Waits misses) :
    ∃ next, watch.step (.update emptyFrame) = some next ∧ next.Waits (misses + 1) := by
  obtain ⟨most, tr, live, confirmed, missed⟩ := waits
  obtain ⟨t, place⟩ := List.mem_iff_getElem?.mp live
  refine ⟨_, rfl, most, tr.evolve watch.manager.config none,
    (mem_tracks_update _).mpr (.inl ⟨t, tr, place, rfl, ?_⟩), confirmed, ?_⟩
  · rw [Track.dead_iff, most]
    rintro ⟨-, less⟩
    exact Int32.not_lt.mpr (Int32.le_maxValue _) (less confirmed)
  · have unseen : ¬ (watch.frameMoment emptyFrame).sees tr.id := by
      rw [sees_frameMoment_iff, not_or]
      refine ⟨?_, List.not_mem_nil⟩
      rw [mem_matchedIds]
      rintro ⟨t, old, -, taken, -⟩
      cases taken
    rw [Track.evolve_id]
    exact (missedInARow_cons_of_misses unseen).trans (congrArg Nat.succ missed)

/-- A person is seen once and then never again. -/
theorem exists_waits (misses : Nat) :
    ∃ watch, RunWhere step (fun _ call => KeepsConfig call) (fresh patient)
        (.update personFrame :: List.replicate misses (.update emptyFrame)) watch ∧
      watch.Waits misses := by
  induction misses with
  | zero =>
      refine ⟨_, RunWhere.nil.snoc (show step _ (.update personFrame) = some _ from rfl) trivial,
        rfl, ?_⟩
      decide +kernel
  | succ misses ih =>
      obtain ⟨watch, run, waits⟩ := ih
      obtain ⟨next, stepped, waits⟩ := waits.update
      rw [List.replicate_succ', ← List.cons_append]
      exact ⟨next, run.snoc stepped trivial, waits⟩

/-- After 2^31 frames without it the person is still tracked, where 2^31 - 1 of them are
allowed. -/
theorem lifecycle_fails :
    ∃ watch, RunWhere step (fun _ call => KeepsConfig call) (fresh patient)
        (.update personFrame :: List.replicate (2 ^ 31) (.update emptyFrame)) watch ∧
      ¬ FollowsLifecycle patient.sanitize watch := by
  obtain ⟨watch, run, -, tr, live, confirmed, missed⟩ := exists_waits (2 ^ 31)
  refine ⟨watch, run, fun follows => ?_⟩
  have bounded := (follows.live tr live).2.2 confirmed
  rw [missed] at bounded
  exact absurd bounded (by decide)

end Patience

end TrackWatch

end DroneEngage
