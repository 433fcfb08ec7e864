import DroneEngage.ObservationRoundTrip
import DroneEngage.TrackClasses

/-!
# From the detections to those who listen

The frames of a camera go through its track manager, over the wire as `obsBuild`
writes them, and into `obsParse`.  What the manager publishes is always accepted
by both, and the listener finds what the detections said, under ids that keep
their meaning over all frames that it hears.
-/

namespace DroneEngage

open EventRuns KeyedTransducers IndexedLists

/-- The doubles that the tracker computes with. -/
instance : Arithmetic Double where
  add := Double.add
  sub := Double.sub
  mul := Double.mul
  div := Double.div
  lt left right := left.lt right = true
  le left right := left.le right = true
  zero := .ofInt 0
  intCast value := .ofInt value
  ofScientific digits divided places :=
    if divided then .decimal digits places else .ofInt (digits * 10 ^ places : Nat)
  decidableLT left right := inferInstanceAs (Decidable (left.lt right = true))
  decidableLE left right := inferInstanceAs (Decidable (left.le right = true))

namespace TrackCall

variable {α : Type}

/-- The frame that a call brings. -/
def fed? : TrackCall α → Option (ObservationFrame α)
  | update frame => some frame
  | _ => none

end TrackCall

/-- The number of all detections in some calls. -/
def detectionCount {α : Type} (calls : List (TrackCall α)) : Nat :=
  ((calls.filterMap TrackCall.fed?).map fun frame => frame.obs.length).sum

namespace TrackManager

section Steps

variable {α : Type} [Arithmetic α] {manager : TrackManager α} {frame : ObservationFrame α}

theorem newDets_subset (dets : List (Observation α)) {o : Observation α}
    (new : o ∈ manager.newDets dets) : o ∈ dets := by
  obtain ⟨⟨det, d⟩, kept, rfl⟩ := List.mem_map.mp new
  exact List.mem_of_getElem? (List.mem_zipIdx_iff_getElem?.mp (List.mem_filter.mp kept).1)

/-- What is published is a detection of the frame, but for its id. -/
theorem exists_detection_of_published {o : Observation α}
    (published : o ∈ (manager.update frame).1.obs) :
    ∃ det ∈ frame.obs, o = det.withTrack o.trk := by
  have fed {det : Observation α} (listed : det ∈ manager.dets frame) : det ∈ frame.obs :=
    (List.mem_filter.mp listed).1
  rcases (mem_published manager).mp published with
    ⟨t, old, det, -, taken, -, rfl⟩ | ⟨k, det, place, -, rfl⟩
  · obtain ⟨d, -, placeDet⟩ := (manager.joinedDet_eq_some_iff _).mp taken
    exact ⟨det, fed (List.mem_of_getElem? placeDet), rfl⟩
  · exact ⟨det, fed (newDets_subset _ (List.mem_of_getElem? place)), rfl⟩

/-- A published id is positive, and issued. -/
theorem IdsOrdered.published_bounds (ordered : manager.IdsOrdered) {o : Observation α}
    (published : o ∈ (manager.update frame).1.obs) :
    0 < o.trk ∧ o.trk < (manager.update frame).2.nextId := by
  obtain ⟨tr, live, sameId, -⟩ := exists_track_of_published published
  have listed : o.trk ∈ (manager.update frame).2.ids := sameId ▸ List.mem_map_of_mem live
  exact ⟨(ordered.update frame).positive _ listed, (ordered.update frame).below _ listed⟩

/-- A call issues no more ids than it has detections. -/
theorem nextId_call_le (manager : TrackManager α) (call : TrackCall α) :
    (manager.call call).1.nextId ≤ manager.nextId + detectionCount [call] := by
  cases call with
  | update given =>
      have fewer : (manager.newDets (manager.dets given)).length ≤ given.obs.length :=
        calc (manager.newDets (manager.dets given)).length
            ≤ (manager.dets given).zipIdx.length := by
              rw [newDets, List.length_map]
              exact List.length_filter_le _ _
          _ = (manager.dets given).length := List.length_zipIdx
          _ ≤ given.obs.length := List.length_filter_le _ _
      have next : (manager.call (.update given)).1.nextId =
        manager.nextId + (manager.newDets (manager.dets given)).length := rfl
      have count : detectionCount [TrackCall.update given] = given.obs.length := by
        simp [detectionCount, TrackCall.fed?]
      omega
  | reset => exact (add_zero manager.nextId).ge
  | setConfig config => exact (add_zero manager.nextId).ge

omit [Arithmetic α] in
theorem detectionCount_cons (call : TrackCall α) (calls : List (TrackCall α)) :
    detectionCount (call :: calls) = detectionCount [call] + detectionCount calls := by
  rw [detectionCount, ← List.singleton_append, List.filterMap_append, List.map_append,
    List.sum_append]
  rfl

theorem IdsOrdered.call (ordered : manager.IdsOrdered) (call : TrackCall α) :
    (manager.call call).1.IdsOrdered := by
  cases call with
  | update frame => exact ordered.update frame
  | reset => exact ordered.reset
  | setConfig config => exact ordered.setConfig config

/-- A published frame, beside the frame it was made from. -/
structure PublishedFrom (limit : Int) (fed out : ObservationFrame α) : Prop where
  camId : out.camId = fed.camId
  tmCapture : out.tmCapture = fed.tmCapture
  detections : ∀ o ∈ out.obs, ∃ det ∈ fed.obs, o = det.withTrack o.trk
  trk : ∀ o ∈ out.obs, 0 < o.trk ∧ o.trk < limit
  nodup : (out.obs.map Observation.trk).Nodup

omit [Arithmetic α] in
theorem PublishedFrom.hasTrk {limit : Int} {fed out : ObservationFrame α}
    (published : PublishedFrom limit fed out) {o : Observation α} (listed : o ∈ out.obs) :
    o.hasTrk = true := by
  obtain ⟨det, -, same⟩ := published.detections o listed
  rw [same]
  rfl

/-- Each frame is answered by one frame, made from its detections. -/
theorem IdsOrdered.run_published (ordered : manager.IdsOrdered) {limit : Int}
    {calls : List (TrackCall α)} (few : manager.nextId + detectionCount calls ≤ limit) :
    List.Forall₂ (PublishedFrom limit) (calls.filterMap TrackCall.fed?)
      (run TrackManager.call manager calls).2 := by
  induction calls generalizing manager with
  | nil => exact .nil
  | cons call calls ih =>
      rw [detectionCount_cons] at few
      have issued := manager.nextId_call_le call
      have rest := ih (ordered.call call) (by omega)
      rw [run_cons]
      cases call with
      | update frame =>
          refine .cons ⟨rfl, rfl, fun o listed => exists_detection_of_published listed,
            fun o listed => ?_, ordered.published_nodup frame⟩ rest
          obtain ⟨positive, below⟩ := ordered.published_bounds listed
          refine ⟨positive, below.trans_le ?_⟩
          change (manager.update frame).2.nextId ≤ _ at issued
          omega
      | reset => exact rest
      | setConfig config => exact rest

/-- The watch of a run knows what was published. -/
theorem exists_watch_of_run (config : TrackManagerConfig α) (calls : List (TrackCall α)) :
    ∃ watch, Run TrackWatch.step (.fresh config) calls watch ∧
      watch.manager = (run TrackManager.call (.fresh config) calls).1 ∧
      ∀ frame ∈ (run TrackManager.call (.fresh config) calls).2,
        ∃ moment ∈ watch.history, moment.published = frame.obs := by
  induction calls using List.reverseRecOn with
  | nil => exact ⟨_, .nil, rfl, nofun⟩
  | append_singleton calls call ih =>
      obtain ⟨watch, earlier, sameManager, known⟩ := ih
      rw [run_append, run_cons, ← sameManager]
      cases call with
      | update frame =>
          have stepped : TrackWatch.step watch (.update frame) = some _ := rfl
          refine ⟨_, earlier.snoc stepped, rfl, fun out listed => ?_⟩
          rcases List.mem_append.mp listed with old | new
          · obtain ⟨moment, member, same⟩ := known out old
            exact ⟨moment, List.mem_cons_of_mem _ member, same⟩
          · obtain rfl := List.mem_singleton.mp new
            exact ⟨_, List.mem_cons_self, rfl⟩
      | reset =>
          have stepped : TrackWatch.step watch .reset = some _ := rfl
          refine ⟨_, earlier.snoc stepped, rfl, fun out listed => ?_⟩
          obtain ⟨moment, member, same⟩ := known out (by simpa [call] using listed)
          exact ⟨moment, List.mem_cons_of_mem _ member, same⟩
      | setConfig config =>
          have stepped : TrackWatch.step watch (.setConfig config) = some _ := rfl
          refine ⟨_, earlier.snoc stepped, rfl, fun out listed => ?_⟩
          obtain ⟨moment, member, same⟩ := known out (by simpa [call] using listed)
          exact ⟨moment, List.mem_cons_of_mem _ member, same⟩

/-- One id is published for one class. -/
theorem class_of_run (config : TrackManagerConfig α) (calls : List (TrackCall α))
    {out other : ObservationFrame α}
    (published : out ∈ (run TrackManager.call (.fresh config) calls).2)
    (publishedOther : other ∈ (run TrackManager.call (.fresh config) calls).2)
    {o o' : Observation α} (listed : o ∈ out.obs) (listed' : o' ∈ other.obs)
    (same : o.trk = o'.trk) : o.cls = o'.cls := by
  obtain ⟨watch, watched, -, known⟩ := exists_watch_of_run config calls
  have keeps : watch.KeepsIdentity := watched.invariant TrackWatch.KeepsIdentity (.fresh config)
    fun _ stepped keeps => keeps.step stepped
  obtain ⟨moment, member, sameObs⟩ := known out published
  obtain ⟨moment', member', sameObs'⟩ := known other publishedOther
  rw [← sameObs] at listed
  rw [← sameObs'] at listed'
  exact keeps.oneClass moment member moment' member' o listed o' listed' same

end Steps

end TrackManager

/-- What a frame that is sent becomes where it arrives. -/
structure Arrives (library : JsonLibrary) (out heard : ObservationFrame Double) : Prop where
  accepted : ∃ wire ms, obsBuild out = .ok wire ∧
    library.parse (wire.dump library none) = some ms ∧ obsParse ms = .ok heard
  same : SameFrame heard out

/-- What a listener hears of a frame: some of its detections, under ids. -/
structure HeardFrom (fed heard : ObservationFrame Double) : Prop where
  camId : heard.camId = fed.camId
  tmCapture : heard.tmCapture = fed.tmCapture
  detections : ∀ o ∈ heard.obs, o.hasTrk = true ∧ 0 < o.trk ∧
    ∃ det ∈ fed.obs, SameObservation o (det.withTrack o.trk)
  nodup : (heard.obs.map Observation.trk).Nodup

/-- A frame of a camera: it passes the checks, its boxes have numbers, and its time
is one of the source. -/
structure ObservationFrame.Sound (frame : ObservationFrame Double) : Prop where
  valid : frame.Valid
  tmCapture : frame.tmCapture < 2 ^ 63
  writable : ∀ o ∈ frame.obs, o.Writable

namespace TrackManager

section Frames

variable {library : JsonLibrary} {fed out heard : ObservationFrame Double}

theorem PublishedFrom.valid (published : PublishedFrom (2 ^ 63) fed out) (sound : fed.Sound) :
    out.Valid where
  camId := published.camId ▸ sound.valid.camId
  tmCapture := published.tmCapture ▸ sound.valid.tmCapture
  obs o listed := by
    obtain ⟨det, given, same⟩ := published.detections o listed
    have valid := sound.valid.obs det given
    rw [same]
    exact ⟨valid.cls, valid.conf, (obsBoxValid_congr rfl rfl rfl rfl).trans valid.box,
      valid.attrs⟩

theorem PublishedFrom.fits (published : PublishedFrom (2 ^ 63) fed out) (sound : fed.Sound) :
    out.Fits where
  tmCapture := by
    have nonneg := sound.valid.tmCapture
    have small := sound.tmCapture
    rw [published.tmCapture]
    omega
  trk o listed := by
    obtain ⟨positive, below⟩ := published.trk o listed
    omega

theorem PublishedFrom.writable (published : PublishedFrom (2 ^ 63) fed out) (sound : fed.Sound) :
    ∀ o ∈ out.obs, o.Writable := by
  intro o listed
  obtain ⟨det, given, same⟩ := published.detections o listed
  have writable := sound.writable det given
  rw [same]
  exact ⟨writable.x, writable.y, writable.w, writable.h, writable.attrs⟩

/-- What is published arrives. -/
theorem PublishedFrom.exists_arrives (published : PublishedFrom (2 ^ 63) fed out)
    (sound : fed.Sound)
    (rereads : library.parse (out.toWire.dump library none) = some out.toWire.reread) :
    ∃ heard, Arrives library out heard := by
  have built : obsBuild out = .ok out.toWire :=
    obsBuild_eq_ok_iff.mpr ⟨published.valid sound, rfl⟩
  obtain ⟨ms, heard, parsed, accepted, same⟩ :=
    (obsBuild_roundTrip_iff built (published.fits sound) rereads).mpr (published.writable sound)
  exact ⟨heard, ⟨_, ms, built, parsed, accepted⟩, same⟩

/-- The ids that arrive are those that are published. -/
theorem PublishedFrom.trk_of_arrives (published : PublishedFrom (2 ^ 63) fed out)
    (arrives : Arrives library out heard) :
    List.Forall₂ (fun o sent => SameObservation o sent ∧ o.trk = sent.trk) heard.obs out.obs := by
  have all : ∀ o ∈ out.obs, o.hasTrk = true := fun o listed => published.hasTrk listed
  have same := arrives.same.obs
  generalize heard.obs = arrived at same ⊢
  generalize out.obs = sent at same all
  induction same with
  | nil => exact .nil
  | cons first _ ih =>
      rw [List.forall_mem_cons] at all
      exact .cons ⟨first, first.trk all.1⟩ (ih all.2)

theorem PublishedFrom.heardFrom (published : PublishedFrom (2 ^ 63) fed out)
    (arrives : Arrives library out heard) : HeardFrom fed heard := by
  have observations := published.trk_of_arrives arrives
  have ids : heard.obs.map Observation.trk = out.obs.map Observation.trk :=
    List.forall₂_eq_eq_eq ▸ List.forall₂_map_left_iff.mpr
      (List.forall₂_map_right_iff.mpr (observations.imp fun _ _ both => both.2))
  refine ⟨arrives.same.camId.trans published.camId,
    arrives.same.tmCapture.trans published.tmCapture, fun o listed => ?_,
    ids ▸ published.nodup⟩
  obtain ⟨sent, sentListed, same, sameTrk⟩ := exists_of_mem_forall₂ observations listed
  obtain ⟨det, given, sentSame⟩ := published.detections sent sentListed
  have withId : sent = det.withTrack o.trk := sameTrk ▸ sentSame
  refine ⟨same.hasTrk.trans (published.hasTrk sentListed), ?_, det, given, withId ▸ same⟩
  exact sameTrk ▸ (published.trk sent sentListed).1

/-- All that is published arrives, frame after frame. -/
theorem exists_arrives_all {limit : Int} (bounded : limit = 2 ^ 63)
    {given outs : List (ObservationFrame Double)}
    (published : List.Forall₂ (PublishedFrom limit) given outs)
    (sound : ∀ fed ∈ given, fed.Sound)
    (rereads : ∀ out ∈ outs,
      library.parse (out.toWire.dump library none) = some out.toWire.reread) :
    ∃ arrived, List.Forall₂ (Arrives library) outs arrived ∧
      List.Forall₂ HeardFrom given arrived := by
  subst bounded
  induction published with
  | nil => exact ⟨[], .nil, .nil⟩
  | cons first _ ih =>
      rw [List.forall_mem_cons] at sound rereads
      obtain ⟨arrived, arrives, heard⟩ := ih sound.2 rereads.2
      obtain ⟨head, headArrives⟩ := first.exists_arrives sound.1 rereads.1
      exact ⟨head :: arrived, .cons headArrives arrives,
        .cons (first.heardFrom headArrives) heard⟩

/-- In every run of a camera's track manager, what it publishes of sound frames is
written, and read where it arrives; a listener hears of each frame some of its
detections, under ids that are positive, distinct within the frame, and stand for one
class over all frames. -/
theorem heard_of_run (config : TrackManagerConfig Double) {calls : List (TrackCall Double)}
    (sound : ∀ fed ∈ calls.filterMap TrackCall.fed?, fed.Sound)
    (few : detectionCount calls < 2 ^ 63)
    (rereads : ∀ out ∈ (run TrackManager.call (.fresh config) calls).2,
      library.parse (out.toWire.dump library none) = some out.toWire.reread) :
    ∃ arrived,
      List.Forall₂ (Arrives library) (run TrackManager.call (.fresh config) calls).2 arrived ∧
      List.Forall₂ HeardFrom (calls.filterMap TrackCall.fed?) arrived ∧
      ∀ heard ∈ arrived, ∀ other ∈ arrived, ∀ o ∈ heard.obs, ∀ o' ∈ other.obs,
        o.trk = o'.trk → o.cls = o'.cls := by
  have ordered : (TrackManager.fresh config).IdsOrdered := .fresh config
  have issued : (TrackManager.fresh config).nextId = 1 := rfl
  have published : List.Forall₂ (PublishedFrom (2 ^ 63)) (calls.filterMap TrackCall.fed?)
      (run TrackManager.call (.fresh config) calls).2 :=
    ordered.run_published (by rw [issued]; omega)
  obtain ⟨arrived, arrives, heardAll⟩ := exists_arrives_all rfl published sound rereads
  refine ⟨arrived, arrives, heardAll, ?_⟩
  intro heard listed other listed' o member o' member' same
  -- each observation that is heard is one that was published, of the same id and class
  have sent {heard : ObservationFrame Double} (listed : heard ∈ arrived)
      {o : Observation Double} (member : o ∈ heard.obs) :
      ∃ out ∈ (run TrackManager.call (.fresh config) calls).2, ∃ sent ∈ out.obs,
        o.trk = sent.trk ∧ o.cls = sent.cls := by
    obtain ⟨out, outListed, came⟩ := exists_of_mem_forall₂ arrives.flip listed
    obtain ⟨fed, -, madeFrom⟩ := exists_of_mem_forall₂ published.flip outListed
    obtain ⟨sent, sentListed, alike, sameTrk⟩ :=
      exists_of_mem_forall₂ (madeFrom.trk_of_arrives came) member
    exact ⟨out, outListed, sent, sentListed, sameTrk, alike.cls⟩
  obtain ⟨out, outListed, first, firstListed, firstTrk, firstCls⟩ := sent listed member
  obtain ⟨out', outListed', second, secondListed, secondTrk, secondCls⟩ := sent listed' member'
  rw [firstCls, secondCls]
  exact class_of_run config calls outListed outListed' firstListed secondListed
    (firstTrk.symm.trans (same.trans secondTrk))

/-- A track is published the first time it is seen. -/
def oneHit : TrackManagerConfig Double where
  confirmHits := 1
  maxMisses := 0
  iouMin := half
  minConf := half

/-- The frame that is published of the one with half an image. -/
def heardHalf : ObservationFrame Double :=
  { halfFrame half with obs := (halfFrame half).obs.map fun o => o.withTrack 1 }

theorem sound_halfFrame : (halfFrame half).Sound where
  valid := by
    have built : obsBuild (halfFrame half) = .ok (halfFrame half).toWire := rfl
    exact (obsBuild_eq_ok_iff.mp built).1
  tmCapture := by
    change (1 : Int) < 2 ^ 63
    decide
  writable o listed := by
    obtain rfl := List.mem_singleton.mp listed
    exact ⟨by decide, by decide, by decide, by decide, rfl⟩

theorem wellFormed_heardHalf : heardHalf.toWire.reread.WellFormed := by
  apply Json.WellFormed.reread
  refine .object _ (by simp only [List.pairwise_cons, List.forall_mem_cons]; decide) ?_
  rw [List.forall_mem_cons, List.forall_mem_cons, List.forall_mem_singleton]
  refine ⟨.string _, .array _ ?_, .numberInteger _⟩
  intro entry listed
  obtain rfl := List.mem_singleton.mp listed
  refine .object _ (by decide) ?_
  have members : ∀ member ∈ [("box", Json.array [.numberFloat half, .numberFloat half,
      .numberFloat half, .numberFloat half]), ("cls", .string "person"),
      ("cls_id", .numberInteger 0), ("conf", .numberFloat half), ("trk", .numberInteger 1)],
      member.2.WellFormed := by
    simp only [List.forall_mem_cons]
    refine ⟨.array _ ?_, .string _, .numberInteger _, .numberFloat _, .numberInteger _, by simp⟩
    simp only [List.forall_mem_cons]
    exact ⟨.numberFloat _, .numberFloat _, .numberFloat _, .numberFloat _, by simp⟩
  exact members

/-- A detection of one frame is heard under the first id. -/
theorem heard_of_run_half :
    ∃ library arrived,
      List.Forall₂ (Arrives library)
        (run TrackManager.call (.fresh oneHit) [.update (halfFrame half)]).2 arrived ∧
      List.Forall₂ HeardFrom [halfFrame half] arrived ∧
      ∀ heard ∈ arrived, ∀ other ∈ arrived, ∀ o ∈ heard.obs, ∀ o' ∈ other.obs,
        o.trk = o'.trk → o.cls = o'.cls := by
  have published : (run TrackManager.call (.fresh oneHit) [.update (halfFrame half)]).2 =
    [heardHalf] := rfl
  refine ⟨rereadLibrary heardHalf.toWire wellFormed_heardHalf, heard_of_run oneHit ?_ ?_ ?_⟩
  · intro fed listed
    obtain rfl := List.mem_singleton.mp listed
    exact sound_halfFrame
  · decide
  · intro out listed
    rw [published] at listed
    obtain rfl := List.mem_singleton.mp listed
    exact rereadLibrary_rereads wellFormed_heardHalf

end Frames

end TrackManager

end DroneEngage
