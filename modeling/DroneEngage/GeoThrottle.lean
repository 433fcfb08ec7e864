import DroneEngage.DoubleQuotients
import DroneEngage.EventRuns
import DroneEngage.GeoSightings
import DroneEngage.LatestEvents
import DroneEngage.ObservationParsing

/-!
# The rate cap and the movement gate

The throttle remembers the latest event of each camera and identity under a key.
As long as no two of them share a key, and no event is forgotten before its period
is over, it decides every sighting by the latest event of its own target.
-/

namespace DroneEngage

open EventRuns GeoNumber LatestEvents

/-- An event as its payload tells it, with the time of the call. -/
structure FiredEvent where
  atUs : UInt64
  target : DetectTarget
  lat : Double
  lng : Double
  uncM : Double

namespace FiredEvent

def entry (event : FiredEvent) : ThrottleEntry where
  lastSentUs := event.atUs
  lastLat := event.lat
  lastLng := event.lng
  lastUncM := event.uncM

def ofPayload (now : UInt64) (payload : Json) : FiredEvent :=
  let member := fun key => (payload.member? key).getD .null
  { atUs := now
    target :=
      { camId := textOf (member "cam_id")
        identity :=
          match payload.member? "trk" with
          | some trk => .track trk.getInt64
          | none => .untracked (textOf (member "class")) }
    lat := ((member "pos").elements.getD 0 .null).toDouble
    lng := ((member "pos").elements.getD 1 .null).toDouble
    uncM := (member "unc_m").toDouble }

end FiredEvent

def Sighting.event (sighting : Sighting) (now : UInt64) : FiredEvent where
  atUs := now
  target := sighting.target
  lat := sighting.r.lat
  lng := sighting.r.lng
  uncM := sighting.r.uncM

theorem ofPayload_payload {sighting : Sighting} (now : UInt64)
    (fits : (Int64.ofInt sighting.o.trk).toInt = sighting.o.trk) :
    FiredEvent.ofPayload now sighting.payload = sighting.event now := by
  unfold FiredEvent.ofPayload Sighting.event Sighting.target Sighting.payload
    CGeoProjectorCore.detectedPayload
  cases sighting.o.hasTrk with
  | false => rfl
  | true =>
      exact congrArg
        (fun trk : Int => FiredEvent.mk now ⟨sighting.camId, .track trk⟩ sighting.r.lat
          sighting.r.lng sighting.r.uncM) fits

/-- `⌊10^6 / rate_hz⌋` in exact arithmetic; an infinite rate leaves no gap. -/
def rateCapUs (rateHz : Double) : Nat :=
  ⌊(1000000 : ℚ) / rateHz.value⌋₊

/-- The double quotient fits `uint64_t` and is not below that. -/
def PeriodFits (rateHz : Double) : Prop :=
  ∃ period : Nat, ((whole 1000000 : Double) / rateHz).truncate = some (period : Int) ∧
    rateCapUs rateHz ≤ period ∧ period < 2 ^ 64

theorem exists_finite_of_pos {rateHz : Double} (positive : lt (whole 0) rateHz = true) :
    rateHz = .infinity false ∨
      ∃ significand exponent, 0 < significand ∧ rateHz = .finite false significand exponent := by
  have zero : (whole 0 : Double) = .finite false 0 (-56) := by
    decide +kernel
  rw [zero] at positive
  cases rateHz with
  | notANumber => cases positive
  | infinity negative =>
      cases negative
      · exact .inl rfl
      · cases positive
  | finite negative significand exponent =>
      have above := of_decide_eq_true positive
      simp only [Double.inUnits, Nat.cast_zero, zero_mul, Bool.false_eq_true, if_false] at above
      have scaled : (0 : Int) ≤ significand * 2 ^ (exponent - min (-56) exponent).toNat := by
        positivity
      cases negative with
      | true =>
          rw [if_pos rfl] at above
          omega
      | false =>
          rw [if_neg Bool.false_ne_true] at above
          refine .inr ⟨significand, exponent, Nat.pos_of_ne_zero ?_, rfl⟩
          rintro rfl
          simp at above

/-- Below `2 ^ 53` microseconds the rounded period is long enough. -/
theorem periodFits_of_lt {rateHz : Double} (positive : lt (whole 0) rateHz = true)
    (small : rateCapUs rateHz < 2 ^ 53) : PeriodFits rateHz := by
  rcases exists_finite_of_pos positive with rfl | ⟨significand, exponent, nonzero, rfl⟩
  · refine ⟨0, rfl, ?_, by norm_num⟩
    simp [rateCapUs, Double.value]
  · have million : (whole 1000000 : Double) = .finite false 8589934592000000 (-33) := by
      decide +kernel
    have floor : ⌊((8589934592000000 : Nat) : ℚ) / (significand * 2 ^ (exponent - -33))⌋₊ =
        rateCapUs (.finite false significand exponent) := by
      have shifted : (2 : ℚ) ^ (exponent - -33) = 2 ^ exponent * 2 ^ 33 := by
        rw [sub_neg_eq_add, zpow_add₀ two_ne_zero]
        norm_cast
      rw [rateCapUs, Double.value, shifted]
      congr 1
      have nonzeroQ : (significand : ℚ) ≠ 0 := by
        exact_mod_cast nonzero.ne'
      push_cast
      field_simp
      norm_num
    obtain ⟨period, truncated, lower, upper⟩ :=
      Double.truncate_div (by norm_num) nonzero floor small
    refine ⟨period, ?_, lower, by omega⟩
    rw [million]
    exact truncated

section Tracking

variable (cmath : CMath Double) (cap : Nat)

def Spaced (earlier later : FiredEvent) : Prop :=
  earlier.atUs.toNat + cap ≤ later.atUs.toNat

/-- The later event keeps the movement gate. -/
def MovedOn (earlier later : FiredEvent) : Prop :=
  later.atUs.toNat < earlier.atUs.toNat + 5000000 → lt (whole 0) earlier.uncM = true →
    lt earlier.uncM (geoDistanceM cmath earlier.lat earlier.lng later.lat later.lng) = true

def Outdated (now : UInt64) (event : FiredEvent) : Prop :=
  event.atUs.toNat + 60000000 < now.toNat ∧ event.atUs.toNat + cap ≤ now.toNat

/-- The throttle has the latest event of every target, and the events so far are
spaced and have moved on. -/
structure Tracks (now : UInt64) (throttle : OrderedMap String ThrottleEntry)
    (events : List FiredEvent) : Prop where
  remembers : Remembers FiredEvent.target DetectTarget.key FiredEvent.entry
    (Outdated cap now) throttle events
  ordered : events.Pairwise fun later earlier => earlier.atUs ≤ later.atUs
  past : ∀ event ∈ events, 0 < event.atUs ∧ event.atUs ≤ now
  gated : FollowsLatest FiredEvent.target
    (fun earlier later => Spaced cap earlier later ∧ MovedOn cmath earlier later) events

/-- No entry that is dropped for its age is younger than the period. -/
def Spares (now : UInt64) (throttle : OrderedMap String ThrottleEntry) : Prop :=
  ∀ key te, throttle.find? key = some te → 60000000 < now - te.lastSentUs →
    cap ≤ (now - te.lastSentUs).toNat

variable {cmath cap} {now later : UInt64} {throttle : OrderedMap String ThrottleEntry}
  {events : List FiredEvent} {beyondUInt : Double → UInt64} {rateHz : Double}
  {sighting : Sighting}

theorem Tracks.advance (tracks : Tracks cmath cap now throttle events) (elapsed : now ≤ later) :
    Tracks cmath cap later throttle events where
  remembers := by
    apply tracks.remembers.mono
    intro event outdated
    have := UInt64.le_iff_toNat_le.mp elapsed
    exact ⟨outdated.1.trans_le this, outdated.2.trans this⟩
  ordered := tracks.ordered
  past := by
    intro event member
    obtain ⟨positive, past⟩ := tracks.past event member
    exact ⟨positive, UInt64.le_trans past elapsed⟩
  gated := tracks.gated

theorem Tracks.purge (tracks : Tracks cmath cap now throttle events)
    (spares : Spares cap now throttle ∨ throttle.entries.length ≤ 256) :
    Tracks cmath cap now (CGeoProjectorCore.purge throttle now) events := by
  unfold CGeoProjectorCore.purge
  split
  · rename_i many
    have spares := spares.resolve_right (not_le.mpr many)
    refine { tracks with remembers := tracks.remembers.filter ?_ }
    intro event member held dropped
    have past := (tracks.past event member).2
    have old : 60000000 < now - event.atUs :=
      of_decide_eq_true (Bool.not_eq_eq_eq_not.mp dropped)
    have long : cap ≤ (now - event.atUs).toNat := spares event.target.key event.entry held old
    have oldUs : 60000000 < (now - event.atUs).toNat := UInt64.lt_iff_toNat_lt.mp old
    rw [UInt64.toNat_sub_of_le _ _ past] at long oldUs
    have := UInt64.le_iff_toNat_le.mp past
    exact ⟨by omega, by omega⟩
  · exact tracks

/-- What lets a sighting pass where there is an event to go by. -/
theorem released_of_not_heldBack {te : ThrottleEntry} {r : GeoProjectionResult Double}
    (released : CGeoProjectorCore.heldBack beyondUInt cmath rateHz te r now = false)
    (sent : te.lastSentUs ≠ 0) :
    CGeoProjectorCore.periodUs beyondUInt rateHz ≤ now - te.lastSentUs ∧
      (now - te.lastSentUs < 5000000 → lt (whole 0) te.lastUncM = true →
        lt te.lastUncM (geoDistanceM cmath te.lastLat te.lastLng r.lat r.lng) = true) := by
  unfold CGeoProjectorCore.heldBack at released
  have notZero : (te.lastSentUs != 0) = true := bne_iff_ne.mpr sent
  dsimp only at released
  rw [notZero, Bool.true_and, Bool.or_eq_false_iff, decide_eq_false_iff_not, UInt64.not_lt]
    at released
  refine ⟨released.1, fun soon positive => ?_⟩
  have notSteady : decide (steadyResendUs ≤ now - te.lastSentUs) = false :=
    decide_eq_false (UInt64.not_le.mpr soon)
  rw [notSteady, if_pos positive] at released
  simpa using released.2

theorem Tracks.released (tracks : Tracks cmath cap now throttle events)
    (fits : cap ≤ (CGeoProjectorCore.periodUs beyondUInt rateHz).toNat)
    (released : CGeoProjectorCore.heldBack beyondUInt cmath rateHz
      ((throttle.find? sighting.target.key).getD .default) sighting.r now = false)
    {earlier : FiredEvent}
    (found : latest FiredEvent.target events sighting.target = some earlier) :
    Spaced cap earlier (sighting.event now) ∧ MovedOn cmath earlier (sighting.event now) := by
  obtain ⟨positive, past⟩ := tracks.past earlier (List.mem_of_find?_eq_some found)
  have elapsed := UInt64.le_iff_toNat_le.mp past
  rcases tracks.remembers _ _ found with held | ⟨-, outdated⟩
  · rw [held] at released
    have sent : earlier.entry.lastSentUs ≠ 0 := (UInt64.pos_iff_ne_zero.mp positive)
    obtain ⟨period, moved⟩ := released_of_not_heldBack released sent
    have age : (now - earlier.atUs).toNat = now.toNat - earlier.atUs.toNat :=
      UInt64.toNat_sub_of_le _ _ past
    have periodUs := UInt64.le_iff_toNat_le.mp period
    constructor
    · have reached := fits.trans (periodUs.trans age.le)
      change earlier.atUs.toNat + cap ≤ now.toNat
      omega
    · intro soon
      apply moved
      apply UInt64.lt_iff_toNat_lt.mpr
      change now.toNat < earlier.atUs.toNat + 5000000 at soon
      change (now - earlier.atUs).toNat < 5000000
      omega
  · refine ⟨outdated.2, fun soon => ?_⟩
    have late := outdated.1
    change now.toNat < earlier.atUs.toNat + 5000000 at soon
    omega

theorem heldBack_default {r : GeoProjectionResult Double} :
    CGeoProjectorCore.heldBack beyondUInt cmath rateHz .default r now = false :=
  rfl

theorem Tracks.passesThrottle (tracks : Tracks cmath cap now throttle events)
    (fits : cap ≤ (CGeoProjectorCore.periodUs beyondUInt rateHz).toNat)
    (clock : 0 < now)
    (apart : ∀ other ∈ events, other.target.key = sighting.target.key →
      other.target = sighting.target)
    (spares : Spares cap now throttle ∨ throttle.entries.length ≤ 256) :
    let decided := CGeoProjectorCore.passesThrottle beyondUInt cmath rateHz throttle
      sighting.camId sighting.o sighting.r now
    Tracks cmath cap now decided.2
      (if decided.1 then sighting.event now :: events else events) := by
  have purged := tracks.purge spares
  unfold CGeoProjectorCore.passesThrottle
  rw [← sighting.key_target]
  dsimp only
  generalize CGeoProjectorCore.purge throttle now = throttle at purged ⊢
  split
  · rename_i held
    refine { purged with remembers := ?_ }
    cases found : throttle.find? sighting.target.key with
    | none =>
        rw [found, Option.getD_none, heldBack_default] at held
        cases held
    | some te => exact purged.remembers.insert_self found
  · rename_i released
    rw [Bool.not_eq_true] at released
    constructor
    · exact purged.remembers.record apart
    · exact .cons (fun other member => (purged.past other member).2) purged.ordered
    · intro event member
      rcases List.mem_cons.mp member with rfl | member
      · exact ⟨clock, UInt64.le_refl now⟩
      · exact purged.past event member
    · exact ⟨fun earlier found => purged.released fits released found, purged.gated⟩

/-- The keys that are held with those of the sightings before the last are too few
for the old entries to be dropped. -/
def Few (throttle : OrderedMap String ThrottleEntry) (sightings : List Sighting) : Prop :=
  sightings ≠ [] →
    (throttle.keys ++ sightings.dropLast.map fun sighting => sighting.target.key).toFinset.card ≤
      256

theorem Few.length_le {rest : List Sighting} (few : Few throttle (sighting :: rest)) :
    throttle.entries.length ≤ 256 := by
  have bound := few (List.cons_ne_nil _ _)
  calc
    throttle.entries.length = throttle.keys.toFinset.card := by
      rw [List.toFinset_card_of_nodup throttle.nodup_keys, OrderedMap.keys, List.length_map]
    _ ≤ _ := by
      apply Finset.card_le_card
      rw [List.toFinset_append]
      exact Finset.subset_union_left
    _ ≤ 256 := bound

theorem find?_of_purge {key : String} {te : ThrottleEntry}
    (found : (CGeoProjectorCore.purge throttle now).find? key = some te) :
    throttle.find? key = some te := by
  unfold CGeoProjectorCore.purge at found
  split at found
  · rw [OrderedMap.find?_filter] at found
    exact (Option.filter_eq_some_iff.mp found).1
  · exact found

/-- A period of at most a minute is over when an entry is old. -/
theorem spares_of_le (short : cap ≤ 60000001) : Spares cap now throttle := by
  intro key te found old
  have oldUs : 60000000 < (now - te.lastSentUs).toNat := UInt64.lt_iff_toNat_lt.mp old
  omega

/-- After a decision the throttle holds the entry of the sighting under its key, from
before or of this moment, and under the others nothing new. -/
theorem find?_passesThrottle {key : String} {te : ThrottleEntry}
    (found : (CGeoProjectorCore.passesThrottle beyondUInt cmath rateHz throttle
      sighting.camId sighting.o sighting.r now).2.find? key = some te) :
    (key = sighting.target.key ∧ te.lastSentUs = now) ∨ throttle.find? key = some te := by
  unfold CGeoProjectorCore.passesThrottle at found
  rw [← sighting.key_target] at found
  dsimp only at found
  split at found
  · rename_i held
    rw [OrderedMap.find?_insert] at found
    split at found
    · rename_i same
      cases before : (CGeoProjectorCore.purge throttle now).find? sighting.target.key with
      | none =>
          rw [before, Option.getD_none, heldBack_default] at held
          cases held
      | some entry =>
          rw [before] at found
          obtain rfl := Option.some.inj found
          exact .inr (same ▸ find?_of_purge before)
    · exact .inr (find?_of_purge found)
  · rw [OrderedMap.find?_insert] at found
    split at found
    · rename_i same
      obtain rfl := Option.some.inj found
      exact .inl ⟨same, rfl⟩
    · exact .inr (find?_of_purge found)

theorem Spares.passesThrottle (spares : Spares cap now throttle) :
    Spares cap now (CGeoProjectorCore.passesThrottle beyondUInt cmath rateHz throttle
      sighting.camId sighting.o sighting.r now).2 := by
  intro key te found old
  rcases find?_passesThrottle found with ⟨-, recent⟩ | before
  · rw [recent, UInt64.sub_self] at old
    cases UInt64.not_lt_zero old
  · exact spares key te before old

theorem Few.passesThrottle {rest : List Sighting} (few : Few throttle (sighting :: rest)) :
    Few (CGeoProjectorCore.passesThrottle beyondUInt cmath rateHz throttle
      sighting.camId sighting.o sighting.r now).2 rest := by
  intro more
  have bound := few (List.cons_ne_nil _ _)
  rw [List.dropLast_cons_of_ne_nil more] at bound
  apply le_trans (Finset.card_le_card ?_) bound
  intro key member
  rw [List.mem_toFinset, List.mem_append] at member ⊢
  rcases member with held | coming
  · obtain ⟨te, found⟩ := (OrderedMap.mem_keys _).mp held
    rcases find?_passesThrottle found with ⟨rfl, -⟩ | before
    · exact .inr List.mem_cons_self
    · exact .inl ((OrderedMap.mem_keys _).mpr ⟨te, before⟩)
  · exact .inr (List.mem_cons_of_mem _ coming)

theorem Tracks.throttleEach {sightings : List Sighting}
    (tracks : Tracks cmath cap now throttle events)
    (fits : cap ≤ (CGeoProjectorCore.periodUs beyondUInt rateHz).toNat)
    (clock : 0 < now)
    (apart : ∀ sighting ∈ sightings, ∀ other ∈ events,
      other.target.key = sighting.target.key → other.target = sighting.target)
    (within : ∀ sighting ∈ sightings, ∀ other ∈ sightings,
      other.target.key = sighting.target.key → other.target = sighting.target)
    (spares : Spares cap now throttle ∨ Few throttle sightings) :
    let decided :=
      CGeoProjectorCore.throttleEach beyondUInt cmath rateHz now throttle sightings
    Tracks cmath cap now decided.2
      ((decided.1.map fun sighting => sighting.event now).reverse ++ events) := by
  induction sightings generalizing throttle events with
  | nil => exact tracks
  | cons sighting rest ih =>
      rw [List.forall_mem_cons] at apart
      have first := tracks.passesThrottle fits clock apart.1 (spares.imp_right Few.length_le)
      rw [CGeoProjectorCore.throttleEach]
      dsimp only at first ⊢
      have others := ih first ?_ ?_ ?_
      · split
        · rename_i passes
          rw [if_pos passes] at others
          simpa using others
        · rename_i heldBack
          rw [if_neg heldBack] at others
          exact others
      · intro later member other recorded sameKey
        split at recorded
        · rcases List.mem_cons.mp recorded with rfl | recorded
          · exact within later (List.mem_cons_of_mem _ member) sighting List.mem_cons_self sameKey
          · exact apart.2 later member other recorded sameKey
        · exact apart.2 later member other recorded sameKey
      · intro later member other recorded
        exact within later (List.mem_cons_of_mem _ member) other (List.mem_cons_of_mem _ recorded)
      · exact spares.imp Spares.passesThrottle Few.passesThrottle

end Tracking

theorem trk_fits_of_reads {e : Json} {o : Observation Double} (reads : Reads e o) :
    (Int64.ofInt o.trk).toInt = o.trk := by
  have bounds : -2 ^ 63 ≤ o.trk ∧ o.trk < 2 ^ 63 := by
    rw [reads.trkRead]
    cases e.member? "trk" with
    | none => decide
    | some trk => exact getInt64_bounds trk
  exact Int64.toInt_ofInt_of_le bounds.1 bounds.2

theorem trk_fits_of_readsFrame {ms : Json} {frame : ObservationFrame Double}
    (reads : ReadsFrame ms frame) {o : Observation Double} (member : o ∈ frame.obs) :
    (Int64.ofInt o.trk).toInt = o.trk := by
  obtain ⟨arr, -, each⟩ := reads.obs
  generalize frame.obs = obs at each member
  induction each with
  | nil => cases member
  | cons first _ ih =>
      rcases List.mem_cons.mp member with rfl | member
      · exact trk_fits_of_reads first
      · exact ih member

theorem trk_fits {core : CGeoProjectorCore} {cmath : CMath Double} {ms : Json} {now : UInt64}
    {poseAt : UInt64 → Option GeoPoseFix} {sighting : Sighting}
    (member : sighting ∈ core.sightings cmath ms now poseAt) :
    (Int64.ofInt sighting.o.trk).toInt = sighting.o.trk := by
  obtain ⟨frame, fix, fires, -⟩ := CGeoProjectorCore.fires_of_mem_sightings member
  exact trk_fits_of_readsFrame (obsParse_eq_ok_iff.mp fires.parsed).1 fires.member

structure FrameCall where
  ms : Json
  now : UInt64
  poseAt : UInt64 → Option GeoPoseFix

/-- A projector with the time of the latest call and the events fired so far, the
latest first. -/
structure GeoTrail where
  core : CGeoProjectorCore
  clockUs : UInt64
  events : List FiredEvent

namespace GeoTrail

section Steps

variable (beyondUInt : Double → UInt64) (cmath : CMath Double)

def after (trail : GeoTrail) (call : FrameCall) : GeoTrail :=
  let called := trail.core.onObservations beyondUInt cmath call.ms call.now call.poseAt
  let payloads := called.2.2.filterMap GeoOutput.payload?
  { core := called.1
    clockUs := call.now
    events := (payloads.map (FiredEvent.ofPayload call.now)).reverse ++ trail.events }

/-- A call on a clock that is positive and does not go back. -/
def step (trail : GeoTrail) (call : FrameCall) : Option GeoTrail :=
  if trail.clockUs ≤ call.now ∧ 0 < call.now then some (trail.after beyondUInt cmath call)
  else none

/-- No sighting of a call has the key of another target that has an event or is seen,
and the call drops no entry that is younger than the period. -/
structure Served (trail : GeoTrail) (call : FrameCall) : Prop where
  apart : ∀ sighting ∈ trail.core.sightings cmath call.ms call.now call.poseAt,
    ∀ other ∈ trail.events, other.target.key = sighting.target.key →
      other.target = sighting.target
  within : ∀ sighting ∈ trail.core.sightings cmath call.ms call.now call.poseAt,
    ∀ other ∈ trail.core.sightings cmath call.ms call.now call.poseAt,
      other.target.key = sighting.target.key → other.target = sighting.target
  spares : Spares (rateCapUs trail.core.config.rateHz) call.now trail.core.throttle ∨
    Few trail.core.throttle (trail.core.sightings cmath call.ms call.now call.poseAt)

end Steps

variable {beyondUInt : Double → UInt64} {cmath : CMath Double} {start trail next : GeoTrail}
  {call : FrameCall} {calls : List FrameCall} {cap : Nat}

theorem le_periodUs_of_fits {rateHz : Double} (positive : lt (whole 0) rateHz = true)
    (fits : PeriodFits rateHz) :
    rateCapUs rateHz ≤ (CGeoProjectorCore.periodUs beyondUInt rateHz).toNat := by
  obtain ⟨period, truncated, long, small⟩ := fits
  unfold CGeoProjectorCore.periodUs
  rw [if_pos positive, Double.toUInt64, truncated]
  dsimp only
  rw [if_pos ⟨Int.natCast_nonneg period, by omega⟩, Int.toNat_natCast,
    UInt64.toNat_ofNat_of_lt' small]
  exact long

theorem step_rateHz (stepped : trail.step beyondUInt cmath call = some next) :
    next.core.config.rateHz = trail.core.config.rateHz := by
  obtain ⟨-, same⟩ := Option.ite_none_right_eq_some.mp stepped
  obtain rfl := Option.some.inj same
  exact congrArg GeoProjectorConfig.rateHz
    (trail.core.sameSetup_onObservations call.ms call.poseAt).config

theorem tracks_step (stepped : trail.step beyondUInt cmath call = some next)
    (served : trail.Served cmath call)
    (fits : rateCapUs trail.core.config.rateHz ≤
      (CGeoProjectorCore.periodUs beyondUInt trail.core.config.rateHz).toNat)
    (tracks : Tracks cmath (rateCapUs trail.core.config.rateHz) trail.clockUs
      trail.core.throttle trail.events) :
    Tracks cmath (rateCapUs trail.core.config.rateHz) next.clockUs next.core.throttle
      next.events := by
  obtain ⟨⟨ordered, clock⟩, same⟩ := Option.ite_none_right_eq_some.mp stepped
  obtain rfl := Option.some.inj same
  obtain ⟨throttle, payloads⟩ :=
    trail.core.onObservations_eq_throttleEach call.ms call.poseAt
  have decided := (tracks.advance ordered).throttleEach fits clock served.apart served.within
    served.spares
  dsimp only [after] at decided ⊢
  rw [throttle, payloads, List.map_map]
  have read : ∀ sighting ∈ (CGeoProjectorCore.throttleEach beyondUInt cmath
      trail.core.config.rateHz call.now trail.core.throttle
      (trail.core.sightings cmath call.ms call.now call.poseAt)).1,
      (FiredEvent.ofPayload call.now ∘ Sighting.payload) sighting =
        sighting.event call.now := by
    intro sighting passed
    exact ofPayload_payload call.now (trk_fits (CGeoProjectorCore.mem_of_mem_throttleEach passed))
  rw [List.map_congr_left read]
  exact decided

/-- Where every call is served, events of one target are spaced by the period, and
each has moved on from the one before it unless that is 5 s ago. -/
theorem capped_and_gated {start : CGeoProjectorCore}
    (positive : lt (whole 0) start.config.rateHz = true)
    (fits : PeriodFits start.config.rateHz)
    (run : RunWhere (step beyondUInt cmath) (Served cmath) ⟨start, 0, []⟩ calls trail) :
    (trail.events.Pairwise fun later earlier =>
      later.target = earlier.target →
        Spaced (rateCapUs start.config.rateHz) earlier later) ∧
      FollowsLatest FiredEvent.target (MovedOn cmath) trail.events := by
  have long : rateCapUs start.config.rateHz ≤
      (CGeoProjectorCore.periodUs beyondUInt start.config.rateHz).toNat :=
    le_periodUs_of_fits positive fits
  have kept : trail.core.config.rateHz = start.config.rateHz ∧
      Tracks cmath (rateCapUs start.config.rateHz) trail.clockUs trail.core.throttle
        trail.events := by
    apply run.invariant (fun trail => trail.core.config.rateHz = start.config.rateHz ∧
      Tracks cmath (rateCapUs start.config.rateHz) trail.clockUs trail.core.throttle
        trail.events)
    · exact ⟨rfl, .nil, .nil, by simp, trivial⟩
    · intro calls trail call next _ stepped served held
      obtain ⟨rate, tracks⟩ := held
      rw [← rate] at long tracks ⊢
      exact ⟨step_rateHz stepped, tracks_step stepped served long tracks⟩
  obtain ⟨-, tracks⟩ := kept
  constructor
  · apply FollowsLatest.pairwise (tracks.gated.mono fun _ _ both => both.1) tracks.ordered
    intro middle earlier later spaced before
    have := UInt64.le_iff_toNat_le.mp before
    unfold Spaced at spaced ⊢
    omega
  · exact tracks.gated.mono fun _ _ both => both.2

/-- A projector whose cameras look straight down through a lens of 90 by 90 degrees. -/
def downwardCore : CGeoProjectorCore :=
  match (CGeoProjectorCore.init (fun _ => 0) downwardMath (fun _ => .missing)
    (.object
      [ ("enabled", .boolean true), ("hfov_deg", .numberUnsigned 90),
        ("vfov_deg", .numberUnsigned 90) ])).run .fresh with
  | .ok _ core | .error _ core => core

def frameAbove (camId cls : String) (latDeg : Nat) (now : UInt64) : FrameCall where
  ms := centredFrame camId cls
  now := now
  poseAt := fun _ => some (levelFix latDeg)

def downwardTrail (calls : List FrameCall) : GeoTrail :=
  calls.foldl (after (fun _ => 0) downwardMath) ⟨downwardCore, 0, []⟩

theorem rateHz_downwardCore : downwardCore.config.rateHz = whole 1 :=
  rfl

theorem rateCapUs_whole_one : rateCapUs (whole 1) = 1000000 := by
  have one : (whole 1 : Double) = .finite false 4503599627370496 (-52) := by
    decide +kernel
  rw [one, rateCapUs, Double.value]
  norm_num

def movedCalls : List FrameCall :=
  [frameAbove "a" "person" 10 1000000, frameAbove "a" "person" 11 2000000]

/-- A detection comes back to its place while another target with the same key is seen
elsewhere. -/
def clashingCalls : List FrameCall :=
  [ frameAbove "a" "b|cc" 10 1000000, frameAbove "a|cb" "c" 11 2000000,
    frameAbove "a" "b|cc" 10 3000000 ]

def onlyTarget (trail : GeoTrail) (call : FrameCall) (target : DetectTarget) : Bool :=
  (trail.core.sightings downwardMath call.ms call.now call.poseAt).all
      (fun sighting => sighting.target = target) &&
    trail.events.all fun event => event.target = target

theorem served_of_onlyTarget {target : DetectTarget} (only : onlyTarget trail call target = true)
    (rate : trail.core.config.rateHz = whole 1) : trail.Served downwardMath call := by
  rw [onlyTarget, Bool.and_eq_true] at only
  have seen := List.all_eq_true.mp only.1
  have fired := List.all_eq_true.mp only.2
  simp only [decide_eq_true_eq] at seen fired
  constructor
  · intro sighting member other recorded _
    rw [fired other recorded, seen sighting member]
  · intro sighting member other recorded _
    rw [seen other recorded, seen sighting member]
  · rw [rate, rateCapUs_whole_one]
    exact .inl (spares_of_le (by norm_num))

theorem capped_and_gated_movedCalls :
    (downwardTrail movedCalls).events.length = 2 ∧
      ((downwardTrail movedCalls).events.Pairwise fun later earlier =>
        later.target = earlier.target →
          Spaced (rateCapUs downwardCore.config.rateHz) earlier later) ∧
      FollowsLatest FiredEvent.target (MovedOn downwardMath)
        (downwardTrail movedCalls).events := by
  have first : onlyTarget ⟨downwardCore, 0, []⟩ (frameAbove "a" "person" 10 1000000)
      ⟨"a", .untracked "person"⟩ = true := by
    decide +kernel
  have second : onlyTarget (downwardTrail [frameAbove "a" "person" 10 1000000])
      (frameAbove "a" "person" 11 2000000) ⟨"a", .untracked "person"⟩ = true := by
    decide +kernel
  have run : RunWhere (step (fun _ => 0) downwardMath) (Served downwardMath)
      ⟨downwardCore, 0, []⟩ movedCalls (downwardTrail movedCalls) :=
    (RunWhere.nil.snoc (if_pos (by decide)) (served_of_onlyTarget first rfl)).snoc
      (if_pos (by decide)) (served_of_onlyTarget second rfl)
  have fits : PeriodFits downwardCore.config.rateHz := by
    rw [rateHz_downwardCore]
    exact periodFits_of_lt (by decide +kernel) (by rw [rateCapUs_whole_one]; norm_num)
  refine ⟨by decide +kernel, capped_and_gated ?_ fits run⟩
  rw [rateHz_downwardCore]
  decide +kernel

/-- The latest of three events is back at the place of the first, soon after it. -/
def comesBack : List FiredEvent → Bool
  | [third, second, first] =>
      decide (third.target = first.target) && decide (second.target ≠ third.target) &&
        decide (third.atUs.toNat < first.atUs.toNat + 5000000) &&
        lt (whole 0) first.uncM &&
        !lt first.uncM (geoDistanceM downwardMath first.lat first.lng third.lat third.lng)
  | _ => false

theorem not_followsLatest_of_comesBack {events : List FiredEvent}
    (back : comesBack events = true) :
    ¬ FollowsLatest FiredEvent.target (MovedOn downwardMath) events := by
  unfold comesBack at back
  split at back
  · rename_i third second first
    simp only [Bool.and_eq_true, decide_eq_true_eq, Bool.not_eq_true'] at back
    obtain ⟨⟨⟨⟨same, apart⟩, soon⟩, positive⟩, still⟩ := back
    intro follows
    have found : latest FiredEvent.target [second, first] third.target = some first := by
      rw [latest_cons, if_neg apart, latest_cons, if_pos same.symm]
    have moved := follows.1 first found soon positive
    rw [still] at moved
    cases moved
  · cases back

/-- The target is at the same place 2 s later, and is reported again. -/
theorem gate_fails_clashingCalls :
    Run (step (fun _ => 0) downwardMath) ⟨downwardCore, 0, []⟩ clashingCalls
        (downwardTrail clashingCalls) ∧
      downwardCore.config.rateHz = whole 1 ∧
      ¬ FollowsLatest FiredEvent.target (MovedOn downwardMath)
        (downwardTrail clashingCalls).events := by
  refine ⟨?_, rfl, not_followsLatest_of_comesBack (by decide +kernel)⟩
  exact ((Run.nil.snoc (if_pos (by decide))).snoc (if_pos (by decide))).snoc
    (if_pos (by decide))

end GeoTrail

end DroneEngage
