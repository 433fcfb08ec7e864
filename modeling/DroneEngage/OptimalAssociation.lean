import DroneEngage.GatedMatchings
import DroneEngage.OptimalAssignment
import DroneEngage.TrackSteps
import Mathlib.Algebra.Order.Field.Basic

/-!
# The joined pairs are a best matching

Over the rationals the overlap of two boxes is between 0 and 1, so what the tracker
pays for a pair that may not be joined is more than all others together.  In each class
it joins as many pairs as can be joined, and those that overlap most.
-/

namespace DroneEngage

open TrackDetail IndexedLists AssignmentDuality GatedMatchings

namespace TrackDetail

theorem stdMin_le (left right : ℚ) : stdMin left right ≤ left ∧ stdMin left right ≤ right := by
  unfold stdMin
  split
  · rename_i less
    exact ⟨le_of_lt less, le_rfl⟩
  · rename_i notLess
    exact ⟨le_rfl, le_of_not_gt notLess⟩

theorem le_stdMax (left right : ℚ) : left ≤ stdMax left right ∧ right ≤ stdMax left right := by
  unfold stdMax
  split
  · rename_i less
    exact ⟨le_of_lt less, le_rfl⟩
  · rename_i notLess
    exact ⟨le_rfl, le_of_not_gt notLess⟩

/-- What two sides have in common is no longer than either of them. -/
theorem overlap_le (x w x' w' : ℚ) :
    stdMin (x + w) (x' + w') - stdMax x x' ≤ w ∧
      stdMin (x + w) (x' + w') - stdMax x x' ≤ w' := by
  obtain ⟨first, second⟩ := stdMin_le (x + w) (x' + w')
  obtain ⟨third, fourth⟩ := le_stdMax x x'
  constructor <;> linarith

theorem iou_bounds (a b : Box ℚ) : 0 ≤ iou a b ∧ iou a b ≤ 1 := by
  obtain ⟨narrowA, narrowB⟩ := overlap_le a.x a.w b.x b.w
  obtain ⟨lowA, lowB⟩ := overlap_le a.y a.h b.y b.h
  have zero : (0.0 : ℚ) = 0 := by norm_num
  unfold iou
  dsimp only
  generalize stdMin (a.x + a.w) (b.x + b.w) - stdMax a.x b.x = iw at *
  generalize stdMin (a.y + a.h) (b.y + b.h) - stdMax a.y b.y = ih at *
  split
  · norm_num
  · rename_i meet
    rw [not_or, not_le, not_le, zero] at meet
    obtain ⟨wide, high⟩ := meet
    have inter : 0 < iw * ih := mul_pos wide high
    have withinA : iw * ih ≤ a.w * a.h := mul_le_mul narrowA lowA high.le (wide.le.trans narrowA)
    have withinB : iw * ih ≤ b.w * b.h := mul_le_mul narrowB lowB high.le (wide.le.trans narrowB)
    have union : 0 < a.w * a.h + b.w * b.h - iw * ih := by linarith
    rw [zero, if_pos union]
    exact ⟨(div_pos inter union).le, div_le_one_of_le₀ (by linarith) union.le⟩

end TrackDetail

section Classes

/-- How much the boxes at two places overlap. -/
def placeIou (predicted boxes : List (Box ℚ)) (t d : Nat) : ℚ :=
  match predicted[t]?, boxes[d]? with
  | some track, some det => iou track det
  | _, _ => 0

variable {iouMin : ℚ} {predicted boxes : List (Box ℚ)} {n m : Nat}

theorem placeIou_bounds (t d : Nat) :
    0 ≤ placeIou predicted boxes t d ∧ placeIou predicted boxes t d ≤ 1 := by
  unfold placeIou
  split
  · exact iou_bounds _ _
  · norm_num

/-- A pair of places costs as much as it overlaps less, if it may be joined. -/
theorem pairCost_eq (sizePredicted : predicted.length = n) (sizeBoxes : boxes.length = m)
    (t : Fin n) (d : Fin m) :
    pairCost iouMin predicted boxes t d =
      if iouMin ≤ placeIou predicted boxes t d then 1 - placeIou predicted boxes t d
      else 1000000 := by
  subst sizePredicted sizeBoxes
  rw [pairCost, placeIou, List.getElem?_eq_getElem t.isLt, List.getElem?_eq_getElem d.isLt]
  dsimp only
  split
  · norm_num
  · norm_num [big]

/-- The pairs that are assigned and may be joined are a best matching. -/
theorem isBest_assignedPairs {quality : Fin n → Fin m → ℚ} {table : Nat → Nat → ℚ}
    (fits : n ≤ m) (few : n < 1000000) (bounded : ∀ a b, 0 ≤ quality a b ∧ quality a b ≤ 1)
    (priced : ∀ (a : Fin n) (b : Fin m), table a b =
      if iouMin ≤ quality a b then 1 - quality a b else 1000000) :
    ∃ pairs, IsBest (fun a b => iouMin ≤ quality a b) quality pairs ∧
      ∀ a b, (a, b) ∈ pairs ↔ ((a : Nat), (b : Nat)) ∈ assignedPairs table fits := by
  obtain ⟨tables, returned, matched⟩ := exists_matched table fits
  obtain ⟨chosen, found, injective, cheapest⟩ := matched.exists_cheapest
  have same : (fun (a : Fin n) (b : Fin m) => table a b) =
      gated (fun a b => iouMin ≤ quality a b) quality 1000000 := by
    funext a b
    rw [priced, gated]
  rw [same] at cheapest
  have best := isBest_chosenPairs (by simpa using fits)
    (by rw [Fintype.card_fin]; exact_mod_cast few) (fun a b _ => bounded a b) injective cheapest
  refine ⟨_, best, fun a b => ?_⟩
  have assigned : assignment table fits a = some (chosen a).val := by
    rw [assignment, Option.get_of_eq_some _ returned, found]
  have kept : ¬ big ≤ table a b ↔ iouMin ≤ quality a b := by
    have isBig : (big : ℚ) = 1000000 := by norm_num [big]
    rw [isBig, priced]
    split
    · rename_i fit
      have lower := (bounded a b).1
      simp only [fit, iff_true, not_le]
      linarith
    · rename_i unfit
      simp [unfit]
  rw [mem_chosenPairs, mem_assignedPairs, assigned, kept, Option.some.injEq, Fin.val_inj,
    and_iff_right a.isLt]

/-- The places that are joined in a class are a best matching. -/
theorem isBest_matchClass (sizePredicted : predicted.length = n) (sizeBoxes : boxes.length = m)
    (few : min n m < 1000000) :
    ∃ pairs, IsBest (fun (t : Fin n) (d : Fin m) => iouMin ≤ placeIou predicted boxes t d)
        (fun t d => placeIou predicted boxes t d) pairs ∧
      ∀ t d, (t, d) ∈ pairs ↔ ((t : Nat), (d : Nat)) ∈ matchClass iouMin predicted boxes := by
  have priced := @pairCost_eq iouMin predicted boxes n m sizePredicted sizeBoxes
  subst sizePredicted sizeBoxes
  unfold matchClass
  by_cases rowsAreTracks : predicted.length ≤ boxes.length
  · rw [dif_pos rowsAreTracks]
    rw [Nat.min_eq_left rowsAreTracks] at few
    exact isBest_assignedPairs rowsAreTracks few (fun t d => placeIou_bounds t d) priced
  · rw [dif_neg rowsAreTracks]
    have fits := Nat.le_of_not_le rowsAreTracks
    rw [Nat.min_eq_right fits] at few
    obtain ⟨pairs, best, member⟩ := @isBest_assignedPairs iouMin boxes.length predicted.length
      (fun d t => placeIou predicted boxes t d) (fun d t => pairCost iouMin predicted boxes t d)
      fits few (fun d t => placeIou_bounds t d) fun d t => priced t d
    refine ⟨_, best.rename (Equiv.prodComm _ _).toEmbedding (fun _ => Iff.rfl) (fun _ => rfl)
      (fun _ _ => or_comm) (fun t d _ => ⟨(d, t), rfl⟩), fun t d => ?_⟩
    have swapped : (t, d) ∈ pairs.map (Equiv.prodComm _ _).toEmbedding ↔ (d, t) ∈ pairs :=
      Finset.mem_map_equiv
    rw [swapped, member, List.mem_map]
    constructor
    · exact fun assigned => ⟨_, assigned, rfl⟩
    · rintro ⟨⟨row, column⟩, assigned, same⟩
      cases same
      exact assigned

end Classes

section Frames

variable (iouMin : ℚ) (tracks : List (Track ℚ)) (dets : List (Observation ℚ)) (cls : String)

/-- How much the boxes of a track and a detection overlap. -/
def pairIou (t d : Nat) : ℚ :=
  match tracks[t]?, dets[d]? with
  | some tr, some o => iou tr.predicted o.box
  | _, _ => 0

/-- A track and a detection of one class that overlap enough. -/
def Joinable (t d : Nat) : Prop :=
  ∃ tr o, tracks[t]? = some tr ∧ dets[d]? = some o ∧ tr.cls = cls ∧ o.cls = cls ∧
    iouMin ≤ iou tr.predicted o.box

/-- Where the members that pass a test are in a list. -/
def placeOf {Item : Type} (keeps : Item → Bool) (items : List Item) :
    Fin (indexed keeps items).length ↪ Nat where
  toFun k := (indexed keeps items)[k].2
  inj' := by
    intro k k' same
    change (indexed keeps items)[k].2 = (indexed keeps items)[k'].2 at same
    have first : (indexed keeps items)[k.val]? =
        some ((indexed keeps items)[k].1, (indexed keeps items)[k].2) :=
      List.getElem?_eq_getElem k.isLt
    have second : (indexed keeps items)[k'.val]? =
        some ((indexed keeps items)[k'].1, (indexed keeps items)[k'].2) :=
      List.getElem?_eq_getElem k'.isLt
    rw [same] at first
    exact Fin.ext (indexed_injective first second)

theorem exists_at_place {Item : Type} {keeps : Item → Bool} {items : List Item}
    (k : Fin (indexed keeps items).length) :
    ∃ item, (indexed keeps items)[k.val]? = some (item, placeOf keeps items k) ∧
      items[placeOf keeps items k]? = some item ∧ keeps item := by
  have found : (indexed keeps items)[k.val]? =
      some ((indexed keeps items)[k].1, placeOf keeps items k) :=
    List.getElem?_eq_getElem k.isLt
  exact ⟨_, found, mem_indexed_of_getElem? found⟩

theorem exists_placeOf {Item : Type} (keeps : Item → Bool) {items : List Item} {place : Nat}
    {item : Item} (found : items[place]? = some item) (kept : keeps item) :
    ∃ k : Fin (indexed keeps items).length, placeOf keeps items k = place := by
  obtain ⟨k, isPlace⟩ := exists_indexed keeps found kept
  obtain ⟨bound, same⟩ := List.getElem?_eq_some_iff.mp isPlace
  exact ⟨⟨k, bound⟩, congrArg Prod.snd same⟩

/-- A place in a class overlaps as the member of the class there. -/
theorem exists_of_places (k : Fin (indexed (fun tr => tr.cls = cls) tracks).length)
    (l : Fin (indexed (fun o => o.cls = cls) dets).length) :
    ∃ tr o, tracks[placeOf (fun tr => tr.cls = cls) tracks k]? = some tr ∧
      dets[placeOf (fun o => o.cls = cls) dets l]? = some o ∧ tr.cls = cls ∧ o.cls = cls ∧
      placeIou ((tracks.filter fun tr => tr.cls = cls).map Track.predicted)
        ((dets.filter fun o => o.cls = cls).map Observation.box) k l =
          iou tr.predicted o.box := by
  obtain ⟨tr, foundTrack, isTrack, keptTrack⟩ := exists_at_place k
  obtain ⟨o, foundDet, isDet, keptDet⟩ := exists_at_place l
  refine ⟨tr, o, isTrack, isDet, of_decide_eq_true keptTrack, of_decide_eq_true keptDet, ?_⟩
  rw [placeIou, List.getElem?_map, List.getElem?_map, getElem?_filter_of_indexed foundTrack,
    getElem?_filter_of_indexed foundDet]
  rfl

/-- The pairs of a class that are joined are a best matching of those that may be. -/
theorem isBest_joins
    (few : min (tracks.filter fun tr => tr.cls = cls).length
      (dets.filter fun o => o.cls = cls).length < 1000000) :
    ∃ pairs, IsBest (Joinable iouMin tracks dets cls) (pairIou tracks dets) pairs ∧
      ∀ t d, (t, d) ∈ pairs ↔ (t, d) ∈ joins iouMin tracks dets ∧
        ∃ o, dets[d]? = some o ∧ o.cls = cls := by
  have sizeTracks : ((tracks.filter fun tr => tr.cls = cls).map Track.predicted).length =
      (indexed (fun tr => tr.cls = cls) tracks).length := by
    rw [List.length_map, ← indexed_map_fst, List.length_map]
  have sizeDets : ((dets.filter fun o => o.cls = cls).map Observation.box).length =
      (indexed (fun o => o.cls = cls) dets).length := by
    rw [List.length_map, ← indexed_map_fst, List.length_map]
  obtain ⟨pairs, best, member⟩ := @isBest_matchClass iouMin _ _ _ _ sizeTracks sizeDets (by
    rw [← sizeTracks, ← sizeDets, List.length_map, List.length_map]
    exact few)
  let trackAt := placeOf (fun tr : Track ℚ => tr.cls = cls) tracks
  let detAt := placeOf (fun o : Observation ℚ => o.cls = cls) dets
  refine ⟨_, best.rename (trackAt.prodMap detAt) (fun pair => ?_) (fun pair => ?_)
    (fun pair other => ?_) (fun t d joinable => ?_), fun t d => ?_⟩
  · obtain ⟨tr, o, isTrack, isDet, ofTrack, ofDet, same⟩ :=
      exists_of_places tracks dets cls pair.1 pair.2
    rw [same]
    constructor
    · rintro ⟨tr', o', isTrack', isDet', -, -, fit⟩
      cases isTrack.symm.trans isTrack'
      cases isDet.symm.trans isDet'
      exact fit
    · exact fun fit => ⟨tr, o, isTrack, isDet, ofTrack, ofDet, fit⟩
  · obtain ⟨tr, o, isTrack, isDet, -, -, same⟩ :=
      exists_of_places tracks dets cls pair.1 pair.2
    change pairIou tracks dets (trackAt pair.1) (detAt pair.2) = _
    rw [same, pairIou, isTrack, isDet]
  · exact or_congr trackAt.injective.eq_iff detAt.injective.eq_iff
  · obtain ⟨tr, o, isTrack, isDet, ofTrack, ofDet, -⟩ := joinable
    obtain ⟨k, atK⟩ := exists_placeOf (fun tr => tr.cls = cls) isTrack (decide_eq_true ofTrack)
    obtain ⟨l, atL⟩ := exists_placeOf (fun o => o.cls = cls) isDet (decide_eq_true ofDet)
    exact ⟨(k, l), Prod.ext atK atL⟩
  · rw [Finset.mem_map, mem_joins_iff]
    constructor
    · rintro ⟨⟨k, l⟩, inPairs, same⟩
      cases same
      obtain ⟨tr, foundTrack, -, -⟩ := exists_at_place k
      obtain ⟨o, foundDet, isDet, ofDet⟩ := exists_at_place l
      exact ⟨⟨cls, k, l, tr, o, (member k l).mp inPairs, foundTrack, foundDet⟩, o, isDet,
        of_decide_eq_true ofDet⟩
    · rintro ⟨⟨other, k, l, tr, o, matched, foundTrack, foundDet⟩, o', isDet', rfl⟩
      obtain ⟨isDet, ofDet⟩ := mem_indexed_of_getElem? foundDet
      cases isDet.symm.trans isDet'
      cases of_decide_eq_true ofDet
      obtain ⟨boundK, atK⟩ := List.getElem?_eq_some_iff.mp foundTrack
      obtain ⟨boundL, atL⟩ := List.getElem?_eq_some_iff.mp foundDet
      have sameTrack : trackAt ⟨k, boundK⟩ = t := congrArg Prod.snd atK
      have sameDet : detAt ⟨l, boundL⟩ = d := congrArg Prod.snd atL
      exact ⟨(⟨k, boundK⟩, ⟨l, boundL⟩), (member _ _).mpr matched,
        Prod.ext sameTrack sameDet⟩

end Frames

namespace TrackManager

variable (manager : TrackManager ℚ)

/-- The pairs of a class that a frame joins. -/
def joinedPairs (dets : List (Observation ℚ)) (cls : String) : Finset (Nat × Nat) :=
  (dets.zipIdx.filterMap fun o =>
    if o.1.cls = cls then (manager.detTrack dets o.2).map fun t => (t, o.2) else none).toFinset

theorem mem_joinedPairs {dets : List (Observation ℚ)} {cls : String} {t d : Nat} :
    (t, d) ∈ manager.joinedPairs dets cls ↔
      manager.detTrack dets d = some t ∧ ∃ o, dets[d]? = some o ∧ o.cls = cls := by
  rw [joinedPairs, List.mem_toFinset, List.mem_filterMap]
  constructor
  · rintro ⟨⟨o, place⟩, member, given⟩
    obtain ⟨isClass, given⟩ := Option.ite_none_right_eq_some.mp given
    obtain ⟨track, joined, same⟩ := Option.map_eq_some_iff.mp given
    cases same
    exact ⟨joined, o, List.mem_zipIdx_iff_getElem?.mp member, isClass⟩
  · rintro ⟨joined, o, place, isClass⟩
    refine ⟨(o, d), List.mem_zipIdx_iff_getElem?.mpr place, ?_⟩
    rw [if_pos isClass, joined]
    rfl

/-- In each class a frame joins as many pairs as overlap enough, and those that overlap
most; no such pair is left with both its members unmatched. -/
theorem isBest_joinedPairs (frame : ObservationFrame ℚ) (cls : String)
    (few : min (manager.tracks.filter fun tr => tr.cls = cls).length
      ((manager.dets frame).filter fun o => o.cls = cls).length < 1000000) :
    IsBest (Joinable manager.config.iouMin manager.tracks (manager.dets frame) cls)
        (pairIou manager.tracks (manager.dets frame))
        (manager.joinedPairs (manager.dets frame) cls) ∧
      ∀ t d, Joinable manager.config.iouMin manager.tracks (manager.dets frame) cls t d →
        manager.trackMatched (manager.dets frame) t ∨
          manager.detTrack (manager.dets frame) d ≠ none := by
  obtain ⟨pairs, best, member⟩ :=
    isBest_joins manager.config.iouMin manager.tracks (manager.dets frame) cls few
  have same : pairs = manager.joinedPairs (manager.dets frame) cls := by
    ext ⟨t, d⟩
    rw [member, mem_joinedPairs, detTrack_eq_some_iff]
  rw [same] at best
  refine ⟨best, fun t d joinable => ?_⟩
  obtain ⟨⟨t', d'⟩, joined, meets⟩ := best.meets joinable
  have joinedTrack := ((manager.mem_joinedPairs).mp joined).1
  rcases meets with rfl | rfl
  · exact .inl ((manager.trackMatched_iff _).mpr
      ⟨d', (manager.detTrack_eq_some_iff _).mp joinedTrack⟩)
  · exact .inr (by rw [joinedTrack]; exact nofun)

/-- The first detection overlaps the first track most and joins the second, which has no
other. -/
theorem isBest_joinedPairs_crossed :
    let person (id : Int) (x : ℚ) : Track ℚ :=
      { id := id, cls := "person", x := x, y := 0, w := 8, h := 1, vx := 0, vy := 0
        hits := 1, misses := 0, confirmed := true }
    let seen (x : ℚ) : Observation ℚ :=
      { hasTrk := false, trk := 0, cls := "person", hasClsId := false, clsId := 0, conf := 1
        x := x, y := 0, w := 8, h := 1, attrs := .object [] }
    let manager : TrackManager ℚ :=
      ⟨⟨1, 0, 1 / 5, 0⟩, [person 1 4, person 2 8], 3, by simp [person, Track.Counted]⟩
    manager.joinedPairs (manager.dets ⟨"cam", 0, [seen 5, seen 0]⟩) "person" =
      {(0, 1), (1, 0)} := by
  intro person seen manager
  have dets : manager.dets ⟨"cam", 0, [seen 5, seen 0]⟩ = [seen 5, seen 0] := by
    rw [TrackManager.dets, List.filter_eq_self]
    norm_num [manager, seen]
  have best := (isBest_joinedPairs manager ⟨"cam", 0, [seen 5, seen 0]⟩ "person" (by
    refine (min_le_left _ _).trans_lt ((List.length_filter_le _ _).trans_lt ?_)
    norm_num [manager])).1
  rw [dets] at best ⊢
  have near : (1 / 5 : ℚ) ≤ iou (person 1 4).predicted (seen 0).box ∧
      1 / 5 ≤ iou (person 2 8).predicted (seen 5).box ∧
      ¬ 1 / 5 ≤ iou (person 2 8).predicted (seen 0).box := by
    decide +kernel
  have crossed : Matching
      (Joinable manager.config.iouMin manager.tracks [seen 5, seen 0] "person")
      {(0, 1), (1, 0)} := by
    constructor
    · simp only [Finset.mem_insert, Finset.mem_singleton, forall_eq_or_imp, forall_eq]
      exact ⟨⟨_, _, rfl, rfl, rfl, rfl, near.1⟩, ⟨_, _, rfl, rfl, rfl, rfl, near.2.1⟩⟩
    · decide
  have only : manager.joinedPairs [seen 5, seen 0] "person" ⊆ {(0, 0), (0, 1), (1, 0)} := by
    rintro ⟨t, d⟩ joined
    obtain ⟨tr, o, track, found, -, -, overlap⟩ := best.matching.allowed _ joined
    obtain ⟨boundTrack, -⟩ := List.getElem?_eq_some_iff.mp track
    obtain ⟨boundFound, -⟩ := List.getElem?_eq_some_iff.mp found
    match t, d, boundTrack, boundFound with
    | 0, 0, _, _ | 0, 1, _, _ | 1, 0, _, _ => decide
    | 1, 1, _, _ =>
        cases track
        cases found
        exact absurd overlap near.2.2
  have choices : ∀ pairs ∈ ({(0, 0), (0, 1), (1, 0)} : Finset (Nat × Nat)).powerset,
      (∀ pair ∈ pairs, ∀ other ∈ pairs,
        pair.1 = other.1 ∨ pair.2 = other.2 → pair = other) →
      2 ≤ pairs.card → pairs = {(0, 1), (1, 0)} := by
    decide
  exact choices _ (Finset.mem_powerset.mpr only) best.matching.apart (best.most _ crossed)

end TrackManager

end DroneEngage
