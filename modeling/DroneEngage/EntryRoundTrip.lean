import DroneEngage.JsonObjects
import DroneEngage.JsonReread
import DroneEngage.RegistryLoading

/-!
# Registry entries read back from their text

An entry decodes to the same camera after it has been written and read back, if its
doubles are finite, and what `toJson` makes of a camera decodes to that camera.
-/

namespace DroneEngage

namespace Json

theorem allFinite_of_lookup {members : List (String × Json)} {key : String} {found : Json}
    (finite : allFiniteMembers members = true) (present : members.lookup key = some found) :
    found.allFinite = true := by
  induction members with
  | nil => simp at present
  | cons first rest ih =>
      obtain ⟨name, value⟩ := first
      rw [allFiniteMembers, Bool.and_eq_true] at finite
      rw [lookup_cons_eq_ite] at present
      split at present
      · cases present
        exact finite.1
      · exact ih finite.2 present

theorem allFinite_of_member? {document found : Json} {key : String}
    (finite : document.allFinite = true) (present : document.member? key = some found) :
    found.allFinite = true := by
  cases document with
  | object members =>
      rw [allFinite] at finite
      exact allFinite_of_lookup finite present
  | _ => cases present

theorem allFinite_of_mem {elements : List Json} {found : Json}
    (finite : allFiniteElements elements = true) (member : found ∈ elements) :
    found.allFinite = true := by
  induction elements with
  | nil => cases member
  | cons first rest ih =>
      rw [allFiniteElements, Bool.and_eq_true] at finite
      rcases List.mem_cons.mp member with rfl | later
      · exact finite.1
      · exact ih finite.2 later

theorem allFinite_of_mem_values {members : List (String × Json)} {found : Json}
    (finite : allFiniteMembers members = true) (member : found ∈ members.map Prod.snd) :
    found.allFinite = true := by
  induction members with
  | nil => cases member
  | cons first rest ih =>
      rw [allFiniteMembers, Bool.and_eq_true] at finite
      rcases List.mem_cons.mp member with rfl | later
      · exact finite.1
      · exact ih finite.2 later

theorem allFinite_of_mem_elements {document found : Json} (finite : document.allFinite = true)
    (member : found ∈ document.elements) : found.allFinite = true := by
  cases document with
  | null => cases member
  | array elements =>
      rw [allFinite] at finite
      exact allFinite_of_mem finite member
  | object members =>
      rw [allFinite] at finite
      exact allFinite_of_mem_values finite member
  | _ =>
      obtain rfl := List.mem_singleton.mp member
      exact finite

theorem lookup_foldl_insertMember (members built : List (String × Json)) (key : String) :
    (members.foldl (fun built entry => insertMember entry.1 entry.2 built) built).lookup key =
      (members.reverse.lookup key).or (built.lookup key) := by
  induction members generalizing built with
  | nil => simp
  | cons first rest ih =>
      obtain ⟨name, value⟩ := first
      rw [List.foldl_cons, ih, lookup_insertMember, List.reverse_cons, List.lookup_append,
        lookup_cons_eq_ite]
      by_cases same : key = name <;> simp [same]

/-- The last of the members with a key is the one that stays. -/
theorem member?_ofMembers (members : List (String × Json)) (key : String) :
    (ofMembers members).member? key = members.reverse.lookup key := by
  rw [ofMembers, member?, lookup_foldl_insertMember]
  simp

theorem allFiniteMembers_insertMember {key : String} {value : Json}
    {members : List (String × Json)} (finite : allFiniteMembers members = true)
    (finiteValue : value.allFinite = true) :
    allFiniteMembers (insertMember key value members) = true := by
  induction members with
  | nil => simp [insertMember, allFiniteMembers, finiteValue]
  | cons first rest ih =>
      obtain ⟨found, old⟩ := first
      rw [allFiniteMembers, Bool.and_eq_true] at finite
      rw [insertMember]
      split
      · simp [allFiniteMembers, finiteValue, finite.2]
      · split
        · simp [allFiniteMembers, finiteValue, finite.1, finite.2]
        · simp [allFiniteMembers, finite.1, ih finite.2]

theorem allFinite_ofMembers {members : List (String × Json)}
    (finite : ∀ entry ∈ members, entry.2.allFinite = true) :
    (ofMembers members).allFinite = true := by
  have each : ∀ built, allFiniteMembers built = true →
      allFiniteMembers
        (members.foldl (fun built entry => insertMember entry.1 entry.2 built) built) = true := by
    induction members with
    | nil => exact fun built finiteBuilt => finiteBuilt
    | cons first rest ih =>
        intro built finiteBuilt
        rw [List.forall_mem_cons] at finite
        exact ih finite.2 _ (allFiniteMembers_insertMember finiteBuilt finite.1)
  exact each [] rfl

theorem wellFormed_ofMembers {members : List (String × Json)}
    (each : ∀ entry ∈ members, entry.2.WellFormed) : (ofMembers members).WellFormed := by
  have built : ∀ entries, (object entries).WellFormed →
      (object (members.foldl (fun built entry => insertMember entry.1 entry.2 built)
        entries)).WellFormed := by
    induction members with
    | nil => exact fun entries wellFormed => wellFormed
    | cons first rest ih =>
        intro entries wellFormed
        rw [List.forall_mem_cons] at each
        exact ih each.2 _ (wellFormed.insertMember first.1 each.1)
  exact built [] (.object [] .nil nofun)

section Reread

variable {document : Json}

theorem elements_reread (finite : document.allFinite = true) :
    document.reread.elements = document.elements.map reread := by
  cases document with
  | numberInteger value =>
      change (numberInteger value).reread.elements = [(numberInteger value).reread]
      rw [reread]
      split <;> rfl
  | numberFloat value =>
      rw [allFinite] at finite
      change (numberFloat value).reread.elements = [(numberFloat value).reread]
      rw [reread, if_pos finite]
      rfl
  | array elements =>
      rw [reread, rereadElements_eq_map]
      rfl
  | object members =>
      rw [reread, rereadMembers_eq_map]
      simp [elements]
  | _ => rfl

theorem isNumber_reread (finite : document.allFinite = true) :
    document.reread.isNumber = document.isNumber := by
  cases document with
  | numberInteger value =>
      rw [reread]
      split <;> rfl
  | numberFloat value =>
      rw [allFinite] at finite
      rw [reread, if_pos finite]
  | _ => rfl

theorem isBoolean_reread : document.reread.isBoolean = document.isBoolean := by
  cases document with
  | numberInteger value =>
      rw [reread]
      split <;> rfl
  | numberFloat value =>
      rw [reread]
      split <;> rfl
  | _ => rfl

theorem isArray_reread : document.reread.isArray = document.isArray := by
  cases document with
  | numberInteger value =>
      rw [reread]
      split <;> rfl
  | numberFloat value =>
      rw [reread]
      split <;> rfl
  | _ => rfl

theorem givesInt_reread (finite : document.allFinite = true) :
    document.reread.givesInt = document.givesInt := by
  rw [givesInt, isBoolean_reread, isNumber_reread finite, givesInt]

theorem isMatrix_reread (finite : document.allFinite = true) :
    document.reread.isMatrix = document.isMatrix := by
  rw [isMatrix, isArray_reread, elements_reread finite, List.length_map, isMatrix]

theorem holdsNumbers_reread (finite : document.allFinite = true) :
    document.reread.holdsNumbers = document.holdsNumbers := by
  rw [holdsNumbers, elements_reread finite, List.all_map, holdsNumbers, Bool.eq_iff_iff,
    List.all_eq_true, List.all_eq_true]
  refine forall₂_congr fun found member => ?_
  rw [Function.comp_apply, isNumber_reread (allFinite_of_mem_elements finite member)]

theorem getInt_reread (beyondInt : Double → Int32)
    (finite : document.allFinite = true) :
    document.reread.getInt beyondInt = document.getInt beyondInt := by
  cases document with
  | numberInteger value =>
      rw [reread]
      split
      · rfl
      · rename_i nonneg
        have unsigned := toNat_toUInt64 (not_lt.mp nonneg)
        refine congrArg Except.ok (Int32.toInt_inj.mp ?_)
        rw [Int32.toInt_ofNat', unsigned, Int64.toInt_toInt32]
  | numberFloat value =>
      rw [allFinite] at finite
      rw [reread, if_pos finite]
  | _ => rfl

theorem toDouble_reread (finite : document.allFinite = true) :
    document.reread.toDouble = document.toDouble := by
  cases document with
  | numberInteger value =>
      rw [reread]
      split
      · rfl
      · rename_i nonneg
        exact congrArg Double.ofInt (toNat_toUInt64 (not_lt.mp nonneg))
  | numberFloat value =>
      rw [allFinite] at finite
      rw [reread, if_pos finite]
  | _ => rfl

theorem getDouble_reread (finite : document.allFinite = true) :
    document.reread.getDouble = document.getDouble := by
  rw [getDouble, isNumber_reread finite, toDouble_reread finite, getDouble]

theorem doubles_reread (finite : document.allFinite = true) :
    document.reread.elements.map toDouble = document.elements.map toDouble := by
  rw [elements_reread finite, List.map_map]
  refine List.map_congr_left fun found member => ?_
  rw [Function.comp_apply, toDouble_reread (allFinite_of_mem_elements finite member)]

theorem memberIs_reread {accepts : Json → Bool} {key : String}
    (same : ∀ {found : Json}, found.allFinite = true → accepts found.reread = accepts found)
    (finite : document.allFinite = true) :
    document.reread.memberIs accepts key = document.memberIs accepts key := by
  rw [memberIs, member?_reread, memberIs]
  cases found : document.member? key with
  | none => rfl
  | some value => exact same (allFinite_of_member? finite found)

theorem memberOr_reread {α : Type} {get : Json → Except JsonException α} {key : String}
    {default : α}
    (same : ∀ {found : Json}, found.allFinite = true → get found.reread = get found)
    (finite : document.allFinite = true) :
    document.reread.memberOr get key default = document.memberOr get key default := by
  rw [memberOr, member?_reread, memberOr]
  cases found : document.member? key with
  | none => rfl
  | some value =>
      rw [Option.map_some, Option.bind_some, Option.bind_some,
        same (allFinite_of_member? finite found)]

end Reread

end Json

section Reread

variable {beyondInt : Double → Int32} {j : Json} {entry : CameraRegistryEntry}

open CameraRegistryEntry

theorem sized_reread (finite : j.allFinite = true) : sized j.reread = sized j := by
  simp only [sized, Json.memberIs_reread Json.givesInt_reread finite]

theorem mounted_reread (finite : j.allFinite = true) : mounted j.reread = mounted j := by
  simp only [mounted, Json.memberIs_reread Json.isNumber_reread finite]

theorem wellTyped_reread (finite : j.allFinite = true) : wellTyped j.reread = wellTyped j := by
  simp only [wellTyped, Json.isObject_reread, sized_reread finite, mounted_reread finite,
    Json.memberIs_reread Json.isMatrix_reread finite,
    Json.memberIs_reread Json.holdsNumbers_reread finite,
    Json.memberIs_reread (fun _ => Json.isArray_reread) finite]

theorem reported_reread (finite : j.allFinite = true) : reported j.reread = reported j := by
  simp only [reported, Json.isObject_reread, sized_reread finite, mounted_reread finite,
    Json.memberIs_reread Json.isMatrix_reread finite,
    Json.memberIs_reread Json.holdsNumbers_reread finite,
    Json.memberIs_reread (fun _ => Json.isArray_reread) finite]

theorem decoded_reread (finite : j.allFinite = true) :
    decoded beyondInt j.reread = decoded beyondInt j := by
  unfold decoded
  simp only [Json.memberOr_reread (Json.getInt_reread beyondInt) finite,
    Json.memberOr_reread Json.getDouble_reread finite, Json.member?_reread]
  congr 1
  · cases found : j.member? "camera_matrix" with
    | none => rfl
    | some value =>
        simp only [Option.map_some,
          Json.doubles_reread (Json.allFinite_of_member? finite found)]
  · cases found : j.member? "distortion" with
    | none => rfl
    | some value =>
        simp only [Option.map_some,
          Json.doubles_reread (Json.allFinite_of_member? finite found)]

theorem accepted_reread (finite : j.allFinite = true) :
    accepted beyondInt j.reread = accepted beyondInt j := by
  rw [accepted, wellTyped_reread finite, decoded_reread finite, accepted]

end Reread

namespace CameraRegistryEntry

/-- All numbers of a camera are finite. -/
def allFinite (entry : CameraRegistryEntry) : Bool :=
  entry.cameraMatrix.toList.all Double.isFinite && entry.distortion.all Double.isFinite &&
    entry.mountYawDeg.isFinite && entry.mountPitchDeg.isFinite && entry.mountRollDeg.isFinite &&
    entry.hfovDeg.isFinite

variable {beyondInt : Double → Int32} (entry : CameraRegistryEntry)

theorem wellFormed_toJson : entry.toJson.WellFormed := by
  have numbers : ∀ values : List Double, (Json.array (values.map .numberFloat)).WellFormed :=
    fun values => .array _ (List.forall_mem_map.mpr fun value _ => .numberFloat value)
  apply Json.wellFormed_ofMembers
  simp only [List.forall_mem_cons]
  exact ⟨.numberInteger _, .numberInteger _, numbers _, numbers _, .numberFloat _,
    .numberFloat _, .numberFloat _, .numberFloat _, by simp⟩

theorem allFiniteElements_numbers (values : List Double) :
    Json.allFiniteElements (values.map .numberFloat) = values.all Double.isFinite := by
  induction values with
  | nil => rfl
  | cons first rest ih =>
      rw [List.map_cons, Json.allFiniteElements, ih, Json.allFinite, List.all_cons]

theorem allFinite_toJson (finite : entry.allFinite = true) : entry.toJson.allFinite = true := by
  simp only [CameraRegistryEntry.allFinite, Bool.and_eq_true] at finite
  obtain ⟨⟨⟨⟨⟨matrix, distortion⟩, yaw⟩, pitch⟩, roll⟩, hfov⟩ := finite
  apply Json.allFinite_ofMembers
  simp [Json.allFinite, allFiniteElements_numbers, matrix, distortion, yaw, pitch, roll, hfov]

theorem member?_toJson :
    entry.toJson.member? "image_width" = some (.numberInteger entry.imageWidth.toInt64) ∧
      entry.toJson.member? "image_height" = some (.numberInteger entry.imageHeight.toInt64) ∧
      entry.toJson.member? "camera_matrix" =
        some (.array (entry.cameraMatrix.toList.map .numberFloat)) ∧
      entry.toJson.member? "distortion" = some (.array (entry.distortion.map .numberFloat)) ∧
      entry.toJson.member? "mount_yaw_deg" = some (.numberFloat entry.mountYawDeg) ∧
      entry.toJson.member? "mount_pitch_deg" = some (.numberFloat entry.mountPitchDeg) ∧
      entry.toJson.member? "mount_roll_deg" = some (.numberFloat entry.mountRollDeg) ∧
      entry.toJson.member? "hfov_deg" = some (.numberFloat entry.hfovDeg) := by
  simp only [toJson, Json.member?_ofMembers]
  exact ⟨rfl, rfl, rfl, rfl, rfl, rfl, rfl, rfl⟩

theorem wellTyped_toJson : wellTyped entry.toJson = true := by
  obtain ⟨width, height, matrix, distortion, yaw, pitch, roll, hfov⟩ := entry.member?_toJson
  have object : entry.toJson.isObject = true := rfl
  simp [wellTyped, sized, mounted, Json.memberIs, object, width, height, matrix, distortion,
    yaw, pitch, roll, hfov, Json.givesInt, Json.isMatrix, Json.holdsNumbers, Json.elements,
    Json.isArray, Json.isNumber]

theorem decoded_toJson : decoded beyondInt entry.toJson = entry := by
  obtain ⟨width, height, matrix, distortion, yaw, pitch, roll, hfov⟩ := entry.member?_toJson
  have doubles : Json.toDouble ∘ Json.numberFloat = id := rfl
  unfold decoded
  simp [Json.memberOr, width, height, matrix, distortion, yaw, pitch, roll, hfov, Json.getInt,
    Json.getDouble, Json.isNumber, Json.toDouble, Json.elements, Except.toOption, doubles]

theorem reported_of_wellTyped {j : Json} (typed : wellTyped j = true) : reported j = true := by
  rcases @fromJson_cases (fun _ => 0) j with ⟨-, known, -⟩ | ⟨mistyped, -⟩ | ⟨mistyped, -⟩
  · exact known
  · exact absurd (typed.symm.trans mistyped) (by decide)
  · exact absurd (typed.symm.trans mistyped) (by decide)

/-- A camera with valid intrinsics is taken from what is written for it. -/
theorem accepted_toJson (valid : entry.validIntrinsics = true) :
    accepted beyondInt entry.toJson = some entry := by
  rw [accepted, wellTyped_toJson, decoded_toJson, valid]
  rfl

end CameraRegistryEntry

end DroneEngage
