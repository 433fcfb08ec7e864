import DroneEngage.DoubleArithmetic

/-!
# Documents read back from their text

The text of a document does not say whether an integer was stored signed, and
has no word for a double that is not finite: `null` stands in its place.  What
is read back has the same values exactly when all doubles are finite.
-/

namespace DroneEngage.Json

mutual

/-- The document that the parser makes of the text of a document. -/
def reread : Json → Json
  | numberInteger value =>
      if value.toInt < 0 then numberInteger value else numberUnsigned value.toUInt64
  | numberFloat value => if value.isFinite then numberFloat value else null
  | array elements => array (rereadElements elements)
  | object members => object (rereadMembers members)
  | other => other

def rereadElements : List Json → List Json
  | [] => []
  | first :: rest => reread first :: rereadElements rest

def rereadMembers : List (String × Json) → List (String × Json)
  | [] => []
  | (key, value) :: rest => (key, reread value) :: rereadMembers rest

end

mutual

def allFinite : Json → Bool
  | numberFloat value => value.isFinite
  | array elements => allFiniteElements elements
  | object members => allFiniteMembers members
  | _ => true

def allFiniteElements : List Json → Bool
  | [] => true
  | first :: rest => allFinite first && allFiniteElements rest

def allFiniteMembers : List (String × Json) → Bool
  | [] => true
  | (_, value) :: rest => allFinite value && allFiniteMembers rest

end

/-- The value of a number; an integer is not rounded. -/
def exactNumber? : Json → Option Double
  | numberInteger value => some (.exactly value.toInt)
  | numberUnsigned value => some (.exactly value.toNat)
  | numberFloat value => some value
  | _ => none

def sameNumber (left right : Json) : Bool :=
  match left.exactNumber?, right.exactNumber? with
  | some left, some right => left.same right
  | _, _ => false

mutual

/-- The same document, numbers compared by their values. -/
def sameValue : Json → Json → Bool
  | null, null => true
  | boolean left, boolean right => left == right
  | string left, string right => left == right
  | array left, array right => sameElements left right
  | object left, object right => sameMembers left right
  | left, right => sameNumber left right

def sameElements : List Json → List Json → Bool
  | [], [] => true
  | left :: lefts, right :: rights => sameValue left right && sameElements lefts rights
  | _, _ => false

def sameMembers : List (String × Json) → List (String × Json) → Bool
  | [], [] => true
  | (key, left) :: lefts, (key', right) :: rights =>
      key == key' && sameValue left right && sameMembers lefts rights
  | _, _ => false

end

mutual

@[simp]
theorem sameValue_self : ∀ document : Json, document.sameValue document = true
  | null => rfl
  | boolean _ => by simp [sameValue]
  | numberInteger _ => by simp [sameValue, sameNumber, exactNumber?]
  | numberUnsigned _ => by simp [sameValue, sameNumber, exactNumber?]
  | numberFloat _ => by simp [sameValue, sameNumber, exactNumber?]
  | string _ => by simp [sameValue]
  | array elements => by
      rw [sameValue]
      exact sameElements_self elements
  | object members => by
      rw [sameValue]
      exact sameMembers_self members

theorem sameElements_self : ∀ elements : List Json, sameElements elements elements = true
  | [] => rfl
  | first :: rest => by
      rw [sameElements, sameValue_self first, sameElements_self rest]
      rfl

theorem sameMembers_self :
    ∀ members : List (String × Json), sameMembers members members = true
  | [] => rfl
  | (key, value) :: rest => by
      rw [sameMembers, sameValue_self value, sameMembers_self rest]
      simp

end

theorem toNat_toUInt64 {value : Int64} (nonneg : 0 ≤ value.toInt) :
    (value.toUInt64.toNat : Int) = value.toInt := by
  have same : value.toInt = value.toUInt64.toBitVec.toInt := rfl
  rw [same] at nonneg ⊢
  rw [BitVec.toInt_eq_toNat_cond] at nonneg ⊢
  have bound := value.toUInt64.toBitVec.isLt
  rw [UInt64.toNat]
  split <;> split at nonneg <;> omega

theorem ofNat_toUInt64 {value : Int32} (nonneg : 0 ≤ value.toInt64.toInt) :
    Int32.ofNat value.toInt64.toUInt64.toNat = value := by
  have unsigned := toNat_toUInt64 nonneg
  rw [Int32.toInt_toInt64] at unsigned
  apply Int32.toInt_inj.mp
  rw [Int32.toInt_ofNat', unsigned, show Int32.size = 2 ^ 32 from rfl]
  have low := value.le_toInt
  have high := value.toInt_lt
  exact Int.bmod_eq_of_le (by omega) (by omega)

/-- An integer that is not negative is read back unsigned. -/
theorem sameValue_reread_numberInteger (value : Int64) :
    (numberInteger value).reread.sameValue (numberInteger value) = true := by
  rw [reread]
  split
  · simp
  · rename_i nonneg
    have unsigned := toNat_toUInt64 (not_lt.mp nonneg)
    simp [sameValue, sameNumber, exactNumber?, unsigned]

mutual

/-- What is read back has the same values exactly if all doubles are finite. -/
theorem sameValue_reread : ∀ document : Json,
    document.reread.sameValue document = document.allFinite
  | null => rfl
  | boolean _ => by simp [reread, allFinite]
  | numberInteger value => sameValue_reread_numberInteger value
  | numberUnsigned _ => by simp [reread, allFinite]
  | numberFloat value => by
      rw [reread, allFinite]
      cases value.isFinite with
      | true => simp
      | false => rfl
  | string _ => by simp [reread, allFinite]
  | array elements => by
      rw [reread, sameValue, allFinite]
      exact sameElements_reread elements
  | object members => by
      rw [reread, sameValue, allFinite]
      exact sameMembers_reread members

theorem sameElements_reread : ∀ elements : List Json,
    sameElements (rereadElements elements) elements = allFiniteElements elements
  | [] => rfl
  | first :: rest => by
      rw [rereadElements, sameElements, allFiniteElements, sameValue_reread first,
        sameElements_reread rest]

theorem sameMembers_reread : ∀ members : List (String × Json),
    sameMembers (rereadMembers members) members = allFiniteMembers members
  | [] => rfl
  | (key, value) :: rest => by
      rw [rereadMembers, sameMembers, allFiniteMembers, sameValue_reread value,
        sameMembers_reread rest]
      simp

end

theorem lookup_rereadMembers (members : List (String × Json)) (key : String) :
    (rereadMembers members).lookup key = (members.lookup key).map reread := by
  induction members with
  | nil => rfl
  | cons entry rest ih =>
      rw [rereadMembers, lookup_cons_eq_ite, lookup_cons_eq_ite, ih]
      split <;> rfl

theorem rereadElements_eq_map (elements : List Json) :
    rereadElements elements = elements.map reread := by
  induction elements with
  | nil => rfl
  | cons first rest ih => rw [rereadElements, ih, List.map_cons]

theorem rereadMembers_eq_map (members : List (String × Json)) :
    rereadMembers members = members.map fun member => (member.1, member.2.reread) := by
  induction members with
  | nil => rfl
  | cons first rest ih => rw [rereadMembers, ih, List.map_cons]

theorem member?_reread (document : Json) (key : String) :
    document.reread.member? key = (document.member? key).map reread := by
  cases document with
  | object members =>
      rw [reread]
      exact lookup_rereadMembers members key
  | numberInteger value =>
      rw [reread]
      split <;> rfl
  | numberFloat value =>
      rw [reread]
      split <;> rfl
  | _ => rfl

theorem isObject_reread (document : Json) :
    document.reread.isObject = document.isObject := by
  cases document with
  | numberInteger value =>
      rw [reread]
      split <;> rfl
  | numberFloat value =>
      rw [reread]
      split <;> rfl
  | _ => rfl

theorem WellFormed.reread {document : Json} (wellFormed : document.WellFormed) :
    document.reread.WellFormed := by
  induction wellFormed with
  | null => exact .null
  | boolean value => exact .boolean value
  | numberInteger value =>
      rw [Json.reread]
      split <;> constructor
  | numberUnsigned value => exact .numberUnsigned value
  | numberFloat value =>
      rw [Json.reread]
      split <;> constructor
  | string value => exact .string value
  | array elements _ ih =>
      rw [Json.reread, rereadElements_eq_map]
      exact .array _ (List.forall_mem_map.mpr ih)
  | object members sorted _ ih =>
      rw [Json.reread, rereadMembers_eq_map]
      exact .object _ (List.pairwise_map.mpr sorted) (List.forall_mem_map.mpr ih)

end DroneEngage.Json
