import Mathlib.Algebra.Order.Ring.Int
import Mathlib.Data.List.Basic

/-!
# JSON values of the vendored library

`Json_de` is `nlohmann::json`.  An object is a `std::map`, so its members come
in strictly increasing order of their keys; a number is stored signed, unsigned
or as a double.  The accessors modelled here are the ones the databus code
calls, with the exceptions they throw.
-/

namespace DroneEngage

/-- An IEEE binary64 value: `significand * 2 ^ exponent` with a sign, an
infinity, or not a number. -/
inductive Double
  | finite (negative : Bool) (significand : Nat) (exponent : Int)
  | infinity (negative : Bool)
  | notANumber
  deriving DecidableEq, Repr

namespace Double

/-- A signed significand in units of `2 ^ base`, for a base below the exponent. -/
def inUnits (base : Int) (negative : Bool) (significand : Nat) (exponent : Int) :
    Int :=
  let magnitude : Int := significand * 2 ^ (exponent - base).toNat
  if negative then -magnitude else magnitude

/-- `operator<` on doubles. -/
def lt : Double → Double → Bool
  | finite negative significand exponent,
      finite negative' significand' exponent' =>
      let base := min exponent exponent'
      decide (inUnits base negative significand exponent <
        inUnits base negative' significand' exponent')
  | finite _ _ _, infinity negative => !negative
  | infinity negative, finite _ _ _ => negative
  | infinity negative, infinity negative' => negative && !negative'
  | notANumber, _ => false
  | _, notANumber => false

/-- `operator==` on doubles. -/
def eq : Double → Double → Bool
  | finite negative significand exponent,
      finite negative' significand' exponent' =>
      let base := min exponent exponent'
      decide (inUnits base negative significand exponent =
        inUnits base negative' significand' exponent')
  | infinity negative, infinity negative' => negative == negative'
  | _, _ => false

/-- `static_cast<double>` of an integer: 53 bits are kept, and what lies
halfway between two doubles goes to the even one. -/
def ofInt (value : Int) : Double :=
  let magnitude := value.natAbs
  if magnitude < 2 ^ 53 then
    finite (decide (value < 0)) magnitude 0
  else
    let dropped := Nat.log2 magnitude - 52
    let kept := magnitude / 2 ^ dropped
    let remainder := magnitude % 2 ^ dropped
    let half := 2 ^ (dropped - 1)
    let roundUp := half < remainder ∨ (half = remainder ∧ kept % 2 = 1)
    finite (decide (value < 0)) (if roundUp then kept + 1 else kept) dropped

end Double

/-- `nlohmann::json` -/
inductive Json
  | null
  | boolean (value : Bool)
  | numberInteger (value : Int64)
  | numberUnsigned (value : UInt64)
  | numberFloat (value : Double)
  | string (value : String)
  | array (elements : List Json)
  | object (members : List (String × Json))
  deriving Inhabited

/-- The exceptions of the library that the databus code can meet. -/
inductive JsonException
  /-- `invalid_iterator` 207: `key()` of an iterator that is not on an object -/
  | keyOfNonObject
  /-- `type_error` 302: `get` of another type -/
  | typeMismatch
  /-- `type_error` 305: `operator[]` with a key on something that is not an object -/
  | keyIntoNonObject
  /-- `type_error` 306: `value()` of something that is not an object -/
  | valueOfNonObject
  deriving DecidableEq, Repr

namespace Json

def isNull : Json → Bool
  | null => true
  | _ => false

def isBoolean : Json → Bool
  | boolean _ => true
  | _ => false

/-- `is_number_integer()`, true of both integer kinds -/
def isNumberInteger : Json → Bool
  | numberInteger _ | numberUnsigned _ => true
  | _ => false

def isNumberUnsigned : Json → Bool
  | numberUnsigned _ => true
  | _ => false

def isNumber : Json → Bool
  | numberInteger _ | numberUnsigned _ | numberFloat _ => true
  | _ => false

def isString : Json → Bool
  | string _ => true
  | _ => false

def isArray : Json → Bool
  | array _ => true
  | _ => false

def isObject : Json → Bool
  | object _ => true
  | _ => false

/-- The member under a key; none for what is not an object. -/
def member? (document : Json) (key : String) : Option Json :=
  match document with
  | object members => members.lookup key
  | _ => none

def contains (document : Json) (key : String) : Bool :=
  (document.member? key).isSome

/-- What a range-for visits: a value that is no container is visited itself. -/
def elements : Json → List Json
  | null => []
  | array elements => elements
  | object members => members.map Prod.snd
  | scalar => [scalar]

/-- What an iterator loop that calls `key()` visits. -/
def members : Json → Except JsonException (List (String × Json))
  | null => .ok []
  | array [] => .ok []
  | object members => .ok members
  | _ => .error .keyOfNonObject

/-- `get<bool>()` -/
def getBoolean : Json → Except JsonException Bool
  | boolean value => .ok value
  | _ => .error .typeMismatch

/-- `get<std::string>()` -/
def getString : Json → Except JsonException String
  | string value => .ok value
  | _ => .error .typeMismatch

/-- `get<double>()` of a number. -/
def toDouble : Json → Double
  | numberInteger value => Double.ofInt value.toInt
  | numberUnsigned value => Double.ofInt value.toNat
  | numberFloat value => value
  | _ => .notANumber

/-- `value(key, default)`; `get` is the conversion to the type of the default. -/
def value {α : Type} (get : Json → Except JsonException α) (document : Json)
    (key : String) (default : α) : Except JsonException α :=
  match document with
  | object members =>
      match members.lookup key with
      | some found => get found
      | none => .ok default
  | _ => .error .valueOfNonObject

/-- `operator<` on the characters of two keys.  The bytes of UTF-8 compare as the
code points do. -/
def charsBefore : List Char → List Char → Bool
  | [], right => !right.isEmpty
  | _ :: _, [] => false
  | left :: lefts, right :: rights =>
      if left = right then charsBefore lefts rights
      else decide (left.toNat < right.toNat)

/-- `operator<` of `std::string` -/
def keyBefore (left right : String) : Bool := charsBefore left.toList right.toList

/-- `object[key] = value` on the members of an object. -/
def insertMember (key : String) (value : Json) :
    List (String × Json) → List (String × Json)
  | [] => [(key, value)]
  | (found, old) :: rest =>
      if key = found then (found, value) :: rest
      else if keyBefore key found then (key, value) :: (found, old) :: rest
      else (found, old) :: insertMember key value rest

/-- `target[key] = value`, which makes an object of a null target. -/
def assignMember (target : Json) (key : String) (value : Json) :
    Except JsonException Json :=
  match target with
  | null => .ok (object [(key, value)])
  | object members => .ok (object (insertMember key value members))
  | _ => .error .keyIntoNonObject

/-- The keys and values of `items()`: array elements go by their index, other
values by an empty key. -/
def items : Json → List (String × Json)
  | null => []
  | object members => members
  | array elements => elements.zipIdx.map fun entry => (toString entry.2, entry.1)
  | scalar => [("", scalar)]

/-- An object with the members of an initializer list. -/
def ofMembers (members : List (String × Json)) : Json :=
  object (members.foldl (fun built entry => insertMember entry.1 entry.2 built) [])

mutual

/-- `operator==` -/
def equal : Json → Json → Bool
  | null, null => true
  | boolean left, boolean right => left == right
  | numberInteger left, numberInteger right => left == right
  | numberUnsigned left, numberUnsigned right => left == right
  | numberFloat left, numberFloat right => left.eq right
  | string left, string right => left == right
  | array left, array right => equalElements left right
  | object left, object right => equalMembers left right
  | numberInteger left, numberFloat right => (Double.ofInt left.toInt).eq right
  | numberFloat left, numberInteger right => left.eq (Double.ofInt right.toInt)
  | numberUnsigned left, numberFloat right => (Double.ofInt left.toNat).eq right
  | numberFloat left, numberUnsigned right => left.eq (Double.ofInt right.toNat)
  -- an unsigned number is cast to the signed type, so large ones wrap around
  | numberUnsigned left, numberInteger right => left.toInt64 == right
  | numberInteger left, numberUnsigned right => left == right.toInt64
  | _, _ => false

def equalElements : List Json → List Json → Bool
  | [], [] => true
  | left :: lefts, right :: rights => equal left right && equalElements lefts rights
  | _, _ => false

def equalMembers : List (String × Json) → List (String × Json) → Bool
  | [], [] => true
  | (key, left) :: lefts, (key', right) :: rights =>
      key == key' && equal left right && equalMembers lefts rights
  | _, _ => false

end

/-- The keys of every object are strictly increasing, as in a `std::map`. -/
inductive WellFormed : Json → Prop
  | null : WellFormed null
  | boolean (value : Bool) : WellFormed (boolean value)
  | numberInteger (value : Int64) : WellFormed (numberInteger value)
  | numberUnsigned (value : UInt64) : WellFormed (numberUnsigned value)
  | numberFloat (value : Double) : WellFormed (numberFloat value)
  | string (value : String) : WellFormed (string value)
  | array (elements : List Json) :
      (∀ element ∈ elements, WellFormed element) → WellFormed (array elements)
  | object (members : List (String × Json)) :
      members.Pairwise (fun left right => keyBefore left.1 right.1) →
      (∀ entry ∈ members, WellFormed entry.2) → WellFormed (object members)

theorem WellFormed.sorted {entries : List (String × Json)}
    (wellFormed : (Json.object entries).WellFormed) :
    entries.Pairwise fun left right => keyBefore left.1 right.1 := by
  cases wellFormed with
  | object _ sorted _ => exact sorted

theorem WellFormed.singleton {value : Json} (wellFormed : value.WellFormed) (key : String) :
    (Json.object [(key, value)]).WellFormed :=
  .object _ (List.pairwise_singleton _ _) (by simpa using wellFormed)

theorem WellFormed.member {document found : Json} {key : String}
    (wellFormed : document.WellFormed) (present : document.member? key = some found) :
    found.WellFormed := by
  cases wellFormed with
  | object entries _ each =>
      obtain ⟨before, after, rfl, -⟩ := List.lookup_eq_some_iff.mp present
      exact each (key, found) (by simp)
  | _ => simp [member?] at present

theorem not_keyBefore_self (key : String) : ¬ keyBefore key key := by
  have irreflexive (chars : List Char) : charsBefore chars chars = false := by
    induction chars with
    | nil => rfl
    | cons first rest ih => simpa [charsBefore] using ih
  simp [keyBefore, irreflexive]

theorem lookup_tail {entry : String × Json} {rest : List (String × Json)}
    (sorted : (entry :: rest).Pairwise fun left right => keyBefore left.1 right.1) :
    rest.lookup entry.1 = none := by
  rw [List.lookup_eq_none_iff]
  intro later member
  have below := (List.pairwise_cons.mp sorted).1 later member
  rw [bne_iff_ne]
  intro same
  exact not_keyBefore_self _ (same ▸ below)

/-- The keys of an object are different, so each entry is found under its key. -/
theorem lookup_of_mem {entries : List (String × Json)}
    (sorted : entries.Pairwise fun left right => keyBefore left.1 right.1)
    {entry : String × Json} (listed : entry ∈ entries) :
    entries.lookup entry.1 = some entry.2 := by
  induction entries with
  | nil => simp at listed
  | cons first rest ih =>
      obtain ⟨below, sorted⟩ := List.pairwise_cons.mp sorted
      rcases List.mem_cons.mp listed with rfl | listed
      · exact List.lookup_cons_self
      · have apart : entry.1 ≠ first.1 := fun same =>
          not_keyBefore_self _ (same ▸ below entry listed)
        rw [List.lookup_cons, beq_false_of_ne apart]
        exact ih sorted listed

theorem lookup_cons_eq_ite (key : String) (value : Json) (rest : List (String × Json))
    (other : String) :
    ((key, value) :: rest).lookup other =
      if other = key then some value else rest.lookup other := by
  by_cases same : other = key
  · rw [same, List.lookup_cons_self, if_pos rfl]
  · rw [List.lookup_cons, beq_false_of_ne same, if_neg same]

theorem lookup_insertMember (key : String) (value : Json)
    (entries : List (String × Json)) (other : String) :
    (insertMember key value entries).lookup other =
      if other = key then some value else entries.lookup other := by
  induction entries with
  | nil => simp only [insertMember, lookup_cons_eq_ite, List.lookup_nil]
  | cons first rest ih =>
      obtain ⟨found, old⟩ := first
      rw [insertMember]
      split
      · rename_i replaced
        subst replaced
        simp only [lookup_cons_eq_ite]
        split <;> rfl
      · split
        · simp only [lookup_cons_eq_ite]
        · rename_i apart _
          simp only [lookup_cons_eq_ite, ih]
          by_cases same : other = key
          · rw [if_pos same, if_pos same, if_neg (same ▸ apart)]
          · rw [if_neg same, if_neg same]

end Json

end DroneEngage
