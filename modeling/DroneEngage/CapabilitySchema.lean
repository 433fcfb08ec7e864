import DroneEngage.JsonText

/-!
# The capability advert dialect

`capValidateAdvert` checks an advert and stops at its first error;
`capCheckParams` checks the parameters of an invoke against an action's schema
and collects every error.  The validator runs the checker on each default.

A depth that the source counts up from 0 is counted down here: a parameter may
be nested five levels deep, and the checker descends four times.
-/

namespace DroneEngage.Capabilities

def capSchemaId : String := "de.cap/1"

def capAdvertMaxBytes : Nat := 16 * 1024

def capNameMaxLen : Nat := 32

/-- The types that `capScalarTypes` lists. -/
inductive CapType
  | bool
  | int
  | number
  | string
  | enum
  | geo
  | array
  | object
  deriving DecidableEq, Repr

/-- The type of a name, if `capScalarTypes` has it. -/
def CapType.ofName? : String → Option CapType
  | "bool" => some bool
  | "int" => some int
  | "number" => some number
  | "string" => some string
  | "enum" => some enum
  | "geo" => some geo
  | "array" => some array
  | "object" => some object
  | _ => none

/-- A type that a list of several types may not hold. -/
def CapType.isCompound : CapType → Bool
  | enum | geo | array | object => true
  | _ => false

/-- The type names of a parameter: one name, or a list that is not empty. -/
def capTypeList (param : Json) : Option (List String) :=
  match param.member? "type" with
  | some (.string name) => some [name]
  | some (.array (first :: rest)) =>
      (first :: rest).mapM fun element => element.getString.toOption
  | _ => none

/-- Names match `[a-z][a-z0-9_]*`; the length counts bytes. -/
def capIsValidName (name : List Char) : Bool :=
  match name with
  | [] => false
  | first :: _ =>
      decide (name.length ≤ capNameMaxLen) &&
        (decide ('a' ≤ first) && decide (first ≤ 'z')) &&
        name.all fun c =>
          (decide ('a' ≤ c) && decide (c ≤ 'z')) ||
            (decide ('0' ≤ c) && decide (c ≤ '9')) || c == '_'

/-- Texts appended one by one, with the separator once there is some text. -/
def joined (separator : String) (texts : List String) : String :=
  texts.foldl
    (fun text next => (if text.isEmpty then text else text ++ separator) ++ next) ""

/-- Run a check on each entry in turn and append the errors. -/
def collect {α : Type} (check : α → Except JsonException (List String)) :
    List α → Except JsonException (List String)
  | [] => .ok []
  | entry :: rest => do
      let errors ← check entry
      let more ← collect check rest
      .ok (errors ++ more)

section Checker

variable (library : JsonLibrary)

/-- Does a value satisfy a single declared type? -/
def capValueMatches (value : Json) : CapType → Bool
  | .bool => value.isBoolean
  | .int => value.isNumberInteger || value.isNumberUnsigned
  | .number => value.isNumber
  | .string => value.isString
  | .geo =>
      match value with
      | .array [latitude, longitude, altitude] =>
          latitude.isNumber && longitude.isNumber && altitude.isNumber
      | _ => false
  -- checked against `values` by the caller
  | .enum => value.isString || value.isNumber || value.isBoolean
  | .array => value.isArray
  | .object => value.isObject

/-- The first of the named types that a value takes. -/
def matchedType (types : List String) (value : Json) : Option CapType :=
  (types.filterMap CapType.ofName?).find? (capValueMatches value)

/-- The number under a key of a parameter, if it is one. -/
def numberMember? (param : Json) (key : String) : Option Json :=
  (param.member? key).filter Json.isNumber

/-- The errors about `min` and `max`, for a value that matched a number type. -/
def boundErrors (param value : Json) (path : String) : List String :=
  (match numberMember? param "min" with
    | some minimum =>
        if value.toDouble.lt minimum.toDouble then
          [path ++ ": must be >= " ++ String.ofList (minimum.dump library none)]
        else []
    | none => []) ++
  (match numberMember? param "max" with
    | some maximum =>
        if maximum.toDouble.lt value.toDouble then
          [path ++ ": must be <= " ++ String.ofList (maximum.dump library none)]
        else []
    | none => [])

/-- The error about the `values` of an enum. -/
def choiceErrors (param value : Json) (path : String) : List String :=
  let values := (param.member? "values").getD (.array [])
  if values.elements.any fun allowed => allowed.equal value then []
  else [path ++ ": not one of the allowed values"]

/-- The errors about one field of an object. -/
def fieldErrors (descend : Json → Json → String → Except JsonException (List String))
    (value : Json) (path : String) (entry : String × Json) :
    Except JsonException (List String) :=
  match value.member? entry.1 with
  | some inner => descend entry.2 inner (path ++ "." ++ entry.1)
  | none => do
      let optional ← entry.2.value Json.getBoolean "optional" false
      if !optional && !entry.2.contains "default" then
        .ok [path ++ "." ++ entry.1 ++ ": missing required field"]
      else .ok []

/-- The body of `capCheckValue`, given the check of what lies one level below. -/
def checkValueWith
    (descend : Option (Json → Json → String → Except JsonException (List String)))
    (param value : Json) (path : String) : Except JsonException (List String) :=
  match capTypeList param with
  | none | some [] => .ok [path ++ ": schema has no usable 'type'"]
  | some types =>
      match matchedType types value with
      | none => .ok [path ++ ": expected " ++ joined "|" types]
      | some .int | some .number => .ok (boundErrors library param value path)
      | some .enum => .ok (choiceErrors param value path)
      | some .array =>
          match descend, param.member? "items" with
          | some descend, some items =>
              collect
                (fun entry =>
                  descend items entry.1 (path ++ "[" ++ toString entry.2 ++ "]"))
                value.elements.zipIdx
          | _, _ => .ok []
      | some .object =>
          match descend, param.member? "fields" with
          | some descend, some fields => do
              let entries ← fields.members
              collect (fieldErrors descend value path) entries
          | _, _ => .ok []
      | some .bool | some .string | some .geo => .ok []

/-- `capCheckValue`, with the number of levels it may still descend. -/
def capCheckValue : Nat → Json → Json → String → Except JsonException (List String)
  | 0 => checkValueWith library none
  | levels + 1 => checkValueWith library (some (capCheckValue levels))

/-- What the loop of `capCheckParams` does with one parameter of the schema. -/
def checkParam (given : Json) (filled : List (String × Json)) (name : String)
    (param : Json) : Except JsonException (List String × List (String × Json)) :=
  match given.member? name with
  | some value => do
      let errors ← capCheckValue library 4 param value name
      .ok (errors, filled)
  | none =>
      match param.member? "default" with
      | some fallback => .ok ([], Json.insertMember name fallback filled)
      | none => do
          let optional ← param.value Json.getBoolean "optional" false
          if optional then .ok ([], filled)
          else .ok ([name ++ ": missing required param"], filled)

def checkEachParam (given : Json) :
    List (String × Json) → List (String × Json) →
      Except JsonException (List String × List (String × Json))
  | [], filled => .ok ([], filled)
  | (name, param) :: rest, filled => do
      let (errors, filled) ← checkParam library given filled name param
      let (more, filled) ← checkEachParam given rest filled
      .ok (errors ++ more, filled)

/-- The members of an object, none for anything else. -/
def objectMembers : Json → List (String × Json)
  | .object members => members
  | _ => []

/-- `capCheckParams`: the errors, and the parameters with defaults filled in. -/
def capCheckParams (paramsSchema given : Json) :
    Except JsonException (List String × Json) :=
  match paramsSchema with
  | .null => .ok ([], .object (objectMembers given))
  | .object schema => do
      let expected :=
        if !given.isNull && !given.isObject then ["with: expected an object"] else []
      let unknown := (objectMembers given).filterMap fun entry =>
        if paramsSchema.contains entry.1 then none else some (entry.1 ++ ": unknown param")
      let (errors, filled) ← checkEachParam library given schema (objectMembers given)
      .ok (expected ++ unknown ++ errors, .object filled)
  | _ => .ok (["params schema is not an object"], .object (objectMembers given))

end Checker

end DroneEngage.Capabilities
