import DroneEngage.CapabilitySchema

/-!
# Validating adverts and resolving actions

A validator of the source returns at the first check that fails.  Here it is
the list of its checks in the order they are made, and `runChecks` stops at the
first that fails.  A check of a default runs `capCheckParams`, and so it can
end in an exception.
-/

namespace DroneEngage.Capabilities

/-- One check of a validator: a condition with the error text it fails with, or
the check of a parameter's default. -/
inductive Check
  | require (holds : Bool) (err : String)
  | checkDefault (path : String) (param fallback : Json)

/-- What a validator ends with. -/
inductive Verdict
  | valid
  | invalid (err : String)
  | threw (exception : JsonException)
  deriving DecidableEq, Repr

section Run

variable (library : JsonLibrary)

/-- A default must itself be a valid value for the declared type. -/
def Check.run : Check → Verdict
  | require true _ => .valid
  | require false err => .invalid err
  | checkDefault path param fallback =>
      match capCheckParams library (.object [(path, param)]) (.object [(path, fallback)]) with
      | .ok ([], _) => .valid
      | .ok (first :: _, _) => .invalid (path ++ ": bad default (" ++ first ++ ")")
      | .error exception => .threw exception

def runChecks : List Check → Verdict
  | [] => .valid
  | check :: rest =>
      match check.run library with
      | .valid => runChecks rest
      | fault => fault

end Run

/-- Checks on a member that may be absent. -/
def onMember (document : Json) (key : String) (checks : Json → List Check) :
    List Check :=
  (document.member? key).elim [] checks

/-- Is a member absent or of the given kind? -/
def memberIs (document : Json) (key : String) (kind : Json → Bool) : Bool :=
  (document.member? key).all kind

def isStringWith (accepts : String → Bool) : Json → Bool
  | .string text => accepts text
  | _ => false

/-- The type names of a parameter are known, and several only if all scalar. -/
def typeChecks (types : List String) (path : String) : List Check :=
  types.map (fun type =>
    .require (CapType.ofName? type).isSome (path ++ ": unknown type '" ++ type ++ "'")) ++
  (if 1 < types.length then
    types.map fun type =>
      .require (!(CapType.ofName? type).any CapType.isCompound)
        (path ++ ": type list allows scalar types only")
  else [])

def enumChecks (param : Json) (path : String) : List Check :=
  let valuesGiven :=
    match param.member? "values" with
    | some (.array values) => !values.isEmpty
    | _ => false
  [.require valuesGiven (path ++ ": enum requires a non-empty 'values' array")]

def boundChecks (param : Json) (path : String) : List Check :=
  let ordered :=
    match numberMember? param "min", numberMember? param "max" with
    | some minimum, some maximum => !maximum.toDouble.lt minimum.toDouble
    | _, _ => true
  [ .require (memberIs param "min" Json.isNumber) (path ++ ": 'min' must be a number"),
    .require (memberIs param "max" Json.isNumber) (path ++ ": 'max' must be a number"),
    .require ordered (path ++ ": 'min' > 'max'") ]

/-- `capValidateParam`, with the number of levels that are left. -/
def capValidateParam : Nat → Json → String → List Check
  | 0, _, path => [.require false (path ++ ": param nesting too deep")]
  | levels + 1, param, path =>
      .require param.isObject (path ++ ": param must be an object") ::
        match capTypeList param with
        | none | some [] => [.require false (path ++ ": missing or invalid 'type'")]
        | some (type :: others) =>
            typeChecks (type :: others) path ++
            (match CapType.ofName? type with
              | some .enum => enumChecks param path
              | some .array =>
                  onMember param "items" fun items =>
                    capValidateParam levels items (path ++ "[]")
              | some .object =>
                  onMember param "fields" fun fields =>
                    .require fields.isObject (path ++ ": 'fields' must be an object") ::
                      (objectMembers fields).flatMap fun entry =>
                        .require (capIsValidName (utf8Chars entry.1))
                            (path ++ ": bad field name '" ++ entry.1 ++ "'") ::
                          capValidateParam levels entry.2 (path ++ "." ++ entry.1)
              | _ => []) ++
            boundChecks param path ++
            onMember param "default" fun fallback => [.checkDefault path param fallback]

/-- `capValidateParamMap`: a `{name: param}` map. -/
def capValidateParamMap (map : Json) (path : String) : List Check :=
  .require map.isObject (path ++ " must be an object") ::
    (objectMembers map).flatMap fun entry =>
      .require (capIsValidName (utf8Chars entry.1))
          (path ++ ": bad name '" ++ entry.1 ++ "'") ::
        capValidateParam 5 entry.2 (path ++ "." ++ entry.1)

/-- The checks on one action of an advert. -/
def actionChecks (name : String) (act : Json) : List Check :=
  let path := "actions." ++ name
  [ .require (capIsValidName (utf8Chars name)) (path ++ ": bad action name"),
    .require act.isObject (path ++ " must be an object"),
    .require (memberIs act "desc" Json.isString) (path ++ ": 'desc' must be a string"),
    .require
      (memberIs act "timeout_s" fun timeout =>
        timeout.isNumber && (Double.ofInt 0).lt timeout.toDouble)
      (path ++ ": 'timeout_s' must be a positive number"),
    .require (memberIs act "deprecated_alias" Json.isString)
      (path ++ ": 'deprecated_alias' must be a string"),
    .require
      (memberIs act "claim" (isStringWith fun claim => claim == "ns" || claim == "action"))
      (path ++ ": 'claim' must be \"ns\" or \"action\"") ] ++
  onMember act "params" fun params => capValidateParamMap params (path ++ ".params")

/-- The checks on one event of an advert. -/
def eventChecks (name : String) (ev : Json) : List Check :=
  let path := "events." ++ name
  [ .require (capIsValidName (utf8Chars name)) (path ++ ": bad event name"),
    .require ev.isObject (path ++ " must be an object") ] ++
  onMember ev "payload" fun payload => capValidateParamMap payload (path ++ ".payload")

/-- The checks on one surface of `resources`. -/
def resourceChecks (key : String) (cls : Json) : List Check :=
  [ .require (capIsValidName (utf8Chars key))
      ("resources: bad resource name '" ++ key ++ "'"),
    .require (isStringWith (fun name => capIsValidName (utf8Chars name)) cls)
      ("resources." ++ key ++ ": bad class name") ]

/-- Keys of `event_patterns` are `*.<verb>` with a valid name for the verb. -/
def isPatternKey (key : List Char) : Bool :=
  match key with
  | '*' :: '.' :: verb => capIsValidName verb
  | _ => false

/-- The checks on one entry of `event_patterns`. -/
def patternChecks (key : String) (pat : Json) : List Check :=
  let path := "event_patterns." ++ key
  [ .require (isPatternKey (utf8Chars key)) (path ++ ": pattern keys must be '*.<verb>'"),
    .require pat.isObject (path ++ " must be an object"),
    .require
      (memberIs pat "kind" (isStringWith fun kind => kind == "fact" || kind == "command"))
      (path ++ ": 'kind' must be 'fact' or 'command'") ] ++
  (onMember pat "res" fun res =>
    .require res.isArray (path ++ ": 'res' must be an array") ::
      res.elements.map fun cls =>
        .require (isStringWith (fun name => capIsValidName (utf8Chars name)) cls)
          (path ++ ": 'res' entries must be class names")) ++
  .require (memberIs pat "desc" Json.isString) (path ++ ": 'desc' must be a string") ::
    onMember pat "payload" fun payload => capValidateParamMap payload (path ++ ".payload")

/-- The checks on an object whose members are checked one by one. -/
def sectionChecks (key : String) (each : String → Json → List Check) (entries : Json) :
    List Check :=
  .require entries.isObject ("'" ++ key ++ "' must be an object") ::
    (objectMembers entries).flatMap fun entry => each entry.1 entry.2

/-- The checks of `capValidateAdvert`, in order. -/
def advertChecks (advert : Json) : List Check :=
  [ .require advert.isObject "advert must be an object",
    .require ((advert.member? "schema").any (isStringWith fun id => id == capSchemaId))
      ("missing or wrong 'schema' (expected " ++ capSchemaId ++ ")"),
    .require
      ((advert.member? "ns").any (isStringWith fun ns => capIsValidName (utf8Chars ns)))
      "missing or bad 'ns'",
    .require ((advert.member? "module").any Json.isString) "missing 'module'",
    .require ((advert.member? "ver").any Json.isString) "missing 'ver'" ] ++
  onMember advert "actions" (sectionChecks "actions" actionChecks) ++
  onMember advert "events" (sectionChecks "events" eventChecks) ++
  (onMember advert "state" fun state => capValidateParamMap state "state") ++
  onMember advert "resources" (sectionChecks "resources" resourceChecks) ++
  onMember advert "event_patterns" (sectionChecks "event_patterns" patternChecks)

/-- `capValidateAdvert`: valid, the first error, or an exception. -/
def capValidateAdvert (library : JsonLibrary) (advert : Json) : Verdict :=
  runChecks library (advertChecks advert)

/-- The actions of an advert; none where `actions` is missing or no object. -/
def actionsOf (advert : Json) : List (String × Json) :=
  (advert.member? "actions").elim [] objectMembers

/-- The first action whose `deprecated_alias`, empty when absent, is the name. -/
def findAlias (act : String) : List (String × Json) →
    Except JsonException (Option (String × Json))
  | [] => .ok none
  | (key, action) :: rest =>
      if action.isObject then do
        let oldName ← action.value Json.getString "deprecated_alias" ""
        if oldName = act then .ok (some (key, action)) else findAlias act rest
      else findAlias act rest

def capFindAction (advert : Json) (act : String) : Except JsonException (Option Json) :=
  match (actionsOf advert).lookup act with
  | some action => .ok (some action)
  -- a renamed action keeps answering to its old name
  | none => do
      let renamed ← findAlias act (actionsOf advert)
      .ok (renamed.map Prod.snd)

def capCanonicalAction (advert : Json) (act : String) : Except JsonException String :=
  match (actionsOf advert).lookup act with
  | some _ => .ok act
  | none => do
      let renamed ← findAlias act (actionsOf advert)
      .ok ((renamed.map Prod.fst).getD "")

/-- A camera advert with the given actions. -/
def cameraAdvert (actions : List (String × Json)) : Json :=
  .object
    [ ("actions", .object actions), ("module", .string "cam"), ("ns", .string "camera"),
      ("schema", .string capSchemaId), ("ver", .string "1") ]

/-- The library on documents that are already parsed and hold no doubles. -/
def parsedLibrary : JsonLibrary where
  parse := fun _ => none
  dumpFloat := fun _ => "null".toList
  parse_wellFormed := fun parsed => by simp at parsed

section Spec

variable {library : JsonLibrary}

@[simp]
theorem run_require_iff {holds : Bool} {err : String} :
    (Check.require holds err).run library = .valid ↔ holds = true := by
  cases holds <;> simp [Check.run]

/-- Validation succeeds when every check does. -/
theorem runChecks_eq_valid_iff {checks : List Check} :
    runChecks library checks = .valid ↔
      ∀ check ∈ checks, check.run library = .valid := by
  induction checks with
  | nil => simp [runChecks]
  | cons check rest ih =>
      rw [runChecks, List.forall_mem_cons, ← ih]
      cases check.run library <;> simp

/-- Looking for an element behind others of one kind, from the front. -/
theorem exists_split_cons_iff {α : Type} {early found : α → Prop} {first : α}
    {rest : List α} :
    (∃ before element after, first :: rest = before ++ element :: after ∧
        (∀ earlier ∈ before, early earlier) ∧ found element) ↔
      found first ∨ early first ∧
        ∃ before element after, rest = before ++ element :: after ∧
          (∀ earlier ∈ before, early earlier) ∧ found element := by
  constructor
  · rintro ⟨before, element, after, split, earlier, holds⟩
    cases before with
    | nil =>
        obtain ⟨rfl, rfl⟩ := List.cons.inj split
        exact .inl holds
    | cons head before =>
        obtain ⟨rfl, rfl⟩ := List.cons.inj split
        rw [List.forall_mem_cons] at earlier
        exact .inr ⟨earlier.1, before, element, after, rfl, earlier.2, holds⟩
  · rintro (holds | ⟨passed, before, element, after, rfl, earlier, holds⟩)
    · exact ⟨[], first, rest, rfl, by simp, holds⟩
    · exact ⟨first :: before, element, after, rfl,
        List.forall_mem_cons.mpr ⟨passed, earlier⟩, holds⟩

/-- Validation throws when the first check that does not succeed throws. -/
theorem runChecks_eq_threw_iff {checks : List Check} {exception : JsonException} :
    runChecks library checks = .threw exception ↔
      ∃ before check after, checks = before ++ check :: after ∧
        (∀ earlier ∈ before, earlier.run library = .valid) ∧
          check.run library = .threw exception := by
  induction checks with
  | nil => simp [runChecks]
  | cons check rest ih =>
      rw [exists_split_cons_iff, ← ih, runChecks]
      cases check.run library <;> simp

theorem mem_onMember {document found : Json} {key : String} {checks : Json → List Check}
    {check : Check} (present : document.member? key = some found)
    (member : check ∈ checks found) : check ∈ onMember document key checks := by
  simpa [onMember, present] using member

/-- Every check on an action of a valid advert succeeds. -/
theorem valid_actionChecks {advert : Json}
    (valid : capValidateAdvert library advert = .valid) {entry : String × Json}
    (listed : entry ∈ actionsOf advert) {check : Check}
    (member : check ∈ actionChecks entry.1 entry.2) : check.run library = .valid := by
  apply runChecks_eq_valid_iff.mp valid check
  cases present : advert.member? "actions" with
  | none => simp [actionsOf, present] at listed
  | some actions =>
      rw [actionsOf, present] at listed
      have inSection : check ∈ sectionChecks "actions" actionChecks actions :=
        List.mem_cons_of_mem _ (List.mem_flatMap.mpr ⟨entry, listed, member⟩)
      have inActions :
          check ∈ onMember advert "actions" (sectionChecks "actions" actionChecks) :=
        mem_onMember present inSection
      simp only [advertChecks, List.mem_append]
      tauto

/-- The parameters of an action of a valid advert are an object, and every check
on them succeeds. -/
theorem valid_params {advert : Json}
    (valid : capValidateAdvert library advert = .valid) {action : String × Json}
    (listed : action ∈ actionsOf advert) {params : Json}
    (present : action.2.member? "params" = some params) :
    ∃ schema, params = .object schema ∧
      ∀ param ∈ schema,
        ∀ check ∈ capValidateParam 5 param.2 ("actions." ++ action.1 ++ ".params." ++ param.1),
          check.run library = .valid := by
  have succeeds : ∀ check ∈ capValidateParamMap params ("actions." ++ action.1 ++ ".params"),
      check.run library = .valid := by
    intro check member
    refine valid_actionChecks valid listed (List.mem_append_right _ ?_)
    exact mem_onMember present member
  rw [capValidateParamMap, List.forall_mem_cons] at succeeds
  cases params with
  | object schema =>
      refine ⟨schema, rfl, fun param member check inParam => ?_⟩
      refine succeeds.2 check (List.mem_flatMap.mpr ⟨param, member, ?_⟩)
      apply List.mem_cons_of_mem _
      simpa [String.append_assoc] using inParam
  | _ => simp [Json.isObject] at succeeds

end Spec

end DroneEngage.Capabilities
