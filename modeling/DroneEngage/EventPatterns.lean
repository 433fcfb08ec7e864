import DroneEngage.AcceptedAdverts
import DroneEngage.EventNonces

/-!
# Events of single resources

An advert names the events of its resources by patterns `*.<verb>`, each of a kind and for
some classes of resources.  On an accepted advert the match of a name never throws, and it
finds the pattern exactly where the advert offers the event.  The names under which events
are fired can be read in one way only, whatever the resources are called.
-/

namespace DroneEngage.Capabilities

/-- Is `cls` one of the classes in `res`?  What is no array allows every class. -/
def classAllowed (pat : Json) (cls : String) : Bool :=
  match pat.member? "res" with
  | some (.array classes) => classes.any (isStringWith fun name => name == cls)
  | _ => true

/-- The resource check, which applies only when the advert lists resources. -/
def keyAllowed (advert pat : Json) (key : String) : Bool :=
  match advert.member? "resources" with
  | none => true
  | some resources =>
      match resources.member? key with
      | some (.string cls) => classAllowed pat cls
      | _ => false

/-- The entries of `event_patterns`; none where it is missing or no object. -/
def patternsOf (advert : Json) : List (String × Json) :=
  (advert.member? "event_patterns").elim [] objectMembers

/-- `capMatchEventPattern`: the entry of the advert for a name, or none. -/
def capMatchEventPattern (advert : Json) (key verb kind : String) :
    Except JsonException (Option Json) :=
  match (patternsOf advert).lookup ("*." ++ verb) with
  | none => .ok none
  | some pat =>
      if pat.isObject then do
        let kindOfPat ← pat.value Json.getString "kind" "fact"
        if kindOfPat ≠ kind then .ok none
        else if keyAllowed advert pat key then .ok (some pat)
        else .ok none
      else .ok none

section Surface

/-- An event tells what has happened, or it orders something. -/
inductive EventKind
  | fact
  | command
  deriving DecidableEq, Repr

def EventKind.name : EventKind → String
  | fact => "fact"
  | command => "command"

/-- What a pattern says: its kind, and the classes of resources it is for, unless it is for
all of them. -/
structure EventPattern where
  kind : EventKind
  classes : Option (List String)
  deriving DecidableEq, Repr

/-- The events of an advert: the class of each resource if they are listed, and the pattern
of each verb. -/
structure EventSurface where
  resources : Option (String → Option String)
  pattern : String → Option EventPattern

/-- The advert offers the event of this verb and kind on this resource. -/
def EventSurface.Offers (surface : EventSurface) (key verb : String) (kind : EventKind) :
    Prop :=
  ∃ pattern, surface.pattern verb = some pattern ∧ pattern.kind = kind ∧
    ∀ resources, surface.resources = some resources →
      ∃ cls, resources key = some cls ∧
        ∀ classes, pattern.classes = some classes → cls ∈ classes

def textOf? : Json → Option String
  | .string text => some text
  | _ => none

def eventPatternOf (pat : Json) : EventPattern where
  kind := if stringField pat "kind" = some "command" then .command else .fact
  classes := (pat.member? "res").map fun res => res.elements.filterMap textOf?

def surfaceOf (advert : Json) : EventSurface where
  resources := (advert.member? "resources").map stringField
  pattern verb := ((patternsOf advert).lookup ("*." ++ verb)).map eventPatternOf

end Surface

section Valid

variable {library : JsonLibrary} {advert pat : Json} {verb : String}

/-- Every check on the entries of a section of a valid advert succeeds. -/
theorem valid_section {key : String} {each : String → Json → List Check} {entries : Json}
    (valid : capValidateAdvert library advert = .valid)
    (checked : ∀ check ∈ onMember advert key (sectionChecks key each),
      check ∈ advertChecks advert)
    (present : advert.member? key = some entries) :
    entries.isObject = true ∧ ∀ entry ∈ objectMembers entries,
      ∀ check ∈ each entry.1 entry.2, check.run library = .valid := by
  have succeeds : ∀ check ∈ sectionChecks key each entries, check.run library = .valid :=
    fun check member => runChecks_eq_valid_iff.mp valid check
      (checked check (mem_onMember present member))
  rw [sectionChecks, List.forall_mem_cons] at succeeds
  refine ⟨run_require_iff.mp succeeds.1, fun entry listed check member => ?_⟩
  exact succeeds.2 check (List.mem_flatMap.mpr ⟨entry, listed, member⟩)

theorem valid_patternChecks (valid : capValidateAdvert library advert = .valid)
    {entry : String × Json} (listed : entry ∈ patternsOf advert) {check : Check}
    (member : check ∈ patternChecks entry.1 entry.2) : check.run library = .valid := by
  cases present : advert.member? "event_patterns" with
  | none => simp [patternsOf, present] at listed
  | some patterns =>
      rw [patternsOf, present] at listed
      have checked : ∀ check ∈ onMember advert "event_patterns"
          (sectionChecks "event_patterns" patternChecks), check ∈ advertChecks advert := by
        intro check member
        simp only [advertChecks, List.mem_append]
        exact .inr member
      exact (valid_section valid checked present).2 entry listed check member

/-- What the validator makes sure of for one pattern. -/
structure ListedPattern (verb : String) (pat : Json) : Prop where
  verbName : capIsValidName (utf8Chars verb) = true
  isObject : pat.isObject = true
  kindName : ∀ found, pat.member? "kind" = some found →
    found = .string "fact" ∨ found = .string "command"
  classArray : ∀ found, pat.member? "res" = some found → found.isArray = true

theorem utf8Chars_patternKey (verb : String) :
    utf8Chars ("*." ++ verb) = '*' :: '.' :: utf8Chars verb := by
  rw [utf8Chars_append]
  rfl

theorem listedPattern_of_valid (valid : capValidateAdvert library advert = .valid)
    (found : (patternsOf advert).lookup ("*." ++ verb) = some pat) :
    ListedPattern verb pat := by
  obtain ⟨before, after, split, -⟩ := List.lookup_eq_some_iff.mp found
  have listed : ("*." ++ verb, pat) ∈ patternsOf advert := by simp [split]
  have succeeds := fun check => @valid_patternChecks library advert valid _ listed check
  simp only [patternChecks, List.mem_append, List.mem_cons] at succeeds
  have key := run_require_iff.mp (succeeds _ (.inl (.inl (.inl rfl))))
  have object := run_require_iff.mp (succeeds _ (.inl (.inl (.inr (.inl rfl)))))
  have kind := run_require_iff.mp (succeeds _ (.inl (.inl (.inr (.inr (.inl rfl))))))
  constructor
  · rw [utf8Chars_patternKey] at key
    exact key
  · exact object
  · intro found present
    rw [memberIs, present, Option.all_some] at kind
    cases found with
    | string text => simpa [isStringWith] using kind
    | _ => simp [isStringWith] at kind
  · intro found present
    apply run_require_iff.mp (succeeds _ (.inl (.inr _)))
    · exact "event_patterns." ++ ("*." ++ verb) ++ ": 'res' must be an array"
    · exact mem_onMember present (List.mem_cons_self)

end Valid

section Match

variable {library : JsonLibrary} {advert pat : Json} {verb : String}

theorem value_of_member? {document : Json} (isObject : document.isObject = true)
    (key fallback : String) :
    document.value Json.getString key fallback =
      (document.member? key).elim (.ok fallback) Json.getString := by
  cases document with
  | object members =>
      simp only [Json.value, Json.member?]
      cases members.lookup key <;> rfl
  | _ => simp [Json.isObject] at isObject

theorem ListedPattern.value_kind (listed : ListedPattern verb pat) :
    pat.value Json.getString "kind" "fact" = .ok (eventPatternOf pat).kind.name := by
  rw [value_of_member? listed.isObject]
  cases present : pat.member? "kind" with
  | none => simp [eventPatternOf, stringField, present, EventKind.name]
  | some found =>
      rcases listed.kindName found present with rfl | rfl
      · simp [eventPatternOf, stringField, present, EventKind.name, Json.getString]
      · simp [eventPatternOf, stringField, present, EventKind.name, Json.getString]

theorem ListedPattern.classAllowed_iff (listed : ListedPattern verb pat) (cls : String) :
    classAllowed pat cls = true ↔
      ∀ classes, (eventPatternOf pat).classes = some classes → cls ∈ classes := by
  unfold classAllowed eventPatternOf
  cases present : pat.member? "res" with
  | none => simp
  | some res =>
      have isArray := listed.classArray res present
      cases res with
      | array classes =>
          simp only [Option.map_some, Option.some.injEq, forall_eq', Json.elements,
            List.any_eq_true, List.mem_filterMap]
          apply exists_congr
          intro entry
          cases entry <;> simp [isStringWith, textOf?]
      | _ => simp [Json.isArray] at isArray

theorem ListedPattern.keyAllowed_iff (listed : ListedPattern verb pat) (key : String) :
    keyAllowed advert pat key = true ↔
      ∀ resources, (surfaceOf advert).resources = some resources →
        ∃ cls, resources key = some cls ∧
          ∀ classes, (eventPatternOf pat).classes = some classes → cls ∈ classes := by
  unfold keyAllowed surfaceOf
  cases advert.member? "resources" with
  | none => simp
  | some resources =>
      have byField : (match resources.member? key with
          | some (.string cls) => classAllowed pat cls
          | _ => false) = (stringField resources key).any (classAllowed pat) := by
        unfold stringField
        cases resources.member? key with
        | none => rfl
        | some value => cases value <;> rfl
      simp only [Option.map_some, Option.some.injEq, forall_eq', byField]
      cases stringField resources key with
      | none => simp
      | some cls => simp [listed.classAllowed_iff]

/-- On an accepted advert the match never throws, and it finds the entry of the verb exactly
where the advert offers the event. -/
theorem capMatchEventPattern_offers (accepted : Accepted library advert)
    (key verb kindName : String) :
    ∃ found, capMatchEventPattern advert key verb kindName = .ok found ∧
      ∀ pat, found = some pat ↔
        (patternsOf advert).lookup ("*." ++ verb) = some pat ∧
          ∃ kind : EventKind, kind.name = kindName ∧ (surfaceOf advert).Offers key verb kind := by
  unfold capMatchEventPattern
  cases entry : (patternsOf advert).lookup ("*." ++ verb) with
  | none => exact ⟨none, rfl, by simp⟩
  | some pat =>
      have listed := listedPattern_of_valid accepted.valid entry
      have offers (kind : EventKind) : (surfaceOf advert).Offers key verb kind ↔
          (eventPatternOf pat).kind = kind ∧ keyAllowed advert pat key = true := by
        rw [listed.keyAllowed_iff]
        simp only [EventSurface.Offers, surfaceOf, entry, Option.map_some, Option.some.injEq,
          exists_eq_left']
      simp only [listed.isObject, listed.value_kind, if_true, bind, Except.bind, offers]
      split
      · rename_i other
        refine ⟨none, rfl, fun found => ?_⟩
        simp only [reduceCtorEq, Option.some.injEq, false_iff, not_and, not_exists]
        rintro - kind named same
        exact absurd (same ▸ named) other
      · rename_i same
        rw [Classical.not_not] at same
        split
        · rename_i allowed
          refine ⟨some pat, rfl, fun found => ?_⟩
          simp [allowed, same]
        · rename_i refused
          refine ⟨none, rfl, fun found => ?_⟩
          simp [refused]

/-- The advert of a board with a lamp and a servo motor. -/
def gpioAdvert : Json :=
  .object
    [ ("event_patterns", .object
        [ ("*.changed", .object [("kind", .string "fact"), ("res", .array [.string "pwm"])]),
          ("*.on", .object [("kind", .string "command"), ("res", .array [.string "out"])]) ]),
      ("module", .string "board"), ("ns", .string "gpio"),
      ("resources", .object [("led", .string "out"), ("servo", .string "pwm")]),
      ("schema", .string capSchemaId), ("ver", .string "1") ]

theorem wellFormed_gpioAdvert : gpioAdvert.WellFormed := by
  have texts (names : List String) : (Json.array (names.map .string)).WellFormed := by
    apply Json.WellFormed.array
    simp only [List.mem_map, forall_exists_index, and_imp, forall_apply_eq_imp_iff₂]
    exact fun name _ => .string name
  have pattern (kind cls : String) :
      (Json.object [("kind", .string kind), ("res", .array [.string cls])]).WellFormed := by
    apply Json.WellFormed.object
    · simp only [List.pairwise_cons, List.forall_mem_cons]
      decide
    · simp only [List.forall_mem_cons]
      exact ⟨.string _, texts [cls], List.forall_mem_nil _⟩
  apply Json.WellFormed.object
  · simp only [List.pairwise_cons, List.forall_mem_cons]
    decide
  simp only [List.forall_mem_cons]
  refine ⟨?_, .string _, .string _, ?_, .string _, .string _, List.forall_mem_nil _⟩
  · apply Json.WellFormed.object
    · simp only [List.pairwise_cons, List.forall_mem_cons]
      decide
    · simp only [List.forall_mem_cons]
      exact ⟨pattern _ _, pattern _ _, List.forall_mem_nil _⟩
  · apply Json.WellFormed.object
    · simp only [List.pairwise_cons, List.forall_mem_cons]
      decide
    · simp only [List.forall_mem_cons]
      exact ⟨.string _, .string _, List.forall_mem_nil _⟩

theorem accepted_gpioAdvert : Accepted parsedLibrary gpioAdvert :=
  ⟨by decide +kernel, wellFormed_gpioAdvert⟩

theorem capMatchEventPattern_offers_gpio :
    capMatchEventPattern gpioAdvert "led" "on" "command" =
      .ok (some (.object [("kind", .string "command"), ("res", .array [.string "out"])])) := by
  obtain ⟨found, matched, named⟩ :=
    capMatchEventPattern_offers accepted_gpioAdvert "led" "on" "command"
  have offers : (surfaceOf gpioAdvert).Offers "led" "on" .command :=
    ⟨_, rfl, rfl, fun _ listed => by
      cases listed
      exact ⟨_, rfl, fun _ classes => by
        cases classes
        exact List.mem_cons_self⟩⟩
  rw [matched, (named _).mpr ⟨rfl, .command, rfl, offers⟩]

end Match

section Names

/-- An event of an advert: one under `events`, or one of a resource by its pattern. -/
inductive AdvertEvent
  | plain (ev : String)
  | ofResource (key verb : String)

/-- What `fireEvent` is called with behind the namespace. -/
def AdvertEvent.text : AdvertEvent → String
  | plain ev => ev
  | ofResource key verb => key ++ "." ++ verb

def eventsOf (advert : Json) : List (String × Json) :=
  (advert.member? "events").elim [] objectMembers

def Declares (advert : Json) : AdvertEvent → Prop
  | .plain ev => ∃ entry ∈ eventsOf advert, entry.1 = ev
  | .ofResource key verb =>
      ∃ kind pat, capMatchEventPattern advert key verb kind = .ok (some pat)

variable {library : JsonLibrary} {advert : Json}

theorem dot_notMem_of_validName {name : List Char} (valid : capIsValidName name = true) :
    '.' ∉ name := by
  intro dotted
  cases name with
  | nil => cases dotted
  | cons first rest =>
      simp only [capIsValidName, Bool.and_eq_true, List.all_eq_true] at valid
      exact absurd (valid.2 '.' dotted) (by decide)

theorem Accepted.nsName (accepted : Accepted library advert) :
    '.' ∉ utf8Chars (nsOf advert) := by
  apply dot_notMem_of_validName
  have named := run_require_iff.mp (runChecks_eq_valid_iff.mp accepted.valid
    (.require
      ((advert.member? "ns").any (isStringWith fun ns => capIsValidName (utf8Chars ns)))
      "missing or bad 'ns'") (by simp [advertChecks]))
  unfold nsOf stringMember
  cases present : advert.member? "ns" with
  | none => simp [present] at named
  | some found =>
      rw [present, Option.any_some] at named
      cases found with
      | string text => exact named
      | _ => simp [isStringWith] at named

theorem Accepted.plainName (accepted : Accepted library advert) {entry : String × Json}
    (listed : entry ∈ eventsOf advert) : '.' ∉ utf8Chars entry.1 := by
  apply dot_notMem_of_validName
  cases present : advert.member? "events" with
  | none => simp [eventsOf, present] at listed
  | some events =>
      rw [eventsOf, present] at listed
      have checked : ∀ check ∈ onMember advert "events" (sectionChecks "events" eventChecks),
          check ∈ advertChecks advert := by
        intro check member
        simp only [advertChecks, List.mem_append]
        tauto
      have succeeds := (valid_section accepted.valid checked present).2 entry listed
      apply run_require_iff.mp (succeeds _ List.mem_cons_self)

theorem Accepted.verbName (accepted : Accepted library advert) {key verb kind : String}
    {pat : Json} (matched : capMatchEventPattern advert key verb kind = .ok (some pat)) :
    '.' ∉ utf8Chars verb := by
  obtain ⟨found, same, finds⟩ := capMatchEventPattern_offers accepted key verb kind
  rw [matched] at same
  obtain rfl := Except.ok.inj same
  exact dot_notMem_of_validName
    (listedPattern_of_valid accepted.valid ((finds pat).mp rfl).1).verbName

/-- A text is cut at the last separator in one way. -/
theorem cutLast_unique {separator : Char} {left left' right right' : List Char}
    (absent : separator ∉ right) (absent' : separator ∉ right')
    (same : left ++ separator :: right = left' ++ separator :: right') :
    left = left' ∧ right = right' := by
  have reversed := congrArg List.reverse same
  simp only [List.reverse_append, List.reverse_cons, List.append_assoc,
    List.singleton_append] at reversed
  obtain ⟨sameRight, sameLeft⟩ := ModuleBus.cut_unique
    (fun member => absent (List.mem_reverse.mp member))
    (fun member => absent' (List.mem_reverse.mp member)) reversed
  exact ⟨List.reverse_injective sameLeft, List.reverse_injective sameRight⟩

theorem utf8Chars_dotted (front back : String) :
    utf8Chars (front ++ "." ++ back) = utf8Chars front ++ '.' :: utf8Chars back := by
  rw [utf8Chars_append, utf8Chars_append, List.append_assoc]
  rfl

/-- The text of an event tells which one it is. -/
theorem advertEvent_eq {other : Json} (accepted : Accepted library advert)
    (accepted' : Accepted library other) {event event' : AdvertEvent}
    (declared : Declares advert event) (declared' : Declares other event')
    (same : event.text = event'.text) : event = event' := by
  cases event with
  | plain ev =>
      obtain ⟨entry, listed, rfl⟩ := declared
      have bare := accepted.plainName listed
      cases event' with
      | plain ev' => exact congrArg AdvertEvent.plain same
      | ofResource key verb =>
          have dotted := congrArg utf8Chars same
          rw [AdvertEvent.text, AdvertEvent.text, utf8Chars_dotted] at dotted
          rw [dotted] at bare
          exact absurd (by simp) bare
  | ofResource key verb =>
      obtain ⟨kind, pat, matched⟩ := declared
      have dotted := congrArg utf8Chars same
      rw [AdvertEvent.text, utf8Chars_dotted] at dotted
      cases event' with
      | plain ev =>
          obtain ⟨entry, listed, rfl⟩ := declared'
          have bare := accepted'.plainName listed
          rw [AdvertEvent.text] at dotted
          rw [← dotted] at bare
          exact absurd (by simp) bare
      | ofResource key' verb' =>
          obtain ⟨kind', pat', matched'⟩ := declared'
          rw [AdvertEvent.text, utf8Chars_dotted] at dotted
          obtain ⟨keys, verbs⟩ := cutLast_unique (accepted.verbName matched)
            (accepted'.verbName matched') dotted
          rw [utf8Chars_injective keys, utf8Chars_injective verbs]

/-- The name in an event that goes out. -/
def firedName : ModuleBus.Output → Option String
  | .message envelope =>
      if envelope.andruavMessageId = ModuleBus.typeSyncEventFire then
        stringField envelope.cmd "d"
      else none
  | _ => none

theorem firedName_fireEvent {state : ModuleBus.ModuleState} {ms : UInt64} {ns ev : String}
    {payload : Json} {output : ModuleBus.Output}
    (sent : output ∈ (state.fireEvent ms ns ev payload).2) :
    firedName output = some (ns ++ "." ++ ev) := by
  simp only [ModuleBus.ModuleState.fireEvent, ModuleBus.ModuleState.sendJMSG] at sent
  split at sent
  · rw [List.mem_singleton] at sent
    rw [sent]
    rfl
  · cases sent

/-- Different events that accepted adverts declare go out under different names, also where
no resources are listed and a key may have dots. -/
theorem firedNames_differ {advert other : Json} (accepted : Accepted library advert)
    (accepted' : Accepted library other) {event event' : AdvertEvent}
    (declared : Declares advert event) (declared' : Declares other event')
    (different : (nsOf advert, event) ≠ (nsOf other, event'))
    {sender sender' : ModuleBus.ModuleState} {ms ms' : UInt64} {payload payload' : Json}
    {output output' : ModuleBus.Output}
    (sent : output ∈ (sender.fireEvent ms (nsOf advert) event.text payload).2)
    (sent' : output' ∈ (sender'.fireEvent ms' (nsOf other) event'.text payload').2) :
    firedName output ≠ firedName output' := by
  intro same
  rw [firedName_fireEvent sent, firedName_fireEvent sent'] at same
  have texts := congrArg utf8Chars (Option.some.inj same)
  rw [utf8Chars_dotted, utf8Chars_dotted] at texts
  obtain ⟨namespaces, events⟩ :=
    ModuleBus.cut_unique accepted.nsName accepted'.nsName texts
  apply different
  rw [utf8Chars_injective namespaces,
    advertEvent_eq accepted accepted' declared declared' (utf8Chars_injective events)]

/-- A module of the bus, when it may send. -/
def boardModule : ModuleBus.ModuleState :=
  { ModuleBus.ModuleState.fresh 0 with started := true }

theorem firedNames_differ_gpio :
    ∃ lit moved, lit ∈ (boardModule.fireEvent 5 "gpio" "led.on" .null).2 ∧
      moved ∈ (boardModule.fireEvent 6 "gpio" "servo.changed" .null).2 ∧
      firedName lit ≠ firedName moved := by
  have on : Declares gpioAdvert (.ofResource "led" "on") :=
    ⟨"command", .object [("kind", .string "command"), ("res", .array [.string "out"])], rfl⟩
  have changed : Declares gpioAdvert (.ofResource "servo" "changed") :=
    ⟨"fact", .object [("kind", .string "fact"), ("res", .array [.string "pwm"])], rfl⟩
  have fires (ms : UInt64) (ev : String) :
      ∃ output, output ∈ (boardModule.fireEvent ms "gpio" ev .null).2 :=
    ⟨_, List.mem_singleton_self _⟩
  obtain ⟨lit, sent⟩ := fires 5 "led.on"
  obtain ⟨moved, sent'⟩ := fires 6 "servo.changed"
  refine ⟨lit, moved, sent, sent', ?_⟩
  exact firedNames_differ accepted_gpioAdvert accepted_gpioAdvert on changed (by simp) sent sent'

end Names

end DroneEngage.Capabilities
