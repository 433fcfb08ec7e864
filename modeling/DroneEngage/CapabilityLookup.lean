import DroneEngage.CapabilityAdverts

/-!
# Which action a name resolves to

An action answers to its name and to its `deprecated_alias`.  An absent alias
is read as the empty string, so the empty name that stands for a message
without `act` finds the first action that has no alias.
-/

namespace DroneEngage.Capabilities

/-- What an accepted advert says about one action, as far as lookups need it. -/
structure ListedAction (entry : String × Json) : Prop where
  named : entry.1 ≠ ""
  isObject : entry.2.isObject = true
  aliasString : ∀ found, entry.2.member? "deprecated_alias" = some found →
    ∃ text, found = .string text

/-- A string member, empty when there is none. -/
def stringMember (document : Json) (key : String) : String :=
  match document.member? key with
  | some (.string text) => text
  | _ => ""

/-- The alias an action answers to, empty when it has none. -/
def aliasOf (action : Json) : String := stringMember action "deprecated_alias"

/-- `value(key, "")` of an object whose member, if any, is a string. -/
theorem value_string {document : Json} {key : String} (isObject : document.isObject = true)
    (isText : ∀ found, document.member? key = some found → ∃ text, found = .string text) :
    document.value Json.getString key "" = .ok (stringMember document key) := by
  cases document with
  | object members =>
      simp only [Json.value, stringMember, Json.member?] at isText ⊢
      cases present : members.lookup key with
      | none => rfl
      | some found =>
          obtain ⟨text, rfl⟩ := isText found present
          rfl
  | _ => simp [Json.isObject] at isObject

theorem listedAction_of_valid {library : JsonLibrary} {advert : Json}
    (valid : capValidateAdvert library advert = .valid) {entry : String × Json}
    (listed : entry ∈ actionsOf advert) : ListedAction entry := by
  have succeeds := fun check => @valid_actionChecks library advert valid entry listed check
  simp only [actionChecks, List.mem_append, List.mem_cons] at succeeds
  have name := run_require_iff.mp (succeeds _ (.inl (.inl rfl)))
  have object := run_require_iff.mp (succeeds _ (.inl (.inr (.inl rfl))))
  have aliasKind := run_require_iff.mp
    (succeeds _ (.inl (.inr (.inr (.inr (.inr (.inl rfl)))))))
  refine ⟨?_, object, ?_⟩
  · intro empty
    rw [empty] at name
    exact absurd name (by decide)
  · intro found present
    rw [memberIs, present, Option.all_some] at aliasKind
    cases found <;> simp_all [Json.isString]

theorem value_alias {entry : String × Json} (listed : ListedAction entry) :
    entry.2.value Json.getString "deprecated_alias" "" = .ok (aliasOf entry.2) :=
  value_string listed.isObject listed.aliasString

/-- The alias loop over actions of an accepted advert. -/
theorem findAlias_eq {act : String} {actions : List (String × Json)}
    (listed : ∀ entry ∈ actions, ListedAction entry) :
    findAlias act actions = .ok (actions.find? fun entry => aliasOf entry.2 = act) := by
  induction actions with
  | nil => rfl
  | cons entry rest ih =>
      rw [List.forall_mem_cons] at listed
      have object := listed.1.isObject
      obtain ⟨name, action⟩ := entry
      simp only [findAlias, object, if_true, value_alias listed.1, List.find?_cons,
        ih listed.2]
      by_cases same : aliasOf action = act
      · simp [same, Bind.bind, Except.bind]
      · simp [same, Bind.bind, Except.bind]

theorem lookup_empty {actions : List (String × Json)}
    (listed : ∀ entry ∈ actions, ListedAction entry) : actions.lookup "" = none := by
  rw [List.lookup_eq_none_iff]
  intro entry member
  simpa using Ne.symm (listed entry member).named

/-- Is the action listed under the name, or does it carry it as its alias? -/
def AnswersTo (advert : Json) (act : String) (action : Json) : Prop :=
  (actionsOf advert).lookup act = some action ∨
    ∃ name, (name, action) ∈ actionsOf advert ∧
      action.member? "deprecated_alias" = some (.string act)

/-- What resolving a name must give. -/
structure ResolvesSoundly (advert : Json) (act : String) : Prop where
  sound : ∀ action, capFindAction advert act = .ok (some action) →
    AnswersTo advert act action
  missing : (∀ action, ¬ AnswersTo advert act action) →
    capFindAction advert act = .ok none
  canonical : capFindAction advert act = .ok none →
    capCanonicalAction advert act = .ok ""

/-- The first action that answers to the empty name carries an explicit alias. -/
def EmptyNameIsAlias (advert : Json) : Prop :=
  ∀ entry, ((actionsOf advert).find? fun entry => aliasOf entry.2 = "") = some entry →
    entry.2.contains "deprecated_alias" = true

section Resolution

variable {library : JsonLibrary} {advert : Json}

theorem capFindAction_eq (valid : capValidateAdvert library advert = .valid)
    (act : String) :
    capFindAction advert act = .ok
      (((actionsOf advert).lookup act).or
        (((actionsOf advert).find? fun entry => aliasOf entry.2 = act).map Prod.snd)) := by
  simp only [capFindAction,
    findAlias_eq fun entry listed => listedAction_of_valid valid listed]
  cases (actionsOf advert).lookup act <;> rfl

theorem capCanonicalAction_eq (valid : capValidateAdvert library advert = .valid)
    (act : String) :
    capCanonicalAction advert act = .ok
      ((((actionsOf advert).lookup act).map fun _ => act).or
        (((actionsOf advert).find? fun entry => aliasOf entry.2 = act).map Prod.fst)
        |>.getD "") := by
  simp only [capCanonicalAction,
    findAlias_eq fun entry listed => listedAction_of_valid valid listed]
  cases (actionsOf advert).lookup act <;> rfl

/-- An action that answers to a name through the alias loop carries the alias,
unless the name is empty and the action has none. -/
theorem member?_alias {entry : String × Json} {act : String}
    (listed : ListedAction entry) (same : aliasOf entry.2 = act)
    (given : act ≠ "" ∨ entry.2.contains "deprecated_alias" = true) :
    entry.2.member? "deprecated_alias" = some (.string act) := by
  cases present : entry.2.member? "deprecated_alias" with
  | none => simp_all [aliasOf, stringMember, Json.contains]
  | some found =>
      obtain ⟨text, rfl⟩ := listed.aliasString found present
      simp_all [aliasOf, stringMember]

theorem not_answersTo_empty (valid : capValidateAdvert library advert = .valid)
    {action : Json} (unaliased : action.contains "deprecated_alias" = false) :
    ¬ AnswersTo advert "" action := by
  rintro (named | ⟨name, -, explicit⟩)
  · rw [lookup_empty fun entry listed => listedAction_of_valid valid listed] at named
    simp at named
  · simp [Json.contains, explicit] at unaliased

/-- Resolving a name in an accepted advert is sound unless the name is empty
and the first action that answers to it has no alias at all. -/
theorem capFindAction_sound_iff (library : JsonLibrary) (advert : Json)
    (valid : capValidateAdvert library advert = .valid) (act : String) :
    ResolvesSoundly advert act ↔ act ≠ "" ∨ EmptyNameIsAlias advert := by
  constructor
  · intro soundly
    by_contra fails
    rw [not_or, not_not] at fails
    obtain ⟨rfl, absent⟩ := fails
    apply absent
    intro entry first
    by_contra unaliased
    rw [Bool.not_eq_true] at unaliased
    refine not_answersTo_empty valid unaliased (soundly.sound entry.2 ?_)
    rw [capFindAction_eq valid, first,
      lookup_empty fun entry listed => listedAction_of_valid valid listed]
    rfl
  · intro condition
    have explicit : ∀ entry,
        ((actionsOf advert).find? fun entry => aliasOf entry.2 = act) = some entry →
        AnswersTo advert act entry.2 := by
      intro entry first
      have listed := List.mem_of_find?_eq_some first
      have same : aliasOf entry.2 = act := by simpa using List.find?_some first
      refine .inr ⟨entry.1, listed,
        member?_alias (listedAction_of_valid valid listed) same ?_⟩
      rcases condition with given | emptyName
      · exact .inl given
      · by_cases empty : act = ""
        · exact .inr (emptyName entry (empty ▸ first))
        · exact .inl empty
    refine ⟨fun action found => ?_, fun unanswered => ?_, fun missing => ?_⟩
    · rw [capFindAction_eq valid, Except.ok.injEq] at found
      rcases Option.or_eq_some_iff.mp found with named | ⟨-, aliased⟩
      · exact .inl named
      · obtain ⟨entry, first, rfl⟩ := Option.map_eq_some_iff.mp aliased
        exact explicit entry first
    · rw [capFindAction_eq valid, Except.ok.injEq, Option.or_eq_none_iff]
      constructor
      · rw [Option.eq_none_iff_forall_ne_some]
        exact fun action named => unanswered action (.inl named)
      · rw [Option.map_eq_none_iff, Option.eq_none_iff_forall_ne_some]
        exact fun entry first => unanswered entry.2 (explicit entry first)
    · rw [capFindAction_eq valid, Except.ok.injEq, Option.or_eq_none_iff] at missing
      rw [capCanonicalAction_eq valid, missing.1, Option.map_eq_none_iff.mp missing.2]
      rfl

/-- An action without an alias answers to its name only. -/
theorem capFindAction_sound_iff_capture :
    ResolvesSoundly (cameraAdvert [("capture", .object [])]) "capture" :=
  (capFindAction_sound_iff parsedLibrary _ (by decide) "capture").mpr (.inl (by decide))

/-- The empty name finds an action that never carried it. -/
theorem capFindAction_unsound :
    ¬ ∀ (library : JsonLibrary) (advert : Json) (act : String),
      capValidateAdvert library advert = .valid → ResolvesSoundly advert act := by
  intro always
  have soundly := always parsedLibrary (cameraAdvert [("capture", .object [])]) ""
    (by decide)
  rcases soundly.sound (.object []) rfl with named | ⟨name, -, explicit⟩
  · simp [actionsOf, cameraAdvert, Json.member?, objectMembers, Json.lookup_cons_eq_ite] at named
  · simp [Json.member?] at explicit

end Resolution

end DroneEngage.Capabilities
