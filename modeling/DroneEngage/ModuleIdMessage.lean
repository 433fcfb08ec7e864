import DroneEngage.ModulePublication

/-!
# The hash in the ID message

The hash of the adverts and the types a module wants for them are in its ID message once
`setCapabilities` has returned, and stay there unless the receive thread hands over an older
one.  What a module sends as its adverts are those it has accepted last, and the receiver
can check them against the hash.
-/

namespace DroneEngage.ModuleBus

open Capabilities EventRuns Sha256Standard

/-- The first digits of the SHA-256 of the adverts, with line breaks between them. -/
def advertsHash (adverts : List String) : String :=
  .ofList ((hex (digest ((List.intercalate ['\n'] (adverts.map utf8Chars)).map
    fun c => UInt8.ofNat c.toNat))).take 16)

/-- The adverts that a step makes the module take. -/
def ModuleEvent.accepted? (library : JsonLibrary) : ModuleEvent → Option (List String)
  | .call (.setCapabilities _ adverts) => if accepts library adverts then some adverts else none
  | _ => none

/-- The adverts that have been accepted last. -/
def currentAdverts (library : JsonLibrary) (events : List ModuleEvent) :
    Option (List String) :=
  (events.filterMap (ModuleEvent.accepted? library)).getLast?

/-- The command of a message with adverts. -/
def advertsRecord : Option (List String) → Json
  | none => .object [("caps", .array []), ("ch", .string "")]
  | some adverts =>
      .object [("caps", .array (adverts.map .string)), ("ch", .string (advertsHash adverts))]

/-- The module's record, as it stands for the adverts accepted last. -/
def storedAdverts : Option (List String) → List String × String
  | none => ([], "")
  | some adverts => (adverts, advertsHash adverts)

theorem advertsRecord_eq (current : Option (List String)) :
    advertsRecord current =
      .object
        [ ("caps", .array ((storedAdverts current).1.map .string)),
          ("ch", .string (storedAdverts current).2) ] := by
  cases current <;> rfl

section Hash

theorem foldl_join {joined : List Char} (begun : joined ≠ []) (adverts : List (List Char)) :
    adverts.foldl
        (fun joined advert => (if joined.isEmpty then joined else joined ++ ['\n']) ++ advert)
        joined =
      joined ++ adverts.flatMap fun advert => '\n' :: advert := by
  induction adverts generalizing joined with
  | nil => simp
  | cons advert rest ih =>
      have more : joined ++ ['\n'] ++ advert ≠ [] := by simp
      rw [List.foldl_cons, if_neg (by simpa using begun), ih more]
      simp

theorem joinAdverts_eq {adverts : List (List Char)} (nonempty : ∀ advert ∈ adverts, advert ≠ []) :
    joinAdverts adverts = List.intercalate ['\n'] adverts := by
  cases adverts with
  | nil => rfl
  | cons first rest =>
      have begun : first ≠ [] := nonempty first List.mem_cons_self
      have tail : List.intercalate ['\n'] (first :: rest) =
          first ++ rest.flatMap fun advert => '\n' :: advert := by
        clear nonempty begun
        induction rest generalizing first with
        | nil => simp [List.intercalate]
        | cons second rest ih =>
            have behind := ih second
            simp only [List.intercalate, List.intersperse_cons_cons, List.flatten_cons] at behind ⊢
            rw [behind]
            simp
      rw [tail, joinAdverts, List.foldl_cons]
      exact foldl_join begun rest

variable {library : JsonLibrary}

/-- Each advert that is accepted has been parsed. -/
theorem parsed_of_setCapabilities {texts : List (List Char)} {parsed : List Json}
    (stored : Capabilities.setCapabilities library texts = .ok (some parsed)) :
    ∀ text ∈ texts, library.parse text ≠ none := by
  induction texts generalizing parsed with
  | nil => simp
  | cons text rest ih =>
      rw [Capabilities.setCapabilities] at stored
      split at stored
      · cases stored
      · split at stored
        · cases stored
        · rename_i advert found
          split at stored
          · obtain ⟨more, storedRest, same⟩ := bind_eq_ok.mp stored
            obtain ⟨others, rfl, -⟩ := Option.map_eq_some_iff.mp (Except.ok.inj same)
            rw [List.forall_mem_cons]
            exact ⟨by simp [found], ih storedRest⟩
          · cases stored
          · cases stored

theorem exists_parsed {adverts : List String} (accepted : accepts library adverts) :
    ∃ parsed, Capabilities.setCapabilities library (adverts.map utf8Chars) =
      .ok (some parsed) := by
  unfold accepts at accepted
  split at accepted
  · rename_i parsed stored
    exact ⟨parsed, stored⟩
  · cases accepted

/-- The hash of accepted adverts, where an empty text is no document. -/
theorem capAdvertHash_eq (empty : library.parse [] = none) {adverts : List String}
    (accepted : accepts library adverts) (memory : Sha256Ctx (Vector (BitVec 32) 8)) :
    String.ofList (capAdvertHash memory (adverts.map utf8Chars)) = advertsHash adverts := by
  obtain ⟨parsed, stored⟩ := exists_parsed accepted
  have nonempty : ∀ text ∈ adverts.map utf8Chars, text ≠ [] := by
    rintro text listed rfl
    exact parsed_of_setCapabilities stored _ listed empty
  have recording : Sha256Ctx (List Block) := ⟨[], 0, .replicate 64 0, 0⟩
  rw [capAdvertHash, advertsHash, joinAdverts_eq nonempty,
    (sha256Hex_eq memory recording _).1]

theorem length_hex_words (words : List Sha256Standard.Word) :
    (Sha256Standard.hex (words.flatMap fun word =>
      Sha256Standard.bigEndian 4 word.toNat)).length = 8 * words.length := by
  induction words with
  | nil => rfl
  | cons word rest ih =>
      have first : (Sha256Standard.hex (Sha256Standard.bigEndian 4 word.toNat)).length = 8 := rfl
      rw [List.flatMap_cons, Sha256Standard.hex, List.flatMap_append, List.length_append]
      unfold Sha256Standard.hex at first ih
      rw [first, ih, List.length_cons]
      omega

theorem length_advertsHash (adverts : List String) : (advertsHash adverts).toList.length = 16 := by
  unfold advertsHash Sha256Standard.digest
  rw [String.toList_ofList, List.length_take, length_hex_words, Vector.length_toList]
  rfl

theorem advertsHash_ne_empty (adverts : List String) : advertsHash adverts ≠ "" := by
  intro empty
  have length := length_advertsHash adverts
  rw [empty] at length
  cases length

end Hash

section Adverts

variable {library : JsonLibrary} {beyondInt : Double → Int32} {events : List ModuleEvent}
  {instanceTimeStamp : Int64} {run next : ModuleRun} {event : ModuleEvent} {state : ModuleState}

theorem currentAdverts_snoc (events : List ModuleEvent) (event : ModuleEvent) :
    currentAdverts library (events ++ [event]) =
      (event.accepted? library).or (currentAdverts library events) := by
  unfold currentAdverts
  rw [List.filterMap_append]
  cases taken : event.accepted? library with
  | none => simp [taken]
  | some adverts => simp [taken]

/-- Adverts and hash as a call leaves them. -/
theorem take_adverts (empty : library.parse [] = none) (call : Call) :
    ((state.take library call).1.capabilityAdverts,
      (state.take library call).1.capabilityHash) =
        match (ModuleEvent.call call).accepted? library with
        | some adverts => (adverts, advertsHash adverts)
        | none => (state.capabilityAdverts, state.capabilityHash) := by
  cases call with
  | setCapabilities memory adverts =>
      rw [ModuleState.take, ModuleEvent.accepted?]
      rcases @setCapabilities_cases library state memory adverts with
        ⟨refused, same⟩ | ⟨parsed, accepted, same⟩
      · rw [same, refused]
        rfl
      · rw [same, if_pos accepted, ModuleState.storeCapabilities,
          capAdvertHash_eq empty accepted memory]
  | _ => rfl

/-- Only `setCapabilities` changes the adverts. -/
theorem step_adverts (empty : library.parse [] = none)
    (stepped : run.step library beyondInt event = some next) :
    (next.state.capabilityAdverts, next.state.capabilityHash) =
      match event.accepted? library with
      | some adverts => (adverts, advertsHash adverts)
      | none => (run.state.capabilityAdverts, run.state.capabilityHash) := by
  rcases step_cases stepped with ⟨call, rfl, -, -, rfl⟩ | ⟨ns, changed, full, rfl, rfl⟩ |
    ⟨ms, ns, ev, payload, rfl, rfl⟩ | ⟨message, rfl, -, -, rfl⟩ |
    ⟨stage, rfl, -, rfl⟩ | ⟨stage, jMsg, rfl, -, rfl⟩
  · exact take_adverts empty call
  · rfl
  · rfl
  · obtain ⟨partyId, groupId, same⟩ := @onReceive_state library beyondInt run.state message
    rw [ModuleRun.afterRegister, same]
    rfl
  · cases stage <;> rfl
  · cases stage <;> rfl

theorem Reaches.adverts (empty : library.parse [] = none)
    (reaches : Reaches library beyondInt instanceTimeStamp events run) :
    (run.state.capabilityAdverts, run.state.capabilityHash) =
      storedAdverts (currentAdverts library events) := by
  induction reaches with
  | nil => rfl
  | @snoc events state next event earlier stepped ih =>
      rw [currentAdverts_snoc, step_adverts empty stepped]
      cases event.accepted? library with
      | none => exact ih
      | some adverts => rfl

/-- The messages with adverts among the outputs carry those of a state. -/
def CarryAdverts (state : ModuleState) (outputs : List Output) : Prop :=
  ∀ envelope, .message envelope ∈ outputs →
    envelope.andruavMessageId = typeModuleCapabilities →
      envelope.cmd = .object
        [ ("caps", .array (state.capabilityAdverts.map .string)),
          ("ch", .string state.capabilityHash) ]

theorem carryAdverts_of_count {outputs : List Output} (none : countCapabilities outputs = 0) :
    CarryAdverts state outputs := by
  intro envelope sent adverts
  have counted : Output.isCapabilities (.message envelope) = true := by
    simp [Output.isCapabilities, adverts]
  exact absurd counted (List.countP_eq_zero.mp none _ sent)

theorem carryAdverts_sendCapabilities (state : ModuleState) :
    CarryAdverts state state.sendCapabilities := by
  intro envelope sent _
  unfold ModuleState.sendCapabilities ModuleState.sendJMSG at sent
  split at sent
  · obtain rfl := Output.message.inj (List.mem_singleton.mp sent)
    rfl
  · cases sent

theorem onReceive_carryAdverts (message : List Char) :
    CarryAdverts state (state.onReceive library beyondInt message).outputs := by
  rcases @onReceive_cases library beyondInt state message with
    ⟨-, same⟩ | ⟨jMsg, taken, -, same⟩
  · rw [same]
    exact carryAdverts_of_count rfl
  · rw [same]
    cases taken with
    | partyRecord sd gr => cases gr <;> exact carryAdverts_of_count rfl
    | capabilityRequest r =>
        cases r with
        | false => exact carryAdverts_of_count rfl
        | true => exact carryAdverts_sendCapabilities state
    | other => exact carryAdverts_of_count (countCapabilities_forward jMsg)
    | _ => exact carryAdverts_of_count rfl

/-- What goes out in a step carries the adverts that are stored. -/
theorem step_carryAdverts (stepped : run.step library beyondInt event = some next) :
    ∃ new, next.outputs = run.outputs ++ new ∧ CarryAdverts next.state new := by
  rcases step_cases stepped with ⟨call, rfl, -, -, rfl⟩ | ⟨ns, changed, full, rfl, rfl⟩ |
    ⟨ms, ns, ev, payload, rfl, rfl⟩ | ⟨message, rfl, -, -, rfl⟩ |
    ⟨stage, rfl, -, rfl⟩ | ⟨stage, jMsg, rfl, -, rfl⟩
  · exact ⟨[], (List.append_nil _).symm, carryAdverts_of_count rfl⟩
  · exact ⟨_, rfl, carryAdverts_of_count (countCapabilities_sendJMSG (by decide))⟩
  · exact ⟨_, rfl, carryAdverts_of_count (countCapabilities_sendJMSG (by decide))⟩
  · refine ⟨_, rfl, ?_⟩
    obtain ⟨partyId, groupId, same⟩ := @onReceive_state library beyondInt run.state message
    have carried := @onReceive_carryAdverts library beyondInt run.state message
    rw [ModuleRun.afterRegister, same]
    exact carried
  · refine ⟨_, rfl, ?_⟩
    cases stage with
    | send => exact carryAdverts_sendCapabilities run.state
    | _ => exact carryAdverts_of_count rfl
  · refine ⟨_, rfl, ?_⟩
    cases stage with
    | send => exact carryAdverts_sendCapabilities run.state
    | forward => exact carryAdverts_of_count (countCapabilities_forward jMsg)
    | _ => exact carryAdverts_of_count rfl

/-- What a module sends as its adverts are those it has accepted last, with their hash. -/
theorem sentAdverts_current (library : JsonLibrary) (beyondInt : Double → Int32)
    (empty : library.parse [] = none) (instanceTimeStamp : Int64) (events : List ModuleEvent)
    (run next : ModuleRun) (event : ModuleEvent)
    (reaches : Reaches library beyondInt instanceTimeStamp events run)
    (stepped : run.step library beyondInt event = some next) :
    ∃ new, next.outputs = run.outputs ++ new ∧
      ∀ envelope, .message envelope ∈ new →
        envelope.andruavMessageId = typeModuleCapabilities →
          envelope.cmd = advertsRecord (currentAdverts library (events ++ [event])) := by
  have stored := Reaches.adverts empty (Run.snoc reaches stepped)
  obtain ⟨new, same, carried⟩ := step_carryAdverts stepped
  refine ⟨new, same, fun envelope sent adverts => ?_⟩
  rw [carried envelope sent adverts, advertsRecord_eq, ← stored]

theorem sentAdverts_current_camera :
    ∃ run new, cameraRun.outputs = (run : ModuleRun).outputs ++ new ∧
      ∀ envelope, .message envelope ∈ new →
        envelope.andruavMessageId = typeModuleCapabilities →
          envelope.cmd = advertsRecord (currentAdverts registrationLibrary cameraEvents) := by
  have reaches : Reaches registrationLibrary (fun _ => 0) 0
      (cameraEvents.dropLast ++ [.onReceive "request".toList]) cameraRun :=
    cameraRun_reaches
  obtain ⟨before, earlier, last⟩ := Run.last reaches
  obtain ⟨new, same, current⟩ := sentAdverts_current registrationLibrary (fun _ => 0)
    (by decide +kernel) 0 _ before cameraRun _ earlier last
  exact ⟨before, new, same, current⟩

end Adverts

section IdMessage

variable {library : JsonLibrary} {beyondInt : Double → Int32} {state : ModuleState}

theorem lookup_overridden_none {extra : List (String × Json)} {key : String}
    (absent : extra.lookup key = none) (base : List (String × Json)) :
    (extra.foldl (fun ms entry => Json.insertMember entry.1 entry.2 ms) base).lookup key =
      base.lookup key := by
  induction extra generalizing base with
  | nil => rfl
  | cons entry rest ih =>
      obtain ⟨found, value⟩ := entry
      rw [Json.lookup_cons_eq_ite] at absent
      split at absent
      · cases absent
      · rename_i apart
        rw [List.foldl_cons, ih absent, Json.lookup_insertMember, if_neg apart]

/-- An extra field overrides a field of the record. -/
theorem lookup_overridden {extra : List (String × Json)} {key : String} {value : Json}
    (sorted : Json.Sorted extra) (present : extra.lookup key = some value)
    (base : List (String × Json)) :
    (extra.foldl (fun ms entry => Json.insertMember entry.1 entry.2 ms) base).lookup key =
      some value := by
  induction extra generalizing base with
  | nil => cases present
  | cons entry rest ih =>
      have behind : rest.lookup entry.1 = none := Json.lookup_tail sorted
      have sortedRest : Json.Sorted rest := (List.pairwise_cons.mp sorted).2
      obtain ⟨found, old⟩ := entry
      rw [Json.lookup_cons_eq_ite] at present
      rw [List.foldl_cons]
      split at present
      · rename_i same
        subst same
        obtain rfl := Option.some.inj present
        rw [lookup_overridden_none behind, Json.lookup_insertMember, if_pos rfl]
      · exact ih sortedRest present _

/-- The types that a module with adverts wants to receive are in a filter. -/
def Subscribes (beyondInt : Double → Int32) (filter : List Json) : Prop :=
  ∀ msgId ∈ [typeModuleCapabilities, typeCapabilityInvoke],
    filter.any (ModuleState.isFilterEntry beyondInt msgId) = true

/-- An ID message tells the hash, and asks for the types. -/
def Announces (beyondInt : Double → Int32) (hash : String) (document : Json) : Prop :=
  ∃ ms, document.member? "ms" = some ms ∧ ms.member? "ch" = some (.string hash) ∧
    ∃ filter, ms.member? "c" = some (.array filter) ∧ Subscribes beyondInt filter

/-- The extra fields leave the filter of the ID message alone. -/
structure FieldsKept (state : ModuleState) : Prop where
  sorted : Json.Sorted state.stdinValues
  filterOwn : state.stdinValues.lookup "c" = none
  unsent : state.started = false → state.jsonId = none

/-- The fields from which the ID message is made tell the hash and ask for the types. -/
structure Prepared (beyondInt : Double → Int32) (hash : String) (state : ModuleState) : Prop where
  hashed : state.stdinValues.lookup "ch" = some (.string hash)
  subscribed : ∃ filter, state.messageFilter = .array filter ∧ Subscribes beyondInt filter

/-- The ID message of the client does. -/
def Told (beyondInt : Double → Int32) (hash : String) (state : ModuleState) : Prop :=
  ∀ document, state.jsonId = some document → Announces beyondInt hash document

/-- How far a module is with adverts that it has taken over. -/
def Carries (beyondInt : Double → Int32) (hash : String) (run : ModuleRun) : Prop :=
  match run.publishing with
  | some .appendHash => True
  | some .addRequests => run.state.stdinValues.lookup "ch" = some (.string hash)
  | some .addInvokes =>
      run.state.stdinValues.lookup "ch" = some (.string hash) ∧
        run.state.filterEntries.any
          (ModuleState.isFilterEntry beyondInt typeModuleCapabilities) = true
  | some .refresh => Prepared beyondInt hash run.state
  | some (.store jsonId) =>
      Prepared beyondInt hash run.state ∧ Announces beyondInt hash jsonId
  | some .check | some .claim | some .send | none =>
      Prepared beyondInt hash run.state ∧ Told beyondInt hash run.state

theorem announces_createJSONID {hash : String} (kept : FieldsKept state)
    (prepared : Prepared beyondInt hash state) (reSend : Bool) :
    Announces beyondInt hash (state.createJSONID reSend) := by
  obtain ⟨filter, isFilter, subscribes⟩ := prepared.subscribed
  refine ⟨_, rfl, lookup_overridden kept.sorted prepared.hashed _, filter, ?_, subscribes⟩
  have own : (state.idRecord reSend).lookup "c" = some state.messageFilter :=
    lookup_overridden_none kept.filterOwn _
  rw [← isFilter]
  exact own

theorem isFilterEntry_own (msgId : Int32) :
    ModuleState.isFilterEntry beyondInt msgId (.numberInteger msgId.toInt64) = true := by
  simp [ModuleState.isFilterEntry, Json.isNumber, Json.getInt, Except.toOption]

/-- Adding a type to the filter keeps the other entries. -/
theorem capAddToFilter_filter (state : ModuleState) (msgId : Int32) :
    ∃ filter, (state.capAddToFilter beyondInt msgId).messageFilter = .array filter ∧
      filter.any (ModuleState.isFilterEntry beyondInt msgId) = true ∧
      ∀ e ∈ state.filterEntries, e ∈ filter := by
  refine ⟨_, rfl, ?_, ?_⟩
  · split
    · assumption
    · simp [isFilterEntry_own]
  · intro e listed
    split
    · exact listed
    · exact List.mem_append_left _ listed

theorem FieldsKept.appendExtraField (kept : FieldsKept state) {name : String}
    (other : name ≠ "c") (ms : Json) : FieldsKept (state.appendExtraField name ms) where
  sorted := kept.sorted.insertMember name ms
  filterOwn := by
    have apart : "c" ≠ name := other.symm
    rw [ModuleState.appendExtraField, Json.lookup_insertMember, if_neg apart]
    exact kept.filterOwn
  unsent := kept.unsent

/-- What a step may do to a module with adverts: an extra field is not named as a field
that they need, the module is not defined again, and the receive thread hands over no ID
message that was made from other fields than the module has. -/
def KeepsAdverts (run : ModuleRun) : ModuleEvent → Prop
  | .call (.appendExtraField name _) => name ≠ "ch" ∧ name ≠ "c"
  | .call (.defineModule _ _ _ _ _) => run.state.capabilityHash = ""
  | .register =>
      ∀ jsonId jMsg, run.registering = some (.store jsonId, jMsg) →
        jsonId = run.state.createJSONID false
  | _ => True

theorem FieldsKept.step {run next : ModuleRun} {event : ModuleEvent}
    (kept : FieldsKept run.state) (startedFirst : StartedFirst run)
    (stepped : run.step library beyondInt event = some next)
    (keeps : KeepsAdverts run event) : FieldsKept next.state := by
  rcases step_cases stepped with ⟨call, rfl, -, -, rfl⟩ | ⟨ns, changed, full, rfl, rfl⟩ |
    ⟨ms, ns, ev, payload, rfl, rfl⟩ | ⟨message, rfl, -, -, rfl⟩ |
    ⟨stage, rfl, reached, rfl⟩ | ⟨stage, jMsg, rfl, reached, rfl⟩
  · cases call with
    | appendExtraField name ms => exact kept.appendExtraField keeps.2 ms
    | startTransport => exact ⟨kept.sorted, kept.filterOwn, fun stopped => by cases stopped⟩
    | setCapabilities memory adverts =>
        dsimp only
        rw [ModuleState.take]
        rcases @setCapabilities_cases library run.state memory adverts with
          ⟨-, same⟩ | ⟨parsed, -, same⟩ <;>
        · rw [same]
          exact ⟨kept.sorted, kept.filterOwn, kept.unsent⟩
    | _ => exact ⟨kept.sorted, kept.filterOwn, kept.unsent⟩
  · exact kept
  · exact ⟨kept.sorted, kept.filterOwn, kept.unsent⟩
  · obtain ⟨partyId, groupId, same⟩ := @onReceive_state library beyondInt run.state message
    rw [ModuleRun.afterRegister, same]
    exact ⟨kept.sorted, kept.filterOwn, kept.unsent⟩
  · cases stage with
    | appendHash => exact kept.appendExtraField (by decide) _
    | store jsonId =>
        have started := startedFirst.transmits (by rw [reached]; rfl)
        refine ⟨kept.sorted, kept.filterOwn, fun stopped => ?_⟩
        rw [show run.state.started = false from stopped] at started
        cases started
    | _ => exact ⟨kept.sorted, kept.filterOwn, kept.unsent⟩
  · have going : run.registering ≠ none := by simp [reached]
    have started := startedFirst.registering going
    cases stage with
    | store jsonId =>
        refine ⟨kept.sorted, kept.filterOwn, fun stopped => ?_⟩
        rw [show run.state.started = false from stopped] at started
        cases started
    | _ => exact ⟨kept.sorted, kept.filterOwn, kept.unsent⟩

/-- A call that brings no adverts leaves a module with what it has for them. -/
theorem Carries.call {hash : String} {run : ModuleRun} {call : Call}
    (carries : Carries beyondInt hash run) (kept : FieldsKept run.state)
    (free : run.publishing = none) (refused : (ModuleEvent.call call).accepted? library = none)
    (keeps : KeepsAdverts run (.call call)) (given : run.state.capabilityHash ≠ "") :
    Carries beyondInt hash
      { run with
        state := (run.state.take library call).1
        publishing := (run.state.take library call).2 } := by
  unfold Carries at carries
  rw [free] at carries
  obtain ⟨prepared, told⟩ := carries
  cases call with
  | defineModule cls id key version filter => exact absurd keeps given
  | appendExtraField name ms =>
      have apart : "ch" ≠ name := keeps.1.symm
      refine ⟨⟨?_, prepared.subscribed⟩, told⟩
      dsimp only
      rw [ModuleState.take, ModuleState.appendExtraField, Json.lookup_insertMember, if_neg apart]
      exact prepared.hashed
  | startTransport =>
      refine ⟨⟨prepared.hashed, prepared.subscribed⟩, ?_⟩
      rintro document created
      obtain rfl := Option.some.inj created
      exact announces_createJSONID kept prepared true
  | setCapabilities memory adverts =>
      rw [ModuleState.take]
      rcases @setCapabilities_cases library run.state memory adverts with
        ⟨-, same⟩ | ⟨parsed, accepted, -⟩
      · rw [same]
        exact ⟨prepared, told⟩
      · rw [ModuleEvent.accepted?, if_pos accepted] at refused
        cases refused
  | _ => exact ⟨⟨prepared.hashed, prepared.subscribed⟩, told⟩

/-- Each stage of `setCapabilities` brings a module further. -/
theorem Carries.publish {hash : String} {run : ModuleRun} {stage : PublishStage}
    (carries : Carries beyondInt hash run) (kept : FieldsKept run.state)
    (startedFirst : StartedFirst run) (reached : run.publishing = some stage)
    (given : run.state.capabilityHash = hash) :
    Carries beyondInt hash (run.afterPublish (run.state.publish beyondInt stage)) := by
  unfold Carries at carries
  rw [reached] at carries
  cases stage with
  | appendHash =>
      show (run.state.appendExtraField "ch" (.string run.state.capabilityHash)).stdinValues.lookup
        "ch" = _
      rw [ModuleState.appendExtraField, Json.lookup_insertMember, if_pos rfl, given]
  | addRequests =>
      obtain ⟨filter, isFilter, wanted, -⟩ :=
        @capAddToFilter_filter beyondInt run.state typeModuleCapabilities
      refine ⟨carries, ?_⟩
      show (run.state.capAddToFilter beyondInt typeModuleCapabilities).filterEntries.any _ = true
      rwa [ModuleState.filterEntries, isFilter]
  | addInvokes =>
      obtain ⟨hashed, wanted⟩ := carries
      obtain ⟨filter, isFilter, invokes, more⟩ :=
        @capAddToFilter_filter beyondInt run.state typeCapabilityInvoke
      refine ⟨hashed, filter, isFilter, ?_⟩
      intro msgId listed
      rcases List.mem_cons.mp listed with rfl | listed
      · rw [List.any_eq_true] at wanted ⊢
        obtain ⟨e, member, stands⟩ := wanted
        exact ⟨e, more e member, stands⟩
      · rw [List.mem_singleton.mp listed]
        exact invokes
  | refresh =>
      rcases publish_refresh beyondInt run.state with ⟨-, same⟩ | ⟨pending, same⟩
      · rw [same]
        exact ⟨carries, announces_createJSONID kept carries false⟩
      · -- the transport is not started as long as `init` is not done
        have running := startedFirst.publishing (by rw [reached]; nofun)
        have stopped : run.state.started = false := by
          cases started : run.state.started with
          | false => rfl
          | true => exact absurd (pending.symm.trans (running started)) nofun
        rw [same]
        refine ⟨carries, fun document created => ?_⟩
        exact absurd ((kept.unsent stopped).symm.trans created) nofun
  | store jsonId =>
      refine ⟨⟨carries.1.hashed, carries.1.subscribed⟩, fun document created => ?_⟩
      obtain rfl := Option.some.inj created
      exact carries.2
  | check =>
      rcases publish_check beyondInt run.state with ⟨-, -, -, same⟩ | ⟨-, same⟩ <;>
      · rw [same]
        exact carries
  | claim => exact ⟨⟨carries.1.hashed, carries.1.subscribed⟩, carries.2⟩
  | send => exact carries

/-- Other steps leave the fields of the ID message as they are. -/
theorem Carries.other {hash : String} {run next : ModuleRun}
    (carries : Carries beyondInt hash run) (samePublishing : next.publishing = run.publishing)
    (sameFields : next.state.stdinValues = run.state.stdinValues)
    (sameFilter : next.state.messageFilter = run.state.messageFilter)
    (told : Prepared beyondInt hash run.state → Told beyondInt hash run.state →
      Told beyondInt hash next.state) :
    Carries beyondInt hash next := by
  have prepared (before : Prepared beyondInt hash run.state) :
      Prepared beyondInt hash next.state :=
    ⟨sameFields ▸ before.hashed, sameFilter ▸ before.subscribed⟩
  have settled (before : Prepared beyondInt hash run.state ∧ Told beyondInt hash run.state) :
      Prepared beyondInt hash next.state ∧ Told beyondInt hash next.state :=
    ⟨prepared before.1, told before.1 before.2⟩
  unfold Carries at carries ⊢
  rw [samePublishing]
  cases publishing : run.publishing with
  | none =>
      rw [publishing] at carries
      exact settled carries
  | some stage =>
      rw [publishing] at carries
      cases stage with
      | appendHash => trivial
      | addRequests => exact sameFields ▸ carries
      | addInvokes =>
          unfold ModuleState.filterEntries at carries ⊢
          rw [sameFields, sameFilter]
          exact carries
      | refresh => exact prepared carries
      | store jsonId => exact ⟨prepared carries.1, carries.2⟩
      | check | claim | send => exact settled carries

/-- The receive thread hands over an ID message that is made from the fields as they are. -/
theorem Carries.register {hash : String} {run : ModuleRun} {stage : RegisterStage} {jMsg : Json}
    (carries : Carries beyondInt hash run) (kept : FieldsKept run.state)
    (reached : run.registering = some (stage, jMsg)) (keeps : KeepsAdverts run .register) :
    Carries beyondInt hash
      (run.afterRegister ((run.state.register jMsg stage).withMessage jMsg)) := by
  cases stage with
  | store jsonId =>
      refine carries.other rfl rfl rfl fun prepared _ document handed => ?_
      obtain rfl := Option.some.inj handed
      rw [keeps jsonId jMsg reached]
      exact announces_createJSONID kept prepared false
  | _ => exact carries.other rfl rfl rfl fun _ told => told

theorem Carries.step {hash : String} {run next : ModuleRun} {event : ModuleEvent}
    (carries : Carries beyondInt hash run) (kept : FieldsKept run.state)
    (startedFirst : StartedFirst run) (stepped : run.step library beyondInt event = some next)
    (keeps : KeepsAdverts run event) (refused : event.accepted? library = none)
    (given : run.state.capabilityHash = hash) (present : hash ≠ "") :
    Carries beyondInt hash next := by
  rcases step_cases stepped with ⟨call, rfl, free, -, rfl⟩ | ⟨ns, changed, full, rfl, rfl⟩ |
    ⟨ms, ns, ev, payload, rfl, rfl⟩ | ⟨message, rfl, -, -, rfl⟩ |
    ⟨stage, rfl, reached, rfl⟩ | ⟨stage, jMsg, rfl, reached, rfl⟩
  · exact carries.call kept free refused keeps (given ▸ present)
  · exact carries.other rfl rfl rfl fun _ told => told
  · exact carries.other rfl rfl rfl fun _ told => told
  · obtain ⟨partyId, groupId, same⟩ := @onReceive_state library beyondInt run.state message
    rw [ModuleRun.afterRegister, same]
    exact carries.other rfl rfl rfl fun _ told => told
  · exact carries.publish kept startedFirst reached given
  · exact carries.register kept reached keeps

/-- Adverts that are accepted are the next thing to be carried. -/
theorem carries_of_accepted {run next : ModuleRun} {event : ModuleEvent} {adverts : List String}
    (stepped : run.step library beyondInt event = some next)
    (accepted : event.accepted? library = some adverts) (hash : String) :
    Carries beyondInt hash next := by
  rcases step_cases stepped with ⟨call, rfl, free, -, rfl⟩ | ⟨ns, changed, full, rfl, rfl⟩ |
    ⟨ms, ns, ev, payload, rfl, rfl⟩ | ⟨message, rfl, -, -, rfl⟩ |
    ⟨stage, rfl, reached, rfl⟩ | ⟨stage, jMsg, rfl, reached, rfl⟩
  · cases call with
    | setCapabilities memory given =>
        rw [ModuleState.take]
        rcases @setCapabilities_cases library run.state memory given with
          ⟨refused, -⟩ | ⟨parsed, -, same⟩
        · simp [ModuleEvent.accepted?, refused] at accepted
        · rw [same]
          trivial
    | _ => cases accepted
  all_goals cases accepted

theorem fieldsKept_of_run {events : List ModuleEvent} {instanceTimeStamp : Int64}
    {run : ModuleRun}
    (runWhere : RunWhere (ModuleRun.step library beyondInt) KeepsAdverts
      (.fresh instanceTimeStamp) events run) : FieldsKept run.state := by
  refine runWhere.invariant (fun run => FieldsKept run.state) ?_ ?_
  · exact ⟨.nil, rfl, fun _ => rfl⟩
  · intro events state next event earlier stepped keeps kept
    exact kept.step (Reaches.startedFirst earlier) stepped keeps

/-- As long as the steps leave the fields for them alone, and the receive thread hands over
no ID message made from other fields, the ID message of a module tells the hash of the
adverts it has accepted last and asks for requests and invokes, whenever the main thread is
not in `setCapabilities`. -/
theorem idMessage_announces (library : JsonLibrary) (beyondInt : Double → Int32)
    (empty : library.parse [] = none) (instanceTimeStamp : Int64) (events : List ModuleEvent)
    (run : ModuleRun)
    (runWhere : RunWhere (ModuleRun.step library beyondInt) KeepsAdverts
      (.fresh instanceTimeStamp) events run)
    (idle : run.publishing = none) (adverts : List String)
    (current : currentAdverts library events = some adverts) (document : Json)
    (sent : run.state.jsonId = some document) :
    Announces beyondInt (advertsHash adverts) document := by
  have carries : Carries beyondInt (advertsHash adverts) run := by
    clear sent idle
    induction runWhere generalizing adverts with
    | nil => cases current
    | @snoc events run next event earlier stepped keeps ih =>
        rw [currentAdverts_snoc] at current
        cases taken : event.accepted? library with
        | some given => exact carries_of_accepted stepped taken _
        | none =>
            rw [taken, Option.none_or] at current
            have stored := Reaches.adverts empty earlier.run
            rw [current] at stored
            exact (ih adverts current).step (fieldsKept_of_run earlier)
              (Reaches.startedFirst earlier.run) stepped keeps taken (Prod.mk.inj stored).2
              (advertsHash_ne_empty adverts)
  unfold Carries at carries
  rw [idle] at carries
  exact carries.2 document sent

/-- The receive thread hands over what it has made in the step before. -/
theorem handOver_keeps {events : List ModuleEvent} {start run : ModuleRun} {jMsg : Json}
    (runWhere : RunWhere (ModuleRun.step library beyondInt) KeepsAdverts start events run)
    (reached : run.registering = some (.refresh, jMsg)) :
    RunWhere (ModuleRun.step library beyondInt) KeepsAdverts start
      (events ++ [.register] ++ [.register])
      ((run.advance library beyondInt .register).advance library beyondInt .register) := by
  have made : run.advance library beyondInt .register =
      run.afterRegister ((run.state.register jMsg .refresh).withMessage jMsg) := by
    simp only [ModuleRun.advance, reached]
  refine (runWhere.snoc (step_eq_some_iff.mpr ⟨?_, rfl⟩) ?_).snoc
    (step_eq_some_iff.mpr ⟨?_, rfl⟩) ?_
  · rw [ModuleRun.permits, reached]
    rfl
  · intro jsonId jMsg stored
    rw [reached] at stored
    cases stored
  · rw [made]
    rfl
  · rw [made]
    rintro jsonId jMsg ⟨⟩
    rfl

/-- A test for what a module with adverts needs, which no ID message handed over passes. -/
def keepsAdverts (run : ModuleRun) : ModuleEvent → Bool
  | .call (.appendExtraField name _) => name != "ch" && name != "c"
  | .call (.defineModule _ _ _ _ _) => run.state.capabilityHash == ""
  | .register =>
      match run.registering with
      | some (.store _, _) => false
      | _ => true
  | _ => true

theorem keepsAdverts_sound {run : ModuleRun} {event : ModuleEvent}
    (passed : keepsAdverts run event = true) : KeepsAdverts run event := by
  cases event with
  | call call =>
      cases call with
      | appendExtraField name ms => simpa [keepsAdverts, KeepsAdverts] using passed
      | defineModule => simpa [keepsAdverts, KeepsAdverts] using passed
      | _ => trivial
  | register =>
      intro jsonId jMsg stored
      simp [keepsAdverts, stored] at passed
  | _ => trivial

/-- The camera's module when the reply has come. -/
def cameraReplied : Option ModuleRun :=
  (cameraEvents.take 5).foldlM (fun run event =>
    if keepsAdverts run event then
      ModuleRun.step registrationLibrary (fun _ => 0) run event
    else none) (.fresh 0)

theorem cameraRun_keeps :
    RunWhere (ModuleRun.step registrationLibrary fun _ => 0) KeepsAdverts (.fresh 0)
      cameraEvents cameraRun := by
  have opened : cameraReplied.isSome = true := by decide +kernel
  have refreshing : (cameraReplied.getD (.fresh 0)).registering.any
      (fun stage => match stage.1 with | .refresh => true | _ => false) = true := by
    decide +kernel
  have closed : ((cameraEvents.drop 7).foldlM (fun run event =>
      if keepsAdverts run event then
        ModuleRun.step registrationLibrary (fun _ => 0) run event
      else none)
      (((cameraReplied.getD (.fresh 0)).advance registrationLibrary (fun _ => 0)
        .register).advance registrationLibrary (fun _ => 0) .register)).isSome = true := by
    decide +kernel
  obtain ⟨run, replied⟩ := Option.isSome_iff_exists.mp opened
  rw [replied, Option.getD_some] at refreshing closed
  have told := RunWhere.nil.extend keepsAdverts_sound replied
  obtain ⟨jMsg, reached⟩ : ∃ jMsg, run.registering = some (.refresh, jMsg) := by
    generalize run.registering = registering at refreshing
    match registering, refreshing with
    | some (.refresh, jMsg), _ => exact ⟨jMsg, rfl⟩
  obtain ⟨last, found⟩ := Option.isSome_iff_exists.mp closed
  have runWhere := (handOver_keeps told reached).extend keepsAdverts_sound found
  have same : some cameraRun = some last := by
    rw [← cameraRun_reaches.foldlM_eq]
    exact runWhere.run.foldlM_eq
  rw [Option.some.inj same]
  exact runWhere

theorem idMessage_announces_camera :
    ∃ document, cameraRun.state.jsonId = some document ∧
      Announces (fun _ => 0) (advertsHash [cameraText]) document := by
  have told : cameraRun.state.jsonId.isSome = true := by decide +kernel
  have idle : cameraRun.publishing = none := Option.isNone_iff_eq_none.mp (by decide +kernel)
  obtain ⟨document, sent⟩ := Option.isSome_iff_exists.mp told
  exact ⟨document, sent, idMessage_announces registrationLibrary (fun _ => 0) (by decide +kernel)
    0 cameraEvents cameraRun cameraRun_keeps idle [cameraText] (by decide +kernel) document sent⟩

/-- The receive thread hands over an ID message that it made before the adverts were
taken over. -/
def lateEvents : List ModuleEvent :=
  [ .call (.defineModule "camera" "CAM" "k1" "1.0" (.array [])), .call .startTransport,
    .call .finishInit, .onReceive "reply".toList, .register,
    .call (.setCapabilities ⟨.replicate 8 0, 0, .replicate 64 0, 0⟩ [cameraText]) ] ++
  .replicate 8 .publish ++ .replicate 4 .register

example : ((lateEvents.foldlM (ModuleRun.step registrationLibrary fun _ => 0)
    (.fresh 0)).map fun run => (run.publishing.isNone && run.registering.isNone,
      (run.state.jsonId.bind (·.member? "ms")).map fun ms => (ms.member? "ch").isSome)) =
    some (true, some false) := by
  decide +kernel

end IdMessage

end DroneEngage.ModuleBus
