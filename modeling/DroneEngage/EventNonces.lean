import DroneEngage.IntegerText
import DroneEngage.ModulePublication

/-!
# Nonces of events

The receiver of an event drops one that it has seen, by sender, event and nonce.  The clock
in a nonce may stand still or be set back, but the counter behind it tells the events of
one module apart.
-/

namespace DroneEngage.ModuleBus

open EventRuns

/-- The nonce in an event that goes out. -/
def Output.firedNonce : Output → Option String
  | .message envelope =>
      if envelope.andruavMessageId = typeSyncEventFire then stringField envelope.cmd "n" else none
  | _ => none

section Text

/-- A text is cut at the first separator in one way. -/
theorem cut_unique {separator : Char} {left left' right right' : List Char}
    (absent : separator ∉ left) (absent' : separator ∉ left')
    (same : left ++ separator :: right = left' ++ separator :: right') :
    left = left' ∧ right = right' := by
  induction left generalizing left' with
  | nil =>
      cases left' with
      | nil => exact ⟨rfl, (List.cons.inj same).2⟩
      | cons first rest =>
          obtain ⟨rfl, -⟩ := List.cons.inj same
          exact absurd List.mem_cons_self absent'
  | cons first rest ih =>
      cases left' with
      | nil =>
          obtain ⟨rfl, -⟩ := List.cons.inj same
          exact absurd List.mem_cons_self absent
      | cons first' rest' =>
          obtain ⟨rfl, sameRest⟩ := List.cons.inj same
          obtain ⟨rfl, sameRight⟩ := ih (fun member => absent (List.mem_cons_of_mem _ member))
            (fun member => absent' (List.mem_cons_of_mem _ member)) sameRest
          exact ⟨rfl, sameRight⟩

theorem dash_notMem_toDigits (n : Nat) : '-' ∉ Nat.toDigits 10 n := by
  intro member
  have digit := IntegerText.isDigitOf_of_mem_toDigits (by decide) (by decide) member
  exact absurd digit (by decide)

/-- The counter can be read off a nonce. -/
theorem nextNonce_inj {first second : ModuleState} {ms ms' : UInt64}
    (same : first.nextNonce ms = second.nextNonce ms') :
    first.eventCounter = second.eventCounter := by
  have texts := String.ofList_injective same
  obtain ⟨-, counters⟩ := cut_unique (dash_notMem_toDigits _) (dash_notMem_toDigits _) texts
  have values := congrArg (IntegerText.digitsValue 10) counters
  rw [IntegerText.digitsValue_toDigits (by decide) (by decide),
    IntegerText.digitsValue_toDigits (by decide) (by decide)] at values
  exact (UInt64.add_left_inj 1).mp (UInt64.toNat_inj.mp values)

end Text

section Runs

variable {library : JsonLibrary} {beyondInt : Double → Int32} {state : ModuleState}
  {events : List ModuleEvent} {run next : ModuleRun} {event : ModuleEvent}

theorem firedNonce_sendJMSG {cmd : Json} {andruavMessageId : Int32}
    (other : andruavMessageId ≠ typeSyncEventFire) :
    (state.sendJMSG cmd andruavMessageId).filterMap Output.firedNonce = [] := by
  unfold ModuleState.sendJMSG
  split
  · simp [Output.firedNonce, other]
  · rfl

theorem firedNonce_forward (jMsg : Json) :
    (state.forward jMsg).filterMap Output.firedNonce = [] := by
  unfold ModuleState.forward
  split <;> rfl

theorem firedNonce_sendCapabilities :
    state.sendCapabilities.filterMap Output.firedNonce = [] :=
  firedNonce_sendJMSG (by decide)

theorem firedNonce_onReceive (message : List Char) :
    (state.onReceive library beyondInt message).outputs.filterMap Output.firedNonce = [] := by
  rcases @onReceive_cases library beyondInt state message with
    ⟨-, same⟩ | ⟨jMsg, taken, -, same⟩
  · rw [same]
    rfl
  · rw [same]
    cases taken with
    | partyRecord sd gr => cases gr <;> rfl
    | capabilityRequest r =>
        cases r with
        | false => rfl
        | true => exact firedNonce_sendCapabilities
    | other => exact firedNonce_forward jMsg
    | _ => rfl

/-- A step fires no event, or counts the one it fires and sends its nonce once the module
runs. -/
theorem step_fires (stepped : run.step library beyondInt event = some next) :
    (next.nonces = run.nonces ∧ next.state.eventCounter = run.state.eventCounter ∧
      next.outputs.filterMap Output.firedNonce = run.outputs.filterMap Output.firedNonce) ∨
    ∃ ms, next.nonces = run.nonces ++ [run.state.nextNonce ms] ∧
      next.state.eventCounter = run.state.eventCounter + 1 ∧
      ∃ sent, next.outputs.filterMap Output.firedNonce =
          run.outputs.filterMap Output.firedNonce ++ sent ∧
        sent.Sublist [run.state.nextNonce ms] := by
  rcases step_cases stepped with ⟨call, rfl, -, -, rfl⟩ | ⟨ns, changed, full, rfl, rfl⟩ |
    ⟨ms, ns, ev, payload, rfl, rfl⟩ | ⟨message, rfl, -, -, rfl⟩ |
    ⟨stage, rfl, -, rfl⟩ | ⟨stage, jMsg, rfl, -, rfl⟩
  · exact .inl ⟨rfl, (take_keeps call).2.2.2, rfl⟩
  · refine .inl ⟨rfl, rfl, ?_⟩
    rw [List.filterMap_append, ModuleState.publishState, firedNonce_sendJMSG (by decide),
      List.append_nil]
  · refine .inr ⟨ms, rfl, rfl, _, List.filterMap_append, ?_⟩
    unfold ModuleState.fireEvent ModuleState.sendJMSG
    dsimp only
    split
    · exact .refl _
    · exact List.nil_sublist _
  · obtain ⟨partyId, groupId, same⟩ := @onReceive_state library beyondInt run.state message
    refine .inl ⟨rfl, ?_, ?_⟩
    · rw [ModuleRun.afterRegister, same]
    · rw [ModuleRun.afterRegister, List.filterMap_append, firedNonce_onReceive, List.append_nil]
  · refine .inl ⟨rfl, by cases stage <;> rfl, ?_⟩
    rw [ModuleRun.afterPublish, List.filterMap_append]
    cases stage with
    | send => rw [ModuleState.publish, firedNonce_sendCapabilities, List.append_nil]
    | _ => exact List.append_nil _
  · refine .inl ⟨rfl, by cases stage <;> rfl, ?_⟩
    rw [ModuleRun.afterRegister, List.filterMap_append]
    cases stage with
    | send =>
        rw [ModuleState.register, Progress.withMessage, firedNonce_sendCapabilities,
          List.append_nil]
    | forward =>
        rw [ModuleState.register, Progress.withMessage, firedNonce_forward, List.append_nil]
    | _ => exact List.append_nil _

/-- The nonces carry the counter, which is as high as their number. -/
structure Counted (run : ModuleRun) : Prop where
  counter : run.state.eventCounter = UInt64.ofNat run.nonces.length
  each : ∀ i nonce, run.nonces[i]? = some nonce →
    ∃ (state : ModuleState) (ms : UInt64), nonce = state.nextNonce ms ∧
      state.eventCounter = UInt64.ofNat i
  sent : (run.outputs.filterMap Output.firedNonce).Sublist run.nonces

theorem Counted.step (counted : Counted run)
    (stepped : run.step library beyondInt event = some next) : Counted next := by
  rcases step_fires stepped with
    ⟨sameNonces, sameCounter, sameSent⟩ | ⟨ms, nonces, counter, new, sent, within⟩
  · constructor
    · rw [sameCounter, sameNonces]
      exact counted.counter
    · rw [sameNonces]
      exact counted.each
    · rw [sameSent, sameNonces]
      exact counted.sent
  · constructor
    · rw [counter, counted.counter, nonces, List.length_append, UInt64.ofNat_add]
      rfl
    · intro i nonce found
      rw [nonces, List.getElem?_append] at found
      split at found
      · exact counted.each i nonce found
      · obtain ⟨inside, rfl⟩ := List.getElem?_eq_some_iff.mp found
        have first : i - run.nonces.length = 0 := Nat.lt_one_iff.mp inside
        have place : i = run.nonces.length := by omega
        refine ⟨run.state, ms, ?_, ?_⟩
        · simp
        · rw [place, counted.counter]
    · rw [sent, nonces]
      exact counted.sent.append within

/-- Whatever the clock shows, the nonces of up to `2 ^ 64` events of a module are
different, those that it returns and those that it sends. -/
theorem nonces_nodup (instanceTimeStamp : Int64) (events : List ModuleEvent) (run : ModuleRun)
    (reaches : Reaches library beyondInt instanceTimeStamp events run)
    (few : run.nonces.length ≤ 2 ^ 64) :
    run.nonces.Nodup ∧ (run.outputs.filterMap Output.firedNonce).Nodup := by
  have counted : Counted run := by
    refine Run.invariant reaches Counted ?_ fun _ stepped counted => counted.step stepped
    exact ⟨rfl, nofun, .slnil⟩
  have different : run.nonces.Nodup := by
    rw [List.nodup_iff_getElem?_ne_getElem?]
    intro i j before within same
    obtain ⟨nonce, found⟩ : ∃ nonce, run.nonces[j]? = some nonce :=
      ⟨_, List.getElem?_eq_getElem within⟩
    obtain ⟨first, ms, rfl, firstCounter⟩ := counted.each i nonce (same.trans found)
    obtain ⟨second, ms', sameNonce, secondCounter⟩ := counted.each j _ found
    have counters := nextNonce_inj sameNonce
    rw [firstCounter, secondCounter] at counters
    have values := congrArg UInt64.toNat counters
    rw [UInt64.toNat_ofNat', UInt64.toNat_ofNat', Nat.mod_eq_of_lt (by omega),
      Nat.mod_eq_of_lt (by omega)] at values
    omega
  exact ⟨different, counted.sent.nodup different⟩

theorem nonces_nodup_camera :
    cameraRun.nonces.Nodup ∧ (cameraRun.outputs.filterMap Output.firedNonce).Nodup :=
  nonces_nodup 0 cameraEvents cameraRun cameraRun_reaches (by decide +kernel)

end Runs

end DroneEngage.ModuleBus
