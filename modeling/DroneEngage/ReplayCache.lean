import DroneEngage.BoundedQueues
import DroneEngage.CapabilityIdempotency
import DroneEngage.JsonObjects

/-!
# The cache of results

The order of the ids is a queue of at most 64 of them, and there is a result for
exactly the ids in it.  So the result of an id is kept, and is the last one cached
for it, until 64 further ids have been cached.
-/

namespace DroneEngage.Capabilities

open BoundedQueues

namespace InvokeTables

def cacheAll (tables : InvokeTables) (calls : List (String × Json)) : InvokeTables :=
  calls.foldl (fun tables call => tables.cacheInvokeResult call.1 call.2) tables

/-- The ids that had no result when one was cached for them. -/
def freshIds : InvokeTables → List (String × Json) → List String
  | _, [] => []
  | tables, (id, result) :: calls =>
      (if (tables.results.lookup id).isNone then [id] else []) ++
        freshIds (tables.cacheInvokeResult id result) calls

/-- The result cached last for an id that already has one. -/
def lastResult (id : String) (result : Json) (calls : List (String × Json)) : Json :=
  calls.foldl (fun last call => if call.1 = id then call.2 else last) result

/-- The order and the results list the same ids, at most 64 and each once. -/
structure InStep (tables : InvokeTables) : Prop where
  distinct : tables.order.Nodup
  bounded : tables.order.length ≤ 64
  keys : ∀ id, id ∈ tables.order ↔ id ∈ tables.results.map Prod.fst
  sorted : Json.Sorted tables.results

variable {tables : InvokeTables} {id other : String} {result : Json}

theorem InStep.empty : InStep empty where
  distinct := List.nodup_nil
  bounded := Nat.zero_le 64
  keys := by simp [InvokeTables.empty]
  sorted := List.Pairwise.nil

theorem InStep.proper (inStep : tables.InStep) : Proper 64 tables.order :=
  ⟨inStep.distinct, inStep.bounded⟩

theorem lookup_isNone_iff {entries : List (String × Json)} :
    (entries.lookup id).isNone = true ↔ id ∉ entries.map Prod.fst := by
  rw [Option.isNone_iff_eq_none, List.lookup_eq_none_iff]
  constructor
  · intro apart listed
    obtain ⟨entry, member, rfl⟩ := List.mem_map.mp listed
    exact bne_iff_ne.mp (apart entry member) rfl
  · intro unlisted entry member
    exact bne_iff_ne.mpr fun same => unlisted (same ▸ List.mem_map_of_mem member)

theorem InStep.isNone_iff (inStep : tables.InStep) (id : String) :
    (tables.results.lookup id).isNone = true ↔ id ∉ tables.order := by
  rw [inStep.keys id, lookup_isNone_iff]

theorem lookup_filter_keys (keeps : String → Bool) (entries : List (String × Json))
    (key : String) :
    (entries.filter fun entry => keeps entry.1).lookup key =
      if keeps key then entries.lookup key else none := by
  induction entries with
  | nil => simp
  | cons entry rest ih =>
      obtain ⟨found, value⟩ := entry
      rw [List.filter_cons, List.lookup_cons]
      by_cases here : key = found
      · subst here
        by_cases kept : keeps key = true <;> simp [kept, ih]
      · rw [beq_false_of_ne here]
        by_cases kept : keeps found = true
        · rw [if_pos kept, List.lookup_cons, beq_false_of_ne here]
          exact ih
        · rw [if_neg kept]
          exact ih

theorem evict_eq_drop (order : List String) (results : List (String × Json)) :
    evict order results =
      (order.drop (order.length - 64),
        results.filter fun entry => entry.1 ∉ order.take (order.length - 64)) := by
  induction order generalizing results with
  | nil => simp [evict]
  | cons front rest ih =>
      rw [evict]
      by_cases many : 64 < (front :: rest).length
      · have leaving : (front :: rest).length - 64 = (rest.length - 64) + 1 := by
          rw [List.length_cons] at many ⊢
          omega
        rw [if_pos many, ih, leaving, List.drop_succ_cons, List.take_succ_cons,
          List.filter_filter]
        congr 1
        apply List.filter_congr
        intro entry _
        rw [Bool.eq_iff_iff]
        simp [and_comm]
      · have few : (front :: rest).length - 64 = 0 := by omega
        rw [if_neg many, few]
        simp

theorem InStep.order_cacheInvokeResult (inStep : tables.InStep) (id : String) (result : Json) :
    (tables.cacheInvokeResult id result).order = enqueue 64 tables.order id := by
  have fresh := inStep.isNone_iff id
  rw [cacheInvokeResult, enqueue, evict_eq_drop]
  by_cases waiting : id ∈ tables.order
  · have few : tables.order.length - 64 = 0 := Nat.sub_eq_zero_of_le inStep.bounded
    simp [fresh, waiting, few]
  · simp [fresh, waiting]

theorem InStep.results_cacheInvokeResult (inStep : tables.InStep) (id : String)
    (result : Json) :
    ∃ leaving : List String, (tables.cacheInvokeResult id result).results =
        (Json.insertMember id result tables.results).filter (fun entry => entry.1 ∉ leaving) ∧
      ∀ other, other ∈ enqueue 64 tables.order id ↔
        (other ∈ tables.order ∨ other = id) ∧ other ∉ leaving := by
  have fresh := inStep.isNone_iff id
  rw [cacheInvokeResult, evict_eq_drop]
  refine ⟨_, rfl, fun other => ?_⟩
  by_cases waiting : id ∈ tables.order
  · have few : tables.order.length - 64 = 0 := Nat.sub_eq_zero_of_le inStep.bounded
    have known : other = id → other ∈ tables.order := fun same => same ▸ waiting
    simpa [enqueue, fresh, waiting, few] using known
  · have distinct : (tables.order ++ [id]).Nodup := by
      simpa using inStep.distinct.concat waiting
    simp only [enqueue, fresh, waiting, not_false_eq_true, if_true, if_false]
    generalize (tables.order ++ [id]).length - 64 = leaving
    rw [← List.take_append_drop leaving (tables.order ++ [id])] at distinct
    have apart := List.disjoint_of_nodup_append distinct
    have split : other ∈ tables.order ∨ other = id ↔
        other ∈ (tables.order ++ [id]).take leaving ∨
          other ∈ (tables.order ++ [id]).drop leaving := by
      rw [← List.mem_append, List.take_append_drop, List.mem_append, List.mem_singleton]
    rw [split]
    constructor
    · intro stays
      exact ⟨.inr stays, fun leaves => apart leaves stays⟩
    · rintro ⟨known, stays⟩
      exact known.resolve_left stays

/-- Caching a result sets it, and drops those whose ids have left the queue. -/
theorem InStep.lookup_cacheInvokeResult (inStep : tables.InStep) (id : String)
    (result : Json) (other : String) :
    (tables.cacheInvokeResult id result).results.lookup other =
      if other ∈ enqueue 64 tables.order id then
        if other = id then some result else tables.results.lookup other
      else none := by
  obtain ⟨leaving, results, queue⟩ := inStep.results_cacheInvokeResult id result
  rw [results, lookup_filter_keys fun key => key ∉ leaving, Json.lookup_insertMember]
  have known := inStep.isNone_iff other
  rw [Option.isNone_iff_eq_none] at known
  simp only [decide_eq_true_eq, queue]
  by_cases waiting : other ∈ tables.order
  · by_cases leaves : other ∈ leaving <;> simp [waiting, leaves]
  · by_cases same : other = id
    · simp [same]
    · simp [waiting, same, known.mpr waiting]

theorem InStep.cacheInvokeResult (inStep : tables.InStep) (id : String) (result : Json) :
    (tables.cacheInvokeResult id result).InStep := by
  have proper := inStep.proper.enqueue id
  rw [← inStep.order_cacheInvokeResult id result] at proper
  refine ⟨proper.distinct, proper.bounded, fun other => ?_, ?_⟩
  · rw [← not_iff_not, ← lookup_isNone_iff, inStep.lookup_cacheInvokeResult,
      inStep.order_cacheInvokeResult]
    have known := inStep.isNone_iff other
    by_cases waiting : other ∈ enqueue 64 tables.order id
    · rcases mem_of_mem_enqueue waiting with old | rfl
      · by_cases same : other = id <;> simp [waiting, same, known, old]
      · simp [waiting]
    · simp [waiting]
  · obtain ⟨leaving, results, -⟩ := inStep.results_cacheInvokeResult id result
    rw [results]
    exact List.Pairwise.filter _ (inStep.sorted.insertMember id result)

theorem freshIds_eq (inStep : tables.InStep) (calls : List (String × Json)) :
    freshIds tables calls = BoundedQueues.joined 64 tables.order (calls.map Prod.fst) := by
  induction calls generalizing tables with
  | nil => rfl
  | cons call calls ih =>
      obtain ⟨id, result⟩ := call
      rw [freshIds, List.map_cons, BoundedQueues.joined, ih (inStep.cacheInvokeResult id result),
        inStep.order_cacheInvokeResult]
      by_cases waiting : id ∈ tables.order <;> simp [inStep.isNone_iff, waiting]

theorem InStep.cacheAll (inStep : tables.InStep) (calls : List (String × Json)) :
    (tables.cacheAll calls).InStep ∧
      (tables.cacheAll calls).order = enqueueAll 64 tables.order (calls.map Prod.fst) := by
  induction calls generalizing tables with
  | nil => exact ⟨inStep, rfl⟩
  | cons call calls ih =>
      have rest := ih (inStep.cacheInvokeResult call.1 call.2)
      rw [inStep.order_cacheInvokeResult] at rest
      exact rest

/-- While an id stays in the queue, its result is the last one cached for it. -/
theorem InStep.lookup_cacheAll (inStep : tables.InStep) {calls : List (String × Json)}
    (found : tables.results.lookup id = some result)
    (stays : ∀ before after, calls = before ++ after → id ∈ (tables.cacheAll before).order) :
    (tables.cacheAll calls).results.lookup id = some (lastResult id result calls) := by
  induction calls generalizing tables result with
  | nil => exact found
  | cons call calls ih =>
      obtain ⟨other, latest⟩ := call
      have kept : id ∈ enqueue 64 tables.order other := by
        rw [← inStep.order_cacheInvokeResult]
        exact stays [(other, latest)] calls rfl
      have next := inStep.lookup_cacheInvokeResult other latest id
      rw [if_pos kept, found, ← apply_ite some] at next
      have rest := ih (inStep.cacheInvokeResult other latest) next
        fun before after same => stays ((other, latest) :: before) after (by simp [same])
      rw [lastResult, List.foldl_cons]
      simp only [@eq_comm _ other id]
      exact rest

/-- An id that has just got its first result keeps one until 64 further ids have been
cached that had none. -/
theorem InStep.lookup_of_few (inStep : tables.InStep) {calls : List (String × Json)}
    (fresh : tables.results.lookup id = none)
    (few : (freshIds (tables.cacheInvokeResult id result) calls).toFinset.card < 64) :
    ((tables.cacheInvokeResult id result).cacheAll calls).results.lookup id =
      some (lastResult id result calls) := by
  have unlisted : id ∉ tables.order := (inStep.isNone_iff id).mp (by rw [fresh]; rfl)
  have cached := inStep.cacheInvokeResult id result
  obtain ⟨older, back⟩ := enqueue_back unlisted (Nat.succ_pos 63)
  have order := inStep.order_cacheInvokeResult id result
  have found : (tables.cacheInvokeResult id result).results.lookup id = some result := by
    rw [inStep.lookup_cacheInvokeResult, back]
    simp
  apply cached.lookup_cacheAll found
  rintro before after rfl
  rw [(cached.cacheAll before).2, order, back]
  apply mem_enqueueAll_of_joined (by rw [← back, ← order]; exact cached.proper)
  rw [freshIds_eq cached, List.map_append, joined_append, order, back] at few
  refine Nat.lt_of_le_of_lt (Finset.card_le_card ?_) few
  intro other
  simp only [List.mem_toFinset, List.mem_append, List.nil_append]
  exact Or.inl

/-- However results are cached, the order lists each id with a result once, and at most
64 of them; an id without a result that gets one keeps the last cached for it until 64
further ids without one have got theirs. -/
theorem cacheAll_empty (calls : List (String × Json)) :
    (empty.cacheAll calls).InStep ∧
      ∀ before id result after, calls = before ++ (id, result) :: after →
        (empty.cacheAll before).results.lookup id = none →
        (freshIds ((empty.cacheAll before).cacheInvokeResult id result) after).toFinset.card
            < 64 →
        (empty.cacheAll calls).results.lookup id = some (lastResult id result after) := by
  refine ⟨(InStep.empty.cacheAll calls).1, ?_⟩
  rintro before id result after rfl fresh few
  have kept := (InStep.empty.cacheAll before).1.lookup_of_few fresh few
  rw [cacheAll, List.foldl_append]
  exact kept

theorem cacheAll_empty_again :
    (empty.cacheAll [("0", .null), ("1", .boolean false), ("2", .null), ("1", .boolean true),
      ("3", .null)]).results.lookup "1" = some (.boolean true) :=
  (cacheAll_empty [("0", .null), ("1", .boolean false), ("2", .null), ("1", .boolean true),
    ("3", .null)]).2 [("0", .null)] "1" (.boolean false)
      [("2", .null), ("1", .boolean true), ("3", .null)] rfl rfl (by decide)

end InvokeTables

end DroneEngage.Capabilities
