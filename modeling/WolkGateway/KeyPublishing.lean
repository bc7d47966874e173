import WolkGateway.DataServicePublishing
import WolkGateway.Batches

/-!
# Publishing one key

What the four `...ForPersistanceKey` functions do to the ledger, as one function of the
pending items under the key and of the calls made so far: batch after batch is attempted
until one is not accepted or nothing is left. Nothing is touched under any other key.
-/

namespace WolkGateway.KeyPublishing
open DeviceModel KeyedStores DataService DataLedger DataServicePublishing Batches

/-- The attempts at the pending items under a key, and the items left there. -/
def publishPending (env : Environment) (family : Family) (key : Str) (trace : Trace)
    (items : List Item) : Trace × List Item :=
  if items = [] then (trace, [])
  else
    let batch := items.take PUBLISH_BATCH_ITEMS_COUNT
    let outcome := attemptOutcome env trace family key batch
    let trace' := trace ++ [.attempted family key (deviceOf family key) batch outcome]
    match outcome with
    | .rejected => (trace', items)
    | .accepted => publishPending env family key trace' (items.drop PUBLISH_BATCH_ITEMS_COUNT)
    | _ => (trace', items.drop PUBLISH_BATCH_ITEMS_COUNT)
termination_by items.length
decreasing_by
  have hpos := List.length_pos_of_ne_nil ‹_›
  simp only [List.length_drop, PUBLISH_BATCH_ITEMS_COUNT]
  omega

def attemptKey (env : Environment) (family : Family) (key : Str) (L : Ledger) : Ledger :=
  let r := publishPending env family key L.trace (L.contents family key)
  ⟨setAt L.contents family key r.2, r.1⟩

variable {P : Persistence} {env : Environment} {family : Family} {key : Str}

theorem publishPending_nil (trace : Trace) :
    publishPending env family key trace [] = (trace, []) := by
  rw [publishPending, if_pos rfl]

theorem publishPending_accepted (trace : Trace) {items : List Item} (h : items ≠ [])
    (ho : attemptOutcome env trace family key (items.take PUBLISH_BATCH_ITEMS_COUNT) =
      .accepted) :
    publishPending env family key trace items =
      publishPending env family key (trace ++ [Effect.attempted family key (deviceOf family key)
        (items.take PUBLISH_BATCH_ITEMS_COUNT) .accepted])
        (items.drop PUBLISH_BATCH_ITEMS_COUNT) := by
  conv_lhs => rw [publishPending, if_neg h]
  simp only [ho]

/-- A pass that is not accepted is the last. -/
theorem publishPending_of_ne_accepted (trace : Trace) {items : List Item} (h : items ≠ [])
    {outcome : Outcome} (hne : outcome ≠ .accepted)
    (ho : attemptOutcome env trace family key (items.take PUBLISH_BATCH_ITEMS_COUNT) =
      outcome) :
    publishPending env family key trace items =
      (trace ++ [Effect.attempted family key (deviceOf family key)
        (items.take PUBLISH_BATCH_ITEMS_COUNT) outcome],
        if outcome = .rejected then items else items.drop PUBLISH_BATCH_ITEMS_COUNT) := by
  rw [publishPending, if_neg h]
  simp only [ho]
  cases outcome <;> first | rfl | exact absurd rfl hne

/-- Induction along the attempts: nothing is pending, or a batch is accepted and the rest is
attempted, or a batch is not accepted. -/
@[elab_as_elim]
theorem publishPending_induction (env : Environment) (family : Family) (key : Str)
    {motive : Trace → List Item → Prop} (nil : ∀ trace, motive trace [])
    (accepted : ∀ trace items, items ≠ [] →
      attemptOutcome env trace family key (items.take PUBLISH_BATCH_ITEMS_COUNT) = .accepted →
      motive (trace ++ [.attempted family key (deviceOf family key)
        (items.take PUBLISH_BATCH_ITEMS_COUNT) .accepted])
        (items.drop PUBLISH_BATCH_ITEMS_COUNT) → motive trace items)
    (stopped : ∀ trace items outcome, items ≠ [] → outcome ≠ .accepted →
      attemptOutcome env trace family key (items.take PUBLISH_BATCH_ITEMS_COUNT) = outcome →
      motive trace items) (trace : Trace) (items : List Item) : motive trace items := by
  induction hn : items.length using Nat.strong_induction_on generalizing items trace with
  | _ n ih =>
    by_cases hi : items = []
    · rw [hi]
      exact nil trace
    have hpos := List.length_pos_of_ne_nil hi
    have hlt : (items.drop PUBLISH_BATCH_ITEMS_COUNT).length < n := by
      simp only [List.length_drop, PUBLISH_BATCH_ITEMS_COUNT]
      omega
    by_cases ha : attemptOutcome env trace family key (items.take PUBLISH_BATCH_ITEMS_COUNT) =
        .accepted
    · exact accepted trace items hi ha (ih _ hlt _ _ rfl)
    · exact stopped trace items _ hi ha rfl

section Batches

variable {ι : Type} (F : KeyedFifo Str ι) (item : ι → Item)

/-- The batch loop computes `publishPending`. -/
theorem publishBatches_refines (env : Environment) (hf : family ≠ .configurations) (key : Str)
    (s : F.State) (trace : Trace) :
    (publishBatches F family item env key s trace).2 =
        (publishPending env family key trace ((F.contents s key).map item)).1 ∧
      ∀ k, (F.contents (publishBatches F family item env key s trace).1 k).map item =
        if k = key then (publishPending env family key trace ((F.contents s key).map item)).2
        else (F.contents s k).map item := by
  induction hn : (F.contents s key).length using Nat.strong_induction_on generalizing s trace with
  | _ n ih =>
    rw [publishBatches_eq F item hf]
    by_cases h : F.get s key PUBLISH_BATCH_ITEMS_COUNT = []
    · have hc : F.contents s key = [] := by
        simpa [F.get_eq, PUBLISH_BATCH_ITEMS_COUNT] using h
      rw [if_pos h, hc, List.map_nil, publishPending_nil]
      refine ⟨rfl, fun k => ?_⟩
      split_ifs with hk
      · rw [hk, hc, List.map_nil]
      · rfl
    have hne : (F.contents s key).map item ≠ [] := by
      intro hc
      apply h
      rw [F.get_eq, List.map_eq_nil_iff.mp hc, List.take_nil]
    have hremoved := map_contents_remove F item s key PUBLISH_BATCH_ITEMS_COUNT
    rw [if_neg h]
    dsimp only
    rw [map_get F item s key PUBLISH_BATCH_ITEMS_COUNT]
    cases ho : attemptOutcome env trace family key
        (((F.contents s key).map item).take PUBLISH_BATCH_ITEMS_COUNT) with
    | rejected =>
      rw [publishPending_of_ne_accepted trace hne (by simp) ho, if_pos rfl]
      refine ⟨rfl, fun k => ?_⟩
      split_ifs with hk
      · rw [hk]
      · rfl
    | accepted =>
      rw [publishPending_accepted trace hne ho]
      obtain ⟨htrace, hcontents⟩ := ih _ (hn ▸ F.length_remove_lt s key _ h)
        (F.remove s key PUBLISH_BATCH_ITEMS_COUNT) (trace ++ [.attempted family key
          (deviceOf family key)
          (((F.contents s key).map item).take PUBLISH_BATCH_ITEMS_COUNT) .accepted]) rfl
      have hrest := hremoved key
      rw [if_pos rfl] at hrest
      rw [hrest] at htrace hcontents
      refine ⟨htrace, fun k => (hcontents k).trans ?_⟩
      split_ifs with hk
      · rfl
      · rw [hremoved k, if_neg hk]
    | unparsable =>
      rw [publishPending_of_ne_accepted trace hne (by simp) ho]
      exact ⟨rfl, hremoved⟩
    | unbuildable =>
      rw [publishPending_of_ne_accepted trace hne (by simp) ho]
      exact ⟨rfl, hremoved⟩

end Batches

section Values

variable {ι : Type} (F : KeyedSlot Str ι) (item : ι → Item)

theorem publishPending_singleton (trace : Trace) (x : Item) :
    publishPending env family key trace [x] =
      let outcome := attemptOutcome env trace family key [x]
      (trace ++ [Effect.attempted family key (deviceOf family key) [x] outcome],
        if outcome = .rejected then [x] else []) := by
  have htake : [x].take PUBLISH_BATCH_ITEMS_COUNT = [x] := rfl
  have hdrop : [x].drop PUBLISH_BATCH_ITEMS_COUNT = [] := rfl
  by_cases ho : attemptOutcome env trace family key [x] = .accepted
  · rw [publishPending_accepted trace (by simp) ho, htake, hdrop, publishPending_nil, ho]
    rfl
  · rw [publishPending_of_ne_accepted trace (by simp) ho rfl, htake, hdrop]

/-- Sending a value computes `publishPending` on it. -/
theorem publishValue_refines {s : F.State} {value : ι} (h : F.get s key = some value)
    (trace : Trace) (ho : attemptOutcome env trace family key [item value] =
      env.outcome trace (.data family (deviceOf family key) [item value])) :
    (publishValue F family item env key (deviceOf family key) value s trace).2 =
        (publishPending env family key trace (valueAt F item s key)).1 ∧
      ∀ k, valueAt F item
          (publishValue F family item env key (deviceOf family key) value s trace).1 k =
        if k = key then (publishPending env family key trace (valueAt F item s key)).2
        else valueAt F item s k := by
  have hremoved : ∀ k, valueAt F item (F.remove s key) k =
      if k = key then [] else valueAt F item s k := by
    intro k
    rw [valueAt_remove F item h, valueAt_of_get F item h]
    rfl
  have hkept : ∀ k, valueAt F item s k =
      if k = key then [item value] else valueAt F item s k := by
    intro k
    split_ifs with hk
    · rw [hk, valueAt_of_get F item h]
    · rfl
  rw [valueAt_of_get F item h, publishPending_singleton, ho]
  cases hm : env.makesMessage trace (.data family (deviceOf family key) [item value]) with
  | false =>
    simp only [publishValue, Environment.outcome, hm, Bool.not_false, if_true]
    exact ⟨trivial, hremoved⟩
  | true =>
    cases ha : env.accepts trace (.data family (deviceOf family key) [item value]) with
    | false =>
      simp only [publishValue, Environment.outcome, hm, ha, Bool.not_true, Bool.false_eq_true,
        if_false]
      exact ⟨trivial, hkept⟩
    | true =>
      simp only [publishValue, Environment.outcome, hm, ha, Bool.not_true, Bool.false_eq_true,
        if_false, if_true]
      exact ⟨trivial, hremoved⟩

end Values

def publishKey (env : Environment) (family : Family) (key : Str) (s : DataState P) :
    DataState P :=
  match family with
  | .sensorReadings => publishSensorReadingsForPersistanceKey env key s
  | .alarms => publishAlarmsForPersistanceKey env key s
  | .actuatorStatuses => publishActuatorStatusesForPersistanceKey env key s
  | .configurations => publishConfigurationForPersistanceKey env key s

theorem ledgerOf_eq_attemptKey {s t : DataState P}
    (ht : t.trace = (publishPending env family key s.trace (contentsOf s family key)).1)
    (hkey : ∀ k, contentsOf t family k =
      if k = key then (publishPending env family key s.trace (contentsOf s family key)).2
      else contentsOf s family k)
    (hother : ∀ f k, f ≠ family → contentsOf t f k = contentsOf s f k) :
    ledgerOf t = attemptKey env family key (ledgerOf s) := by
  unfold ledgerOf attemptKey
  dsimp only
  rw [ht]
  congr 1
  funext f k
  by_cases hf : f = family
  · subst hf
    simp [setAt, hkey]
  · simp [setAt, hf, hother f k hf]

theorem publishActuatorStatusesForPersistanceKey_refines (key : Str) (s : DataState P) :
    ledgerOf (publishActuatorStatusesForPersistanceKey env key s) =
      attemptKey env .actuatorStatuses key (ledgerOf s) := by
  rw [publishActuatorStatusesForPersistanceKey]
  cases hget : P.actuatorStatuses.get s.actuatorStatuses key with
  | none =>
    have hc : contentsOf s .actuatorStatuses key = [] := by simp [contentsOf, hget]
    refine ledgerOf_eq_attemptKey ?_ (fun k => ?_) fun f k _ => rfl
    · rw [hc, publishPending_nil]
    · rw [hc, publishPending_nil]
      split_ifs with hk
      · rw [hk, hc]
      · rfl
  | some status =>
    have hc : contentsOf s .actuatorStatuses key = [.actuatorStatus status] := by
      simp [contentsOf, hget]
    by_cases hparse : Parses key
    · have ho : attemptOutcome env s.trace .actuatorStatuses key [.actuatorStatus status] =
          env.outcome s.trace (.data .actuatorStatuses (deviceOf .actuatorStatuses key)
            [.actuatorStatus status]) := by
        simp [attemptOutcome, hparse]
      obtain ⟨htrace, hcontents⟩ := publishValue_refines P.actuatorStatuses .actuatorStatus hget
        s.trace ho
      simp only [isEmpty_or_isEmpty_iff, hparse, not_true_eq_false, if_false]
      refine ledgerOf_eq_attemptKey htrace hcontents fun f k hf => ?_
      cases f <;> first | rfl | exact absurd rfl hf
    · have ho : attemptOutcome env s.trace .actuatorStatuses key [.actuatorStatus status] =
          .unparsable := by simp [attemptOutcome, hparse]
      simp only [isEmpty_or_isEmpty_iff, hparse, not_false_eq_true, if_true]
      refine ledgerOf_eq_attemptKey ?_ (fun k => ?_) fun f k hf => ?_
      · rw [hc, publishPending_singleton, ho]
        rfl
      · rw [hc, publishPending_singleton, ho]
        simp only [contentsOf, P.actuatorStatuses.get_remove]
        split_ifs <;> simp_all
      · cases f <;> first | rfl | exact absurd rfl hf

theorem publishConfigurationForPersistanceKey_refines (key : Str) (s : DataState P) :
    ledgerOf (publishConfigurationForPersistanceKey env key s) =
      attemptKey env .configurations key (ledgerOf s) := by
  rw [publishConfigurationForPersistanceKey]
  cases hget : P.configurations.get s.configurations key with
  | none =>
    have hc : contentsOf s .configurations key = [] := by simp [contentsOf, hget]
    refine ledgerOf_eq_attemptKey ?_ (fun k => ?_) fun f k _ => rfl
    · rw [hc, publishPending_nil]
    · rw [hc, publishPending_nil]
      split_ifs with hk
      · rw [hk, hc]
      · rfl
  | some configuration =>
    have ho : attemptOutcome env s.trace .configurations key [.configuration configuration] =
        env.outcome s.trace (.data .configurations (deviceOf .configurations key)
          [.configuration configuration]) := by
      simp [attemptOutcome]
    obtain ⟨htrace, hcontents⟩ := publishValue_refines P.configurations .configuration hget
      s.trace ho
    refine ledgerOf_eq_attemptKey htrace hcontents fun f k hf => ?_
    cases f <;> first | rfl | exact absurd rfl hf

/-- Publishing a key is one step of the ledger. -/
theorem publishKey_refines (env : Environment) (family : Family) (key : Str) (s : DataState P) :
    ledgerOf (publishKey env family key s) = attemptKey env family key (ledgerOf s) := by
  cases family with
  | sensorReadings =>
    obtain ⟨htrace, hcontents⟩ := publishBatches_refines P.sensorReadings .sensorReading env
      (show Family.sensorReadings ≠ .configurations by decide) key s.sensorReadings s.trace
    refine ledgerOf_eq_attemptKey htrace hcontents fun f k hf => ?_
    cases f <;> first | rfl | exact absurd rfl hf
  | alarms =>
    obtain ⟨htrace, hcontents⟩ := publishBatches_refines P.alarms .alarm env
      (show Family.alarms ≠ .configurations by decide) key s.alarms s.trace
    refine ledgerOf_eq_attemptKey htrace hcontents fun f k hf => ?_
    cases f <;> first | rfl | exact absurd rfl hf
  | actuatorStatuses => exact publishActuatorStatusesForPersistanceKey_refines key s
  | configurations => exact publishConfigurationForPersistanceKey_refines key s

def batchMessage (family : Family) (key : Str) (items : List Item) (i : ℕ) : OutboundMessage :=
  .data family (deviceOf family key) (batch PUBLISH_BATCH_ITEMS_COUNT items i)

/-- The first `j` batches, each sent as one message that is accepted. -/
def acceptedBatches (family : Family) (key : Str) (items : List Item) (j : ℕ) : Trace :=
  (List.range j).map fun i => .attempted family key (deviceOf family key)
    (batch PUBLISH_BATCH_ITEMS_COUNT items i) .accepted

/-- What becomes of batch `i`, attempted after the ones before it. -/
def batchOutcome (env : Environment) (family : Family) (key : Str) (trace : Trace)
    (items : List Item) (i : ℕ) : Outcome :=
  env.outcome (trace ++ acceptedBatches family key items i) (batchMessage family key items i)

/-- The loop stops at batch `j`: with an outcome that is not `accepted`, or behind the last. -/
structure StopsAt (env : Environment) (family : Family) (key : Str) (trace : Trace)
    (items : List Item) (j : ℕ) (trace' : Trace) (left : List Item) : Prop where
  bound : j ≤ batchCount PUBLISH_BATCH_ITEMS_COUNT items
  accepted : ∀ i < j, batchOutcome env family key trace items i = .accepted
  exhausted : j = batchCount PUBLISH_BATCH_ITEMS_COUNT items →
    trace' = trace ++ acceptedBatches family key items j ∧ left = []
  failed : j < batchCount PUBLISH_BATCH_ITEMS_COUNT items →
    batchOutcome env family key trace items j ≠ .accepted ∧
    trace' = trace ++ acceptedBatches family key items j ++
      [.attempted family key (deviceOf family key) (batch PUBLISH_BATCH_ITEMS_COUNT items j)
        (batchOutcome env family key trace items j)]
  rejected : j < batchCount PUBLISH_BATCH_ITEMS_COUNT items →
    batchOutcome env family key trace items j = .rejected →
    left = items.drop (PUBLISH_BATCH_ITEMS_COUNT * j)
  unbuildable : j < batchCount PUBLISH_BATCH_ITEMS_COUNT items →
    batchOutcome env family key trace items j = .unbuildable →
    left = items.drop (PUBLISH_BATCH_ITEMS_COUNT * (j + 1))

theorem acceptedBatches_succ (items : List Item) (j : ℕ) :
    acceptedBatches family key items (j + 1) =
      .attempted family key (deviceOf family key) (items.take PUBLISH_BATCH_ITEMS_COUNT)
        .accepted :: acceptedBatches family key (items.drop PUBLISH_BATCH_ITEMS_COUNT) j := by
  simp only [acceptedBatches, List.range_succ_eq_map, List.map_cons, List.map_map, batch_zero,
    Function.comp_def, batch_drop]

theorem batchOutcome_zero (env : Environment) (hf : family = .configurations ∨ Parses key)
    (trace : Trace) (items : List Item) : batchOutcome env family key trace items 0 =
      attemptOutcome env trace family key (items.take PUBLISH_BATCH_ITEMS_COUNT) := by
  have hn : ¬ (family ≠ .configurations ∧ ¬ Parses key) := by tauto
  simp [batchOutcome, acceptedBatches, batchMessage, attemptOutcome, hn]

theorem batchOutcome_succ (trace : Trace) (items : List Item) (i : ℕ) :
    batchOutcome env family key trace items (i + 1) =
      batchOutcome env family key (trace ++ [.attempted family key (deviceOf family key)
        (items.take PUBLISH_BATCH_ITEMS_COUNT) .accepted])
        (items.drop PUBLISH_BATCH_ITEMS_COUNT) i := by
  simp [batchOutcome, acceptedBatches_succ, batchMessage, batch_drop]

theorem count_pos : 0 < PUBLISH_BATCH_ITEMS_COUNT := by decide

/-- The loop stops at exactly one batch. -/
theorem publishPending_stopsAt (hf : family = .configurations ∨ Parses key) (trace : Trace)
    (items : List Item) : ∃ j, StopsAt env family key trace items j
      (publishPending env family key trace items).1
      (publishPending env family key trace items).2 := by
  induction trace, items using publishPending_induction env family key with
  | nil trace =>
    rw [publishPending_nil]
    have hcount := batchCount_nil (α := Item) count_pos
    refine ⟨0, ?_, ?_, ?_, ?_, ?_, ?_⟩ <;> simp [hcount, acceptedBatches]
  | accepted trace items h ho ih =>
    have hcount := batchCount_of_ne_nil count_pos h
    rw [publishPending_accepted trace h ho]
    obtain ⟨j, hj⟩ := ih
    refine ⟨j + 1, ?_, ?_, ?_, ?_, ?_, ?_⟩
    · have hb := hj.bound
      omega
    · intro i hi
      cases i with
      | zero => exact (batchOutcome_zero env hf trace items).trans ho
      | succ i =>
        rw [batchOutcome_succ]
        exact hj.accepted i (by omega)
    · intro he
      obtain ⟨htrace, hleft⟩ := hj.exhausted (by omega)
      refine ⟨?_, hleft⟩
      rw [htrace, acceptedBatches_succ, List.append_assoc, List.singleton_append]
    · intro hl
      obtain ⟨hout, htrace⟩ := hj.failed (by omega)
      rw [batchOutcome_succ, acceptedBatches_succ, ← batch_drop]
      refine ⟨hout, ?_⟩
      rw [htrace]
      simp
    · intro hl hout
      rw [batchOutcome_succ] at hout
      rw [hj.rejected (by omega) hout, drop_drop_batch]
    · intro hl hout
      rw [batchOutcome_succ] at hout
      rw [hj.unbuildable (by omega) hout, drop_drop_batch]
  | stopped trace items outcome h hne ho =>
    have hcount := batchCount_of_ne_nil count_pos h
    have hzero := (batchOutcome_zero env hf trace items).trans ho
    cases outcome with
    | accepted => exact absurd rfl hne
    | rejected =>
      rw [publishPending_of_ne_accepted trace h (by simp) ho]
      refine ⟨0, ?_, ?_, ?_, ?_, ?_, ?_⟩ <;> simp [hcount, hzero, acceptedBatches]
    | unbuildable =>
      rw [publishPending_of_ne_accepted trace h (by simp) ho]
      refine ⟨0, ?_, ?_, ?_, ?_, ?_, ?_⟩ <;> simp [hcount, hzero, acceptedBatches]
    | unparsable =>
      have hn := outcome_ne_unparsable env (trace ++ acceptedBatches family key items 0)
        (batchMessage family key items 0)
      exact absurd hzero hn

theorem attemptKey_elsewhere (L : Ledger) {f : Family} {k : Str} (h : ¬ (f = family ∧ k = key)) :
    (attemptKey env family key L).contents f k = L.contents f k := by
  simp [attemptKey, setAt, h]

theorem attemptKey_here (L : Ledger) : (attemptKey env family key L).contents family key =
    (publishPending env family key L.trace (L.contents family key)).2 := by
  simp [attemptKey, setAt]

theorem publishKey_elsewhere (env : Environment) (family : Family) (s : DataState P) {f : Family}
    {k : Str} (h : ¬ (f = family ∧ k = key)) :
    contentsOf (publishKey env family key s) f k = contentsOf s f k := by
  have hl := publishKey_refines env family key s
  calc contentsOf (publishKey env family key s) f k
      = (attemptKey env family key (ledgerOf s)).contents f k := by rw [← hl]; rfl
    _ = contentsOf s f k := attemptKey_elsewhere (ledgerOf s) h

/-- A single item is attempted once, and is gone unless it was rejected. -/
theorem publishKey_single {s : DataState P} {item : Item}
    (h : contentsOf s family key = [item]) :
    (publishKey env family key s).trace = s.trace ++ [.attempted family key (deviceOf family key)
      [item] (attemptOutcome env s.trace family key [item])] ∧
    (attemptOutcome env s.trace family key [item] ≠ .rejected →
      contentsOf (publishKey env family key s) = setAt (contentsOf s) family key []) := by
  have hl := publishKey_refines env family key s
  have hpending : publishPending env family key (ledgerOf s).trace
      ((ledgerOf s).contents family key) = publishPending env family key s.trace [item] :=
    congrArg (publishPending env family key s.trace) h
  rw [attemptKey, hpending, publishPending_singleton] at hl
  refine ⟨congrArg Ledger.trace hl, fun hr => ?_⟩
  have hc := congrArg Ledger.contents hl
  dsimp only at hc
  rw [if_neg hr] at hc
  exact hc

/-- A key that splits into two nonempty parts is published batch by batch. -/
theorem publishKey_stopsAt (env : Environment) (family : Family)
    (hf : family = .configurations ∨ Parses key) (s : DataState P) :
    ∃ j, StopsAt env family key s.trace (contentsOf s family key) j
      (publishKey env family key s).trace
      (contentsOf (publishKey env family key s) family key) := by
  have hl := publishKey_refines env family key s
  have htrace : (publishKey env family key s).trace =
      (publishPending env family key s.trace (contentsOf s family key)).1 :=
    congrArg Ledger.trace hl
  have hleft : contentsOf (publishKey env family key s) family key =
      (publishPending env family key s.trace (contentsOf s family key)).2 := by
    change (ledgerOf (publishKey env family key s)).contents family key = _
    rw [hl, attemptKey_here]
    rfl
  rw [htrace, hleft]
  exact publishPending_stopsAt hf s.trace (contentsOf s family key)

/-- Readings and alarms alike: the batches are attempted in order up to the first that
cannot be built or is rejected, the ones before it are accepted, and what is left is what
follows them; a batch that cannot be built is dropped, one that is rejected stays. -/
theorem publishForPersistanceKey_in_batches (env : Environment) (key : Str) (hk : Parses key)
    (s : DataState P) :
    ((∃ j, StopsAt env .sensorReadings key s.trace (contentsOf s .sensorReadings key) j
        (publishSensorReadingsForPersistanceKey env key s).trace
        (contentsOf (publishSensorReadingsForPersistanceKey env key s) .sensorReadings key)) ∧
      ∀ f k, ¬ (f = .sensorReadings ∧ k = key) →
        contentsOf (publishSensorReadingsForPersistanceKey env key s) f k = contentsOf s f k) ∧
    ((∃ j, StopsAt env .alarms key s.trace (contentsOf s .alarms key) j
        (publishAlarmsForPersistanceKey env key s).trace
        (contentsOf (publishAlarmsForPersistanceKey env key s) .alarms key)) ∧
      ∀ f k, ¬ (f = .alarms ∧ k = key) →
        contentsOf (publishAlarmsForPersistanceKey env key s) f k = contentsOf s f k) := by
  refine ⟨⟨?_, ?_⟩, ⟨?_, ?_⟩⟩
  · exact publishKey_stopsAt env .sensorReadings (.inr hk) s
  · intro f k h
    exact publishKey_elsewhere env .sensorReadings s h
  · exact publishKey_stopsAt env .alarms (.inr hk) s
  · intro f k h
    exact publishKey_elsewhere env .alarms s h

def sixtyAlarms : DataState .inMemory :=
  (List.range 60).foldl (fun s rtc => addAlarm ['d'] ['r'] true rtc s) (.initial .inMemory)

def acceptingFullBatches : Environment where
  __ := Environment.obliging
  accepts _ message :=
    match message with
    | .data _ _ items => items.length = PUBLISH_BATCH_ITEMS_COUNT
    | _ => true

/-- The second of two batches is refused, and left. -/
theorem publishForPersistanceKey_in_batches_dr :
    let key := ['d', '+', 'r']
    let t := publishAlarmsForPersistanceKey acceptingFullBatches key sixtyAlarms
    StopsAt acceptingFullBatches .alarms key sixtyAlarms.trace
      (contentsOf sixtyAlarms .alarms key) 1 t.trace (contentsOf t .alarms key) ∧
    (contentsOf sixtyAlarms .alarms key).length = 60 ∧ (contentsOf t .alarms key).length = 10 := by
  intro key t
  obtain ⟨j, hj⟩ := (publishForPersistanceKey_in_batches acceptingFullBatches key (by decide)
    sixtyAlarms).2.1
  have hcount : batchCount PUBLISH_BATCH_ITEMS_COUNT (contentsOf sixtyAlarms .alarms key) = 2 := by
    decide +kernel
  have hle : j ≤ 2 := hcount ▸ hj.bound
  have hfirst : j ≠ 0 := by
    rintro rfl
    exact (hj.failed (by omega)).1 (by decide +kernel)
  have hsecond : j ≠ 2 := by
    rintro rfl
    exact absurd (hj.accepted 1 (by omega)) (by decide +kernel)
  obtain rfl : j = 1 := by omega
  exact ⟨hj, by decide +kernel, by decide +kernel⟩

end WolkGateway.KeyPublishing
