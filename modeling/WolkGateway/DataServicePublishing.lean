import WolkGateway.DataServiceConservation

/-!
# What publishing leaves behind

Attempts only take from the store: what a key held before is what the attempts consumed
there followed by what the key holds now. The loops over the keys of one device leave
nothing under any of them, except behind an attempt that was not accepted.
-/

namespace WolkGateway.DataServicePublishing
open DeviceModel KeyedStores DataService DataLedger DataServiceCalls DataServiceConservation
open GuardedRuns

variable {P : Persistence} {env : Environment} {family : Family} {key : Str}

theorem move_takes {L M : Ledger} {e : Effect} (hm : Move env L e M) (he : IsAttempt e) (f : Family)
    (k : Str) : L.contents f k = consumedItems f k [e] ++ M.contents f k := by
  cases hm with
  | add => obtain ⟨_, _, _, _, _, h, -⟩ := he; cases h
  | attempt family key items outcome hitems =>
    by_cases hr : outcome = .rejected
    · simp [consumedItems, blocksConsumed, consumedBy, hr]
    by_cases hk : family = f ∧ key = k
    · obtain ⟨rfl, rfl⟩ := hk
      simp [consumedItems, blocksConsumed, consumedBy, hr, setAt, hitems]
    · have hk' : ¬ (f = family ∧ k = key) := fun h => hk ⟨h.1.symm, h.2.symm⟩
      have hb :
          consumedBy f k (.attempted family key (deviceOf family key) items outcome) = none := by
        simp only [consumedBy, ite_eq_right_iff, reduceCtorEq, imp_false]
        exact fun h => hk ⟨h.1, h.2.1⟩
      simp [consumedItems, blocksConsumed, hb, hr, setAt, hk']
  | other _ hu => obtain ⟨_, _, _, _, _, rfl, -⟩ := he; exact hu.elim

/-- What a key held is what the attempts consumed there, and what it holds now. -/
theorem moves_take {s t : DataState P} (h : Moves env IsAttempt s t) {es : Trace}
    (ht : t.trace = s.trace ++ es) (f : Family) (k : Str) :
    contentsOf s f k = consumedItems f k es ++ contentsOf t f k := by
  obtain ⟨es', hp, he⟩ := h
  obtain rfl : es' = es := List.append_cancel_left ((path_trace_eq hp).symm.trans ht)
  change (ledgerOf s).contents f k = _ ++ (ledgerOf t).contents f k
  clear ht
  generalize ledgerOf s = L at hp
  generalize ledgerOf t = M at hp
  induction hp with
  | nil => rfl
  | @cons _ _ _ e es hm _ ih =>
    rw [move_takes hm (he e List.mem_cons_self) f k,
      ih fun e' he' => he e' (List.mem_cons_of_mem _ he'), ← List.append_assoc,
      ← consumedItems_append, List.singleton_append]

theorem consumedItems_elsewhere {keys : Family → Str → Prop} {es : Trace}
    (he : ∀ e ∈ es, ∃ f, AttemptAt f (keys f) e) (hk : ¬ keys family key) :
    consumedItems family key es = [] := by
  have hb : blocksConsumed family key es = [] := by
    refine List.filterMap_eq_nil_iff.mpr fun e hmem => ?_
    obtain ⟨f, k, d, items, o, rfl, hkey⟩ := he e hmem
    simp only [consumedBy, ite_eq_right_iff, reduceCtorEq, imp_false]
    rintro ⟨rfl, rfl, -⟩
    exact hk hkey
  simp [consumedItems, hb]

def Refused (family : Family) (key : Str) (e : Effect) : Prop :=
  ∃ deviceKey items outcome, e = .attempted family key deviceKey items outcome ∧
    outcome ≠ .accepted

/-- Between the two states the key was emptied, or an attempt at it was not accepted. -/
def Settles (family : Family) (key : Str) (s t : DataState P) : Prop :=
  ∃ es, t.trace = s.trace ++ es ∧
    (contentsOf t family key = [] ∨ ∃ e ∈ es, Refused family key e)

namespace Settles

variable {s t u : DataState P}

theorem trans_right (h : Settles family key s t) (hm : Moves env IsAttempt t u) :
    Settles family key s u := by
  obtain ⟨es, ht, h⟩ := h
  obtain ⟨es', hu, -⟩ := hm.trace_eq
  refine ⟨es ++ es', by rw [hu, ht, List.append_assoc], ?_⟩
  rcases h with h | ⟨e, he, hr⟩
  · have htake := moves_take hm hu family key
    rw [h, eq_comm, List.append_eq_nil_iff] at htake
    exact .inl htake.2
  · exact .inr ⟨e, List.mem_append_left _ he, hr⟩

theorem trans_left {allowed : Effect → Prop} (hm : Moves env allowed s t)
    (h : Settles family key t u) : Settles family key s u := by
  obtain ⟨es, ht, -⟩ := hm.trace_eq
  obtain ⟨es', hu, h⟩ := h
  refine ⟨es ++ es', by rw [hu, ht, List.append_assoc], ?_⟩
  exact h.imp_right fun ⟨e, he, hr⟩ => ⟨e, List.mem_append_right _ he, hr⟩

theorem of_nil (h : contentsOf s family key = []) : Settles family key s s :=
  ⟨[], by simp, .inl h⟩

/-- A loop settles every key it visits. -/
theorem foldl {f : DataState P → Str → DataState P} {keys : List Str} (hkey : key ∈ keys)
    (hm : ∀ k s, Moves env IsAttempt s (f s k)) (hs : ∀ k s, Settles family k s (f s k))
    (s : DataState P) : Settles family key s (keys.foldl f s) := by
  obtain ⟨before, after, rfl⟩ := List.append_of_mem hkey
  rw [List.foldl_append, List.foldl_cons]
  have hbefore : Moves env IsAttempt s (before.foldl f s) := .foldl before (fun k _ s => hm k s) s
  exact trans_left hbefore ((hs key _).trans_right (.foldl after (fun k _ s => hm k s) _))

/-- A loop over the keys in use that belong to a device settles all keys of the device. -/
theorem foldl_matching {f : DataState P → Str → DataState P} {keys : List Str} {deviceKey : Str}
    {s : DataState P} (hkeys : contentsOf s family key ≠ [] → key ∈ keys)
    (hd : (parsePersistenceKey key).1 = deviceKey)
    (hm : ∀ k s, Moves env IsAttempt s (f s k)) (hs : ∀ k s, Settles family k s (f s k)) :
    Settles family key s ((findMatchingPersistanceKeys deviceKey keys).foldl f s) := by
  by_cases hc : contentsOf s family key = []
  · have hloop : Moves env IsAttempt s
        ((findMatchingPersistanceKeys deviceKey keys).foldl f s) :=
      .foldl _ (fun k _ s => hm k s) s
    exact (of_nil hc).trans_right hloop
  · exact foldl (mem_findMatchingPersistanceKeys.mpr ⟨hkeys hc, hd⟩) hm hs s

/-- Publishing the families one after the other settles what publishing its own family does. -/
theorem inTurn {f : Family → DataState P → DataState P}
    (hm : ∀ family s, Moves env IsAttempt s (f family s))
    (hs : ∀ s, Settles family key s (f family s)) (s : DataState P) :
    Settles family key s
      (f .sensorReadings (f .alarms (f .configurations (f .actuatorStatuses s)))) := by
  cases family with
  | actuatorStatuses =>
    apply trans_right (hs s)
    exact (hm _ _).trans ((hm _ _).trans (hm _ _))
  | configurations =>
    apply trans_left (hm .actuatorStatuses s)
    exact (hs _).trans_right ((hm _ _).trans (hm _ _))
  | alarms =>
    apply trans_left ((hm .actuatorStatuses s).trans (hm .configurations _))
    exact (hs _).trans_right (hm _ _)
  | sensorReadings =>
    apply trans_left ((hm .actuatorStatuses s).trans
      ((hm .configurations _).trans (hm .alarms _)))
    exact hs _

end Settles

/-- The batch loop ends at an empty list or at a batch that was not accepted. -/
theorem publishBatches_ends {ι : Type} (env : Environment) (F : KeyedFifo Str ι) (item : ι → Item)
    (hf : family ≠ .configurations) (key : Str) (s : F.State) (trace : Trace) :
    ∃ es, (publishBatches F family item env key s trace).2 = trace ++ es ∧
      (F.contents (publishBatches F family item env key s trace).1 key = [] ∨
        ∃ e ∈ es, Refused family key e) := by
  induction hn : (F.contents s key).length using Nat.strong_induction_on generalizing s trace with
  | _ n ih =>
    rw [publishBatches_eq F item hf]
    by_cases h : F.get s key PUBLISH_BATCH_ITEMS_COUNT = []
    · rw [if_pos h]
      refine ⟨[], by simp, .inl ?_⟩
      simpa [F.get_eq, PUBLISH_BATCH_ITEMS_COUNT] using h
    rw [if_neg h]
    dsimp only
    cases attemptOutcome env trace family key
        ((F.get s key PUBLISH_BATCH_ITEMS_COUNT).map item) with
    | accepted =>
      obtain ⟨es, ht, hes⟩ := ih _ (hn ▸ F.length_remove_lt s key _ h)
        (F.remove s key PUBLISH_BATCH_ITEMS_COUNT) (trace ++ [Effect.attempted family key
          (deviceOf family key) ((F.get s key PUBLISH_BATCH_ITEMS_COUNT).map item) .accepted]) rfl
      refine ⟨.attempted family key (deviceOf family key)
        ((F.get s key PUBLISH_BATCH_ITEMS_COUNT).map item) .accepted :: es,
        ht.trans (by simp), hes.imp_right ?_⟩
      exact fun ⟨e, he, hr⟩ => ⟨e, List.mem_cons_of_mem _ he, hr⟩
    | _ => exact ⟨[_], rfl, .inr ⟨_, List.mem_singleton_self _, _, _, _, rfl, by simp⟩⟩

/-- A value is gone after the attempt at it, unless the attempt was not accepted. -/
theorem publishValue_ends {ι : Type} (F : KeyedSlot Str ι) (item : ι → Item) (key deviceKey : Str)
    (value : ι) (s : F.State) (trace : Trace) :
    ∃ es, (publishValue F family item env key deviceKey value s trace).2 = trace ++ es ∧
      (valueAt F item (publishValue F family item env key deviceKey value s trace).1 key = [] ∨
        ∃ e ∈ es, Refused family key e) := by
  unfold publishValue
  dsimp only
  split_ifs
  · exact ⟨[_], rfl, .inl (by simp [valueAt, F.get_remove])⟩
  · exact ⟨[_], rfl, .inl (by simp [valueAt, F.get_remove])⟩
  · exact ⟨[_], rfl, .inr ⟨_, List.mem_singleton_self _, _, _, _, rfl, by simp⟩⟩

theorem publishSensorReadingsForPersistanceKey_settles (key : Str) (s : DataState P) :
    Settles .sensorReadings key s (publishSensorReadingsForPersistanceKey env key s) := by
  obtain ⟨es, ht, h⟩ := publishBatches_ends env P.sensorReadings .sensorReading
    (show Family.sensorReadings ≠ .configurations by decide) key s.sensorReadings s.trace
  exact ⟨es, ht, h.imp_left fun h => List.map_eq_nil_iff.mpr h⟩

theorem publishAlarmsForPersistanceKey_settles (key : Str) (s : DataState P) :
    Settles .alarms key s (publishAlarmsForPersistanceKey env key s) := by
  obtain ⟨es, ht, h⟩ := publishBatches_ends env P.alarms .alarm
    (show Family.alarms ≠ .configurations by decide) key s.alarms s.trace
  exact ⟨es, ht, h.imp_left fun h => List.map_eq_nil_iff.mpr h⟩

theorem publishActuatorStatusesForPersistanceKey_settles (key : Str) (s : DataState P) :
    Settles .actuatorStatuses key s (publishActuatorStatusesForPersistanceKey env key s) := by
  rw [publishActuatorStatusesForPersistanceKey]
  cases hget : P.actuatorStatuses.get s.actuatorStatuses key with
  | none => exact .of_nil (by simp [contentsOf, hget])
  | some status =>
    dsimp only
    split_ifs
    · exact ⟨[_], rfl, .inl (by simp [contentsOf, P.actuatorStatuses.get_remove])⟩
    · exact publishValue_ends P.actuatorStatuses .actuatorStatus key _ status _ _

theorem publishConfigurationForPersistanceKey_settles (key : Str) (s : DataState P) :
    Settles .configurations key s (publishConfigurationForPersistanceKey env key s) := by
  rw [publishConfigurationForPersistanceKey]
  cases hget : P.configurations.get s.configurations key with
  | none => exact .of_nil (by simp [contentsOf, hget])
  | some configuration => exact publishValue_ends P.configurations .configuration key _ _ _ _

def publishFamilyOf (env : Environment) (family : Family) (deviceKey : Str) (s : DataState P) :
    DataState P :=
  match family with
  | .sensorReadings => publishSensorReadingsOf env deviceKey s
  | .alarms => publishAlarmsOf env deviceKey s
  | .actuatorStatuses => publishActuatorStatusesOf env deviceKey s
  | .configurations => publishConfigurationOf env deviceKey s

theorem publishFamilyOf_moves (family : Family) (deviceKey : Str) (s : DataState P) :
    Moves env (AttemptAt family (Addressed family deviceKey)) s
      (publishFamilyOf env family deviceKey s) := by
  cases family with
  | sensorReadings => exact publishSensorReadingsOf_moves deviceKey s
  | alarms => exact publishAlarmsOf_moves deviceKey s
  | actuatorStatuses => exact publishActuatorStatusesOf_moves deviceKey s
  | configurations => exact publishConfigurationOf_moves deviceKey s

theorem publishFamilyOf_settles (family : Family) {deviceKey key : Str}
    (hd : deviceOf family key = deviceKey) (s : DataState P) :
    Settles family key s (publishFamilyOf env family deviceKey s) := by
  cases family with
  | sensorReadings =>
    refine .foldl_matching (fun hc => ?_) hd
      (fun k s => (publishSensorReadingsForPersistanceKey_moves k s).mono AttemptAt.isAttempt)
      (fun k s => publishSensorReadingsForPersistanceKey_settles k s)
    exact (P.sensorReadings.mem_keys _ _).mpr fun h => hc (by simp [contentsOf, h])
  | alarms =>
    refine .foldl_matching (fun hc => ?_) hd
      (fun k s => (publishAlarmsForPersistanceKey_moves k s).mono AttemptAt.isAttempt)
      (fun k s => publishAlarmsForPersistanceKey_settles k s)
    exact (P.alarms.mem_keys _ _).mpr fun h => hc (by simp [contentsOf, h])
  | actuatorStatuses =>
    refine .foldl_matching (fun hc => ?_) hd
      (fun k s => (publishActuatorStatusesForPersistanceKey_moves k s).mono AttemptAt.isAttempt)
      (fun k s => publishActuatorStatusesForPersistanceKey_settles k s)
    refine (P.actuatorStatuses.mem_keys _ _).mpr ?_
    rw [Option.isSome_iff_ne_none]
    exact fun h => hc (by simp [contentsOf, h])
  | configurations =>
    obtain rfl : key = deviceKey := hd
    exact publishConfigurationForPersistanceKey_settles key s

/-- A value that is settled without a call to `publish` is gone. -/
theorem emptied_of_unhanded (hf : keepsAll family = false) {s t : DataState P}
    (hm : Moves env IsAttempt s t) (hs : Settles family key s t) {es : Trace}
    (ht : t.trace = s.trace ++ es) (hq : ∀ e ∈ es, e.handed = none) :
    contentsOf t family key = [] := by
  obtain ⟨es', ht', h⟩ := hs
  obtain rfl : es' = es := List.append_cancel_left (ht'.symm.trans ht)
  rcases h with h | ⟨e, he, d, items, outcome, rfl, -⟩
  · exact h
  have hr : outcome ≠ .rejected := by
    rintro rfl
    cases hq _ he
  obtain ⟨es, hp, -⟩ := id hm
  obtain rfl : es = es' := List.append_cancel_left ((path_trace_eq hp).symm.trans ht)
  have hconsumed : consumedItems family key es ≠ [] := by
    refine fun hnil => attempt_ne_nil hp he ?_
    refine List.flatten_eq_nil_iff.mp hnil items (List.mem_map.mpr ⟨⟨items, outcome⟩, ?_, rfl⟩)
    exact List.mem_filterMap.mpr ⟨_, he, by simp [consumedBy, hr]⟩
  have htake := moves_take hm ht family key
  rcases contentsOf_slot hf s key with hc | ⟨x, hc⟩
  · rw [hc, eq_comm, List.append_eq_nil_iff] at htake
    exact htake.2
  · rw [hc, eq_comm, List.append_eq_singleton_iff] at htake
    rcases htake with ⟨hnil, -⟩ | ⟨-, hnil⟩
    · exact absurd hnil hconsumed
    · exact hnil

end WolkGateway.DataServicePublishing
