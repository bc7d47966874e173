import WolkGateway.KeyPublishing
import WolkGateway.ComponentUpdates

/-!
# Publishing everything, and device by device

When the environment answers a message the same way whenever it is asked, what publishing
does under a key depends on the items under that key alone. So the keys may be visited in
any order, and a loop over all keys comes to the same as one loop for each device.
-/

namespace WolkGateway.PublishingByDevice
open DeviceModel KeyedStores DataService DataLedger DataServiceCalls DataServicePublishing
open KeyPublishing Batches ComponentUpdates

/-- Messages are built and accepted, or not, whatever was sent before. -/
def Stateless (env : Environment) : Prop :=
  ∀ trace trace' message, env.makesMessage trace message = env.makesMessage trace' message ∧
    env.accepts trace message = env.accepts trace' message

variable {P Q : Persistence} {env env' : Environment} {family : Family} {key : Str}

theorem Stateless.attemptOutcome_eq (h : Stateless env) (family : Family) (key : Str)
    (trace trace' : Trace) (items : List Item) : attemptOutcome env trace family key items =
      attemptOutcome env trace' family key items := by
  obtain ⟨hm, ha⟩ := h trace trace' (.data family (deviceOf family key) items)
  simp only [attemptOutcome, Environment.outcome, hm, ha]

/-- The attempts depend on the items alone. -/
theorem Stateless.publishPending_eq (h : Stateless env) (trace : Trace) (items : List Item) :
    publishPending env family key trace items =
      (trace ++ (publishPending env family key [] items).1,
        (publishPending env family key [] items).2) := by
  suffices hboth : ∀ trace', ∃ es left, publishPending env family key trace items =
      (trace ++ es, left) ∧ publishPending env family key trace' items = (trace' ++ es, left) by
    obtain ⟨es, left, hfull, hnil⟩ := hboth []
    rw [hfull, hnil, List.nil_append]
  induction trace, items using publishPending_induction env family key with
  | nil trace =>
    intro trace'
    exact ⟨[], [], by simp [publishPending_nil], by simp [publishPending_nil]⟩
  | accepted trace items hi ha ih =>
    intro trace'
    have ha' := (h.attemptOutcome_eq family key trace' trace _).trans ha
    obtain ⟨es, left, hes, hes'⟩ := ih (trace' ++ [Effect.attempted family key (deviceOf family key)
      (items.take PUBLISH_BATCH_ITEMS_COUNT) .accepted])
    rw [publishPending_accepted trace hi ha, publishPending_accepted trace' hi ha', hes, hes',
      List.append_assoc, List.append_assoc]
    exact ⟨_, left, rfl, rfl⟩
  | stopped trace items outcome hi hne ho =>
    intro trace'
    have ho' := (h.attemptOutcome_eq family key trace' trace _).trans ho
    rw [publishPending_of_ne_accepted trace hi hne ho,
      publishPending_of_ne_accepted trace' hi hne ho']
    exact ⟨_, _, rfl, rfl⟩

theorem publishPending_congr (h : Stateless env) (h' : Stateless env') (trace : Trace)
    (items : List Item)
    (hagree : ∀ i, attemptOutcome env [] family key (batch PUBLISH_BATCH_ITEMS_COUNT items i) =
      attemptOutcome env' [] family key (batch PUBLISH_BATCH_ITEMS_COUNT items i)) :
    publishPending env family key trace items = publishPending env' family key trace items := by
  have hsame : ∀ trace (items : List Item),
      (∀ i, attemptOutcome env [] family key (batch PUBLISH_BATCH_ITEMS_COUNT items i) =
        attemptOutcome env' [] family key (batch PUBLISH_BATCH_ITEMS_COUNT items i)) →
      attemptOutcome env' trace family key (items.take PUBLISH_BATCH_ITEMS_COUNT) =
        attemptOutcome env trace family key (items.take PUBLISH_BATCH_ITEMS_COUNT) := by
    intro trace items hbatches
    have hzero := hbatches 0
    rw [batch_zero] at hzero
    rw [h'.attemptOutcome_eq family key trace [], ← hzero, h.attemptOutcome_eq family key [] trace]
  induction trace, items using publishPending_induction env family key with
  | nil trace => rw [publishPending_nil, publishPending_nil]
  | accepted trace items hi ha ih =>
    have ha' := (hsame trace items hagree).trans ha
    rw [publishPending_accepted trace hi ha, publishPending_accepted trace hi ha']
    refine ih fun i => ?_
    rw [batch_drop]
    exact hagree (i + 1)
  | stopped trace items outcome hi hne ho =>
    have ho' := (hsame trace items hagree).trans ho
    rw [publishPending_of_ne_accepted trace hi hne ho,
      publishPending_of_ne_accepted trace hi hne ho']

/-- Every attempt is at the key, and for its device. -/
theorem publishPending_attempts (env : Environment) (family : Family) (key : Str) (trace : Trace)
    (items : List Item) : ∃ es, (publishPending env family key trace items).1 = trace ++ es ∧
      ∀ e ∈ es, ∃ batch outcome,
        e = .attempted family key (deviceOf family key) batch outcome := by
  induction trace, items using publishPending_induction env family key with
  | nil trace => exact ⟨[], by simp [publishPending_nil], by simp⟩
  | accepted trace items hi ha ih =>
    obtain ⟨es, hes, hall⟩ := ih
    rw [publishPending_accepted trace hi ha]
    refine ⟨_ :: es, by rw [hes, List.append_assoc, List.singleton_append], ?_⟩
    intro e he
    rcases List.mem_cons.mp he with rfl | he
    · exact ⟨_, _, rfl⟩
    · exact hall e he
  | stopped trace items outcome hi hne ho =>
    rw [publishPending_of_ne_accepted trace hi hne ho]
    refine ⟨[_], rfl, fun e he => ?_⟩
    rw [List.mem_singleton.mp he]
    exact ⟨_, _, rfl⟩

def isAttemptAt (family : Family) (key : Str) : Effect → Bool
  | .attempted f k _ _ _ => f = family && k = key
  | _ => false

def attemptsAt (family : Family) (key : Str) (trace : Trace) : Trace :=
  trace.filter (isAttemptAt family key)

/-- What has been attempted under a key, and what it holds. -/
def keyView (family : Family) (s : DataState P) (key : Str) : Trace × List Item :=
  (attemptsAt family key s.trace, contentsOf s family key)

/-- Publishing as a change of one key's view. -/
def publishView (env : Environment) (family : Family) (key : Str) (v : Trace × List Item) :
    Trace × List Item :=
  (v.1 ++ (publishPending env family key [] v.2).1, (publishPending env family key [] v.2).2)

theorem attemptsAt_publishPending (items : List Item) (k : Str) :
    attemptsAt family k (publishPending env family key [] items).1 =
      if k = key then (publishPending env family key [] items).1 else [] := by
  obtain ⟨es, hes, hall⟩ := publishPending_attempts env family key [] items
  rw [hes, List.nil_append]
  split_ifs with hk
  · subst hk
    refine List.filter_eq_self.mpr fun e he => ?_
    obtain ⟨batch, outcome, rfl⟩ := hall e he
    simp [isAttemptAt]
  · refine List.filter_eq_nil_iff.mpr fun e he => ?_
    obtain ⟨batch, outcome, rfl⟩ := hall e he
    simp [isAttemptAt, Ne.symm hk]

/-- Publishing one key changes its own view, and no other. -/
theorem publishKey_actsOn (h : Stateless env) (family : Family) :
    ActsOn (keyView (P := P) family) id (publishView env family)
      fun s key => publishKey env family key s := by
  intro s key k
  have hl := publishKey_refines env family key s
  have htrace : (publishKey env family key s).trace =
      s.trace ++ (publishPending env family key [] (contentsOf s family key)).1 := by
    have ht : (publishKey env family key s).trace =
        (publishPending env family key s.trace (contentsOf s family key)).1 :=
      congrArg Ledger.trace hl
    rw [ht, h.publishPending_eq]
  have hcontents : contentsOf (publishKey env family key s) family key =
      (publishPending env family key [] (contentsOf s family key)).2 := by
    have hc : (ledgerOf (publishKey env family key s)).contents family key =
        (publishPending env family key s.trace (contentsOf s family key)).2 := by
      rw [hl, attemptKey_here]
      rfl
    rw [h.publishPending_eq] at hc
    exact hc
  simp only [id_eq, keyView, publishView]
  rw [htrace, attemptsAt, List.filter_append, ← attemptsAt, ← attemptsAt,
    attemptsAt_publishPending]
  split_ifs with hk
  · subst hk
    rw [hcontents]
  · rw [publishKey_elsewhere env family s (by simp [hk]), List.append_nil]

def keysOf (family : Family) (s : DataState P) : List Str :=
  match family with
  | .sensorReadings => P.sensorReadings.keys s.sensorReadings
  | .alarms => P.alarms.keys s.alarms
  | .actuatorStatuses => P.actuatorStatuses.keys s.actuatorStatuses
  | .configurations => P.configurations.keys s.configurations

def publishFamily (env : Environment) (family : Family) (s : DataState P) : DataState P :=
  match family with
  | .sensorReadings => publishSensorReadings env s
  | .alarms => publishAlarms env s
  | .actuatorStatuses => publishActuatorStatuses env s
  | .configurations => publishConfiguration env s

theorem keysOf_nodup (family : Family) (s : DataState P) : (keysOf family s).Nodup := by
  cases family with
  | sensorReadings => exact P.sensorReadings.keys_nodup _
  | alarms => exact P.alarms.keys_nodup _
  | actuatorStatuses => exact P.actuatorStatuses.keys_nodup _
  | configurations => exact P.configurations.keys_nodup _

theorem mem_keysOf (family : Family) (s : DataState P) (key : Str) :
    key ∈ keysOf family s ↔ contentsOf s family key ≠ [] := by
  cases family with
  | sensorReadings => simp [keysOf, contentsOf, P.sensorReadings.mem_keys]
  | alarms => simp [keysOf, contentsOf, P.alarms.mem_keys]
  | actuatorStatuses =>
    simp [keysOf, contentsOf, P.actuatorStatuses.mem_keys, Option.isSome_iff_ne_none]
  | configurations =>
    simp [keysOf, contentsOf, P.configurations.mem_keys, Option.isSome_iff_ne_none]

theorem publishFamily_eq (env : Environment) (family : Family) (s : DataState P) :
    publishFamily env family s =
      (keysOf family s).foldl (fun s key => publishKey env family key s) s := by
  cases family <;> rfl

theorem publishFamilyOf_eq (env : Environment) (hf : family ≠ .configurations) (d : Str)
    (s : DataState P) : publishFamilyOf env family d s =
      ((keysOf family s).filter fun key => deviceOf family key = d).foldl
        (fun s key => publishKey env family key s) s := by
  cases family <;> first | rfl | exact absurd rfl hf

theorem publishView_of_not_mem (s : DataState P) (h : key ∉ keysOf family s) :
    publishView env family key (keyView family s key) = keyView family s key := by
  have hc : contentsOf s family key = [] := by
    by_contra hne
    exact h ((mem_keysOf family s key).mpr hne)
  simp [publishView, keyView, hc, publishPending_nil]

/-- Publishing a device changes the views of its keys, and no others. -/
theorem publishFamilyOf_actsOn (h : Stateless env) (family : Family) :
    ActsOn (keyView (P := P) family) (deviceOf family) (publishView env family)
      fun s d => publishFamilyOf env family d s := by
  by_cases hf : family = .configurations
  · subst hf
    exact publishKey_actsOn h .configurations
  · have hclass := (publishKey_actsOn (P := P) h family).classwise (deviceOf family)
      (keysOf_nodup family) fun s key hk => publishView_of_not_mem s hk
    intro s d k
    dsimp only
    rw [publishFamilyOf_eq env hf]
    exact hclass s d k

theorem keyView_publishFamily (h : Stateless env) (s : DataState P) (key : Str) :
    keyView family (publishFamily env family s) key =
      publishView env family key (keyView family s key) := by
  rw [publishFamily_eq]
  refine (publishKey_actsOn h family).foldl_eq (keysOf_nodup family s) fun hk => ?_
  exact publishView_of_not_mem s hk

/-- One loop for each device that has something pending, in any order. -/
theorem keyView_devices (h : Stateless env) {ds : List Str} (hnd : ds.Nodup) {s : DataState P}
    (hds : ∀ d, d ∈ ds ↔ ∃ k ∈ keysOf family s, deviceOf family k = d) (key : Str) :
    keyView family (ds.foldl (fun s d => publishFamilyOf env family d s) s) key =
      publishView env family key (keyView family s key) := by
  refine (publishFamilyOf_actsOn h family).foldl_eq hnd fun hk => publishView_of_not_mem s ?_
  intro hmem
  exact hk ((hds _).mpr ⟨key, hmem, rfl⟩)

/-- The attempts at a key between two states, and what it holds in the second. -/
def publishedAt (family : Family) (key : Str) (s t : DataState P) : Trace × List Item :=
  (attemptsAt family key (t.trace.drop s.trace.length), contentsOf t family key)

/-- The view of a key after publishing, without what was attempted before. -/
theorem publishedAt_of_keyView {s t : DataState P} {allowed : Effect → Prop}
    (hm : Moves env' allowed s t)
    (hv : keyView family t key = publishView env family key (keyView family s key)) :
    publishedAt family key s t = publishPending env family key [] (contentsOf s family key) := by
  obtain ⟨es, ht, -⟩ := hm.trace_eq
  obtain ⟨hattempts, hcontents⟩ := Prod.mk.inj hv
  rw [ht, attemptsAt, List.filter_append] at hattempts
  have hes := List.append_cancel_left hattempts
  rw [publishedAt, ht, List.drop_left, hcontents, attemptsAt, hes]
  rfl

theorem publishFamily_moves (env : Environment) (family : Family) (s : DataState P) :
    Moves env (AttemptAt family fun _ => True) s (publishFamily env family s) := by
  cases family with
  | sensorReadings => exact publishSensorReadings_moves s
  | alarms => exact publishAlarms_moves s
  | actuatorStatuses => exact publishActuatorStatuses_moves s
  | configurations => exact publishConfiguration_moves s

theorem publishKey_settles (family : Family) (key : Str) (s : DataState P) :
    Settles family key s (publishKey env family key s) := by
  cases family with
  | sensorReadings => exact publishSensorReadingsForPersistanceKey_settles key s
  | alarms => exact publishAlarmsForPersistanceKey_settles key s
  | actuatorStatuses => exact publishActuatorStatusesForPersistanceKey_settles key s
  | configurations => exact publishConfigurationForPersistanceKey_settles key s

theorem publishKey_attempts (family : Family) (key : Str) (s : DataState P) :
    Moves env IsAttempt s (publishKey env family key s) := by
  cases family with
  | sensorReadings =>
    exact (publishSensorReadingsForPersistanceKey_moves key s).mono AttemptAt.isAttempt
  | alarms => exact (publishAlarmsForPersistanceKey_moves key s).mono AttemptAt.isAttempt
  | actuatorStatuses =>
    exact (publishActuatorStatusesForPersistanceKey_moves key s).mono AttemptAt.isAttempt
  | configurations =>
    exact (publishConfigurationForPersistanceKey_moves key s).mono AttemptAt.isAttempt

/-- Publishing a family settles every key. -/
theorem publishFamily_settles (env : Environment) (family : Family) (key : Str)
    (s : DataState P) : Settles family key s (publishFamily env family s) := by
  rw [publishFamily_eq]
  by_cases hc : contentsOf s family key = []
  · have hloop : Moves env IsAttempt s
        ((keysOf family s).foldl (fun s key => publishKey env family key s) s) :=
      .foldl _ (fun key _ s => publishKey_attempts family key s) s
    exact (Settles.of_nil hc).trans_right hloop
  · exact .foldl ((mem_keysOf family s key).mpr hc) (publishKey_attempts family)
      (publishKey_settles family) s

theorem publishedAt_publishFamily (h : Stateless env) (family : Family) (s : DataState P)
    (key : Str) :
    publishedAt family key s (publishFamily env family s) =
      publishPending env family key [] (contentsOf s family key) :=
  publishedAt_of_keyView (publishFamily_moves env family s) (keyView_publishFamily h s key)

theorem publishedAt_devices (h : Stateless env) {ds : List Str} (hnd : ds.Nodup)
    {s : DataState P} (hds : ∀ d, d ∈ ds ↔ ∃ k ∈ keysOf family s, deviceOf family k = d)
    (key : Str) :
    publishedAt family key s (ds.foldl (fun s d => publishFamilyOf env family d s) s) =
      publishPending env family key [] (contentsOf s family key) := by
  have hm : Moves env IsAttempt s (ds.foldl (fun s d => publishFamilyOf env family d s) s) :=
    .foldl ds (fun d _ s => (publishFamilyOf_moves family d s).mono AttemptAt.isAttempt) s
  exact publishedAt_of_keyView hm (keyView_devices h hnd hds key)

theorem foldl_publishKey_attempts (env : Environment) (family : Family) (keys : List Str)
    (s : DataState P) :
    ∃ es, (keys.foldl (fun s key => publishKey env family key s) s).trace = s.trace ++ es ∧
      ∀ e ∈ es, ∃ key ∈ keys, ∃ batch outcome,
        e = .attempted family key (deviceOf family key) batch outcome := by
  induction keys generalizing s with
  | nil => exact ⟨[], by simp, by simp⟩
  | cons key keys ih =>
    have hhead : (publishKey env family key s).trace =
        (publishPending env family key s.trace (contentsOf s family key)).1 :=
      congrArg Ledger.trace (publishKey_refines env family key s)
    obtain ⟨es, hes, hall⟩ := publishPending_attempts env family key s.trace
      (contentsOf s family key)
    obtain ⟨es', hes', hall'⟩ := ih (publishKey env family key s)
    refine ⟨es ++ es', ?_, fun e he => ?_⟩
    · rw [List.foldl_cons, hes', hhead, hes, List.append_assoc]
    · rcases List.mem_append.mp he with he | he
      · obtain ⟨batch, outcome, heq⟩ := hall e he
        exact ⟨key, List.mem_cons_self, batch, outcome, heq⟩
      · obtain ⟨k, hk, hrest⟩ := hall' e he
        exact ⟨k, List.mem_cons_of_mem _ hk, hrest⟩

/-- Publishing a device sends messages for that device alone. -/
theorem publishFamilyOf_attempts (env : Environment) (family : Family) (d : Str)
    (s : DataState P) :
    ∃ es, (publishFamilyOf env family d s).trace = s.trace ++ es ∧
      ∀ e ∈ es, ∃ key batch outcome, deviceOf family key = d ∧
        e = .attempted family key d batch outcome := by
  by_cases hf : family = .configurations
  · subst hf
    obtain ⟨es, hes, hall⟩ := foldl_publishKey_attempts env .configurations [d] s
    refine ⟨es, hes, fun e he => ?_⟩
    obtain ⟨key, hk, batch, outcome, rfl⟩ := hall e he
    rw [List.mem_singleton.mp hk]
    exact ⟨d, batch, outcome, rfl, rfl⟩
  · rw [publishFamilyOf_eq env hf]
    obtain ⟨es, hes, hall⟩ := foldl_publishKey_attempts env family
      ((keysOf family s).filter fun key => deviceOf family key = d) s
    refine ⟨es, hes, fun e he => ?_⟩
    obtain ⟨key, hk, batch, outcome, rfl⟩ := hall e he
    obtain ⟨-, hd⟩ := List.mem_filter.mp hk
    have hd : deviceOf family key = d := by simpa using hd
    exact ⟨key, batch, outcome, hd, by rw [hd]⟩

theorem foldl_publishKey_elsewhere (env : Environment) {keys : List Str} {f : Family}
    (h : ¬ (f = family ∧ key ∈ keys)) (s : DataState P) :
    contentsOf (keys.foldl (fun s key => publishKey env family key s) s) f key =
      contentsOf s f key := by
  induction keys generalizing s with
  | nil => rfl
  | cons k keys ih =>
    simp only [List.mem_cons, not_and, not_or] at h
    rw [List.foldl_cons, ih (fun hmem => (h hmem.1).2 hmem.2),
      publishKey_elsewhere env family s fun hk => (h hk.1).1 hk.2]

theorem publishFamilyOf_elsewhere (env : Environment) {d : Str} {f : Family}
    (h : ¬ (f = family ∧ deviceOf family key = d)) (s : DataState P) :
    contentsOf (publishFamilyOf env family d s) f key = contentsOf s f key := by
  by_cases hf : family = .configurations
  · subst hf
    exact publishKey_elsewhere env .configurations s h
  · rw [publishFamilyOf_eq env hf]
    refine foldl_publishKey_elsewhere env (fun hmem => ?_) s
    exact h ⟨hmem.1, by simpa using (List.mem_filter.mp hmem.2).2⟩

/-- Publishing all of a family comes, under every key, to the same messages and the same
remaining items as publishing it device by device, in any order of the devices and of the
keys; a device's pass stays with its keys and its messages; and what happens under a key
depends on nothing that is kept, or that fails, under another. -/
theorem publishFamily_device_by_device (env : Environment) (henv : Stateless env)
    (family : Family) (s : DataState P) (t : DataState Q)
    (hst : contentsOf s family = contentsOf t family) (ds : List Str) (hnd : ds.Nodup)
    (hds : ∀ d, d ∈ ds ↔ ∃ k ∈ keysOf family t, deviceOf family k = d) :
    (∀ key, publishedAt family key s (publishFamily env family s) =
      publishedAt family key t (ds.foldl (fun t d => publishFamilyOf env family d t) t)) ∧
    (∀ d f key, ¬ (f = family ∧ deviceOf family key = d) →
      contentsOf (publishFamilyOf env family d s) f key = contentsOf s f key) ∧
    (∀ d, ∃ es, (publishFamilyOf env family d s).trace = s.trace ++ es ∧
      ∀ e ∈ es, ∃ key batch outcome, deviceOf family key = d ∧
        e = .attempted family key d batch outcome) ∧
    (∀ (u : DataState Q) (env' : Environment) (key : Str), Stateless env' →
      contentsOf s family key = contentsOf u family key →
      (∀ i, attemptOutcome env [] family key
          (batch PUBLISH_BATCH_ITEMS_COUNT (contentsOf s family key) i) =
        attemptOutcome env' [] family key
          (batch PUBLISH_BATCH_ITEMS_COUNT (contentsOf s family key) i)) →
      publishedAt family key s (publishFamily env family s) =
        publishedAt family key u (publishFamily env' family u)) := by
  refine ⟨fun key => ?_, ?_, ?_, ?_⟩
  · rw [publishedAt_publishFamily henv family, publishedAt_devices henv hnd hds, hst]
  · intro d f key h
    exact publishFamilyOf_elsewhere env h s
  · intro d
    exact publishFamilyOf_attempts env family d s
  · intro u env' key henv' hsame hagree
    rw [publishedAt_publishFamily henv family, publishedAt_publishFamily henv' family, ← hsame]
    exact publishPending_congr henv henv' [] _ hagree

/-- Two devices with an alarm each, of which the first one's is rejected. -/
theorem publishFamily_device_by_device_ab :
    let env := { Environment.obliging with
      accepts := fun _ message => message ≠ .data .alarms ['a'] [.alarm ⟨true, ['r'], 1⟩] }
    let s := addAlarm ['b'] ['r'] true 2 (addAlarm ['a'] ['r'] true 1 (.initial .inMemory))
    ∀ key, publishedAt .alarms key s (publishAlarms env s) =
      publishedAt .alarms key s (publishAlarmsOf env ['a'] (publishAlarmsOf env ['b'] s)) := by
  intro env s
  have henv : Stateless env := fun _ _ _ => ⟨rfl, rfl⟩
  have hkeys : keysOf .alarms s = [['b', '+', 'r'], ['a', '+', 'r']] := by decide +kernel
  have hds : ∀ d, d ∈ [['b'], ['a']] ↔ ∃ k ∈ keysOf .alarms s, deviceOf .alarms k = d := by
    have hb : deviceOf .alarms ['b', '+', 'r'] = ['b'] := by decide
    have ha : deviceOf .alarms ['a', '+', 'r'] = ['a'] := by decide
    intro d
    simp [hkeys, hb, ha, eq_comm]
  exact (publishFamily_device_by_device env henv .alarms s s rfl [['b'], ['a']] (by decide)
    hds).1

end WolkGateway.PublishingByDevice
