import WolkGateway.DataService
import WolkGateway.GuardedRuns

/-!
# The ledger of pending data

An abstract account of what the data service is for: every family keeps, under every key,
a list of pending items; items are added, and attempts to send the oldest of them either
consume them or leave them. Each `DataService` function is a sequence of such moves,
whatever the persistence implementation and the environment, so what the moves preserve
is preserved by any program that reaches its data through these functions.
-/

namespace WolkGateway.DataLedger
open DeviceModel KeyedStores DataService GuardedRuns

structure Ledger where
  contents : Family → Str → List Item
  trace : Trace

def slotKey (deviceKey reference : Str) : Item → Str
  | .configuration _ => deviceKey
  | _ => makePersistenceKey deviceKey reference

/-- The device a message for a persistence key is built for. -/
def deviceOf (family : Family) (key : Str) : Str :=
  match family with
  | .configurations => key
  | _ => (parsePersistenceKey key).1

def keepsAll : Family → Bool
  | .sensorReadings | .alarms => true
  | .actuatorStatuses | .configurations => false

def putItem (family : Family) (pending : List Item) (item : Item) : List Item :=
  if keepsAll family then pending ++ [item] else [item]

/-- Every family but the configurations discards what it finds under a malformed key. -/
def attemptOutcome (env : Environment) (trace : Trace) (family : Family) (key : Str)
    (items : List Item) : Outcome :=
  if family ≠ .configurations ∧ ¬ Parses key then .unparsable
  else env.outcome trace (.data family (deviceOf family key) items)

def setAt (contents : Family → Str → List Item) (family : Family) (key : Str)
    (items : List Item) : Family → Str → List Item :=
  fun f k => if f = family ∧ k = key then items else contents f k

/-- The effects that are neither a put nor an attempt, and agree with the environment. -/
def Unrelated (env : Environment) (trace : Trace) : Effect → Prop
  | .added .. | .attempted .. => False
  | .sent message outcome => outcome = env.outcome trace message
  | _ => True

inductive Move (env : Environment) : Ledger → Effect → Ledger → Prop
  | add (L : Ledger) (deviceKey reference : Str) (item : Item) :
      Move env L (.added deviceKey reference item)
        ⟨setAt L.contents item.family (slotKey deviceKey reference item)
          (putItem item.family (L.contents item.family (slotKey deviceKey reference item)) item),
          L.trace ++ [.added deviceKey reference item]⟩
  | attempt (L : Ledger) (family : Family) (key : Str) (items : List Item) (outcome : Outcome)
      (hitems : items = (L.contents family key).take PUBLISH_BATCH_ITEMS_COUNT)
      (hne : items ≠ []) (hout : outcome = attemptOutcome env L.trace family key items) :
      Move env L (.attempted family key (deviceOf family key) items outcome)
        ⟨if outcome = .rejected then L.contents
          else setAt L.contents family key
            ((L.contents family key).drop PUBLISH_BATCH_ITEMS_COUNT),
          L.trace ++ [.attempted family key (deviceOf family key) items outcome]⟩
  | other (L : Ledger) (e : Effect) (he : Unrelated env L.trace e) :
      Move env L e ⟨L.contents, L.trace ++ [e]⟩

theorem Move.trace_eq {env : Environment} {L M : Ledger} {e : Effect} (h : Move env L e M) :
    M.trace = L.trace ++ [e] := by
  cases h <;> rfl

theorem path_trace_eq {env : Environment} {L M : Ledger} {es : Trace}
    (h : Path (Move env) L es M) : M.trace = L.trace ++ es := by
  induction h with
  | nil => simp
  | cons hm _ ih => simp [ih, hm.trace_eq]

theorem attempt_ne_nil {env : Environment} {L M : Ledger} {es : Trace} {family : Family}
    {key deviceKey : Str} {items : List Item} {outcome : Outcome} (hp : Path (Move env) L es M)
    (h : .attempted family key deviceKey items outcome ∈ es) : items ≠ [] := by
  induction hp with
  | nil => cases h
  | cons hm _ ih =>
    rcases List.mem_cons.mp h with rfl | h
    · cases hm with
      | attempt _ _ _ _ _ hne => exact hne
      | other _ hu => exact hu.elim
    · exact ih h

variable {P : Persistence} {env : Environment}

def contentsOf (s : DataState P) : Family → Str → List Item
  | .sensorReadings, k => (P.sensorReadings.contents s.sensorReadings k).map .sensorReading
  | .alarms, k => (P.alarms.contents s.alarms k).map .alarm
  | .actuatorStatuses, k =>
      ((P.actuatorStatuses.get s.actuatorStatuses k).map Item.actuatorStatus).toList
  | .configurations, k =>
      ((P.configurations.get s.configurations k).map Item.configuration).toList

def ledgerOf (s : DataState P) : Ledger := ⟨contentsOf s, s.trace⟩

theorem contentsOf_slot {family : Family} (hf : keepsAll family = false) (s : DataState P)
    (key : Str) : contentsOf s family key = [] ∨ ∃ x, contentsOf s family key = [x] := by
  cases family with
  | sensorReadings | alarms => cases hf
  | actuatorStatuses =>
    simp only [contentsOf]
    cases P.actuatorStatuses.get s.actuatorStatuses key <;> simp
  | configurations =>
    simp only [contentsOf]
    cases P.configurations.get s.configurations key <;> simp

@[simp] theorem contentsOf_initial (f : Family) (k : Str) :
    contentsOf (DataState.initial P) f k = [] := by
  cases f <;> simp [contentsOf, DataState.initial, KeyedFifo.contents_empty, KeyedSlot.get_empty]

/-- `t` is reached from `s` by moves whose effects are all allowed. -/
def Moves (env : Environment) (allowed : Effect → Prop) (s t : DataState P) : Prop :=
  ∃ es, Path (Move env) (ledgerOf s) es (ledgerOf t) ∧ ∀ e ∈ es, allowed e

namespace Moves

variable {allowed allowed' : Effect → Prop} {s t u : DataState P}

theorem refl (allowed : Effect → Prop) (s : DataState P) : Moves env allowed s s :=
  ⟨[], .nil _, by simp⟩

theorem trans (h : Moves env allowed s t) (h' : Moves env allowed t u) :
    Moves env allowed s u := by
  obtain ⟨es, hp, he⟩ := h
  obtain ⟨es', hp', he'⟩ := h'
  refine ⟨es ++ es', hp.trans hp', fun e hmem => ?_⟩
  rcases List.mem_append.mp hmem with hmem | hmem
  · exact he e hmem
  · exact he' e hmem

theorem mono (h : Moves env allowed s t) (hsub : ∀ e, allowed e → allowed' e) :
    Moves env allowed' s t := by
  obtain ⟨es, hp, he⟩ := h
  exact ⟨es, hp, fun e hmem => hsub e (he e hmem)⟩

theorem single {e : Effect} (h : Move env (ledgerOf s) e (ledgerOf t)) (he : allowed e) :
    Moves env allowed s t :=
  ⟨[e], .single h, by simpa using he⟩

/-- A loop whose body makes allowed moves makes allowed moves. -/
theorem foldl {α : Type} {f : DataState P → α → DataState P} (l : List α)
    (h : ∀ a ∈ l, ∀ s, Moves env allowed s (f s a)) (s : DataState P) :
    Moves env allowed s (l.foldl f s) := by
  induction l generalizing s with
  | nil => exact refl _ _
  | cons a l ih =>
    exact (h a List.mem_cons_self s).trans
      (ih (fun b hb => h b (List.mem_cons_of_mem _ hb)) (f s a))

theorem trace_eq (h : Moves env allowed s t) :
    ∃ es, t.trace = s.trace ++ es ∧ ∀ e ∈ es, allowed e := by
  obtain ⟨es, hp, he⟩ := h
  exact ⟨es, path_trace_eq hp, he⟩

/-- What every move preserves is preserved. -/
theorem invariant {inv : Ledger → Prop} (h : Moves env allowed s t)
    (hstep : ∀ L e M, inv L → allowed e → Move env L e M → inv M) (h0 : inv (ledgerOf s)) :
    inv (ledgerOf t) := by
  obtain ⟨es, hp, he⟩ := h
  generalize ledgerOf s = L at hp h0
  generalize ledgerOf t = M at hp
  induction hp with
  | nil => exact h0
  | cons hm _ ih =>
    exact ih (fun e hmem => he e (List.mem_cons_of_mem _ hmem))
      (hstep _ _ _ h0 (he _ List.mem_cons_self) hm)

end Moves

theorem log_moves {allowed : Effect → Prop} (s : DataState P) (e : Effect) (ha : allowed e)
    (he : Unrelated env s.trace e) : Moves env allowed s (s.log e) :=
  .single (Move.other (ledgerOf s) e he) ha

def withFamily (contents : Family → Str → List Item) (family : Family) (g : Str → List Item) :
    Family → Str → List Item :=
  fun f k => if f = family then g k else contents f k

theorem setAt_withFamily {c : Family → Str → List Item} {family : Family} {key : Str}
    {g g' : Str → List Item} {items : List Item}
    (h : ∀ k, g' k = if k = key then items else g k) :
    setAt (withFamily c family g) family key items = withFamily c family g' := by
  funext f k
  by_cases hf : f = family
  · subst hf
    simp [setAt, withFamily, h]
  · simp [setAt, withFamily, hf]

/-- An attempt that consumes its batch, seen in one family. -/
theorem Move.consume {c : Family → Str → List Item} {family : Family} {key : Str}
    {g g' : Str → List Item} {items : List Item} {outcome : Outcome} {trace : Trace}
    (hitems : items = (g key).take PUBLISH_BATCH_ITEMS_COUNT) (hne : items ≠ [])
    (hg : ∀ k, g' k = if k = key then (g key).drop PUBLISH_BATCH_ITEMS_COUNT else g k)
    (hout : outcome = attemptOutcome env trace family key items) (hr : outcome ≠ .rejected) :
    Move env ⟨withFamily c family g, trace⟩
      (.attempted family key (deviceOf family key) items outcome)
      ⟨withFamily c family g',
        trace ++ [.attempted family key (deviceOf family key) items outcome]⟩ := by
  have hm : Move env _ _ _ := .attempt ⟨withFamily c family g, trace⟩ family key items outcome
    (by simpa [withFamily] using hitems) hne hout
  have hset : setAt (withFamily c family g) family key
      ((withFamily c family g family key).drop PUBLISH_BATCH_ITEMS_COUNT) =
      withFamily c family g' := setAt_withFamily (by simpa [withFamily] using hg)
  simpa only [if_neg hr, hset] using hm

/-- A rejected attempt, seen in one family. -/
theorem Move.keep {c : Family → Str → List Item} {family : Family} {key : Str}
    {g : Str → List Item} {items : List Item} {trace : Trace}
    (hitems : items = (g key).take PUBLISH_BATCH_ITEMS_COUNT) (hne : items ≠ [])
    (hout : .rejected = attemptOutcome env trace family key items) :
    Move env ⟨withFamily c family g, trace⟩
      (.attempted family key (deviceOf family key) items .rejected)
      ⟨withFamily c family g,
        trace ++ [.attempted family key (deviceOf family key) items .rejected]⟩ := by
  have hm : Move env _ _ _ := .attempt ⟨withFamily c family g, trace⟩ family key items .rejected
    (by simpa [withFamily] using hitems) hne hout
  simpa using hm

/-- The effect is an attempt in the family, at a key of the given set. -/
def AttemptAt (family : Family) (keys : Str → Prop) (e : Effect) : Prop :=
  ∃ key deviceKey items outcome, e = .attempted family key deviceKey items outcome ∧ keys key

theorem deviceOf_eq {family : Family} (h : family ≠ .configurations) (key : Str) :
    deviceOf family key = (parsePersistenceKey key).1 := by
  cases family <;> first | rfl | exact absurd rfl h

section Batches

variable {ι : Type} (F : KeyedFifo Str ι) {family : Family} (item : ι → Item)

/-- One pass of the batch loop: nothing to fetch, or one attempt that ends the loop unless
it was accepted. -/
theorem publishBatches_eq (hf : family ≠ .configurations) (key : Str) (s : F.State)
    (trace : Trace) :
    publishBatches F family item env key s trace =
      if F.get s key PUBLISH_BATCH_ITEMS_COUNT = [] then (s, trace)
      else
        let items := (F.get s key PUBLISH_BATCH_ITEMS_COUNT).map item
        let outcome := attemptOutcome env trace family key items
        let trace' := trace ++ [.attempted family key (deviceOf family key) items outcome]
        let removed := F.remove s key PUBLISH_BATCH_ITEMS_COUNT
        match outcome with
        | .rejected => (s, trace')
        | .accepted => publishBatches F family item env key removed trace'
        | _ => (removed, trace') := by
  rw [publishBatches]
  by_cases h : F.get s key PUBLISH_BATCH_ITEMS_COUNT = []
  · rw [dif_pos h, if_pos h]
  rw [dif_neg h, if_neg h]
  simp only [isEmpty_or_isEmpty_iff, attemptOutcome, deviceOf_eq hf, Environment.outcome]
  by_cases hp : Parses key
  · simp only [hp, not_true_eq_false, if_false, and_false]
    split_ifs <;> rfl
  · simp [hp, hf]

theorem map_get (s : F.State) (key : Str) (n : ℕ) :
    (F.get s key n).map item = ((F.contents s key).map item).take n := by
  rw [F.get_eq, List.map_take]

theorem map_contents_remove (s : F.State) (key : Str) (n : ℕ) (k : Str) :
    (F.contents (F.remove s key n) k).map item =
      if k = key then ((F.contents s key).map item).drop n else (F.contents s k).map item := by
  rw [F.contents_remove]
  split_ifs with hk
  · rw [hk, List.map_drop]
  · rfl

/-- The batch loop as moves at its own key. -/
theorem publishBatches_path (env : Environment) (c : Family → Str → List Item)
    (hf : family ≠ .configurations) (key : Str) (s : F.State) (trace : Trace) :
    ∃ es, Path (Move env) ⟨withFamily c family fun k => (F.contents s k).map item, trace⟩ es
        ⟨withFamily c family fun k =>
            (F.contents (publishBatches F family item env key s trace).1 k).map item,
          (publishBatches F family item env key s trace).2⟩ ∧
      ∀ e ∈ es, AttemptAt family (· = key) e := by
  induction hn : (F.contents s key).length using Nat.strong_induction_on generalizing s trace with
  | _ n ih =>
    rw [publishBatches_eq F item hf]
    by_cases h : F.get s key PUBLISH_BATCH_ITEMS_COUNT = []
    · rw [if_pos h]
      exact ⟨[], .nil _, by simp⟩
    rw [if_neg h]
    have hitems := map_get F item s key PUBLISH_BATCH_ITEMS_COUNT
    have hne : (F.get s key PUBLISH_BATCH_ITEMS_COUNT).map item ≠ [] := by simpa using h
    have hremoved := map_contents_remove F item s key PUBLISH_BATCH_ITEMS_COUNT
    have hat : ∀ (items : List Item) (o : Outcome),
        ∀ e ∈ [Effect.attempted family key (deviceOf family key) items o],
          AttemptAt family (· = key) e := by
      intro items o e he
      exact ⟨key, _, items, o, by simpa using he, rfl⟩
    dsimp only
    generalize ho : attemptOutcome env trace family key
      ((F.get s key PUBLISH_BATCH_ITEMS_COUNT).map item) = outcome
    cases outcome with
    | rejected => exact ⟨[_], .single (Move.keep hitems hne ho.symm), hat _ _⟩
    | accepted =>
      have hlt := F.length_remove_lt s key _ h
      obtain ⟨es, hp, hes⟩ := ih _ (hn ▸ hlt) _
        (trace ++ [Effect.attempted family key (deviceOf family key)
          ((F.get s key PUBLISH_BATCH_ITEMS_COUNT).map item) .accepted]) rfl
      refine ⟨_ :: es, .cons (Move.consume hitems hne hremoved ho.symm (by simp)) hp, ?_⟩
      intro e he
      rcases List.mem_cons.mp he with rfl | he
      · exact hat _ _ _ List.mem_cons_self
      · exact hes e he
    | unparsable =>
      exact ⟨[_], .single (Move.consume hitems hne hremoved ho.symm (by simp)), hat _ _⟩
    | unbuildable =>
      exact ⟨[_], .single (Move.consume hitems hne hremoved ho.symm (by simp)), hat _ _⟩

end Batches

section Values

variable {ι : Type} (F : KeyedSlot Str ι) {family : Family} (item : ι → Item)

def valueAt (s : F.State) (key : Str) : List Item := ((F.get s key).map item).toList

theorem valueAt_of_get {key : Str} {s : F.State} {value : ι} (h : F.get s key = some value) :
    valueAt F item s key = [item value] := by
  simp [valueAt, h]

theorem valueAt_remove {key : Str} {s : F.State} {value : ι} (h : F.get s key = some value)
    (k : Str) : valueAt F item (F.remove s key) k =
      if k = key then (valueAt F item s key).drop PUBLISH_BATCH_ITEMS_COUNT
      else valueAt F item s k := by
  rw [valueAt_of_get F item h]
  unfold valueAt
  rw [F.get_remove]
  split_ifs <;> rfl

theorem publishValue_move (c : Family → Str → List Item) {key : Str} {s : F.State} {value : ι}
    (h : F.get s key = some value) (trace : Trace)
    (ho : attemptOutcome env trace family key [item value] =
      env.outcome trace (.data family (deviceOf family key) [item value])) :
    ∃ e, Move env ⟨withFamily c family (valueAt F item s), trace⟩ e
        ⟨withFamily c family (valueAt F item
            (publishValue F family item env key (deviceOf family key) value s trace).1),
          (publishValue F family item env key (deviceOf family key) value s trace).2⟩ ∧
      AttemptAt family (· = key) e := by
  have hitems : [item value] = (valueAt F item s key).take PUBLISH_BATCH_ITEMS_COUNT := by
    rw [valueAt_of_get F item h]
    rfl
  have hat : ∀ o, AttemptAt family (· = key)
      (.attempted family key (deviceOf family key) [item value] o) :=
    fun o => ⟨key, _, _, o, rfl, rfl⟩
  simp only [Environment.outcome] at ho
  unfold publishValue
  dsimp only
  split_ifs at ho ⊢
  · exact ⟨_, Move.consume hitems (by simp) (valueAt_remove F item h) ho.symm (by simp), hat _⟩
  · exact ⟨_, Move.consume hitems (by simp) (valueAt_remove F item h) ho.symm (by simp), hat _⟩
  · exact ⟨_, Move.keep hitems (by simp) ho.symm, hat _⟩

end Values

theorem contentsOf_sensorReadings (s : DataState P) :
    contentsOf s = withFamily (contentsOf s) .sensorReadings
      fun k => (P.sensorReadings.contents s.sensorReadings k).map .sensorReading := by
  funext f k
  cases f <;> rfl

theorem contentsOf_alarms (s : DataState P) :
    contentsOf s = withFamily (contentsOf s) .alarms
      fun k => (P.alarms.contents s.alarms k).map .alarm := by
  funext f k
  cases f <;> rfl

theorem contentsOf_actuatorStatuses (s : DataState P) :
    contentsOf s = withFamily (contentsOf s) .actuatorStatuses
      (valueAt P.actuatorStatuses .actuatorStatus s.actuatorStatuses) := by
  funext f k
  cases f <;> rfl

theorem contentsOf_configurations (s : DataState P) :
    contentsOf s = withFamily (contentsOf s) .configurations
      (valueAt P.configurations .configuration s.configurations) := by
  funext f k
  cases f <;> rfl

theorem add_moves {s t : DataState P} (deviceKey reference : Str) (item : Item)
    (hc : contentsOf t = setAt (contentsOf s) item.family (slotKey deviceKey reference item)
      (putItem item.family (contentsOf s item.family (slotKey deviceKey reference item)) item))
    (ht : t.trace = s.trace ++ [.added deviceKey reference item]) :
    Moves env (· = .added deviceKey reference item) s t := by
  refine .single (e := .added deviceKey reference item) ?_ rfl
  have hm : Move env _ _ _ := .add (ledgerOf s) deviceKey reference item
  rwa [show ledgerOf t = ⟨_, _⟩ from congrArg₂ Ledger.mk hc ht]

theorem addSensorReading_moves (deviceKey reference : Str) (values : List Str) (rtc : ℕ)
    (s : DataState P) :
    Moves env (· = .added deviceKey reference (.sensorReading ⟨values, reference, rtc⟩)) s
      (addSensorReading deviceKey reference values rtc s) := by
  refine add_moves _ _ _ ?_ rfl
  funext f k
  cases f with
  | sensorReadings =>
    simp only [contentsOf, setAt, Item.family, slotKey, putItem, keepsAll, addSensorReading,
      P.sensorReadings.contents_put, true_and]
    split_ifs with hk
    · simp [hk]
    · rfl
  | _ => rfl

theorem addAlarm_moves (deviceKey reference : Str) (active : Bool) (rtc : ℕ) (s : DataState P) :
    Moves env (· = .added deviceKey reference (.alarm ⟨active, reference, rtc⟩)) s
      (addAlarm deviceKey reference active rtc s) := by
  refine add_moves _ _ _ ?_ rfl
  funext f k
  cases f with
  | alarms =>
    simp only [contentsOf, setAt, Item.family, slotKey, putItem, keepsAll, addAlarm,
      P.alarms.contents_put, true_and]
    split_ifs with hk
    · simp [hk]
    · rfl
  | _ => rfl

theorem contentsOf_addActuatorStatus (deviceKey reference value : Str) (state : ActuatorState)
    (s : DataState P) : contentsOf (addActuatorStatus deviceKey reference value state s) =
      setAt (contentsOf s) .actuatorStatuses (makePersistenceKey deviceKey reference)
        [.actuatorStatus ⟨value, reference, state⟩] := by
  funext f k
  cases f with
  | actuatorStatuses =>
    simp only [contentsOf, setAt, addActuatorStatus, P.actuatorStatuses.get_put, true_and]
    split_ifs <;> rfl
  | _ => rfl

theorem addActuatorStatus_moves (deviceKey reference value : Str) (state : ActuatorState)
    (s : DataState P) :
    Moves env (· = .added deviceKey reference (.actuatorStatus ⟨value, reference, state⟩)) s
      (addActuatorStatus deviceKey reference value state s) :=
  add_moves _ _ _ (contentsOf_addActuatorStatus deviceKey reference value state s) rfl

theorem contentsOf_addConfiguration (deviceKey : Str) (configuration : List ConfigurationItem)
    (s : DataState P) : contentsOf (addConfiguration deviceKey configuration s) =
      setAt (contentsOf s) .configurations deviceKey [.configuration configuration] := by
  funext f k
  cases f with
  | configurations =>
    simp only [contentsOf, setAt, addConfiguration, P.configurations.get_put, true_and]
    split_ifs <;> rfl
  | _ => rfl

theorem addConfiguration_moves (deviceKey : Str) (configuration : List ConfigurationItem)
    (s : DataState P) :
    Moves env (· = .added deviceKey [] (.configuration configuration)) s
      (addConfiguration deviceKey configuration s) :=
  add_moves _ _ _ (contentsOf_addConfiguration deviceKey configuration s) rfl

theorem moves_of_path {s t : DataState P} {allowed : Effect → Prop} {es : Trace}
    {c : Family → Str → List Item} (hp : Path (Move env) ⟨contentsOf s, s.trace⟩ es ⟨c, t.trace⟩)
    (hc : contentsOf t = c) (he : ∀ e ∈ es, allowed e) : Moves env allowed s t :=
  ⟨es, by rwa [ledgerOf, ledgerOf, hc], he⟩

theorem publishSensorReadingsForPersistanceKey_moves (key : Str) (s : DataState P) :
    Moves env (AttemptAt .sensorReadings (· = key)) s
      (publishSensorReadingsForPersistanceKey env key s) := by
  obtain ⟨es, hp, he⟩ := publishBatches_path P.sensorReadings .sensorReading env (contentsOf s)
    (show Family.sensorReadings ≠ .configurations by decide) key s.sensorReadings s.trace
  rw [← contentsOf_sensorReadings] at hp
  refine moves_of_path hp ?_ he
  funext f k
  cases f <;> rfl

theorem publishAlarmsForPersistanceKey_moves (key : Str) (s : DataState P) :
    Moves env (AttemptAt .alarms (· = key)) s (publishAlarmsForPersistanceKey env key s) := by
  obtain ⟨es, hp, he⟩ := publishBatches_path P.alarms .alarm env (contentsOf s)
    (show Family.alarms ≠ .configurations by decide) key s.alarms s.trace
  rw [← contentsOf_alarms] at hp
  refine moves_of_path hp ?_ he
  funext f k
  cases f <;> rfl

theorem publishActuatorStatusesForPersistanceKey_moves (key : Str) (s : DataState P) :
    Moves env (AttemptAt .actuatorStatuses (· = key)) s
      (publishActuatorStatusesForPersistanceKey env key s) := by
  rw [publishActuatorStatusesForPersistanceKey]
  cases hget : P.actuatorStatuses.get s.actuatorStatuses key with
  | none => exact .refl _ _
  | some status =>
    have hc := contentsOf_actuatorStatuses s
    by_cases hparse : Parses key
    · have ho : attemptOutcome env s.trace .actuatorStatuses key [.actuatorStatus status] =
          env.outcome s.trace (.data .actuatorStatuses (deviceOf .actuatorStatuses key)
            [.actuatorStatus status]) := by
        simp [attemptOutcome, hparse]
      obtain ⟨e, hm, he⟩ := publishValue_move P.actuatorStatuses .actuatorStatus (contentsOf s)
        hget s.trace ho
      rw [← hc] at hm
      simp only [isEmpty_or_isEmpty_iff, hparse, not_true_eq_false, if_false]
      refine moves_of_path (.single hm) ?_ (by simpa using he)
      funext f k
      cases f <;> rfl
    · have ho : .unparsable = attemptOutcome env s.trace .actuatorStatuses key
          [.actuatorStatus status] := by simp [attemptOutcome, hparse]
      have hm := Move.consume (c := contentsOf s)
        (by rw [valueAt_of_get P.actuatorStatuses .actuatorStatus hget]; rfl) (by simp)
        (valueAt_remove P.actuatorStatuses .actuatorStatus hget) ho (by simp)
      rw [← hc] at hm
      simp only [isEmpty_or_isEmpty_iff, hparse, not_false_eq_true, if_true]
      refine moves_of_path (.single hm) ?_ ?_
      · funext f k
        cases f <;> rfl
      · intro e he
        exact ⟨key, _, _, _, by simpa using he, rfl⟩

theorem publishConfigurationForPersistanceKey_moves (key : Str) (s : DataState P) :
    Moves env (AttemptAt .configurations (· = key)) s
      (publishConfigurationForPersistanceKey env key s) := by
  rw [publishConfigurationForPersistanceKey]
  cases hget : P.configurations.get s.configurations key with
  | none => exact .refl _ _
  | some configuration =>
    have ho : attemptOutcome env s.trace .configurations key [.configuration configuration] =
        env.outcome s.trace (.data .configurations (deviceOf .configurations key)
          [.configuration configuration]) := by
      simp [attemptOutcome]
    obtain ⟨e, hm, he⟩ := publishValue_move P.configurations .configuration (contentsOf s)
      hget s.trace ho
    rw [← contentsOf_configurations] at hm
    refine moves_of_path (.single hm) ?_ (by simpa using he)
    funext f k
    cases f <;> rfl

theorem AttemptAt.mono {family : Family} {p q : Str → Prop} (h : ∀ k, p k → q k) (e : Effect)
    (he : AttemptAt family p e) : AttemptAt family q e := by
  obtain ⟨key, d, items, o, rfl, hk⟩ := he
  exact ⟨key, d, items, o, rfl, h key hk⟩

theorem publishSensorReadings_moves (s : DataState P) :
    Moves env (AttemptAt .sensorReadings fun _ => True) s (publishSensorReadings env s) :=
  .foldl _ (fun key _ s => (publishSensorReadingsForPersistanceKey_moves key s).mono
    (AttemptAt.mono fun _ _ => trivial)) s

theorem publishAlarms_moves (s : DataState P) :
    Moves env (AttemptAt .alarms fun _ => True) s (publishAlarms env s) :=
  .foldl _ (fun key _ s => (publishAlarmsForPersistanceKey_moves key s).mono
    (AttemptAt.mono fun _ _ => trivial)) s

theorem publishActuatorStatuses_moves (s : DataState P) :
    Moves env (AttemptAt .actuatorStatuses fun _ => True) s (publishActuatorStatuses env s) :=
  .foldl _ (fun key _ s => (publishActuatorStatusesForPersistanceKey_moves key s).mono
    (AttemptAt.mono fun _ _ => trivial)) s

theorem publishConfiguration_moves (s : DataState P) :
    Moves env (AttemptAt .configurations fun _ => True) s (publishConfiguration env s) :=
  .foldl _ (fun key _ s => (publishConfigurationForPersistanceKey_moves key s).mono
    (AttemptAt.mono fun _ _ => trivial)) s

theorem mem_findMatchingPersistanceKeys {deviceKey key : Str} {keys : List Str} :
    key ∈ findMatchingPersistanceKeys deviceKey keys ↔
      key ∈ keys ∧ (parsePersistenceKey key).1 = deviceKey := by
  simp [findMatchingPersistanceKeys]

/-- The keys whose messages are built for a device. -/
def Addressed (family : Family) (deviceKey key : Str) : Prop := deviceOf family key = deviceKey

theorem publishSensorReadingsOf_moves (deviceKey : Str) (s : DataState P) :
    Moves env (AttemptAt .sensorReadings (Addressed .sensorReadings deviceKey)) s
      (publishSensorReadingsOf env deviceKey s) := by
  refine .foldl _ (fun key hkey s => ?_) s
  refine (publishSensorReadingsForPersistanceKey_moves key s).mono (AttemptAt.mono ?_)
  rintro _ rfl
  exact (mem_findMatchingPersistanceKeys.mp hkey).2

theorem publishAlarmsOf_moves (deviceKey : Str) (s : DataState P) :
    Moves env (AttemptAt .alarms (Addressed .alarms deviceKey)) s
      (publishAlarmsOf env deviceKey s) := by
  refine .foldl _ (fun key hkey s => ?_) s
  refine (publishAlarmsForPersistanceKey_moves key s).mono (AttemptAt.mono ?_)
  rintro _ rfl
  exact (mem_findMatchingPersistanceKeys.mp hkey).2

theorem publishActuatorStatusesOf_moves (deviceKey : Str) (s : DataState P) :
    Moves env (AttemptAt .actuatorStatuses (Addressed .actuatorStatuses deviceKey)) s
      (publishActuatorStatusesOf env deviceKey s) := by
  refine .foldl _ (fun key hkey s => ?_) s
  refine (publishActuatorStatusesForPersistanceKey_moves key s).mono (AttemptAt.mono ?_)
  rintro _ rfl
  exact (mem_findMatchingPersistanceKeys.mp hkey).2

theorem publishConfigurationOf_moves (deviceKey : Str) (s : DataState P) :
    Moves env (AttemptAt .configurations (Addressed .configurations deviceKey)) s
      (publishConfigurationOf env deviceKey s) :=
  (publishConfigurationForPersistanceKey_moves deviceKey s).mono
    (AttemptAt.mono fun _ h => h)

end WolkGateway.DataLedger
