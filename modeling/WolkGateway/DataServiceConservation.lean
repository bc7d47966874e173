import WolkGateway.DataServiceCalls

/-!
# Store and forward

Sensor readings and alarms are kept in order and consumed in blocks. What was added under
a key is, at any time, what was consumed followed by what is still stored.
-/

namespace WolkGateway.DataServiceConservation
open DeviceModel DataService DataLedger DataServiceCalls Transcripts

variable {P : Persistence} {env : Environment}

/-- A block of items taken out of persistence, and what became of it. -/
structure Block where
  items : List Item
  outcome : Outcome
  deriving DecidableEq

/-- The block an effect consumes under a key of a family. -/
def consumedBy (family : Family) (key : Str) : Effect → Option Block
  | .attempted f k _ items outcome =>
      if f = family ∧ k = key ∧ outcome ≠ .rejected then some ⟨items, outcome⟩ else none
  | _ => none

def blocksConsumed (family : Family) (key : Str) (trace : Trace) : List Block :=
  trace.filterMap (consumedBy family key)

def consumedItems (family : Family) (key : Str) (trace : Trace) : List Item :=
  ((blocksConsumed family key trace).map Block.items).flatten

def acceptedMessage (family : Family) : Effect → Option (Str × List Item) := fun e =>
  match e.handed with
  | some (.data f deviceKey items, true) => if f = family then some (deviceKey, items) else none
  | _ => none

def acceptedMessages (family : Family) (trace : Trace) : List (Str × List Item) :=
  trace.filterMap (acceptedMessage family)

def acceptedAttempt (family : Family) : Effect → Option (Str × List Item)
  | .attempted f k _ items .accepted =>
      if f = family then some ((parsePersistenceKey k).1, items) else none
  | _ => none

@[simp] theorem consumedItems_append (family : Family) (key : Str) (t u : Trace) :
    consumedItems family key (t ++ u) =
      consumedItems family key t ++ consumedItems family key u := by
  simp [consumedItems, blocksConsumed]

theorem consumedBy_unrelated {before : Trace} {e : Effect} (he : Unrelated env before e)
    (family : Family) (key : Str) : consumedBy family key e = none := by
  cases e <;> first | rfl | exact he.elim

/-- Added is consumed followed by stored. -/
def Balanced (family : Family) (key : Str) (L : Ledger) : Prop :=
  addedUnder family key L.trace = consumedItems family key L.trace ++ L.contents family key

theorem move_balanced {family : Family} (hf : keepsAll family = true) (key : Str)
    {L M : Ledger} {e : Effect} (h : Balanced family key L) (hm : Move env L e M) :
    Balanced family key M := by
  unfold Balanced at h ⊢
  rw [hm.trace_eq, addedUnder_append, consumedItems_append, h]
  cases hm with
  | add d r x =>
    have hc : consumedItems family key [.added d r x] = [] := rfl
    rw [hc, List.append_nil, List.append_assoc]
    congr 1
    by_cases hx : x.family = family ∧ slotKey d r x = key
    · obtain ⟨rfl, rfl⟩ := hx
      simp [addedUnder, addedTo, setAt, putItem, hf]
    · have hx' : ¬ (family = x.family ∧ key = slotKey d r x) := fun h => hx ⟨h.1.symm, h.2.symm⟩
      simp [addedUnder, addedTo, setAt, hx, hx']
  | attempt f k items outcome hitems hne hout =>
    have ha : addedUnder family key [.attempted f k (deviceOf f k) items outcome] = [] := rfl
    rw [ha, List.append_nil, List.append_assoc]
    congr 1
    by_cases hr : outcome = .rejected
    · simp [consumedItems, blocksConsumed, consumedBy, hr]
    · by_cases hk : f = family ∧ k = key
      · obtain ⟨rfl, rfl⟩ := hk
        simp [consumedItems, blocksConsumed, consumedBy, hr, setAt, hitems, List.take_append_drop]
      · have hk' : ¬ (family = f ∧ key = k) := fun h => hk ⟨h.1.symm, h.2.symm⟩
        have hb : consumedBy family key (.attempted f k (deviceOf f k) items outcome) = none := by
          simp only [consumedBy, ite_eq_right_iff, reduceCtorEq, imp_false]
          exact fun h => hk ⟨h.1, h.2.1⟩
        simp [consumedItems, blocksConsumed, hb, hr, setAt, hk']
  | other e he =>
    simp [addedUnder, addedTo_unrelated he, consumedItems, blocksConsumed,
      consumedBy_unrelated he]

/-- How a consumed block ended, at the point of the trace where it was consumed: in one
accepted message for the key's device, or thrown away for one of the two reasons. -/
inductive Fate (env : Environment) (family : Family) (key : Str) (before : Trace) (b : Block) : Prop
  | sent (houtcome : b.outcome = .accepted) (hparses : Parses key)
      (hmade : env.makesMessage before (.data family (parsePersistenceKey key).1 b.items) = true)
      (haccepted : env.accepts before (.data family (parsePersistenceKey key).1 b.items) = true)
  | unparsable (houtcome : b.outcome = .unparsable) (hparses : ¬ Parses key)
  | unbuildable (houtcome : b.outcome = .unbuildable)
      (hnull : env.makesMessage before (.data family (parsePersistenceKey key).1 b.items) = false)

structure Conserved (env : Environment) (family : Family) (key : Str) (calls : List DataCall)
    (s : DataState P) : Prop where
  balance : itemsAdded family key calls =
    ((blocksConsumed family key s.trace).map Block.items).flatten ++ contentsOf s family key
  bounded : ∀ b ∈ blocksConsumed family key s.trace, 1 ≤ b.items.length ∧ b.items.length ≤ 50
  fate : ∀ b ∈ blocksConsumed family key s.trace, ∃ before after,
    s.trace = before ++
      .attempted family key (parsePersistenceKey key).1 b.items b.outcome :: after ∧
    Fate env family key before b
  /-- The accepted messages, in order, are the accepted blocks: each is one block. -/
  messages : acceptedMessages family s.trace = s.trace.filterMap (acceptedAttempt family)

theorem mem_blocksConsumed {family : Family} {key : Str} {trace : Trace} {b : Block}
    (h : b ∈ blocksConsumed family key trace) : ∃ before deviceKey after,
      trace = before ++ .attempted family key deviceKey b.items b.outcome :: after ∧
        b.outcome ≠ .rejected := by
  obtain ⟨e, he, hb⟩ := List.mem_filterMap.mp h
  obtain ⟨before, after, rfl⟩ := List.append_of_mem he
  cases e with
  | attempted f k d items outcome =>
    simp only [consumedBy, Option.ite_none_right_eq_some, Option.some.injEq] at hb
    obtain ⟨⟨rfl, rfl, hr⟩, rfl⟩ := hb
    exact ⟨before, d, after, rfl, hr⟩
  | _ => simp [consumedBy] at hb

theorem fate_of_audited {family : Family} {key deviceKey : Str} {before : Trace} {b : Block}
    (hf : family ≠ .configurations) (hr : b.outcome ≠ .rejected)
    (ha : Audited env before family key deviceKey b.items b.outcome) :
    Fate env family key before b := by
  have ho := ha.outcome
  rw [attemptOutcome, deviceOf_eq hf] at ho
  by_cases hp : Parses key
  · rw [if_neg (by simp [hp]), Environment.outcome] at ho
    split_ifs at ho with hm hacc
    · exact .unbuildable ho (by simpa using hm)
    · exact .sent ho hp (by simpa using hm) hacc
    · exact absurd ho hr
  · rw [if_pos ⟨hf, hp⟩] at ho
    exact .unparsable ho hp

/-- In a run of the data service every accepted message is an accepted attempt, built for
the device its key parses to. -/
theorem acceptedMessage_eq {family : Family} (hf : family ≠ .configurations) {trace : Trace}
    (ha : Justified (AuditedEffect env) trace)
    (hs : ∀ message outcome, .sent message outcome ∉ trace) :
    acceptedMessages family trace = trace.filterMap (acceptedAttempt family) := by
  apply List.filterMap_congr
  intro e he
  obtain ⟨before, after, rfl⟩ := List.append_of_mem he
  have hae := ha before e after rfl
  cases e with
  | attempted f k d items outcome =>
    have hd : d = deviceOf f k := hae.device
    cases outcome <;> simp only [acceptedMessage, Effect.handed, acceptedAttempt]
    split_ifs with h
    · rw [hd, h, deviceOf_eq hf]
    · rfl
  | sent message outcome => exact absurd he (hs message outcome)
  | _ => rfl

theorem perform_sent_notMem {message : OutboundMessage} {outcome : Outcome} (s : DataState P)
    (c : DataCall) (h : .sent message outcome ∉ s.trace) :
    .sent message outcome ∉ (perform env s c).trace := by
  rcases perform_moves env s c with ⟨d, r, x, -, ht, -⟩ | ⟨-, hm⟩
  · simp [ht, h]
  · obtain ⟨es, ht, hes⟩ := hm.trace_eq
    rw [ht, List.mem_append, not_or]
    refine ⟨h, fun hmem => ?_⟩
    obtain ⟨_, _, _, _, _, heq, -⟩ := hes _ hmem
    simp at heq

theorem conserved (family : Family) (hf : keepsAll family = true) (key : Str)
    (calls : List DataCall) :
    Conserved env family key calls (runCalls P env calls) := by
  have hconf : family ≠ .configurations := by rintro rfl; simp [keepsAll] at hf
  have haudit := runCalls_audited (P := P) env calls
  refine ⟨?_, ?_, ?_, ?_⟩
  · rw [← addedUnder_runCalls (P := P) env]
    exact runCalls_invariant (I := Balanced family key)
      (fun _ _ _ => move_balanced hf key) rfl calls
  · intro b hb
    obtain ⟨before, d, after, ht, -⟩ := mem_blocksConsumed hb
    have ha := haudit _ _ _ ht
    exact ⟨ha.nonempty, ha.bounded⟩
  · intro b hb
    obtain ⟨before, d, after, ht, hr⟩ := mem_blocksConsumed hb
    have ha : Audited env before family key d b.items b.outcome := haudit _ _ _ ht
    refine ⟨before, after, ?_, fate_of_audited hconf hr ha⟩
    rw [ht, ha.device, deviceOf_eq hconf]
  · refine acceptedMessage_eq hconf haudit fun message outcome => ?_
    exact GuardedRuns.invariant_of_step
      (I := fun s : DataState P => Effect.sent message outcome ∉ s.trace)
      perform_sent_notMem (by simp [DataState.initial]) calls

/-- Sensor readings and alarms are conserved under every key by every run of calls,
whatever the environment answers: nothing is lost, duplicated or reordered. -/
theorem store_and_forward (P : Persistence) (env : Environment) (calls : List DataCall)
    (key : Str) :
    Conserved env .sensorReadings key calls (runCalls P env calls) ∧
    Conserved env .alarms key calls (runCalls P env calls) :=
  ⟨conserved .sensorReadings rfl key calls, conserved .alarms rfl key calls⟩

end WolkGateway.DataServiceConservation
