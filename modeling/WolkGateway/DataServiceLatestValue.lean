import WolkGateway.DataServiceConservation

/-!
# The latest value wins

Actuator statuses and configurations are kept one per key. What is pending under a key is
determined by the trace: the value put last, unless an attempt has consumed it since.
-/

namespace WolkGateway.DataServiceLatestValue
open DeviceModel DataService DataLedger DataServiceCalls DataServiceConservation Transcripts

variable {P : Persistence} {env : Environment} {family : Family} {key : Str}

def pendingStep (family : Family) (key : Str) (pending : Option Item) (e : Effect) : Option Item :=
  match addedTo family key e with
  | some x => some x
  | none => if (consumedBy family key e).isSome then none else pending

def pendingValue (family : Family) (key : Str) (trace : Trace) : Option Item :=
  trace.foldl (pendingStep family key) none

def acceptedItems (family : Family) (key : Str) (trace : Trace) : List Item :=
  ((blocksConsumed family key trace).filter fun b => b.outcome = .accepted).flatMap Block.items

@[simp] theorem pendingValue_snoc (t : Trace) (e : Effect) :
    pendingValue family key (t ++ [e]) = pendingStep family key (pendingValue family key t) e := by
  simp [pendingValue]

@[simp] theorem acceptedItems_append (t u : Trace) :
    acceptedItems family key (t ++ u) =
      acceptedItems family key t ++ acceptedItems family key u := by
  simp [acceptedItems, blocksConsumed]

theorem pendingStep_added {e : Effect} {x : Item} (h : addedTo family key e = some x)
    (pending : Option Item) : pendingStep family key pending e = some x := by
  simp [pendingStep, h]

theorem pendingStep_consumed {e : Effect} {b : Block} (h : consumedBy family key e = some b)
    (pending : Option Item) : pendingStep family key pending e = none := by
  have ha : addedTo family key e = none := by
    cases e <;> first | rfl | simp [consumedBy] at h
  simp [pendingStep, ha, h]

theorem pendingStep_none {e : Effect} (ha : addedTo family key e = none)
    (hc : consumedBy family key e = none) (pending : Option Item) :
    pendingStep family key pending e = pending := by
  simp [pendingStep, ha, hc]

/-- A pending value is the one put last. -/
theorem getLast_of_pendingValue {t : Trace} {x : Item} (h : pendingValue family key t = some x) :
    (addedUnder family key t).getLast? = some x := by
  induction t using List.reverseRecOn with
  | nil => simp [pendingValue] at h
  | append_singleton t e ih =>
    rw [pendingValue_snoc] at h
    rw [addedUnder_append]
    cases ha : addedTo family key e with
    | some y =>
      rw [pendingStep_added ha, Option.some.injEq] at h
      simp [addedUnder, ha, h]
    | none =>
      cases hc : consumedBy family key e with
      | some b => simp [pendingStep_consumed hc] at h
      | none =>
        rw [pendingStep_none ha hc] at h
        simpa [addedUnder, ha] using ih h

theorem pendingValue_append_of_added_nil {t u : Trace} (ht : pendingValue family key t = none)
    (hu : addedUnder family key u = []) : pendingValue family key (t ++ u) = none := by
  induction u using List.reverseRecOn with
  | nil => simpa using ht
  | append_singleton u e ih =>
    rw [addedUnder_append, List.append_eq_nil_iff] at hu
    rw [← List.append_assoc, pendingValue_snoc, ih hu.1]
    have ha : addedTo family key e = none := by simpa [addedUnder] using hu.2
    simp [pendingStep, ha]

/-- Whatever is consumed under a key is the value pending there. -/
def CarriesPending (family : Family) (key : Str) (before : Trace) (e : Effect) : Prop :=
  ∀ b, consumedBy family key e = some b →
    ∃ x, pendingValue family key before = some x ∧ b.items = [x]

def Quiet (family : Family) (key : Str) (e : Effect) : Prop :=
  addedTo family key e = none ∧ consumedBy family key e = none

theorem addedUnder_quiet {t : Trace} (h : ∀ e ∈ t, Quiet family key e) :
    addedUnder family key t = [] := by
  rw [addedUnder, List.filterMap_eq_nil_iff]
  exact fun e he => (h e he).1

theorem acceptedItems_quiet {t : Trace} (h : ∀ e ∈ t, Quiet family key e) :
    acceptedItems family key t = [] := by
  have hb : blocksConsumed family key t = [] := by
    rw [blocksConsumed, List.filterMap_eq_nil_iff]
    exact fun e he => (h e he).2
  simp [acceptedItems, hb]

/-- Where a key has nothing pending, nothing was put, or the last value put was consumed
and the key was left alone since. -/
theorem pendingValue_eq_none {t : Trace} (hj : Justified (CarriesPending family key) t)
    (h : pendingValue family key t = none) :
    addedUnder family key t = [] ∨ ∃ before e b after, t = before ++ e :: after ∧
      consumedBy family key e = some b ∧ ∀ e' ∈ after, Quiet family key e' := by
  induction t using List.reverseRecOn with
  | nil => exact .inl rfl
  | append_singleton t e ih =>
    rw [pendingValue_snoc] at h
    obtain ⟨hj, he⟩ := justified_snoc.mp hj
    cases ha : addedTo family key e with
    | some y => simp [pendingStep_added ha] at h
    | none =>
      cases hc : consumedBy family key e with
      | some b => exact .inr ⟨t, e, b, [], rfl, hc, by simp⟩
      | none =>
        rw [pendingStep_none ha hc] at h
        rcases ih hj h with h0 | ⟨before, e₀, b, after, rfl, hb, hq⟩
        · left
          rw [addedUnder_append, h0]
          simp [addedUnder, ha]
        · refine .inr ⟨before, e₀, b, after ++ [e], by simp, hb, ?_⟩
          intro e' he'
          rcases List.mem_append.mp he' with he' | he'
          · exact hq e' he'
          · rw [List.mem_singleton.mp he']
            exact ⟨ha, hc⟩

/-- Accepted values, with the one still pending, are among the values put, in their order. -/
theorem accepted_sublist {t : Trace} (hj : Justified (CarriesPending family key) t) :
    (acceptedItems family key t ++ (pendingValue family key t).toList).Sublist
      (addedUnder family key t) := by
  induction t using List.reverseRecOn with
  | nil => simp [acceptedItems, blocksConsumed, pendingValue]
  | append_singleton t e ih =>
    obtain ⟨hj, he⟩ := justified_snoc.mp hj
    have ih := ih hj
    rw [pendingValue_snoc, acceptedItems_append, addedUnder_append]
    cases ha : addedTo family key e with
    | some y =>
      have hc : consumedBy family key e = none := by
        cases e <;> first | rfl | simp [addedTo] at ha
      rw [pendingStep_added ha]
      have hacc : acceptedItems family key [e] = [] := by
        simp [acceptedItems, blocksConsumed, hc]
      have hadd : addedUnder family key [e] = [y] := by simp [addedUnder, ha]
      rw [hacc, hadd, List.append_nil]
      exact ((List.sublist_append_left _ _).trans ih).append (List.Sublist.refl [y])
    | none =>
      have hadd : addedUnder family key [e] = [] := by simp [addedUnder, ha]
      rw [hadd, List.append_nil]
      cases hc : consumedBy family key e with
      | some b =>
        obtain ⟨x, hx, hb⟩ := he b hc
        rw [pendingStep_consumed hc, Option.toList_none, List.append_nil]
        refine List.Sublist.trans ?_ ih
        refine (List.Sublist.refl _).append ?_
        by_cases ho : b.outcome = .accepted
        · simp [acceptedItems, blocksConsumed, hc, ho, hb, hx]
        · simp [acceptedItems, blocksConsumed, hc, ho]
      | none =>
        have hacc : acceptedItems family key [e] = [] := by
          simp [acceptedItems, blocksConsumed, hc]
        rwa [pendingStep_none ha hc, hacc, List.append_nil]

/-- The store and the trace agree on what is pending. -/
structure SlotInvariant (family : Family) (key : Str) (L : Ledger) : Prop where
  pending : L.contents family key = (pendingValue family key L.trace).toList
  carries : Justified (CarriesPending family key) L.trace

theorem move_slotInvariant (hf : keepsAll family = false) {L M : Ledger} {e : Effect}
    (h : SlotInvariant family key L) (hm : Move env L e M) : SlotInvariant family key M := by
  have hM := hm.trace_eq
  have hcarries (hc : CarriesPending family key L.trace e) :
      Justified (CarriesPending family key) M.trace := by
    rw [hM, justified_snoc]
    exact ⟨h.carries, hc⟩
  have hquiet (hc : consumedBy family key e = none) :
      Justified (CarriesPending family key) M.trace :=
    hcarries fun b hb => by simp [hc] at hb
  cases hm with
  | add d r x =>
    refine ⟨?_, hquiet rfl⟩
    rw [hM, pendingValue_snoc]
    by_cases hx : x.family = family ∧ slotKey d r x = key
    · obtain ⟨rfl, rfl⟩ := hx
      have ha : addedTo x.family (slotKey d r x) (.added d r x) = some x := by simp [addedTo]
      simp [pendingStep_added ha, setAt, putItem, hf]
    · have hx' : ¬ (family = x.family ∧ key = slotKey d r x) := fun h => hx ⟨h.1.symm, h.2.symm⟩
      have ha : addedTo family key (.added d r x) = none := by simp [addedTo, hx]
      simp [pendingStep_none ha rfl, setAt, hx', h.pending]
  | attempt f k items outcome hitems hne hout =>
    have ha : addedTo family key (.attempted f k (deviceOf f k) items outcome) = none := rfl
    by_cases hk : (f = family ∧ k = key) ∧ outcome ≠ .rejected
    · obtain ⟨⟨rfl, rfl⟩, hr⟩ := hk
      have hc : consumedBy f k (.attempted f k (deviceOf f k) items outcome) =
          some ⟨items, outcome⟩ := by simp [consumedBy, hr]
      rw [h.pending] at hitems
      obtain ⟨x, hx⟩ : ∃ x, pendingValue f k L.trace = some x := by
        rw [← Option.ne_none_iff_exists']
        intro hnone
        simp [hitems, hnone] at hne
      constructor
      · rw [hM, pendingValue_snoc, pendingStep_consumed hc]
        simp [hr, setAt, h.pending, hx, PUBLISH_BATCH_ITEMS_COUNT]
      · apply hcarries
        intro b hb
        refine ⟨x, hx, ?_⟩
        rw [hc, Option.some.injEq] at hb
        simp [← hb, hitems, hx, PUBLISH_BATCH_ITEMS_COUNT]
    · have hc : consumedBy family key (.attempted f k (deviceOf f k) items outcome) = none := by
        simp only [consumedBy, ite_eq_right_iff, reduceCtorEq, imp_false]
        exact fun h => hk ⟨⟨h.1, h.2.1⟩, h.2.2⟩
      refine ⟨?_, hquiet hc⟩
      rw [hM, pendingValue_snoc, pendingStep_none ha hc]
      by_cases hr : outcome = .rejected
      · simp [hr, h.pending]
      · have hk' : ¬ (family = f ∧ key = k) := fun h => hk ⟨⟨h.1.symm, h.2.symm⟩, hr⟩
        simp [hr, setAt, hk', h.pending]
  | other e he =>
    have ha := addedTo_unrelated he family key
    have hc := consumedBy_unrelated he family key
    refine ⟨?_, hquiet hc⟩
    rw [hM, pendingValue_snoc, pendingStep_none ha hc, h.pending]

/-- Why a value left its slot: it was accepted, or discarded for one of the two reasons. -/
def Settled (env : Environment) (family : Family) (key : Str) (before : Trace) (x : Item)
    (outcome : Outcome) : Prop :=
  outcome = .accepted ∨
  (outcome = .unparsable ∧ family ≠ .configurations ∧ ¬ Parses key) ∨
  (outcome = .unbuildable ∧
    env.makesMessage before (.data family (deviceOf family key) [x]) = false)

structure LatestValueWins (env : Environment) (family : Family) (key : Str)
    (calls : List DataCall) (s : DataState P) : Prop where
  /-- An accepted message carries the value most recently put. -/
  latest : ∀ before deviceKey items after,
    s.trace = before ++ .attempted family key deviceKey items .accepted :: after →
      deviceKey = deviceOf family key ∧
      ∃ x, items = [x] ∧ (addedUnder family key before).getLast? = some x
  /-- Between two accepted messages a new value was put. -/
  once : ∀ first d xs between d' ys after,
    s.trace = first ++ .attempted family key d xs .accepted :: between ++
        .attempted family key d' ys .accepted :: after →
      addedUnder family key between ≠ []
  subsequence : (acceptedItems family key s.trace).Sublist (itemsAdded family key calls)
  /-- The slot holds the value put last, or that value was the last one accepted or was
  discarded. -/
  slot : (∃ x, contentsOf s family key = [x] ∧ (itemsAdded family key calls).getLast? = some x) ∨
    (contentsOf s family key = [] ∧ (itemsAdded family key calls = [] ∨
      ∃ before deviceKey x outcome after,
        s.trace = before ++ .attempted family key deviceKey [x] outcome :: after ∧
        (addedUnder family key before).getLast? = some x ∧
        Settled env family key before x outcome ∧
        addedUnder family key after = [] ∧ acceptedItems family key after = []))

theorem consumedBy_accepted (deviceKey : Str) (items : List Item) :
    consumedBy family key (.attempted family key deviceKey items .accepted) =
      some ⟨items, .accepted⟩ := by simp [consumedBy]

theorem consumedBy_eq_some {e : Effect} {b : Block} (h : consumedBy family key e = some b) :
    ∃ d, e = .attempted family key d b.items b.outcome ∧ b.outcome ≠ .rejected := by
  cases e with
  | attempted f k d items outcome =>
    simp only [consumedBy, Option.ite_none_right_eq_some, Option.some.injEq] at h
    obtain ⟨⟨rfl, rfl, hr⟩, rfl⟩ := h
    exact ⟨d, rfl, hr⟩
  | _ => simp [consumedBy] at h

theorem settled_of_audited {before : Trace} {deviceKey : Str} {x : Item} {outcome : Outcome}
    (ha : Audited env before family key deviceKey [x] outcome) (hr : outcome ≠ .rejected) :
    Settled env family key before x outcome := by
  have ho := ha.outcome
  rw [attemptOutcome] at ho
  split_ifs at ho with hp
  · exact .inr (.inl ⟨ho, hp⟩)
  · rw [Environment.outcome] at ho
    split_ifs at ho with hm hacc
    · exact .inr (.inr ⟨ho, by simpa using hm⟩)
    · exact .inl ho
    · exact absurd ho hr

/-- In a trace whose consumptions carry the pending value, an accepted attempt leaves
nothing pending, so the next one needs a put in between. -/
theorem added_between {t first between after : Trace} {d d' : Str} {xs ys : List Item}
    (hj : Justified (CarriesPending family key) t)
    (h : t = first ++ Effect.attempted family key d xs .accepted :: between ++
      Effect.attempted family key d' ys .accepted :: after) :
    addedUnder family key between ≠ [] := by
  intro hnil
  obtain ⟨y, hy, -⟩ := hj _ _ _ h _ (consumedBy_accepted d' ys)
  have hnone :
      pendingValue family key (first ++ [Effect.attempted family key d xs .accepted]) = none := by
    rw [pendingValue_snoc, pendingStep_consumed (consumedBy_accepted d xs)]
  have hnone' := pendingValue_append_of_added_nil hnone hnil
  simp only [List.append_assoc, List.singleton_append] at hnone'
  rw [hnone'] at hy
  cases hy

theorem latestValueWins (hf : keepsAll family = false) (calls : List DataCall) :
    LatestValueWins env family key calls (runCalls P env calls) := by
  have haudit := runCalls_audited (P := P) env calls
  have hslot : SlotInvariant family key (ledgerOf (runCalls P env calls)) :=
    runCalls_invariant (fun _ _ _ => move_slotInvariant hf) ⟨rfl, justified_nil⟩ calls
  have hpending : contentsOf (runCalls P env calls) family key =
      (pendingValue family key (runCalls P env calls).trace).toList := hslot.pending
  have hcarries : Justified (CarriesPending family key) (runCalls P env calls).trace :=
    hslot.carries
  have hadded := addedUnder_runCalls (P := P) env family key calls
  refine ⟨?_, ?_, ?_, ?_⟩
  · intro before d items after ht
    have ha : Audited env before family key d items .accepted := haudit _ _ _ ht
    obtain ⟨x, hx, hitems⟩ := hcarries _ _ _ ht _ (consumedBy_accepted d items)
    exact ⟨ha.device, x, hitems, getLast_of_pendingValue hx⟩
  · intro first d xs between d' ys after ht
    exact added_between hcarries ht
  · rw [← hadded]
    exact (List.sublist_append_left _ _).trans (accepted_sublist hcarries)
  · cases hp : pendingValue family key (runCalls P env calls).trace with
    | some x =>
      refine .inl ⟨x, by simp [hpending, hp], ?_⟩
      rw [← hadded]
      exact getLast_of_pendingValue hp
    | none =>
      refine .inr ⟨by simp [hpending, hp], ?_⟩
      rw [← hadded]
      rcases pendingValue_eq_none hcarries hp with h0 | ⟨before, e, b, after, ht, hb, hq⟩
      · exact .inl h0
      · obtain ⟨x, hx, hitems⟩ := hcarries _ _ _ ht _ hb
        obtain ⟨d, rfl, hr⟩ := consumedBy_eq_some hb
        have ha : Audited env before family key d b.items b.outcome := haudit _ _ _ ht
        rw [hitems] at ht ha
        exact .inr ⟨before, d, x, b.outcome, after, ht, getLast_of_pendingValue hx,
          settled_of_audited ha hr, addedUnder_quiet hq, acceptedItems_quiet hq⟩

/-- Actuator statuses and configurations: the latest value wins under every key, in every
run of calls, whatever the environment answers. -/
theorem latest_value_wins (P : Persistence) (env : Environment) (calls : List DataCall)
    (key : Str) :
    LatestValueWins env .actuatorStatuses key calls (runCalls P env calls) ∧
    LatestValueWins env .configurations key calls (runCalls P env calls) :=
  ⟨latestValueWins rfl calls, latestValueWins rfl calls⟩

end WolkGateway.DataServiceLatestValue
