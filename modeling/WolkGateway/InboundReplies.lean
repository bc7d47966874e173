import WolkGateway.Quiescence
import WolkGateway.InboundOrder

/-!
# What inbound messages lead to

A request for a status is answered, a registration response is handed to the user, and a
platform status is handed to its listener: once each, in the order in which the messages
arrived, and only if they pass the checks on the way.
-/

namespace WolkGateway.Wolk
open DeviceModel DataService DataLedger GuardedRuns

variable {P : Persistence} {cfg : Config} {s : State P}

def replyCommand : Command → Option Command
  | .handleDeviceStatusRequest key => some (.handleDeviceStatusRequest key)
  | .handleRegistrationResponse d result => some (.handleRegistrationResponse d result)
  | _ => none

theorem replyCommand_inboundOnly : InboundOnly replyCommand where
  api call now c h := by
    cases call with
    | addSensorReadings d r values rtc =>
      simp only [ApiCall.command] at h
      split_ifs at h
      rw [← Option.some.inj h]
      rfl
    | _ =>
      simp only [ApiCall.command, Option.some.injEq] at h
      rw [← h]
      rfl
  leaves devices c c' h := by
    cases h with
    | refresh _ _ _ h => cases h <;> rfl
    | acknowledged _ _ _ _ h _ =>
      rcases h with h | rfl
      · cases h <;> rfl
      · rfl
    | _ => rfl
  registerDevice _ := rfl
  updateDevice _ := rfl
  connect := rfl

/-- An answer as it leaves the module: a status sent for a device, or a response handed to
the user's handler. -/
inductive Reply
  | status (key : Str)
  | response (handler : ℕ) (key : Str) (result : PlatformResult)
  deriving DecidableEq

def reply : Effect → Option Reply
  | .sent (.statusResponse key _) _ => some (.status key)
  | .registrationResponseHandled handler key result => some (.response handler key result)
  | _ => none

theorem eq_sent_of_reply {e : Effect} {key : Str} (h : reply e = some (.status key)) :
    ∃ status outcome, e = .sent (.statusResponse key status) outcome := by
  cases e with
  | sent message outcome =>
    cases message with
    | statusResponse key' status =>
      obtain rfl : key' = key := by simpa [reply] using h
      exact ⟨status, outcome, rfl⟩
    | _ => cases h
  | registrationResponseHandled => cases h
  | _ => cases h

/-- What a command is to answer, started with the registry it starts in. -/
def replyDue (cfg : Config) : Command × Registry → Option Reply
  | (.handleDeviceStatusRequest key, devices) =>
    if key.isEmpty then none else if deviceExists devices key then some (.status key) else none
  | (.handleRegistrationResponse d result, devices) =>
    if deviceExists devices d then
      cfg.callbacks.registrationResponseHandler.map fun handler => .response handler d result
    else none
  | _ => none

def replyLeft (cfg : Config) : Atom → Option Reply
  | .respond d result =>
    cfg.callbacks.registrationResponseHandler.map fun handler => .response handler d result
  | _ => none

/-- What was to be answered is what has been answered, and then what is left. -/
def RepliesMade (cfg : Config) (s : State P) : Prop :=
  (started s.trace).filterMap (replyDue cfg) =
    s.trace.filterMap reply ++ s.running.filterMap (replyLeft cfg)

theorem reply_mayEmit {devices : Registry} {c : Command} {e : Effect} (h : MayEmit devices c e)
    (hc : ∀ key, c ≠ .handleDeviceStatusRequest key) : reply e = none := by
  cases h with
  | sent c message outcome h =>
    cases h with
    | request key => exact absurd rfl (hc key)
    | _ => rfl
  | _ => rfl

theorem replyLeft_leaves {devices : Registry} {c : Command} {a : Atom} (h : Leaves devices c a)
    (hc : ∀ d result, c ≠ .handleRegistrationResponse d result) : replyLeft cfg a = none := by
  cases h with
  | respond d result => exact absurd rfl (hc d result)
  | _ => rfl

theorem runDeviceStatusRequest_replies (cfg : Config) (devices : Registry) (key : Str)
    (s : DataState P) :
    ∃ u, (runDeviceStatusRequest cfg devices key s).trace = s.trace ++ u ∧
      u.filterMap reply = (replyDue cfg (.handleDeviceStatusRequest key, devices)).toList := by
  unfold runDeviceStatusRequest
  split_ifs with hempty hmissing
  · exact ⟨[], (List.append_nil _).symm, by simp [replyDue, hempty]⟩
  · exact ⟨[], (List.append_nil _).symm, by simp_all [replyDue]⟩
  · have hdue : replyDue cfg (.handleDeviceStatusRequest key, devices) = some (.status key) := by
      simp_all [replyDue]
    rw [hdue, sendDeviceStatus]
    cases cfg.callbacks.deviceStatusProvider.selected with
    | none => exact ⟨[_], rfl, rfl⟩
    | some provider => exact ⟨_, List.append_assoc s.trace [_] [_], rfl⟩

theorem registrationResponse_replies (cfg : Config) (devices : Registry) (now : ℕ) (d : Str)
    (result : PlatformResult) (s : DataState P) :
    (execute cfg devices now s (.handleRegistrationResponse d result)).data = s ∧
      (execute cfg devices now s (.handleRegistrationResponse d result)).rest.filterMap
        (replyLeft cfg) =
          (replyDue cfg (.handleRegistrationResponse d result, devices)).toList := by
  simp only [execute, replyDue]
  split_ifs
  · refine ⟨rfl, ?_⟩
    have hnone : (acknowledgedAtoms devices d result).filterMap (replyLeft cfg) = [] := by
      refine List.filterMap_eq_nil_iff.mpr fun a ha => ?_
      unfold acknowledgedAtoms at ha
      split_ifs at ha
      · rcases List.mem_append.mp ha with ha | ha
        · obtain ⟨command, rfl, -⟩ := mem_refreshAtoms ha
          rfl
        · rw [List.mem_singleton.mp ha]
          rfl
      · simp at ha
    rw [List.filterMap_append, hnone]
    cases h : cfg.callbacks.registrationResponseHandler <;> simp [replyLeft, h]
  · exact ⟨rfl, rfl⟩

/-- A command answers at once, or leaves its answer to be given. -/
theorem execute_replies (cfg : Config) (devices : Registry) (now : ℕ) (s : DataState P)
    (c : Command) : ∃ u, (execute cfg devices now s c).data.trace = s.trace ++ u ∧
      u.filterMap reply ++ (execute cfg devices now s c).rest.filterMap (replyLeft cfg) =
        (replyDue cfg (c, devices)).toList := by
  obtain ⟨u, hu, hall⟩ := (execute_moves cfg devices now s c).trace_eq
  have hrest : (∀ d result, c ≠ .handleRegistrationResponse d result) →
      (execute cfg devices now s c).rest.filterMap (replyLeft cfg) = [] := fun hc =>
    List.filterMap_eq_nil_iff.mpr fun a ha => replyLeft_leaves (leaves_of_mem ha) hc
  cases c with
  | handleDeviceStatusRequest key =>
    obtain ⟨v, hv, hreplies⟩ := runDeviceStatusRequest_replies cfg devices key s
    refine ⟨v, hv, ?_⟩
    rw [hrest (by simp), List.append_nil, hreplies]
  | handleRegistrationResponse d result =>
    obtain ⟨hdata, hreplies⟩ := registrationResponse_replies cfg devices now d result s
    exact ⟨[], by rw [hdata, List.append_nil], hreplies⟩
  | _ =>
    refine ⟨u, hu, ?_⟩
    rw [hrest (by simp), List.append_nil]
    exact List.filterMap_eq_nil_iff.mpr fun e he => reply_mayEmit (hall e he) (by simp)

theorem RepliesMade.of_same {t : State P} (h : RepliesMade cfg s) {u : Trace}
    (ht : t.trace = s.trace ++ u) (hstart : StartsNone u) (hreply : ∀ e ∈ u, reply e = none)
    (hrunning : t.running.filterMap (replyLeft cfg) = s.running.filterMap (replyLeft cfg)) :
    RepliesMade cfg t := by
  rw [RepliesMade, ht, started_startsNone hstart, List.filterMap_append, hrunning,
    List.filterMap_eq_nil_iff.mpr hreply, List.append_nil]
  exact h

theorem repliesMade_initial : RepliesMade cfg (State.initial P) := rfl

theorem repliesMade_step (cfg : Config) (s : State P) (e : Event) (h : RepliesMade cfg s) :
    RepliesMade cfg (step cfg s e) := by
  rcases stepped cfg s e with ⟨c, -, hsame, -, hdata, -⟩ | ⟨c, queue, rfl, hr, hq, ht⟩ |
    ⟨a, rest, rfl, hr, ht⟩ | ⟨rfl, -⟩ | ⟨-, hsame, -, hm⟩
  · exact h.of_same (u := []) (by simp [State.trace, hdata]) (by simp [StartsNone]) (by simp)
      (by rw [hsame.running])
  · obtain ⟨u, hu, hreplies⟩ := execute_replies cfg s.devices s.clock
      (s.data.log (.began c s.devices)) c
    have htrace : (beginCommand cfg c queue s).trace =
        s.trace ++ [Effect.began c s.devices] ++ u := hu
    rw [RepliesMade, hr] at h
    rw [ht, RepliesMade, started_begun, List.filterMap_append, h, htrace, List.filterMap_append,
      List.filterMap_append]
    simp only [List.filterMap_nil, List.append_nil, List.append_assoc]
    congr 1
    refine Eq.trans ?_ hreplies.symm
    cases hdue : replyDue cfg (c, s.devices) <;> simp [hdue]
  · obtain ⟨u, hu, hall⟩ := (runAtom_moves cfg a { s with running := rest }).trace_eq
    rw [ht]
    cases a with
    | respond d result =>
      rw [RepliesMade, hr] at h
      cases hhandler : cfg.callbacks.registrationResponseHandler with
      | none =>
        simp only [runAtom, hhandler, RepliesMade]
        simpa [replyLeft, hhandler, State.trace] using h
      | some handler =>
        have htrace : (runAtom cfg (.respond d result) { s with running := rest }).trace =
            s.trace ++ [Effect.registrationResponseHandled handler d result] := by
          simp only [runAtom, hhandler]
          rfl
        rw [RepliesMade, htrace, runAtom_running,
          started_startsNone (u := [.registrationResponseHandled handler d result])
            (by simp [StartsNone, start]), h]
        simp [replyLeft, hhandler, reply, Atom.expands]
    | registerIfConnected | updateIfConnected =>
      refine h.of_same hu (startsNone_of_accesses hall) (fun e he => ?_) ?_
      · cases hall e he
      · rw [runAtom_running, hr]
        simp only [Atom.expands]
        split_ifs <;> rfl
    | _ =>
      refine h.of_same hu (startsNone_of_accesses hall) (fun e he => ?_) ?_
      · cases hall e he <;> rfl
      · rw [runAtom_running, hr]
        rfl
  · exact h.of_same (u := [.connectionLost]) rfl (by simp [StartsNone, start]) (by simp [reply]) rfl
  · obtain ⟨u, hu, hall⟩ := hm.trace_eq
    refine h.of_same hu (startsNone_of_aside hall) (fun e he => ?_) (by rw [hsame.running])
    cases hall e he <;> rfl

def statusOf : Listener × InboundMessage → Option ConnectivityStatus
  | (.platformStatusService, message) => PlatformStatusService.messageReceived message
  | _ => none

def statusHandled : Effect → Option ConnectivityStatus
  | .platformStatusHandled status => some status
  | _ => none

/-- What has arrived is what was handed on, then what waits as a status, then what waits as
a message. -/
def StatusesInOrder (s : State P) : Prop :=
  (deliveries s.trace).filterMap statusOf =
    s.trace.filterMap statusHandled ++ s.platformQueue ++ s.inbox.filterMap statusOf

theorem StatusesInOrder.of_same {t : State P} (h : StatusesInOrder s) {u : Trace}
    (ht : t.trace = s.trace ++ u) (hu : ∀ e ∈ u, delivery e = none ∧ statusHandled e = none)
    (hp : t.platformQueue = s.platformQueue) (hi : t.inbox = s.inbox) : StatusesInOrder t := by
  have harr : u.filterMap delivery = [] := List.filterMap_eq_nil_iff.mpr fun e he => (hu e he).1
  have hhanded : u.filterMap statusHandled = [] :=
    List.filterMap_eq_nil_iff.mpr fun e he => (hu e he).2
  rw [StatusesInOrder, ht, hp, hi, deliveries, List.filterMap_append, harr, List.append_nil,
    List.filterMap_append, hhanded, List.append_nil]
  exact h

/-- Taking the oldest message puts the status it carries behind those waiting. -/
theorem deliver_platformQueue (cfg : Config) (received : Listener × InboundMessage)
    (s : State P) :
    (deliver cfg received.1 received.2 s).platformQueue =
      s.platformQueue ++ (statusOf received).toList := by
  obtain ⟨listener, message⟩ := received
  cases listener with
  | platformStatusService =>
    simp only [deliver, statusOf]
    cases PlatformStatusService.messageReceived message with
    | none => exact (List.append_nil _).symm
    | some status => rfl
  | firmwareUpdateService =>
    simp only [deliver, statusOf, Option.toList_none, List.append_nil]
    split <;> rfl
  | _ =>
    simp only [deliver, enqueueAll, statusOf, Option.toList_none, List.append_nil]
    split <;> rfl

theorem statusesInOrder_initial : StatusesInOrder (State.initial P) := rfl

theorem statusesInOrder_worker (cfg : Config) (h : StatusesInOrder s) :
    StatusesInOrder (step cfg s .worker) := by
  obtain ⟨u, hu, hall⟩ := step_trace cfg s .worker
  refine h.of_same hu (fun effect he => ?_) ?_ ?_
  · cases hall effect he with
    | began => exact ⟨rfl, rfl⟩
    | command _ _ _ _ _ h => cases h <;> exact ⟨rfl, rfl⟩
    | access _ _ _ _ h => cases h <;> exact ⟨rfl, rfl⟩
    | aside _ _ h => cases h <;> exact ⟨rfl, rfl⟩
  · simp only [step, workerStep]
    split
    · rw [runAtom_platformQueue]
    · split <;> rfl
  · simp only [step, workerStep]
    split
    · rw [runAtom_inbox]
    · split <;> rfl

theorem statusesInOrder_inbound (cfg : Config) (channel payload : Str) (h : StatusesInOrder s) :
    StatusesInOrder (step cfg s (.inbound channel payload)) := by
  simp only [step]
  split
  · exact h
  · rename_i listener _
    have harr : deliveries (s.trace ++ [Effect.received listener ⟨payload, channel⟩]) =
        deliveries s.trace ++ [(listener, ⟨payload, channel⟩)] := by
      rw [deliveries, List.filterMap_append]
      rfl
    have hhanded : (s.trace ++ [Effect.received listener ⟨payload, channel⟩]).filterMap
        statusHandled = s.trace.filterMap statusHandled := by
      rw [List.filterMap_append]
      exact List.append_nil _
    rw [StatusesInOrder] at h
    simp only [StatusesInOrder, State.log, State.trace, DataState.log] at harr hhanded h ⊢
    rw [harr, hhanded, List.filterMap_append, List.filterMap_append, h, List.append_assoc]

theorem statusesInOrder_inboundWorker (cfg : Config) (h : StatusesInOrder s) :
    StatusesInOrder (step cfg s .inboundWorker) := by
  simp only [step]
  split
  · exact h
  · rename_i listener message rest hi
    have hdelivered := deliver_platformQueue cfg (listener, message) { s with inbox := rest }
    rw [StatusesInOrder, hi, List.filterMap_cons] at h
    rw [StatusesInOrder, hdelivered, State.trace, deliver_data, deliver_inbox]
    refine h.trans ?_
    cases statusOf (listener, message) <;> simp [State.trace]

theorem statusesInOrder_platformStatusWorker (cfg : Config) (h : StatusesInOrder s) :
    StatusesInOrder (step cfg s .platformStatusWorker) := by
  simp only [step]
  split
  · exact h
  · rename_i status queue hq
    rw [StatusesInOrder, hq] at h
    have harr : deliveries (s.trace ++ [Effect.platformStatusHandled status]) =
        deliveries s.trace := by
      rw [deliveries, List.filterMap_append]
      exact List.append_nil _
    simp only [StatusesInOrder, State.log, State.trace, DataState.log] at harr h ⊢
    rw [harr, h, List.filterMap_append]
    simp [statusHandled]

theorem statusesInOrder_step (cfg : Config) (s : State P) (e : Event) (h : StatusesInOrder s) :
    StatusesInOrder (step cfg s e) := by
  cases e with
  | worker => exact statusesInOrder_worker cfg h
  | api call =>
    refine h.of_same (u := []) ?_ (by simp) ?_ ?_ <;>
      · simp only [step]
        cases call.command s.clock <;> simp [enqueueAll, addToCommandBuffer, State.trace]
  | connectionLost =>
    exact h.of_same (u := [.connectionLost]) rfl (by simp [delivery, statusHandled]) rfl rfl
  | connectionLostConnects =>
    simp only [step]
    split
    · exact h
    · exact h.of_same (u := []) (List.append_nil _).symm (by simp) rfl rfl
  | inbound channel payload => exact statusesInOrder_inbound cfg channel payload h
  | inboundWorker => exact statusesInOrder_inboundWorker cfg h
  | firmwareWorker =>
    simp only [step]
    split
    · exact h
    · rename_i hq
      obtain ⟨u, hu, hall⟩ := (runCommand_moves cfg (s := s) hq s.data).trace_eq
      refine h.of_same hu (fun effect he => ?_) rfl rfl
      cases hall effect he <;> exact ⟨rfl, rfl⟩
  | installCallback d success =>
    obtain ⟨u, hu, hall⟩ := (calledBack_moves cfg (s := s)
      (e := .installCallback d success) d success s.data).trace_eq
    refine h.of_same hu (fun effect he => ?_) rfl rfl
    cases hall effect he <;> exact ⟨rfl, rfl⟩
  | platformStatusWorker => exact statusesInOrder_platformStatusWorker cfg h
  | tick n => exact h.of_same (u := []) (List.append_nil _).symm (by simp) rfl rfl

/-- A message carries a status if it comes on the status channel and spells one of the two. -/
theorem messageReceived_eq_some_iff {message : InboundMessage} {status : ConnectivityStatus} :
    PlatformStatusService.messageReceived message = some status ↔
      message.channel = PlatformStatusService.PLATFORM_STATUS_CHANNEL ∧ status ≠ .none ∧
        PlatformStatusService.fromString message.content = status := by
  unfold PlatformStatusService.messageReceived PlatformStatusService.parsePlatformStatusMessage
  split_ifs with hchannel
  · simp [hchannel]
  · rw [not_not] at hchannel
    cases h : PlatformStatusService.fromString message.content <;> cases status <;> simp [hchannel]

def replyAsked (cfg : Config) (received : Listener × InboundMessage) : Option Command :=
  (handledCommand cfg received).bind replyCommand

/-- Every request for a status and every registration response starts one command, in the
order of arrival, and every such command that passes its check answers once: with one attempt
to send a status for the device, which is handed over if it can be built, or a call of the
user's handler. A request for all statuses is due no answer of its own. -/
theorem replies_in_order (P : Persistence) (cfg : Config) (events : List Event) :
    let s := reach cfg P events
    (deliveries s.trace).filterMap (replyAsked cfg) =
      (started s.trace).filterMap (fun c => replyCommand c.1) ++ s.queue.filterMap replyCommand ++
        s.inbox.filterMap (replyAsked cfg) ∧
    (started s.trace).filterMap (replyDue cfg) =
      s.trace.filterMap reply ++ s.running.filterMap (replyLeft cfg) ∧
    ((∀ trace key status, cfg.env.makesMessage trace (.statusResponse key status) = true) →
      ∀ e ∈ s.trace, ∀ key, reply e = some (.status key) →
        ∃ status accepted, e.handed = some (.statusResponse key status, accepted)) := by
  have horder : InOrder replyCommand (replyAsked cfg) (reach cfg P events) :=
    invariant_of_step (I := InOrder replyCommand (replyAsked cfg))
      (fun s e h => inOrder_step replyCommand_inboundOnly s e h fun _ _ _ _ => rfl)
      inOrder_initial events
  have hmade : RepliesMade cfg (reach cfg P events) :=
    invariant_of_step (repliesMade_step cfg) repliesMade_initial events
  refine ⟨horder.order, hmade, fun hmake e he key hreply => ?_⟩
  obtain ⟨status, outcome, rfl⟩ := eq_sent_of_reply hreply
  exact ⟨status, (sentAsAnswered_reach P cfg events).handed he fun trace => hmake trace key status⟩

/-- The statuses handed to the listener are those that have arrived, in that order and once
each, up to those that still wait; none of them is `NONE`, and each came on the status
channel. -/
theorem statuses_in_order (P : Persistence) (cfg : Config) (events : List Event) :
    let s := reach cfg P events
    (deliveries s.trace).filterMap statusOf =
      s.trace.filterMap statusHandled ++ s.platformQueue ++ s.inbox.filterMap statusOf ∧
    ∀ status, .platformStatusHandled status ∈ s.trace → status ≠ .none ∧
      ∃ message, .received .platformStatusService message ∈ s.trace ∧
        message.channel = PlatformStatusService.PLATFORM_STATUS_CHANNEL ∧
        PlatformStatusService.fromString message.content = status := by
  have horder : StatusesInOrder (reach cfg P events) :=
    invariant_of_step (statusesInOrder_step cfg) statusesInOrder_initial events
  refine ⟨horder, fun status hmem => ?_⟩
  have harrived : status ∈ (deliveries (reach cfg P events).trace).filterMap statusOf := by
    rw [horder]
    refine List.mem_append_left _ (List.mem_append_left _ ?_)
    exact List.mem_filterMap.mpr ⟨_, hmem, rfl⟩
  obtain ⟨⟨listener, message⟩, hdelivered, hstatus⟩ := List.mem_filterMap.mp harrived
  cases listener with
  | platformStatusService =>
    obtain ⟨hchannel, hnone, hcontent⟩ := messageReceived_eq_some_iff.mp hstatus
    refine ⟨hnone, message, ?_, hchannel, hcontent⟩
    obtain ⟨e, he, hreceived⟩ := List.mem_filterMap.mp hdelivered
    cases e with
    | received listener message' =>
      obtain ⟨rfl, rfl⟩ := Prod.mk.inj (Option.some.inj hreceived)
      exact he
    | _ => cases hreceived
  | _ => cases hstatus

end WolkGateway.Wolk
