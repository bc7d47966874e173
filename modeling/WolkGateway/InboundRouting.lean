import WolkGateway.InboundOrder

/-!
# Inbound routing over a run

The inbound handler by itself, for any listeners and any topic match: listeners are added
at any time, messages arrive at any time, and the worker of the handler's buffer delivers.
The system's inbox and the builder's listeners are runs of this model.
-/

namespace WolkGateway.InboundRouting
open DeviceModel GuardedRuns InboundGatewayMessageHandler

variable {ℓ : Type}

structure RoutingState (ℓ : Type) where
  handler : InboundGatewayMessageHandler ℓ
  /-- `m_commandBuffer`, with the listener each message was put there for. -/
  buffer : List (ℓ × InboundMessage)
  delivered : List (ℓ × InboundMessage)
  /-- Every message so far, with the listener found for it. -/
  arrived : List (InboundMessage × Option ℓ)

def RoutingState.initial (ℓ : Type) : RoutingState ℓ := ⟨.empty, [], [], []⟩

inductive RoutingEvent (ℓ : Type)
  | addListener (listener : ℓ) (inboundChannels : List Str)
  | messageReceived (channel payload : Str)
  | worker

variable (mqttTopicMatch : Str → Str → Bool)

def routingStep (s : RoutingState ℓ) : RoutingEvent ℓ → RoutingState ℓ
  | .addListener listener channels => { s with handler := s.handler.addListener listener channels }
  | .messageReceived channel payload =>
    let found := s.handler.handlerFor mqttTopicMatch channel
    { s with
      buffer := s.buffer ++ found.toList.map fun listener => (listener, ⟨payload, channel⟩)
      arrived := s.arrived ++ [(⟨payload, channel⟩, found)] }
  | .worker =>
    match s.buffer with
    | [] => s
    | next :: buffer => { s with buffer := buffer, delivered := s.delivered ++ [next] }

def route (events : List (RoutingEvent ℓ)) : RoutingState ℓ :=
  run (routingStep mqttTopicMatch) (.initial ℓ) events

def RoutingEvent.subscribes : RoutingEvent ℓ → List (Str × ℓ)
  | .addListener listener channels => channels.map fun channel => (channel, listener)
  | _ => []

def subscriptions (events : List (RoutingEvent ℓ)) : List (Str × ℓ) :=
  events.flatMap RoutingEvent.subscribes

/-- No channel is matched by patterns of two different listeners. -/
def Unambiguous (subs : List (Str × ℓ)) : Prop :=
  ∀ channel, ∀ a ∈ subs, ∀ b ∈ subs, mqttTopicMatch a.1 channel = true →
    mqttTopicMatch b.1 channel = true → a.2 = b.2

variable {mqttTopicMatch} {handler : InboundGatewayMessageHandler ℓ} {subs : List (Str × ℓ)}

/-- The two containers of the handler agree with the subscriptions made. -/
structure Subscribed (handler : InboundGatewayMessageHandler ℓ) (subs : List (Str × ℓ)) :
    Prop where
  list : handler.subscriptionList = subs.map Prod.fst
  keys : ∀ channel, channel ∈ handler.channelHandlers ↔ channel ∈ handler.subscriptionList
  handlers : ∀ channel listener, handler.channelHandlers[channel]? = some listener →
    (channel, listener) ∈ subs

theorem subscribed_empty : Subscribed (.empty : InboundGatewayMessageHandler ℓ) [] := by
  constructor
  · rfl
  · intro channel
    simp [InboundGatewayMessageHandler.empty]
  · intro channel listener h
    simp [InboundGatewayMessageHandler.empty] at h

theorem subscribed_snoc (h : Subscribed handler subs) (channel : Str) (listener : ℓ) :
    Subscribed ⟨handler.channelHandlers.insert channel listener,
      handler.subscriptionList ++ [channel]⟩ (subs ++ [(channel, listener)]) := by
  constructor
  · simp [h.list]
  · intro c
    rw [Std.ExtTreeMap.mem_insert, Std.LawfulEqCmp.compare_eq_iff_eq, h.keys]
    simp [or_comm, eq_comm]
  · intro c l hl
    rw [Std.ExtTreeMap.getElem?_insert] at hl
    split_ifs at hl with hc
    · rw [Std.LawfulEqCmp.compare_eq_iff_eq] at hc
      simp [← hc, ← Option.some.inj hl]
    · exact List.mem_append_left _ (h.handlers c l hl)

theorem subscribed_addListener (h : Subscribed handler subs) (listener : ℓ)
    (channels : List Str) : Subscribed (handler.addListener listener channels)
      (subs ++ channels.map fun channel => (channel, listener)) := by
  induction channels generalizing handler subs with
  | nil => simpa [addListener] using h
  | cons channel channels ih =>
    have hnext := ih (subscribed_snoc h channel listener)
    rw [List.append_assoc, List.singleton_append] at hnext
    exact hnext

theorem route_snoc (events : List (RoutingEvent ℓ)) (e : RoutingEvent ℓ) :
    route mqttTopicMatch (events ++ [e]) =
      routingStep mqttTopicMatch (route mqttTopicMatch events) e := by
  rw [route, run_append, run_cons, run_nil, route]

theorem subscriptions_append (events events' : List (RoutingEvent ℓ)) :
    subscriptions (events ++ events') = subscriptions events ++ subscriptions events' :=
  List.flatMap_append

theorem subscriptions_singleton (e : RoutingEvent ℓ) : subscriptions [e] = e.subscribes :=
  List.flatMap_singleton _ _

theorem subscribed_route (mqttTopicMatch : Str → Str → Bool) (events : List (RoutingEvent ℓ)) :
    Subscribed (route mqttTopicMatch events).handler (subscriptions events) := by
  induction events using List.reverseRecOn with
  | nil => exact subscribed_empty
  | append_singleton events e ih =>
    rw [route_snoc, subscriptions_append, subscriptions_singleton]
    cases e with
    | addListener listener channels => exact subscribed_addListener ih listener channels
    | messageReceived =>
      simp only [RoutingEvent.subscribes, List.append_nil]
      exact ih
    | worker =>
      have hsame : (routingStep mqttTopicMatch (route mqttTopicMatch events)
          .worker).handler = (route mqttTopicMatch events).handler := by
        simp only [routingStep]
        split <;> rfl
      simp only [hsame, RoutingEvent.subscribes, List.append_nil]
      exact ih

/-- A listener is found exactly when a subscribed channel matches. -/
theorem isSome_handlerFor_iff (h : Subscribed handler subs) (channel : Str) :
    (handler.handlerFor mqttTopicMatch channel).isSome = true ↔
      ∃ pattern ∈ handler.getChannels, mqttTopicMatch pattern channel = true := by
  simp only [handlerFor, Option.isSome_map, List.find?_isSome, getChannels]
  constructor
  · rintro ⟨kvp, hmem, hmatch⟩
    have hk := Std.ExtTreeMap.mem_toList_iff_getElem?_eq_some.mp hmem
    refine ⟨kvp.1, (h.keys kvp.1).mp ?_, hmatch⟩
    by_contra hn
    simp [Std.ExtTreeMap.getElem?_eq_none hn] at hk
  · rintro ⟨pattern, hmem, hmatch⟩
    have hk := Std.ExtTreeMap.getElem?_eq_some_getElem ((h.keys pattern).mpr hmem)
    exact ⟨(pattern, _), Std.ExtTreeMap.mem_toList_iff_getElem?_eq_some.mpr hk, hmatch⟩

/-- The listener found subscribed a channel that matches. -/
theorem subscribed_of_handlerFor (h : Subscribed handler subs) {channel : Str} {listener : ℓ}
    (hf : handler.handlerFor mqttTopicMatch channel = some listener) :
    ∃ pattern, (pattern, listener) ∈ subs ∧ mqttTopicMatch pattern channel = true := by
  obtain ⟨kvp, hfind, rfl⟩ := Option.map_eq_some_iff.mp hf
  have hk := Std.ExtTreeMap.mem_toList_iff_getElem?_eq_some.mp (List.mem_of_find?_eq_some hfind)
  exact ⟨kvp.1, h.handlers _ _ hk, by simpa using List.find?_some hfind⟩

/-- Without ambiguity the listener is the one that subscribed a matching channel. -/
theorem handlerFor_eq_some_iff (h : Subscribed handler subs)
    (hu : Unambiguous mqttTopicMatch subs) (channel : Str) (listener : ℓ) :
    handler.handlerFor mqttTopicMatch channel = some listener ↔
      ∃ pattern, (pattern, listener) ∈ subs ∧ mqttTopicMatch pattern channel = true := by
  constructor
  · exact subscribed_of_handlerFor h
  · rintro ⟨pattern, hmem, hmatch⟩
    have hsome : (handler.handlerFor mqttTopicMatch channel).isSome = true := by
      refine (isSome_handlerFor_iff h channel).mpr ⟨pattern, ?_, hmatch⟩
      rw [getChannels, h.list]
      exact List.mem_map_of_mem hmem
    obtain ⟨other, hother⟩ := Option.isSome_iff_exists.mp hsome
    obtain ⟨pattern', hmem', hmatch'⟩ := subscribed_of_handlerFor h hother
    have heq : other = listener := hu channel _ hmem' _ hmem hmatch' hmatch
    rw [hother, heq]

def routed (arrived : List (InboundMessage × Option ℓ)) : List (ℓ × InboundMessage) :=
  arrived.flatMap fun a => a.2.toList.map fun listener => (listener, a.1)

theorem delivered_append_buffer (mqttTopicMatch : Str → Str → Bool)
    (events : List (RoutingEvent ℓ)) :
    (route mqttTopicMatch events).delivered ++ (route mqttTopicMatch events).buffer =
      routed (route mqttTopicMatch events).arrived := by
  induction events using List.reverseRecOn with
  | nil => rfl
  | append_singleton events e ih =>
    rw [route_snoc]
    cases e with
    | addListener => exact ih
    | messageReceived channel payload =>
      simp only [routingStep, routed, List.flatMap_append, ← List.append_assoc] at ih ⊢
      rw [ih]
      simp
    | worker =>
      simp only [routingStep]
      split
      · exact ih
      · rename_i next buffer hb
        rw [hb] at ih
        simpa using ih

/-- The worker delivers everything that waits. -/
theorem worker_drains (s : RoutingState ℓ) :
    run (routingStep mqttTopicMatch) s (List.replicate s.buffer.length .worker) =
      { s with buffer := [], delivered := s.delivered ++ s.buffer } := by
  obtain ⟨handler, buffer, delivered, arrived⟩ := s
  induction buffer generalizing delivered with
  | nil => simp
  | cons next buffer ih =>
    rw [List.length_cons, List.replicate_succ, run_cons]
    simp only [routingStep]
    rw [ih (delivered ++ [next]), List.append_assoc, List.singleton_append]

/-- Two runs with the same subscriptions up to order, and otherwise the same events. -/
theorem route_congr {before before' : List (RoutingEvent ℓ)} {rest : List (RoutingEvent ℓ)}
    (hsubs : ∀ a, a ∈ subscriptions before' ↔ a ∈ subscriptions before)
    (hu : Unambiguous mqttTopicMatch (subscriptions (before ++ rest)))
    (hbuffer : (route mqttTopicMatch before').buffer = (route mqttTopicMatch before).buffer)
    (hdelivered : (route mqttTopicMatch before').delivered =
      (route mqttTopicMatch before).delivered)
    (harrived : (route mqttTopicMatch before').arrived = (route mqttTopicMatch before).arrived) :
    (route mqttTopicMatch (before' ++ rest)).buffer =
        (route mqttTopicMatch (before ++ rest)).buffer ∧
      (route mqttTopicMatch (before' ++ rest)).delivered =
        (route mqttTopicMatch (before ++ rest)).delivered ∧
      (route mqttTopicMatch (before' ++ rest)).arrived =
        (route mqttTopicMatch (before ++ rest)).arrived := by
  induction rest using List.reverseRecOn with
  | nil =>
    simp only [List.append_nil]
    exact ⟨hbuffer, hdelivered, harrived⟩
  | append_singleton rest e ih =>
    rw [← List.append_assoc, subscriptions_append] at hu
    have hu' : Unambiguous mqttTopicMatch (subscriptions (before ++ rest)) := by
      intro channel a ha b hb
      exact hu channel a (List.mem_append_left _ ha) b (List.mem_append_left _ hb)
    obtain ⟨hb, hd, ha⟩ := ih hu'
    rw [← List.append_assoc, ← List.append_assoc, route_snoc, route_snoc]
    cases e with
    | addListener => exact ⟨hb, hd, ha⟩
    | messageReceived channel payload =>
      have hmem : ∀ a, a ∈ subscriptions (before' ++ rest) ↔
          a ∈ subscriptions (before ++ rest) := by
        intro a
        rw [subscriptions_append, subscriptions_append, List.mem_append, List.mem_append, hsubs]
      have hu'' : Unambiguous mqttTopicMatch (subscriptions (before' ++ rest)) := by
        intro channel a ha b hb
        exact hu' channel a ((hmem a).mp ha) b ((hmem b).mp hb)
      have hfound : (route mqttTopicMatch (before' ++ rest)).handler.handlerFor mqttTopicMatch
            channel =
          (route mqttTopicMatch (before ++ rest)).handler.handlerFor mqttTopicMatch channel := by
        refine Option.ext fun listener => ?_
        rw [handlerFor_eq_some_iff (subscribed_route mqttTopicMatch _) hu'',
          handlerFor_eq_some_iff (subscribed_route mqttTopicMatch _) hu']
        simp only [hmem]
      simp only [routingStep, hfound, hb, hd, ha]
      exact ⟨trivial, trivial, trivial⟩
    | worker =>
      simp only [routingStep, hb]
      split
      · exact ⟨hb, hd, ha⟩
      · exact ⟨rfl, by rw [hd], ha⟩

def adding (adds : List (ℓ × List Str)) : List (RoutingEvent ℓ) :=
  adds.map fun a => .addListener a.1 a.2

theorem route_adding (mqttTopicMatch : Str → Str → Bool) (adds : List (ℓ × List Str)) :
    (route mqttTopicMatch (adding adds)).buffer = [] ∧
      (route mqttTopicMatch (adding adds)).delivered = [] ∧
      (route mqttTopicMatch (adding adds)).arrived = [] := by
  induction adds using List.reverseRecOn with
  | nil => exact ⟨rfl, rfl, rfl⟩
  | append_singleton adds a ih =>
    rw [adding, List.map_append, List.map_singleton, route_snoc]
    exact ih

theorem mem_subscriptions_adding {adds adds' : List (ℓ × List Str)} (h : adds.Perm adds')
    (a : Str × ℓ) : a ∈ subscriptions (adding adds') ↔ a ∈ subscriptions (adding adds) := by
  simp only [subscriptions, adding, List.mem_flatMap, List.mem_map]
  constructor
  · rintro ⟨e, ⟨b, hb, rfl⟩, ha⟩
    exact ⟨_, ⟨b, h.mem_iff.mpr hb, rfl⟩, ha⟩
  · rintro ⟨e, ⟨b, hb, rfl⟩, ha⟩
    exact ⟨_, ⟨b, h.mem_iff.mp hb, rfl⟩, ha⟩

/-- What routing guarantees of the state a run reaches. -/
structure RoutesExactly [DecidableEq ℓ] (mqttTopicMatch : Str → Str → Bool)
    (events : List (RoutingEvent ℓ)) (s : RoutingState ℓ) : Prop where
  /-- The subscription list and the map have the same channels: those subscribed. -/
  channels : ∀ channel, (channel ∈ s.handler.getChannels ↔ channel ∈ s.handler.channelHandlers) ∧
    (channel ∈ s.handler.getChannels ↔ channel ∈ (subscriptions events).map Prod.fst)
  /-- A message goes to at most one listener, and to one exactly when a channel matches. -/
  found : ∀ channel payload, ∃ listener : Option ℓ,
    (routingStep mqttTopicMatch s (.messageReceived channel payload)).arrived =
      s.arrived ++ [(⟨payload, channel⟩, listener)] ∧
    (listener.isSome = true ↔
      ∃ pattern ∈ s.handler.getChannels, mqttTopicMatch pattern channel = true) ∧
    (Unambiguous mqttTopicMatch (subscriptions events) → ∀ pattern l,
      (pattern, l) ∈ subscriptions events → mqttTopicMatch pattern channel = true →
      listener = some l)
  /-- Deliveries are the arrivals that found a listener, in order and without duplicates. -/
  fifo : s.delivered ++ s.buffer = routed s.arrived
  listeners : ∀ l, s.delivered.filter (fun d => d.1 = l) <+:
    (routed s.arrived).filter fun d => d.1 = l
  /-- Everything that waits is delivered. -/
  drained : ∃ n, (run (routingStep mqttTopicMatch) s (List.replicate n .worker)).delivered =
    routed s.arrived

/-- Routing is exact and keeps the order of arrival, in every run; and where no channel is
matched by patterns of two listeners, the order in which the listeners were added before
the first message changes nothing. -/
theorem routing_exact [DecidableEq ℓ] (mqttTopicMatch : Str → Str → Bool)
    (events : List (RoutingEvent ℓ)) :
    RoutesExactly mqttTopicMatch events (route mqttTopicMatch events) ∧
    ∀ (adds adds' : List (ℓ × List Str)) (rest : List (RoutingEvent ℓ)),
      events = adding adds ++ rest → adds.Perm adds' →
      (∀ channel,
        channel ∈ (route mqttTopicMatch (adding adds' ++ rest)).handler.getChannels ↔
          channel ∈ (route mqttTopicMatch events).handler.getChannels) ∧
      (Unambiguous mqttTopicMatch (subscriptions events) →
        (route mqttTopicMatch (adding adds' ++ rest)).arrived =
            (route mqttTopicMatch events).arrived ∧
          (route mqttTopicMatch (adding adds' ++ rest)).delivered =
            (route mqttTopicMatch events).delivered ∧
          (route mqttTopicMatch (adding adds' ++ rest)).buffer =
            (route mqttTopicMatch events).buffer) := by
  have hsub := subscribed_route mqttTopicMatch events
  have hfifo := delivered_append_buffer mqttTopicMatch events
  refine ⟨⟨?_, ?_, hfifo, ?_, ?_⟩, ?_⟩
  · intro channel
    rw [getChannels, ← hsub.list]
    exact ⟨(hsub.keys channel).symm, .rfl⟩
  · intro channel payload
    refine ⟨_, rfl, isSome_handlerFor_iff hsub channel, fun hu pattern l hmem hmatch => ?_⟩
    exact (handlerFor_eq_some_iff hsub hu channel l).mpr ⟨pattern, hmem, hmatch⟩
  · intro l
    rw [← hfifo, List.filter_append]
    exact List.prefix_append _ _
  · refine ⟨(route mqttTopicMatch events).buffer.length, ?_⟩
    rw [worker_drains]
    exact hfifo
  · rintro adds adds' rest rfl hperm
    have hmem := mem_subscriptions_adding hperm
    constructor
    · intro channel
      have hsub' := subscribed_route mqttTopicMatch (adding adds' ++ rest)
      rw [getChannels, getChannels, hsub.list, hsub'.list, subscriptions_append,
        subscriptions_append]
      simp only [List.mem_map, List.mem_append, hmem]
    · intro hu
      obtain ⟨hb, hd, ha⟩ := route_adding mqttTopicMatch adds
      obtain ⟨hb', hd', ha'⟩ := route_adding mqttTopicMatch adds'
      obtain ⟨hbuffer, hdelivered, harrived⟩ := route_congr hmem hu (hb'.trans hb.symm)
        (hd'.trans hd.symm) (ha'.trans ha.symm)
      exact ⟨harrived, hdelivered, hbuffer⟩

section System
open Wolk

theorem handler_adding (adds : List (ℓ × List Str)) :
    (route mqttTopicMatch (adding adds)).handler =
      adds.foldl (fun handler a => handler.addListener a.1 a.2) .empty := by
  induction adds using List.reverseRecOn with
  | nil => rfl
  | append_singleton adds a ih =>
    rw [adding, List.map_append, List.map_singleton, route_snoc, List.foldl_append]
    exact congrArg (fun handler => handler.addListener a.1 a.2) ih

/-- `WolkBuilder::build` adds the listeners of its services to a fresh handler. -/
theorem handler_of_build {builder : WolkBuilder} {core : CoreLibrary} {env : Environment}
    {cfg : Config} (h : builder.build core env = .ok cfg) :
    cfg.inboundMessageHandler = (route cfg.mqttTopicMatch (adding (builder.listeners.map
      fun listener => (listener, core.getInboundChannels listener)))).handler := by
  rw [handler_adding, List.foldl_map]
  simp only [WolkBuilder.build] at h
  split_ifs at h
  rw [← Except.ok.inj h]

variable {P : DataService.Persistence}

/-- An inbound message, and a step of the inbox's worker, are steps of the routing model. -/
theorem inbox_routes (cfg : Config) (s : State P) (r : RoutingState Listener)
    (hhandler : r.handler = cfg.inboundMessageHandler) (hbuffer : r.buffer = s.inbox) :
    (∀ channel payload, (step cfg s (.inbound channel payload)).inbox =
      (routingStep cfg.mqttTopicMatch r (.messageReceived channel payload)).buffer) ∧
    (step cfg s .inboundWorker).inbox = (routingStep cfg.mqttTopicMatch r .worker).buffer := by
  constructor
  · intro channel payload
    simp only [step, routingStep, hhandler, hbuffer]
    split
    · rename_i hf
      simp [hf]
    · rename_i listener hf
      simp [hf]
  · simp only [step, routingStep, hbuffer]
    split
    · rename_i hi
      rw [hi, hbuffer, hi]
    · rename_i hi
      rw [deliver_inbox, hi]

end System

end WolkGateway.InboundRouting
