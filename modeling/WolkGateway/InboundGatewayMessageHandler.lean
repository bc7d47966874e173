import WolkGateway.DeviceModel

/-!
# Inbound routing

Listeners subscribe to channel patterns; an inbound message goes to the listener of the
first pattern, in the order of the map, that matches its channel.
-/

namespace WolkGateway

structure InboundGatewayMessageHandler (ℓ : Type) where
  channelHandlers : Std.ExtTreeMap Str ℓ compare
  subscriptionList : List Str

namespace InboundGatewayMessageHandler

variable {ℓ : Type}

def empty : InboundGatewayMessageHandler ℓ := ⟨∅, []⟩

/-- `addListener` of a live listener whose protocol has these inbound channels. -/
def addListener (listener : ℓ) (inboundChannels : List Str)
    (handler : InboundGatewayMessageHandler ℓ) : InboundGatewayMessageHandler ℓ :=
  inboundChannels.foldl (fun handler channel =>
    ⟨handler.channelHandlers.insert channel listener,
      handler.subscriptionList ++ [channel]⟩) handler

def getChannels (handler : InboundGatewayMessageHandler ℓ) : List Str := handler.subscriptionList

/-- The listener `messageReceived` puts a message of the channel in the buffer for. -/
def handlerFor (mqttTopicMatch : Str → Str → Bool) (handler : InboundGatewayMessageHandler ℓ)
    (channel : Str) : Option ℓ :=
  (handler.channelHandlers.toList.find? fun kvp => mqttTopicMatch kvp.1 channel).map Prod.snd

end InboundGatewayMessageHandler

end WolkGateway
