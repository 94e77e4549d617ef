import EventRelay.Producer
import EventRelay.Replay
/-!
# A relay

The three workers that one configuration makes: a producer, a consumer, and a replayer that hands
its events to the consumer.
-/

namespace EventRelay

structure Codecs where
  producer : Codec := .json
  consumer : Codec := .json
  replayer : Codec := .json

structure Relay where
  producer : Producer
  consumer : Consumer
  replayer : Replayer

/-- Sets up a relay. The configuration itself need not be valid, apart from what the retry rule
makes of it. -/
def Relay.ofConfig (config : Config) (schedule? : Option Schedule) (handlers : List Handler)
    (chain : List Nat) (codecs : Codecs) : Except Error Relay := do
  let rule ← RetryRule.ofConfig config.retry schedule?
  let consumer : Consumer :=
    ⟨config, .ofHandlers handlers, rule, chain, codecs.consumer⟩
  return ⟨⟨config, codecs.producer⟩, consumer, ⟨config.scheduler, consumer, codecs.replayer⟩⟩

end EventRelay
