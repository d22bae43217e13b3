import CropLedger.Text.Utf8

/-!
# Publishing

A message is published to an exchange under a routing key. The broker accepts it, rejects it, or
cannot be reached.

* `Publisher`: how a broker is called;
* `Outbox.publisher`: a broker that collects what is published.
-/

namespace CropLedger

/-- Why a message was not published. -/
inductive BrokerFault
  | connection (reason : String)
  | rejected (reason : String)
  deriving DecidableEq

namespace BrokerFault

/-- What a fault is called in a message. -/
def message : BrokerFault → String
  | .connection reason => "broker connection error: " ++ reason
  | .rejected reason => "publish rejected: " ++ reason

/-- The fault of a message that the broker did not take. -/
def nacked (routingKey : String) : BrokerFault :=
  .rejected s!"broker nacked message for routing key {routingKey}"

end BrokerFault

/-- A published message. -/
structure Message where
  exchange : String
  routingKey : String
  payload : Bytes
  deriving DecidableEq

/-- How a broker with states of a type is called. -/
structure Publisher (σ : Type) where
  publish : Message → σ → Except BrokerFault Unit × σ

/-- How a broker that collects messages takes the next one. -/
inductive OutboxMode
  | accepting
  | unreachable
  | rejecting
  deriving DecidableEq

/-- The messages that a broker has accepted, oldest first. -/
structure Outbox where
  mode : OutboxMode
  messages : List Message
  deriving DecidableEq

namespace Outbox

/-- Nothing was published yet. -/
def empty : Outbox := ⟨.accepting, []⟩

/-- How the broker that collects messages is called. -/
def publisher : Publisher Outbox where
  publish message o :=
    match o.mode with
    | .accepting => (.ok (), { o with messages := o.messages ++ [message] })
    | .unreachable => (.error (.connection "connection refused"), o)
    | .rejecting => (.error (.nacked message.routingKey), o)

end Outbox

end CropLedger
