import CropLedger.Broker.Method

/-!
# A message broker

A broker routes each message to the queues that are bound to its exchange under exactly its key. A
message that no queue wants is dropped. The broker can be made to refuse methods, and to break off
deliveries as soon as they are asked for.

* `BrokerServer.send`: what the broker makes of a method;
* `BrokerServer.route`: where a message goes.
-/

namespace CropLedger

/-- What a broker is made to do for a number of times. -/
inductive Disturbance
  | refuse (method : String)
  | cutConnection
  | closeChannel
  deriving DecidableEq

/-- A queue bound to an exchange under a key. -/
structure Binding where
  queue : String
  exchange : String
  routingKey : String
  deriving DecidableEq

/-- The bindings and queues of a broker, whether it takes messages, what it is made to do and how
often, and the methods it got, latest first. -/
structure BrokerServer where
  reachable : Bool
  bindings : List Binding
  queues : List (String × List Bytes)
  nacks : Bool
  disturbance : Option Disturbance
  times : Nat
  received : List Method
  deriving DecidableEq

namespace BrokerServer

/-- A broker without queues. -/
def empty : BrokerServer := ⟨true, [], [], false, none, 0, []⟩

/-- A broker that cannot be reached. -/
def nowhere : BrokerServer := { empty with reachable := false }

/-- Makes the broker do something for a number of times, and nothing else. -/
def disturb (d : Disturbance) (times : Nat) (b : BrokerServer) : BrokerServer :=
  { b with disturbance := some d, times }

/-- The messages in a queue. -/
def messages (queue : String) (b : BrokerServer) : List Bytes := (b.queues.lookup queue).getD []

/-- The broker with other messages in a queue. -/
def setMessages (queue : String) (bodies : List Bytes) (b : BrokerServer) : BrokerServer :=
  { b with queues := b.queues.filter (fun q => q.1 ≠ queue) ++ [(queue, bodies)] }

/-- Adds a message to a queue. -/
def enqueue (body : Bytes) (b : BrokerServer) (queue : String) : BrokerServer :=
  b.setMessages queue (b.messages queue ++ [body])

/-- The queues bound to an exchange under a key. -/
def route (exchange routingKey : String) (b : BrokerServer) : List String :=
  ((b.bindings.filter fun x => x.exchange = exchange && x.routingKey = routingKey).map
    Binding.queue).eraseDups

/-- What a method does that is not refused. -/
def carryOut (m : Method) (b : BrokerServer) : BrokerServer :=
  match m with
  | .bindQueue queue exchange routingKey =>
    { b with bindings := b.bindings.insert ⟨queue, exchange, routingKey⟩ }
  | .publish exchange routingKey body =>
    if b.nacks then b else (b.route exchange routingKey).foldl (enqueue body) b
  | _ => b

/-- Whether something is to be done once more. -/
def due (d : Disturbance) (b : BrokerServer) : Bool := b.disturbance = some d && b.times ≠ 0

/-- Counts something that was done. -/
def done (b : BrokerServer) : BrokerServer := { b with times := b.times - 1 }

/-- Takes in a method, and whether it is carried out. -/
def send (m : Method) (b : BrokerServer) : Bool × BrokerServer :=
  let b := { b with received := m :: b.received }
  if b.due (.refuse m.name) then (false, b.done) else (true, b.carryOut m)

/-- Takes in methods until one is refused. -/
def sendAll : List Method → BrokerServer → Bool × BrokerServer
  | [], b => (true, b)
  | m :: rest, b =>
    match b.send m with
    | (true, b) => sendAll rest b
    | (false, b) => (false, b)

end BrokerServer

end CropLedger
