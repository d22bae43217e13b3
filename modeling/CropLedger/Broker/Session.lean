import CropLedger.Broker.Publisher
import CropLedger.Broker.Server

/-!
# Talking to a message broker

Every declaration and every message goes through a channel of its own. A message counts as
published once the broker has confirmed that it took it.

* `Session.connect`: declares the exchange and all queues;
* `Session.publisher`: publishes with confirmation.
-/

namespace CropLedger.Session

/-- Opens a channel. -/
def openChannel (b : BrokerServer) : Except BrokerFault Unit × BrokerServer :=
  if b.reachable then
    match b.send .openChannel with
    | (true, b) => (.ok (), b)
    | (false, b) => (.error (.connection "Failed to create channel"), b)
  else (.error (.connection "Failed to get connection from pool"), b)

/-- Asks methods in turn on an open channel; `failure` says what failed if one is refused. -/
def ask (failure : String) (methods : List Method) (b : BrokerServer) :
    Except BrokerFault Unit × BrokerServer :=
  match b.sendAll methods with
  | (true, b) => (.ok (), b)
  | (false, b) => (.error (.connection failure), b)

/-- A step, and if it succeeded another. -/
def followedBy (first second : BrokerServer → Except BrokerFault Unit × BrokerServer)
    (b : BrokerServer) : Except BrokerFault Unit × BrokerServer :=
  match first b with
  | (.ok (), b) => second b
  | (.error fault, b) => (.error fault, b)

/-- Declares the exchange and all queues on a channel. -/
def connect (exchange : String) : BrokerServer → Except BrokerFault Unit × BrokerServer :=
  followedBy openChannel (ask "Failed to declare topology" (Method.topology exchange))

/-- Publishes a message on a channel, and waits until it is confirmed. -/
def publish (m : Message) : BrokerServer → Except BrokerFault Unit × BrokerServer :=
  followedBy openChannel <|
  followedBy (ask "Failed to enable confirms" [.selectConfirms]) <|
  followedBy (ask "Failed to await confirm" [.publish m.exchange m.routingKey m.payload])
    fun b => (if b.nacks then .error (.nacked m.routingKey) else .ok (), b)

/-- How a message broker is called. -/
def publisher : Publisher BrokerServer := ⟨publish⟩

/-- Asks for the deliveries of the queue of a kind of report, which is declared first. -/
def consume (exchange : String) (kind : ReportKind) :
    BrokerServer → Except BrokerFault Unit × BrokerServer :=
  followedBy openChannel <|
  followedBy (ask "Failed to declare exchange" [.declareExchange exchange]) <|
  followedBy (ask "Failed to declare queue" (Method.queueOf exchange kind)) <|
  ask "Failed to start consumer" [.consume kind.queue ("report-worker-" ++ kind.routingKey)]

end CropLedger.Session
