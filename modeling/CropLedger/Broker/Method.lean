import CropLedger.Json.Value
import CropLedger.Report.Target
import CropLedger.Text.Utf8

/-!
# Methods

What is asked of a message broker on a channel. Exchanges and queues outlive the broker, messages
are kept on disk, publishing is confirmed, and deliveries count as handled once they are made.

* `Method.words`: the arguments of a method as they are reported;
* `Method.topology`: what is declared so that no job is lost.
-/

namespace CropLedger

/-- What is asked of a broker. -/
inductive Method
  | openChannel
  | declareExchange (name : String)
  | declareQueue (name : String)
  | bindQueue (name exchange routingKey : String)
  | selectConfirms
  | publish (exchange routingKey : String) (body : Bytes)
  | consume (queue tag : String)
  deriving DecidableEq

namespace Method

/-- The name of a method. -/
def name : Method → String
  | openChannel => "channel.open"
  | declareExchange _ => "exchange.declare"
  | declareQueue _ => "queue.declare"
  | bindQueue _ _ _ => "queue.bind"
  | selectConfirms => "confirm.select"
  | publish _ _ _ => "basic.publish"
  | consume _ _ => "basic.consume"

/-- Named switches, off or on. -/
def switches (values : List (String × Bool)) : Json :=
  .object (values.map fun (name, on) => (name, .boolean on))

/-- The properties and switches of a published message. -/
def publishing : Json :=
  .object [("content_type", .text "application/json"), ("delivery_mode", .number 2),
    ("immediate", .boolean false), ("mandatory", .boolean false)]

/-- The arguments of a method but for the body of a message. -/
def arguments : Method → List Json
  | openChannel | selectConfirms => []
  | declareExchange name => [.text name, .text "direct",
      switches [("auto_delete", false), ("durable", true), ("internal", false),
        ("passive", false)]]
  | declareQueue name => [.text name,
      switches [("auto_delete", false), ("durable", true), ("exclusive", false),
        ("passive", false)]]
  | bindQueue name exchange routingKey => [.text name, .text exchange, .text routingKey]
  | publish exchange routingKey _ => [.text exchange, .text routingKey, publishing]
  | consume queue tag => [.text queue, .text tag,
      switches [("exclusive", false), ("no_ack", true), ("no_local", false)]]

/-- The name and arguments of a method but for the body of a message. -/
def words (m : Method) : List Json := .text m.name :: m.arguments

/-- The body of a message. -/
def body? : Method → Option Bytes
  | publish _ _ body => some body
  | _ => none

/-- Whether a method is reported: the opening of channels is not. -/
def isReported (m : Method) : Bool := m ≠ openChannel

/-- What is declared for the queue of a kind of report. -/
def queueOf (exchange : String) (kind : ReportKind) : List Method :=
  [declareQueue kind.queue, bindQueue kind.queue exchange kind.routingKey]

/-- What is declared so that no job is lost: the exchange and the queues of all kinds. -/
def topology (exchange : String) : List Method :=
  declareExchange exchange :: ReportKind.all.flatMap (queueOf exchange)

end Method

end CropLedger
