import CropLedger.Broker.Session

/-!
# Consumers

A consumer sets itself up, hands every delivery on, and sets itself up again after a failure or
when its deliveries end. Before each new attempt it waits: the waits double from a first one, as
often as the schedule goes, and then are the longest one. A successful set-up starts the schedule
anew.

* `Backoff.next`: the next wait;
* `Consumer.step`: what a consumer does about an event;
* `Consumer.handled`: the payloads handed on;
* `Consumer.drain`: what the consumers of all kinds hand on within a time.
-/

namespace CropLedger

/-- How far a schedule of waits has been used up. -/
structure Backoff where
  used : Nat
  deriving DecidableEq

namespace Backoff

/-- A schedule not yet used. -/
def fresh : Backoff := ⟨0⟩

/-- The first wait in milliseconds. -/
def shortest : Nat := 100

/-- The longest wait in milliseconds. -/
def longest : Nat := 30000

/-- The number of waits of a schedule. -/
def maxTimes : Nat := 3

/-- The next wait of a schedule, or the longest wait once the schedule has come to its end. -/
def next (b : Backoff) : Nat × Backoff :=
  if b.used < maxTimes then (min (shortest * Nat.pow 2 b.used) longest, ⟨b.used + 1⟩)
  else (longest, b)

end Backoff

/-- What happens to a consumer. -/
inductive ConsumerEvent
  | setupFailed
  | setUp
  | delivery (payload : Bytes)
  | deliveryFailed
  | ended
  deriving DecidableEq

/-- What a consumer does. -/
inductive ConsumerAction
  | handle (payload : Bytes)
  | wait (millis : Nat)
  deriving DecidableEq

/-- Whether a consumer is set up, and its schedule of waits. -/
structure Consumer where
  isSetUp : Bool
  backoff : Backoff
  deriving DecidableEq

namespace Consumer

/-- A consumer that has just started. -/
def start : Consumer := ⟨false, .fresh⟩

/-- Waits before the next attempt to set up. -/
def pause (c : Consumer) : List ConsumerAction × Consumer :=
  let (millis, backoff) := c.backoff.next
  ([.wait millis], ⟨false, backoff⟩)

/-- What a consumer does about an event. Deliveries come only to one that is set up, and only one
that is not is being set up. -/
def step (c : Consumer) : ConsumerEvent → List ConsumerAction × Consumer
  | .setupFailed => if c.isSetUp then ([], c) else c.pause
  | .setUp => ([], if c.isSetUp then c else ⟨true, .fresh⟩)
  | .delivery payload => (if c.isSetUp then [.handle payload] else [], c)
  | .deliveryFailed | .ended => if c.isSetUp then c.pause else ([], c)

/-- What a consumer does about events in order. -/
def run (c : Consumer) : List ConsumerEvent → List ConsumerAction
  | [] => []
  | e :: events =>
    let (actions, c) := c.step e
    actions ++ c.run events

/-- The payloads handed on. -/
def handled (actions : List ConsumerAction) : List Bytes :=
  actions.filterMap fun
    | .handle payload => some payload
    | .wait _ => none

/-- The time spent waiting. -/
def waited : List ConsumerAction → Nat
  | [] => 0
  | .wait millis :: actions => millis + waited actions
  | .handle _ :: actions => waited actions

/-- What a broker lets happen to the consumer of a kind of report once it sets itself up, until all
that waits in its queue is delivered, and whether the consumer stays set up. -/
def attempt (exchange : String) (kind : ReportKind) (b : BrokerServer) :
    List ConsumerEvent × Bool × BrokerServer :=
  match Session.consume exchange kind b with
  | (.error _, b) => ([.setupFailed], false, b)
  | (.ok (), b) =>
    if b.due .cutConnection then ([.setUp, .deliveryFailed], false, b.done)
    else if b.due .closeChannel then ([.setUp, .ended], false, b.done)
    else
      (.setUp :: (b.messages kind.queue).map .delivery, true, b.setMessages kind.queue [])

/-- A consumer after events. -/
def after (c : Consumer) (events : List ConsumerEvent) : Consumer :=
  events.foldl (fun c e => (c.step e).2) c

end Consumer

/-- A consumer that is going to set itself up, and when. -/
structure PlannedAttempt where
  time : Nat
  kind : ReportKind
  consumer : Consumer

namespace PlannedAttempt

/-- Attempts in the order of their times with one more, which comes after those of its time. -/
def insert (a : PlannedAttempt) : List PlannedAttempt → List PlannedAttempt
  | [] => [a]
  | b :: plan => if b.time ≤ a.time then b :: insert a plan else a :: b :: plan

/-- The payloads that consumers hand on if they make their attempts in order up to a time, and
whether all are set up by then. Each attempt that fails uses up one of the times the broker is
disturbed, and plans the next one. -/
def carryOut (exchange : String) (deadline : Nat) :
    Nat → List PlannedAttempt → BrokerServer → List Bytes × Bool × BrokerServer
  | _, [], b => ([], true, b)
  | 0, _ :: _, b => ([], false, b)
  | attempts + 1, a :: plan, b =>
    if deadline < a.time then ([], false, b)
    else
      let (events, isSetUp, b) := Consumer.attempt exchange a.kind b
      let actions := a.consumer.run events
      let next : PlannedAttempt :=
        ⟨a.time + Consumer.waited actions, a.kind, a.consumer.after events⟩
      let (payloads, finished, b) :=
        carryOut exchange deadline attempts (if isSetUp then plan else next.insert plan) b
      (Consumer.handled actions ++ payloads, finished, b)

end PlannedAttempt

/-- The payloads that the consumers of all kinds hand on if they start now and are given some time,
and whether all that waited for them is handed on by then. -/
def Consumer.drain (exchange : String) (millis : Nat) (b : BrokerServer) :
    List Bytes × Bool × BrokerServer :=
  PlannedAttempt.carryOut exchange millis (b.times + ReportKind.all.length)
    (ReportKind.all.map fun kind => ⟨0, kind, .start⟩) b

end CropLedger
