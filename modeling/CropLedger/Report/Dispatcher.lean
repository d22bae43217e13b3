import CropLedger.Broker.Publisher
import CropLedger.Report.Request

/-!
# Asking for a report

A request is published as a job for the workers of its kind, and who asked gets a ticket with the
address where the report will be. A range that is none publishes nothing, and no ticket is given
for a job that the broker did not take.

* `Dispatcher.request`: publishes a job and gives the ticket.
-/

namespace CropLedger

/-- How the broker is called, the exchange of report jobs, and where clients reach the market. -/
structure Dispatcher (σ : Type) where
  publisher : Publisher σ
  exchange : String
  baseUrl : String

/-- Why no report is to be expected. -/
inductive DispatchFault
  | range (fault : RangeFault)
  | publish (fault : BrokerFault)
  deriving DecidableEq

/-- What a fault is called in a message. -/
def DispatchFault.message : DispatchFault → String
  | .range fault => "validation error: " ++ fault.message
  | .publish fault => "failed to publish report job: " ++ fault.message

namespace Dispatcher

variable {σ : Type}

/-- The job of a request. -/
def job (d : Dispatcher σ) (r : ReportRequest) : Message :=
  ⟨d.exchange, r.kind.routingKey, r.jobBytes⟩

/-- Publishes the job of a request, and answers with its ticket. -/
def request (d : Dispatcher σ) (r : ReportRequest) (s : σ) :
    Except DispatchFault ReportTicket × σ :=
  match r.range.check with
  | .error fault => (.error (.range fault), s)
  | .ok () =>
    match d.publisher.publish (d.job r) s with
    | (.ok (), s) => (.ok (.of r d.baseUrl), s)
    | (.error fault, s) => (.error (.publish fault), s)

end Dispatcher

end CropLedger
