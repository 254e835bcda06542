import Sentinel.GatedPipeline
import Sentinel.GateProgress

namespace Sentinel.PipelineProgress

open Runs Text Router Dispatch Pipeline GateAccounting GateProgress GatedPipeline Tally Termination
open PathFidelity StageGating
open Gates hiding Event next step
open Requests hiding step

def attemptsLeft (maxAttempts : ℕ) : Control → ℕ
  | .forwarding l => 2 * (maxAttempts - l.attempt) + 2
  | .sleeping l => 2 * (maxAttempts - l.attempt) + 1
  | .returned _ | .raised _ => 0

/-- The steps that a request has still before it, at most. -/
def stepsLeft (maxAttempts : ℕ) (scripted : Bool) : Stage → ℕ
  | .limiting _ => 2 * maxAttempts + (if scripted then 9 else 10)
  | .acquiring _ r => 2 * maxAttempts + (remaining r.phase - 1)
  | .dispatching _ _ c => attemptsLeft maxAttempts c
  | .done _ | .failed _ => 0

def maxAttempts (q : Inbound) : ℕ := q.retryPolicy.maxAttempts.toNat

def left (h : Handled) : ℕ := stepsLeft (maxAttempts h.inbound) h.pending.isSome h.stage

section

variable {lib : StringLibrary} {d : Call} {m : Moment} {sh : Shared} {l : Locals} {n : ℕ}

end

section

variable {lib : StringLibrary} {p : GatewayPipeline} {q : Inbound} {m : Moment} {g : Gateway}
  {stage : Stage} {signal : Resumption} {st : Stretch}

end

variable {lib : StringLibrary} {p : GatewayPipeline} {w w' : World} {s : System}
  {limits : ConcurrencyLimits} {a : Requests.Action}

def work (w : World) : ℕ := (w.requests.map left).sum

/-- The steps that bring a request on: none of them times out or is cancelled. -/
def Serves : Requests.Action → Prop
  | .script _ _ | .resume _ _ (.reply _) => True
  | .resume _ _ (.gate .grant) | .resume _ _ (.gate .resume) => True
  | .resume _ _ (.dispatch (.outcome o)) => o ≠ .cancelled
  | .resume _ _ (.dispatch .wake) => True
  | _ => False

def serve (lib : StringLibrary) (p : GatewayPipeline) :
    World → Requests.Action → World → Prop := Guarded (fun _ a => Serves a) (Requests.step lib p)

end Sentinel.PipelineProgress
