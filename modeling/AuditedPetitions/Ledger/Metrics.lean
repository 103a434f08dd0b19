import AuditedPetitions.Exposition

/-! What the ledger counts: sealed blocks, digests computed, and how long the searches took. The sum
of the durations is not kept. -/

namespace AuditedPetitions.Ledger

/-- Upper bounds of the duration buckets, in microseconds, with their labels in seconds. -/
def durationBounds : List (Nat × String) :=
  [(100, "0.0001"), (1000, "0.001"), (5000, "0.005"), (10000, "0.01"), (50000, "0.05"),
    (100000, "0.1"), (500000, "0.5"), (1000000, "1"), (5000000, "5")]

structure Metrics where
  blocks : UInt64
  attempts : UInt64
  /-- Searches that took no longer than each bound. -/
  buckets : List UInt64
  searches : UInt64
  deriving DecidableEq

namespace Metrics

def zero : Metrics := ⟨0, 0, durationBounds.map fun _ => 0, 0⟩

def recordSealed (m : Metrics) (attempts : UInt64) (micros : Nat) : Metrics :=
  ⟨m.blocks + 1, m.attempts + attempts,
    (durationBounds.zip m.buckets).map fun b => if micros ≤ b.1.1 then b.2 + 1 else b.2,
    m.searches + 1⟩

def families (m : Metrics) : List Family :=
  let duration := "ledger_seal_duration_seconds"
  let bucket (bound : String) (n : UInt64) : Sample := ⟨duration ++ "_bucket", [("le", bound)], n⟩
  [⟨"ledger_blocks_total", "Total number of sealed blocks", "counter",
      [⟨"ledger_blocks_total", [], m.blocks⟩]⟩,
    ⟨"ledger_seal_attempts_total", "Digests computed while searching for a nonce", "counter",
      [⟨"ledger_seal_attempts_total", [], m.attempts⟩]⟩,
    ⟨duration, "Histogram of proof-of-work latencies", "histogram",
      ((durationBounds.zip m.buckets).map fun b => bucket b.1.2 b.2) ++
        [bucket "+Inf" m.searches, ⟨duration ++ "_count", [], m.searches⟩]⟩]

end Metrics

end AuditedPetitions.Ledger
