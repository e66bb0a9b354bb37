import Outreach.Source.Record

/-!
# Limits

How many runs may be under way at once, how long one may take, how often a node is tried again, and
how large a funnel may be.
-/

namespace Outreach

/-- The limits of the engine. Times are in milliseconds, but for the time that snapshots are kept,
which is in seconds. -/
structure Limits where
  concurrent : Nat
  timeout : Nat
  retries : Nat
  retryDelay : Nat
  nodes : Nat
  depth : Nat
  keepFor : Nat
  deriving DecidableEq, Repr

namespace Limits

/-- The limits where nothing is said about them. -/
def standard : Limits :=
  ⟨100, 300000, 3, 5000, 100, 50, 3600⟩

instance : Inhabited Limits := ⟨standard⟩

/-- How limits are read. -/
def layout : Layout Limits where
  name := "EngineConfig"
  fields := [
    .defaulted "max_concurrent_executions" .count fun v l => { l with concurrent := v },
    .defaulted "execution_timeout_ms" .nat64 fun v l => { l with timeout := v },
    .defaulted "max_retry_attempts" .nat32 fun v l => { l with retries := v },
    .defaulted "retry_delay_ms" .nat64 fun v l => { l with retryDelay := v },
    .defaulted "max_flow_nodes" .count fun v l => { l with nodes := v },
    .defaulted "max_flow_depth" .count fun v l => { l with depth := v },
    .defaulted "flow_cache_ttl" .nat64 fun v l => { l with keepFor := v }]
  blank := standard

/-- Limits as a value. -/
def toJson (l : Limits) : Json :=
  .record [("max_concurrent_executions", .nat l.concurrent), ("execution_timeout_ms", .nat l.timeout),
    ("max_retry_attempts", .nat l.retries), ("retry_delay_ms", .nat l.retryDelay),
    ("max_flow_nodes", .nat l.nodes), ("max_flow_depth", .nat l.depth),
    ("flow_cache_ttl", .nat l.keepFor)]

end Limits

end Outreach
