import WebhookBroker.Lib.Decimal
import WebhookBroker.Broker.System

/-!
# The settings for retries (`config/config.go`)

What `setupBrokerConfiguration` makes of the keys of the section `broker` that the dispatcher reads
when a delivery fails. `Key.Uint` belongs to the INI library and reads a number of 64 bits, if the
value is one. The number of retries is then kept in eight bits. The delays are parsed here, so their
text is modelled: a character stands for one byte.
-/

namespace WebhookBroker

open Lib

structure BrokerSection where
  /-- what `Key.Uint` reads from `max-retry` -/
  maxRetry : Option (Fin (2 ^ 64))
  /-- what `Key.Uint` reads from `rational-delay-in-seconds` -/
  rationalDelayInSecs : Option (Fin (2 ^ 64))
  /-- the value of `retry-backoff-delays-in-seconds` -/
  retryBackoffDelayInSecs : List Char

/-- `MustUint` of the package `ini`, taken as documented: the default if there is no such number. -/
def mustUint (value : Option (Fin (2 ^ 64))) (defaultVal : Nat) : Nat :=
  match value with
  | some n => n
  | none => defaultVal

/-- `MustString` of it: the default if the value is empty. -/
def mustString (value defaultVal : List Char) : List Char :=
  if value.isEmpty then defaultVal else value

/-- One of the delays: a text that is no number of 32 bits counts as 15 seconds. -/
def parseBackoffDelay (backoffDelayString : List Char) : Duration :=
  let parsedBackoff := (parseUint 32 backoffDelayString).getD 15
  wrap64 (parsedBackoff * second)

/-- The part of `setupBrokerConfiguration` that sets what the dispatcher reads. -/
def setupBrokerConfiguration (broker : BrokerSection) (configuration : Config) : Config :=
  { configuration with
    maxRetry := mustUint broker.maxRetry 10 % 2 ^ 8
    rationalDelay := wrap64 (wrap64 (mustUint broker.rationalDelayInSecs 30) * second)
    retryBackoffDelays :=
      ((mustString broker.retryBackoffDelayInSecs "15".toList).splitOn ',').map parseBackoffDelay }

theorem parseBackoffDelay_spec (s : List Char) :
    ∃ n : Nat, n < 2 ^ 32 ∧ parseBackoffDelay s = n * second := by
  have hlt : (parseUint 32 s).getD 15 < 2 ^ 32 := by
    cases h : parseUint 32 s with
    | none => simp
    | some n => exact parseUint_lt h
  refine ⟨(parseUint 32 s).getD 15, hlt, ?_⟩
  refine wrap64_of_bounds ?_ ?_ <;> simp only [second] <;> omega

theorem setupBrokerConfiguration_delays_ne_nil (broker : BrokerSection) (cfg : Config) :
    (setupBrokerConfiguration broker cfg).retryBackoffDelays ≠ [] := by
  simp [setupBrokerConfiguration, List.splitOn_ne_nil]

theorem setupBrokerConfiguration_delays {broker : BrokerSection} {cfg : Config} {d : Duration}
    (h : d ∈ (setupBrokerConfiguration broker cfg).retryBackoffDelays) :
    ∃ n : Nat, n < 2 ^ 32 ∧ d = n * second := by
  obtain ⟨s, -, rfl⟩ := List.mem_map.1 h
  exact parseBackoffDelay_spec s

theorem setupBrokerConfiguration_maxRetry {broker : BrokerSection} {n : Fin (2 ^ 64)}
    (h : broker.maxRetry = some n) (cfg : Config) :
    (setupBrokerConfiguration broker cfg).maxRetry = n % 256 := by
  simp [setupBrokerConfiguration, mustUint, h]

end WebhookBroker
