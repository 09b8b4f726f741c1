import WebhookBroker.Config.Broker
import WebhookBroker.Broker.Recovery

/-!
# Durations that do not fit in 64 bits (`dispatcher/msgdispatcher.go`)

A `time.Duration` counts nanoseconds in a signed integer of 64 bits, so the product of a number of
seconds and `time.Second` is exact up to about 292 years. Two places multiply with a number that
nobody bounds. `computeEarliestDelta` takes the last delay as many times as there were attempts
beyond the list; the delay is below `2 ^ 32` seconds, so three times it may be too much.
`shouldEnqueueLongInflightJob` takes the seconds that a client sent with its hand-out.
-/

namespace WebhookBroker

open Lib List

/-! ## 64-bit arithmetic -/

theorem wrap64_eq_self_iff {x : Int} : wrap64 x = x ↔ -2 ^ 63 ≤ x ∧ x < 2 ^ 63 := by
  constructor
  · intro h
    have hlower := @Int.le_bmod x (2 ^ 64) (by omega)
    have hupper := @Int.bmod_lt x (2 ^ 64) (by omega)
    unfold wrap64 at h
    rw [h] at hlower hupper
    constructor <;> omega
  · rintro ⟨h1, h2⟩
    exact wrap64_of_bounds h1 h2

theorem wrap64_mul_left (x y : Int) : wrap64 (wrap64 x * y) = wrap64 (x * y) := Int.bmod_mul_bmod

theorem wrap64_neg (x : Int) : wrap64 (-wrap64 x) = wrap64 (-x) := by
  unfold wrap64
  rw [Int.bmod_neg_bmod]

theorem wrap64_bounds (x : Int) : -2 ^ 63 ≤ wrap64 x ∧ wrap64 x < 2 ^ 63 := by
  have hlower := @Int.le_bmod x (2 ^ 64) (by omega)
  have hupper := @Int.bmod_lt x (2 ^ 64) (by omega)
  unfold wrap64
  constructor <;> omega

/-! ## The delay before the next attempt -/

/-- `delays[index]`; `none` is the panic of an index that is out of range. -/
def delayAt (delays : List Duration) (index : Int) : Option Duration :=
  if index < 0 then none else delays[index.toNat]?

/-- `computeEarliestDelta` with its indices checked. -/
def computeEarliestDeltaChecked (cfg : Config) (retryAttempt : Nat) : Option Duration :=
  let backoffsCount := cfg.retryBackoffDelays.length
  if retryAttempt < backoffsCount then
    delayAt cfg.retryBackoffDelays (wrap64 (wrap64 retryAttempt - 1))
  else
    (delayAt cfg.retryBackoffDelays (backoffsCount - 1)).map fun last =>
      wrap64 (wrap64 (wrap64 (wrap64 retryAttempt - backoffsCount) + 1) * last)

/-- The delay before attempt `k`: the `k`-th of the list and, beyond the list, a multiple of the
last one that grows with every attempt. -/
def exactDelta (delays : List Duration) (k : Nat) : Int :=
  if k ≤ delays.length then delays.getD (k - 1) 0
  else (k - delays.length + 1) * delays.getD (delays.length - 1) 0

/-- The delay before attempt `k` is one of the list, or the multiple of the last one fits. -/
def DelayFits (delays : List Duration) (k : Nat) : Prop :=
  k ≤ delays.length ∨
    ((k : Int) - delays.length + 1) * delays.getD (delays.length - 1) 0 < 2 ^ 63

section
variable {cfg : Config} {delays : List Duration} {k : Nat}

/-- No index is out of range from the first attempt on, and the result is the model's. -/
theorem computeEarliestDeltaChecked_eq (hne : cfg.retryBackoffDelays ≠ []) (hk : 1 ≤ k)
    (hk' : k < 2 ^ 31) :
    computeEarliestDeltaChecked cfg k = some (computeEarliestDelta cfg k) := by
  have hpos : 0 < cfg.retryBackoffDelays.length := length_pos_iff.2 hne
  have hwrap : wrap64 k = k := wrap64_of_bounds (by omega) (by omega)
  unfold computeEarliestDeltaChecked computeEarliestDelta
  dsimp only
  split
  · rename_i hlt
    have hwrap' : wrap64 (wrap64 k - 1) = ((k - 1 : Nat) : Int) := by
      rw [hwrap, wrap64_of_bounds (by omega) (by omega)]
      omega
    have hget : k - 1 < cfg.retryBackoffDelays.length := by omega
    simp [delayAt, hwrap', List.getElem?_eq_getElem hget, getD_eq_getElem?_getD]
  · rename_i hge
    have hget : cfg.retryBackoffDelays.length - 1 < cfg.retryBackoffDelays.length := by omega
    have hlast : delayAt cfg.retryBackoffDelays (cfg.retryBackoffDelays.length - 1) =
        some (cfg.retryBackoffDelays.getD (cfg.retryBackoffDelays.length - 1) 0) := by
      have hindex : ((cfg.retryBackoffDelays.length : Int) - 1).toNat =
        cfg.retryBackoffDelays.length - 1 := by omega
      rw [delayAt, if_neg (by omega), hindex, List.getElem?_eq_getElem hget,
        getD_eq_getElem?_getD, List.getElem?_eq_getElem hget, Option.getD_some]
    have hdiff : wrap64 (wrap64 k - cfg.retryBackoffDelays.length) =
        k - cfg.retryBackoffDelays.length := by
      rw [hwrap, wrap64_of_bounds (by omega) (by omega)]
    rw [hlast, Option.map_some, wrap64_mul_left, hdiff]

section
variable (hdelays : ∀ d ∈ delays, 0 ≤ d ∧ d < 2 ^ 63)
include hdelays

theorem getD_bounds (i : Nat) : 0 ≤ delays.getD i 0 ∧ delays.getD i 0 < 2 ^ 63 := by
  rw [getD_eq_getElem?_getD]
  cases h : delays[i]? with
  | none => simp
  | some d => exact hdelays d (mem_of_getElem? h)

theorem exactDelta_nonneg (k : Nat) : 0 ≤ exactDelta delays k := by
  unfold exactDelta
  split
  · exact (getD_bounds hdelays _).1
  · exact Int.mul_nonneg (by omega) (getD_bounds hdelays _).1

theorem exactDelta_lt_iff (k : Nat) : exactDelta delays k < 2 ^ 63 ↔ DelayFits delays k := by
  unfold exactDelta DelayFits
  split
  · rename_i hle
    simp only [hle, true_or, iff_true]
    exact (getD_bounds hdelays _).2
  · rename_i hgt
    simp only [hgt, false_or]

end

theorem computeEarliestDelta_eq_wrap64 (hdelays : ∀ d ∈ cfg.retryBackoffDelays, 0 ≤ d ∧ d < 2 ^ 63)
    (k : Nat) : computeEarliestDelta cfg k = wrap64 (exactDelta cfg.retryBackoffDelays k) := by
  unfold computeEarliestDelta exactDelta
  dsimp only
  split
  · rename_i hlt
    have hbounds := getD_bounds hdelays (k - 1)
    rw [if_pos (by omega), wrap64_of_bounds (Int.le_trans (by omega) hbounds.1) hbounds.2]
  · rename_i hge
    split
    · rename_i hle
      have heq : k = cfg.retryBackoffDelays.length := by omega
      rw [← heq, show (k : Int) - k + 1 = 1 by omega, Int.one_mul]
    · rfl

/-- In a list that does not descend, later delays are not shorter. -/
theorem exactDelta_mono (hdelays : ∀ d ∈ delays, 0 ≤ d ∧ d < 2 ^ 63)
    (hsorted : delays.Pairwise (· ≤ ·)) {j : Nat} (hj : 1 ≤ j) (hjk : j ≤ k) :
    exactDelta delays j ≤ exactDelta delays k := by
  have hget : ∀ {a b : Nat}, a ≤ b → b < delays.length → delays.getD a 0 ≤ delays.getD b 0 := by
    intro a b hab hb
    rw [getD_eq_getElem _ _ (by omega), getD_eq_getElem _ _ hb]
    rcases Nat.eq_or_lt_of_le hab with rfl | hlt
    · exact Int.le_refl _
    · exact pairwise_iff_getElem.1 hsorted a b (by omega) hb hlt
  have hlast := (getD_bounds hdelays (delays.length - 1)).1
  unfold exactDelta
  split
  · rename_i hjm
    split
    · exact hget (by omega) (by omega)
    · rename_i hkm
      calc delays.getD (j - 1) 0
          ≤ delays.getD (delays.length - 1) 0 := hget (by omega) (by omega)
        _ = 1 * delays.getD (delays.length - 1) 0 := (Int.one_mul _).symm
        _ ≤ _ := Int.mul_le_mul_of_nonneg_right (by omega) hlast
  · rename_i hjm
    rw [if_neg (by omega)]
    exact Int.mul_le_mul_of_nonneg_right (by omega) hlast

theorem DelayFits.of_le {j : Nat} (h : DelayFits delays k) (hjk : j ≤ k)
    (hdelays : ∀ d ∈ delays, 0 ≤ d ∧ d < 2 ^ 63) : DelayFits delays j := by
  have hlast := (getD_bounds hdelays (delays.length - 1)).1
  rcases h with hle | hlt
  · exact .inl (by omega)
  · refine .inr (Int.lt_of_le_of_lt ?_ hlt)
    exact Int.mul_le_mul_of_nonneg_right (by omega) hlast

end

theorem setupBrokerConfiguration_delays_bounds (broker : BrokerSection) (cfg : Config) :
    ∀ d ∈ (setupBrokerConfiguration broker cfg).retryBackoffDelays, 0 ≤ d ∧ d < 2 ^ 63 := by
  intro d hd
  obtain ⟨n, hn, rfl⟩ := setupBrokerConfiguration_delays hd
  have hnonneg : (0 : Int) ≤ n * 1000000000 := by omega
  have hlt : (n * 1000000000 : Int) < 2 ^ 63 := by omega
  exact ⟨hnonneg, hlt⟩

/-- From the first attempt on, `computeEarliestDelta` returns the exact delay, not negative and not
shorter than those before it in a list that does not descend, if and only if the delay is one of the
list or its multiple fits in 64 bits. -/
theorem computeEarliestDelta_exact_iff (broker : BrokerSection) (cfg : Config) (k : Nat)
    (hk : 1 ≤ k) (hk' : k < 2 ^ 31) :
    (computeEarliestDeltaChecked (setupBrokerConfiguration broker cfg) k =
        some (exactDelta (setupBrokerConfiguration broker cfg).retryBackoffDelays k) ∧
      (∀ d ∈ computeEarliestDeltaChecked (setupBrokerConfiguration broker cfg) k, 0 ≤ d) ∧
      ((setupBrokerConfiguration broker cfg).retryBackoffDelays.Pairwise (· ≤ ·) →
        ∀ j, 1 ≤ j → j ≤ k →
          ∀ d ∈ computeEarliestDeltaChecked (setupBrokerConfiguration broker cfg) j,
          ∀ d' ∈ computeEarliestDeltaChecked (setupBrokerConfiguration broker cfg) k, d ≤ d')) ↔
    DelayFits (setupBrokerConfiguration broker cfg).retryBackoffDelays k := by
  have hdelays := setupBrokerConfiguration_delays_bounds broker cfg
  have hne := setupBrokerConfiguration_delays_ne_nil broker cfg
  generalize setupBrokerConfiguration broker cfg = cfg' at hdelays hne ⊢
  have hexact : ∀ {j}, DelayFits cfg'.retryBackoffDelays j →
      computeEarliestDelta cfg' j = exactDelta cfg'.retryBackoffDelays j := by
    intro j hfits
    have hnonneg := exactDelta_nonneg hdelays j
    rw [computeEarliestDelta_eq_wrap64 hdelays]
    exact wrap64_of_bounds (by omega) ((exactDelta_lt_iff hdelays j).2 hfits)
  rw [computeEarliestDeltaChecked_eq hne hk hk']
  constructor
  · rintro ⟨heq, -⟩
    rw [Option.some.injEq, computeEarliestDelta_eq_wrap64 hdelays, wrap64_eq_self_iff] at heq
    exact (exactDelta_lt_iff hdelays k).1 heq.2
  · intro hfits
    refine ⟨by rw [hexact hfits], ?_, ?_⟩
    · rintro d ⟨⟩
      rw [hexact hfits]
      exact exactDelta_nonneg hdelays k
    · rintro hsorted j hj hjk d hd d' ⟨⟩
      rw [computeEarliestDeltaChecked_eq hne hj (by omega)] at hd
      cases hd
      rw [hexact (hfits.of_le hjk hdelays), hexact hfits]
      exact exactDelta_mono hdelays hsorted hj hjk

/-- The delays that the default configuration sets. -/
def Sample.defaultBackoff : BrokerSection := ⟨none, none, "5,30,60".toList⟩

open Sample

theorem computeEarliestDelta_exact_fifth :
    DelayFits (setupBrokerConfiguration defaultBackoff config).retryBackoffDelays 5 ∧
    computeEarliestDeltaChecked (setupBrokerConfiguration defaultBackoff config) 5 =
      some (180 * second) := by
  have hfits : DelayFits
      (setupBrokerConfiguration defaultBackoff config).retryBackoffDelays 5 :=
    .inr (by decide)
  refine ⟨hfits, ?_⟩
  rw [((computeEarliestDelta_exact_iff _ _ 5 (by omega) (by omega)).2 hfits).1]
  decide

/-- A delay of `2 ^ 32 - 1` seconds, the longest there is. -/
def Sample.longBackoff : BrokerSection := ⟨none, none, "4294967295".toList⟩

theorem computeEarliestDelta_negative :
    computeEarliestDeltaChecked (setupBrokerConfiguration longBackoff config) 3 =
      some (-5561842188709551616) ∧
    exactDelta (setupBrokerConfiguration longBackoff config).retryBackoffDelays 3 =
      12884901885000000000 ∧
    computeEarliestDeltaChecked (setupBrokerConfiguration longBackoff config) 2 =
      some 8589934590000000000 := by
  decide

/-! ## The time-out of a job that was handed out -/

/-- The duration that the threshold goes back reaches the exact time-out if and only if the time-out
is at most `2 ^ 63` nanoseconds. -/
theorem le_neg_wrap64_iff (x : Int) : x ≤ -wrap64 (-x) ↔ x ≤ 2 ^ 63 := by
  have hbounds := wrap64_bounds (-x)
  constructor
  · intro h
    omega
  · intro h
    rcases Int.lt_or_le x (-2 ^ 63 + 1) with hlt | hle
    · omega
    · rw [wrap64_of_bounds (by omega) (by omega)]
      omega

/-- A pull job that was handed out for `s` seconds is recovered only after the exact time-out has
passed if and only if the time-out is at most `2 ^ 63` nanoseconds. -/
theorem recovered_only_after_timeout_iff (cfg : Config) (s : Nat) :
    (∀ (now : Time) (job : DeliveryJob), job.status = .inflight → job.incrementalTimeout = s →
      shouldEnqueueLongInflightJob cfg now .pull job = true →
      s * second + cfg.rationalDelay + cfg.stopTimeout < now - job.statusChangedAt) ↔
    s * second + cfg.rationalDelay + cfg.stopTimeout ≤ 2 ^ 63 := by
  rw [← le_neg_wrap64_iff]
  have hshould : ∀ (now : Time) (job : DeliveryJob), job.incrementalTimeout = s →
      (shouldEnqueueLongInflightJob cfg now .pull job = true ↔ job.statusChangedAt <
        now + wrap64 (-(s * second + cfg.rationalDelay + cfg.stopTimeout))) := by
    rintro now job rfl
    have hsum : cfg.stopTimeout + cfg.rationalDelay + job.incrementalTimeout * second =
        job.incrementalTimeout * second + cfg.rationalDelay + cfg.stopTimeout := by
      rw [Int.add_comm, Int.add_comm cfg.stopTimeout, ← Int.add_assoc]
    simp [shouldEnqueueLongInflightJob, totalDuration_eq, hsum, wrap64_neg]
  generalize hx : (s * second + cfg.rationalDelay + cfg.stopTimeout : Int) = x at hshould ⊢
  constructor
  · intro hall
    have hlt : x < 0 - (wrap64 (-x) - 1) := hall 0 { job .pull 0 with
      status := .inflight, incrementalTimeout := s, statusChangedAt := wrap64 (-x) - 1 } rfl rfl
      ((hshould _ _ rfl).2 (by rw [Int.zero_add]; exact Int.sub_one_lt_of_le (Int.le_refl _)))
    omega
  · intro hle now job _ htimeout hpast
    have hthreshold := (hshould now job htimeout).1 hpast
    exact Int.lt_sub_left_of_add_lt (by
      have hsum := Int.add_lt_add_of_lt_of_le hthreshold hle
      rwa [Int.add_neg_cancel_right] at hsum)

/-- A client takes a job for ten billion seconds. The job is recovered at once. -/
theorem recovered_at_once :
    postMark (job .pull second) .inflight 10000000000 =
      some (.inflight, { job .pull second with incrementalTimeout := 10000000000 }) ∧
    10000000000 < 2 ^ 63 ∧
    shouldEnqueueLongInflightJob config second .pull (markJobInflight second
      { job .pull second with incrementalTimeout := 10000000000 }).copy = true ∧
    (markJobInflight second { job .pull second with
      incrementalTimeout := 10000000000 }).copy.statusChangedAt = second := by
  decide

end WebhookBroker
