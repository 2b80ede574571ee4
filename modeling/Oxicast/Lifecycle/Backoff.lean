import Oxicast.Duration
import Oxicast.Lifecycle.Invariant

/-!
# Oxicast.Lifecycle.Backoff

The delay before an attempt of the auto-reconnect task: the configured delay,
doubled with every attempt, and moved by a jitter of up to a quarter of it that
comes from the wall clock.

`None` is a panic, which ends the task.  Only the multiplication can panic: near
the end of the range the milliseconds do not fit into 64 bits, and the jitter
that is left of them is negative (`add_fits`).
-/

namespace Oxicast

/-! ## the arithmetic of `spawn_auto_reconnect` -/

/-- `2u32.saturating_pow(n)`. -/
def saturatingPow2 (n : UInt32) : UInt32 :=
  if n < 32 then UInt32.ofNat (2 ^ n.toNat) else 0xffffffff

/-- `config.reconnect_delay * 2u32.saturating_pow(attempt - 1)`. -/
def baseDelay (reconnectDelay : Duration) (attempt : UInt32) : Option Duration :=
  reconnectDelay.mul (saturatingPow2 (attempt - 1))

/-- `(base_delay.as_millis() as u64) / 4`. -/
def jitterRange (base : Duration) : UInt64 := UInt64.ofNat base.asMillis / 4

/-- The base delay moved by the jitter of a seed. -/
def jittered (base : Duration) (seed : UInt64) : Option Duration :=
  let range := jitterRange base
  if 0 < range then
    let raw := seed % (range * 2)
    let offset := raw.toInt64 - range.toInt64
    if 0 ≤ offset then base.add (.fromMillis offset.toUInt64)
    else some (base.saturatingSub (.fromMillis (UInt64.ofNat offset.toInt.natAbs)))
  else some base

/-- The delay before an attempt; `nanos` is the `subsec_nanos` of the clock. -/
def backoffDelay (reconnectDelay : Duration) (attempt nanos : UInt32) : Option Duration :=
  (baseDelay reconnectDelay attempt).bind (jittered · nanos.toUInt64)

/-! ## the jitter -/

/-- `2 ^ n`, saturating at `u32::MAX`. -/
theorem toNat_saturatingPow2 (n : UInt32) :
    (saturatingPow2 n).toNat = min (2 ^ n.toNat) (2 ^ 32 - 1) := by
  unfold saturatingPow2
  split
  next h =>
    rw [UInt32.lt_iff_toNat_lt] at h
    have hlt : 2 ^ n.toNat < 2 ^ 32 := Nat.pow_lt_pow_right (by decide) h
    rw [UInt32.toNat_ofNat_of_lt' hlt]
    omega
  next h =>
    rw [UInt32.lt_iff_toNat_lt, Nat.not_lt] at h
    have hle : 2 ^ 32 ≤ 2 ^ n.toNat := Nat.pow_le_pow_right (by decide) h
    change 2 ^ 32 - 1 = _
    omega

theorem toNat_jitterRange (base : Duration) :
    (jitterRange base).toNat = base.asMillis % 2 ^ 64 / 4 := by
  unfold jitterRange
  rw [UInt64.toNat_div, UInt64.toNat_ofNat']
  rfl

/-- Below `2 ^ 63` the reinterpretation as a signed number changes nothing. -/
theorem toInt_toInt64 {n : UInt64} (h : n.toNat < 2 ^ 63) : n.toInt64.toInt = n.toNat :=
  BitVec.toInt_eq_toNat_of_lt (by change 2 * n.toNat < 2 ^ 64; omega)

/-- The signed offset of two numbers below `2 ^ 63`. -/
theorem toInt_offset {raw range : UInt64} (hraw : raw.toNat < 2 ^ 63)
    (hrange : range.toNat < 2 ^ 63) :
    (raw.toInt64 - range.toInt64).toInt = (raw.toNat : Int) - range.toNat := by
  rw [Int64.toInt_sub, toInt_toInt64 hraw, toInt_toInt64 hrange]
  exact Int.bmod_eq_of_le (by omega) (by omega)

/-- The jitter is at most a quarter of the base delay. -/
theorem jitterRange_le (base : Duration) :
    4 * ((jitterRange base).toNat * 10 ^ 6) ≤ base.nanos := by
  have hmod : base.asMillis % 2 ^ 64 ≤ base.asMillis := Nat.mod_le _ _
  have hmillis : base.asMillis * 10 ^ 6 ≤ base.nanos := Nat.div_mul_le_self _ _
  rw [toNat_jitterRange]
  omega

/-- A base delay that a positive offset would bring over the end has so many
milliseconds that what 64 bits keep of them exceeds every seed. -/
theorem add_fits (base : Duration) {raw : Nat} (hraw : raw < 2 ^ 32)
    (hrange : (jitterRange base).toNat ≤ raw) :
    base.nanos + (raw - (jitterRange base).toNat) * 10 ^ 6 < 2 ^ 64 * 10 ^ 9 := by
  by_contra hover
  have hfits := base.fits
  have hdiv : base.asMillis = base.nanos / 10 ^ 6 := rfl
  rw [toNat_jitterRange] at hrange hover
  omega

/-- The offset as an amount to add, or to take away. -/
theorem offset_cases (raw range : UInt64) (hraw : raw.toNat < 2 ^ 63)
    (hrange : range.toNat < 2 ^ 63) :
    (0 ≤ raw.toInt64 - range.toInt64 ∧ range.toNat ≤ raw.toNat ∧
      (raw.toInt64 - range.toInt64).toUInt64.toNat = raw.toNat - range.toNat) ∨
    (¬ 0 ≤ raw.toInt64 - range.toInt64 ∧
      (UInt64.ofNat (raw.toInt64 - range.toInt64).toInt.natAbs).toNat =
        range.toNat - raw.toNat) := by
  have hoffset := toInt_offset hraw hrange
  have hsign : 0 ≤ raw.toInt64 - range.toInt64 ↔ range.toNat ≤ raw.toNat := by
    rw [Int64.le_iff_toInt_le, hoffset]
    change 0 ≤ _ ↔ _
    omega
  by_cases hnonneg : 0 ≤ raw.toInt64 - range.toInt64
  · refine .inl ⟨hnonneg, hsign.1 hnonneg, ?_⟩
    rw [Int64.toNat_toUInt64_of_le hnonneg]
    change (raw.toInt64 - range.toInt64).toInt.toNat = _
    omega
  · refine .inr ⟨hnonneg, ?_⟩
    rw [hsign] at hnonneg
    rw [UInt64.toNat_ofNat_of_lt' (by change _ < 2 ^ 64; omega)]
    omega

/-- **The jitter is total**: for every base delay and seed the delay is within a
quarter of the base delay. -/
theorem exists_jittered (base : Duration) (seed : UInt64) (hseed : seed.toNat < 2 ^ 32) :
    ∃ d, jittered base seed = some d ∧ 3 * base.nanos ≤ 4 * d.nanos ∧
      4 * d.nanos ≤ 5 * base.nanos := by
  have hle := jitterRange_le base
  have hrange : (jitterRange base).toNat < 2 ^ 62 := by
    rw [toNat_jitterRange]
    omega
  unfold jittered
  simp only
  generalize hr : jitterRange base = range at *
  split
  next hpos =>
    rw [UInt64.lt_iff_toNat_lt] at hpos
    have hraw : (seed % (range * 2)).toNat = seed.toNat % (2 * range.toNat) := by
      rw [UInt64.toNat_mod, UInt64.toNat_mul, Nat.mul_comm]
      congr 1
      exact Nat.mod_eq_of_lt (by change 2 * _ < _; omega)
    have hlt : seed.toNat % (2 * range.toNat) < 2 * range.toNat :=
      Nat.mod_lt _ (by change 0 < _ at hpos; omega)
    have hseed' : seed.toNat % (2 * range.toNat) ≤ seed.toNat := Nat.mod_le _ _
    generalize hrawdef : seed % (range * 2) = raw at *
    rcases offset_cases raw range (by omega) (by omega) with
      ⟨hsign, hge, hadd⟩ | ⟨hsign, hsub⟩
    · rw [if_pos hsign]
      have hrange : (jitterRange base).toNat ≤ raw.toNat := by rwa [hr]
      have hfits := add_fits base (by omega) hrange
      rw [hr] at hfits
      obtain ⟨d, hd⟩ := Duration.exists_ofNanos_iff.2 hfits
      have hnanos := Duration.ofNanos_eq_some_iff.1 hd
      refine ⟨d, ?_, by omega, by omega⟩
      simp only [Duration.add, Duration.fromMillis, hadd]
      exact hd
    · rw [if_neg hsign]
      refine ⟨_, rfl, ?_, ?_⟩
      · simp only [Duration.saturatingSub, Duration.fromMillis, hsub]
        omega
      · simp only [Duration.saturatingSub, Duration.fromMillis, hsub]
        omega
  next hzero => exact ⟨base, rfl, by omega, by omega⟩

/-! ## the delays of all attempts -/

/-- `reconnect_delay * 2 ^ (attempt - 1)` in nanoseconds, the power saturating at
`u32::MAX`. -/
def idealDelay (reconnectDelay : Duration) (attempt : UInt32) : Nat :=
  reconnectDelay.nanos * min (2 ^ (attempt.toNat - 1)) (2 ^ 32 - 1)

/-- Every delay up to the last attempt is obtained and within a quarter of the
ideal one, and the base delays do not decrease. -/
structure BackoffBounded (reconnectDelay : Duration) (maxReconnectAttempts : UInt32) : Prop where
  delays : ∀ attempt nanos :
  UInt32, 1 ≤ attempt → attempt ≤ maxReconnectAttempts → nanos.toNat < 10 ^ 9 →
    ∃ d, backoffDelay reconnectDelay attempt nanos = some d ∧
      3 * idealDelay reconnectDelay attempt ≤ 4 * d.nanos ∧
      4 * d.nanos ≤ 5 * idealDelay reconnectDelay attempt
  monotone : ∀ (a b : UInt32) (d d' : Duration), 1 ≤ a → a ≤ b → b ≤ maxReconnectAttempts →
    baseDelay reconnectDelay a = some d → baseDelay reconnectDelay b = some d' → d.nanos ≤ d'.nanos

variable {reconnectDelay d : Duration} {attempt maxReconnectAttempts : UInt32}

theorem toNat_factor (h : 1 ≤ attempt) :
    (saturatingPow2 (attempt - 1)).toNat = min (2 ^ (attempt.toNat - 1)) (2 ^ 32 - 1) := by
  rw [toNat_saturatingPow2, UInt32.toNat_sub_of_le _ _ h]
  rfl

theorem baseDelay_eq_some_iff (h : 1 ≤ attempt) :
    baseDelay reconnectDelay attempt = some d ↔ d.nanos = idealDelay reconnectDelay attempt := by
  unfold baseDelay Duration.mul
  rw [Duration.ofNanos_eq_some_iff, toNat_factor h]
  rfl

theorem exists_baseDelay_iff (h : 1 ≤ attempt) :
    (∃ d, baseDelay reconnectDelay attempt = some d) ↔
      idealDelay reconnectDelay attempt < 2 ^ 64 * 10 ^ 9 := by
  unfold baseDelay Duration.mul
  rw [Duration.exists_ofNanos_iff, toNat_factor h]
  rfl

/-- The ideal delays do not decrease. -/
theorem idealDelay_mono {a b : UInt32} (h : a ≤ b) :
    idealDelay reconnectDelay a ≤ idealDelay reconnectDelay b := by
  rw [UInt32.le_iff_toNat_le] at h
  have hpow : 2 ^ (a.toNat - 1) ≤ 2 ^ (b.toNat - 1) := Nat.pow_le_pow_right (by decide) (by omega)
  exact Nat.mul_le_mul_left _ (by omega)

/-- **Backoff**: the delays of all attempts are obtained and bounded exactly when
the base delay of the last attempt fits. -/
theorem backoff_bounded_iff (reconnectDelay : Duration) (maxReconnectAttempts : UInt32) :
    BackoffBounded reconnectDelay maxReconnectAttempts ↔
      (1 ≤ maxReconnectAttempts →
        idealDelay reconnectDelay maxReconnectAttempts < 2 ^ 64 * 10 ^ 9) := by
  constructor
  · intro h hmax
    obtain ⟨d, hd, -⟩ := h.delays maxReconnectAttempts 0 hmax (UInt32.le_refl _) (by decide)
    obtain ⟨base, hbase, -⟩ := Option.bind_eq_some_iff.1 hd
    exact (exists_baseDelay_iff hmax).1 ⟨base, hbase⟩
  · intro h
    constructor
    · intro attempt nanos hone hle hnanos
      have hfits := Nat.lt_of_le_of_lt (idealDelay_mono hle) (h (UInt32.le_trans hone hle))
      obtain ⟨base, hbase⟩ := (exists_baseDelay_iff hone).2 hfits
      obtain ⟨d, hd, hlow, hhigh⟩ := exists_jittered base nanos.toUInt64 nanos.toNat_lt
      rw [← (baseDelay_eq_some_iff hone).1 hbase]
      exact ⟨d, by rw [backoffDelay, hbase]; exact hd, hlow, hhigh⟩
    · intro a b d d' hone hab hle ha hb
      rw [(baseDelay_eq_some_iff hone).1 ha,
        (baseDelay_eq_some_iff (UInt32.le_trans hone hab)).1 hb]
      exact idealDelay_mono hab

/-- `Duration::MAX`. -/
def maxDuration : Duration := ⟨2 ^ 64 * 10 ^ 9 - 1, by decide⟩

/-- With the longest delay the second attempt panics. -/
theorem second_attempt_panics :
    baseDelay maxDuration 2 = none ∧
    ¬ ∀ reconnectDelay maxReconnectAttempts,
    BackoffBounded reconnectDelay maxReconnectAttempts := by
  have hnone : baseDelay maxDuration 2 = none := by decide
  refine ⟨hnone, fun h => ?_⟩
  obtain ⟨d, hd, -⟩ := (h maxDuration 5).delays 2 0 (by decide) (by decide) (by decide)
  rw [backoffDelay, hnone] at hd
  contradiction

/-! ## the attempts of a client -/

namespace Lifecycle

open TransitionSystem

variable {cfg : ClientConfig} {s s' : Lifecycle} {a : LifecycleAct}

/-- The attempts of the auto-reconnect task are numbered from 1 to the maximum. -/
structure Numbered (cfg : ClientConfig) (s : Lifecycle) : Prop where
  enabled : s.auto = .parked → cfg.maxReconnectAttempts ≠ 0
  counted : ∀ n, s.auto = .backoff n ∨ s.auto = .attempting n → 1 ≤ n ∧ n ≤ cfg.maxReconnectAttempts
  holder : ∀ f, s.reconnecting = some f → f.caller = .auto →
    1 ≤ f.attempt ∧ f.attempt ≤ cfg.maxReconnectAttempts

/-- The holder of the lock goes on, or stays where it is. -/
theorem Numbered.keep (h : Numbered cfg s) (hauto : s'.auto = s.auto)
    (hf : ∀ f, s'.reconnecting = some f →
      ∃ g, s.reconnecting = some g ∧ g.caller = f.caller ∧ g.attempt = f.attempt) :
        Numbered cfg s' := by
  refine ⟨hauto ▸ h.enabled, hauto ▸ h.counted, fun f hsome hcaller => ?_⟩
  obtain ⟨g, hg, hsame, hattempt⟩ := hf f hsome
  rw [← hattempt]
  exact h.holder g hg (hsame.trans hcaller)

theorem Numbered.returnErr (h : Numbered cfg s) {caller : Caller} {n : Nat}
    (hn : caller = .auto → 1 ≤ n ∧ n ≤ cfg.maxReconnectAttempts) :
    Numbered cfg (s.returnErr cfg caller n) := by
  cases caller with
  | manual => exact ⟨h.enabled, h.counted, by simp [Lifecycle.returnErr]⟩
  | auto =>
      obtain ⟨hone, hle⟩ := hn rfl
      refine ⟨?_, ?_, by simp [Lifecycle.returnErr, attemptFailed]⟩
      · intro _
        omega
      · intro m hm
        simp only [Lifecycle.returnErr, attemptFailed] at hm
        split at hm
        next => simp at hm
        next hlast =>
          simp only [AutoPc.backoff.injEq, reduceCtorEq, or_false] at hm
          omega

theorem Numbered.returnOk (h : Numbered cfg s) {caller : Caller}
    (hn : caller = .auto → cfg.maxReconnectAttempts ≠ 0) : Numbered cfg (s.returnOk caller) := by
  cases caller with
  | manual => exact ⟨h.enabled, h.counted, by simp [Lifecycle.returnOk]⟩
  | auto => exact ⟨fun _ => hn rfl, by simp [Lifecycle.returnOk], by simp [Lifecycle.returnOk]⟩

theorem Numbered.acquire (h : Numbered cfg s) {caller : Caller} {n : Nat}
    (hn : caller = .auto → 1 ≤ n ∧ n ≤ cfg.maxReconnectAttempts) :
    Numbered cfg (s.acquire cfg caller n) := by
  unfold Lifecycle.acquire
  split_ifs
  · exact h.returnErr hn
  · exact h.returnOk fun hc => by have hpos := hn hc; omega
  · refine ⟨h.enabled, h.counted, fun f hf hcaller => ?_⟩
    obtain rfl := Option.some.inj hf
    exact hn hcaller

theorem Numbered.takeNext (h : Numbered cfg s) (who : ShutdownCaller) :
    Numbered cfg (s.takeNext who) := by
  refine h.keep rfl fun f hf => ?_
  simp only [Lifecycle.takeNext] at hf
  split at hf
  next =>
    obtain ⟨g, hg, rfl⟩ := Option.map_eq_some_iff.1 hf
    exact ⟨g, hg, rfl, rfl⟩
  next => exact ⟨f, hf, rfl, rfl⟩

/-- The holder of the lock goes on. -/
theorem Numbered.proceed (h : Numbered cfg s) {f g : Reconnect} (hf : s.reconnecting = some f)
    (hg : s'.reconnecting = some g) (hauto : s'.auto = s.auto) (hcaller : g.caller = f.caller)
    (hattempt : g.attempt = f.attempt) : Numbered cfg s' := by
  refine h.keep hauto fun x hx => ⟨f, hf, ?_⟩
  obtain rfl := Option.some.inj (hg.symm.trans hx)
  exact ⟨hcaller.symm, hattempt.symm⟩

theorem Numbered.step (h : Numbered cfg s) (hs : Step cfg s a s') : Numbered cfg s' := by
  have hh := h
  obtain ⟨enabled, counted, holder⟩ := h
  cases hs with
  | builderDone hb =>
      refine ⟨?_, ?_, holder⟩
      · simp only [Lifecycle.builderDone]
        split
        next hon => exact fun _ => hon.2
        next => simp
      · simp only [Lifecycle.builderDone]
        split <;> simp
  | lockHandles hl hin =>
      refine Numbered.takeNext ?_ _
      exact ⟨enabled, counted, holder⟩
  | awaitHandle hl ht => exact hh.takeNext _
  | reconnect hb hf => exact hh.acquire (by simp)
  | tlsFailed hf hpc => exact hh.returnErr (holder _ hf)
  | tlsConnected hf hpc =>
      unfold Lifecycle.tlsConnected
      split
      next => exact hh.returnErr (holder _ hf)
      next => exact hh.proceed hf rfl rfl rfl rfl
  | swapWriteTx hf hpc => exact hh.proceed hf rfl rfl rfl rfl
  | arm hf hpc => exact hh.proceed hf rfl rfl rfl rfl
  | clearAndSpawn hf hpc => exact hh.proceed hf rfl rfl rfl rfl
  | install hl hf hpc => exact hh.proceed hf rfl rfl rfl rfl
  | connectSent hw hf hpc => exact hh.proceed hf rfl rfl rfl rfl
  | connectFailed hw hf hpc => exact hh.returnErr (holder _ hf)
  | readTransport hf hpc => exact hh.proceed hf rfl rfl rfl rfl
  | transportSent hw hf hpc => exact hh.proceed hf rfl rfl rfl rfl
  | transportFailed hw hf hpc => exact hh.returnErr (holder _ hf)
  | publishConnected hf hpc =>
      refine Numbered.returnOk ?_ fun hcaller => ?_
      · exact ⟨enabled, counted, holder⟩
      · have hpos := holder _ hf hcaller
        omega
  | wake ha hc =>
      have hmax := enabled ha
      refine ⟨fun _ => hmax, fun n hn => ?_, holder⟩
      simp only [Lifecycle.wake] at hn
      split at hn
      next => simp at hn
      next =>
        split at hn
        next =>
          simp only [AutoPc.backoff.injEq, reduceCtorEq, or_false] at hn
          omega
        next => simp at hn
  | @beginAttempt n ha =>
      refine ⟨by simp [Lifecycle.beginAttempt], fun m hm => ?_, holder⟩
      simp only [Lifecycle.beginAttempt, reduceCtorEq, AutoPc.attempting.injEq, false_or] at hm
      exact hm ▸ counted n (.inl ha)
  | attempt ha hf => exact hh.acquire fun _ => counted _ (.inr ha)
  | _ => exact ⟨enabled, counted, holder⟩

/-- **The attempts**: in every reachable state the delay the auto-reconnect task
sleeps, or has slept, is the one of an attempt from 1 to the maximum. -/
theorem attempts_numbered (h : (system cfg).Reachable s) {n : Nat}
    (hn : s.auto = .backoff n ∨ s.auto = .attempting n) : 1 ≤ n ∧ n ≤ cfg.maxReconnectAttempts := by
  have hnumbered : Numbered cfg s := h.invariant (I := Numbered cfg)
    ⟨by simp [system, start], by simp [system, start], by simp [system, start]⟩
    fun _ _ _ hi _ hs => hi.step (step_cases hs)
  exact hnumbered.counted n hn

end Lifecycle

end Oxicast
