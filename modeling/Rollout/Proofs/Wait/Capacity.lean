/-
  Which configurations crash the wait for a batch.

  A batch crashes at its beginning or not at all: if its deadline is no instant of the clock, or if
  it is given more permits than there may be (`BatchTerms.Fits`). No turn crashes it, whatever its
  tasks come to (`Batch.run_ne_crashed`). Both numbers come from variables that may be set to
  anything below `2^64`, and nothing lowers them on their way, so there are configurations that can
  be read and that no batch can be waited for with (`Environment.Overtaxes`).
-/
import Rollout.Proofs.Environment
import Rollout.Proofs.Wait.Terms

namespace Rollout

variable {σ α β : Type}

/-! ## Crashes -/

/-- A course crashes if what is only told of its result does. -/
theorem Course.run_bind_pure_eq_crashed_iff {c : Course σ α} {f : α → β} {w : World σ} :
    (c.bind fun a => pure (f a)).run = .crashed w ↔ c.run = .crashed w := by
  induction c with
  | ended w' a => exact ⟨nofun, nofun⟩
  | asleep w' t resume ih => exact ih _
  | crashed w' => exact ⟨fun h => Course.crashed.inj h ▸ rfl, fun h => Course.crashed.inj h ▸ rfl⟩
  | _ => exact ⟨nofun, nofun⟩

/-- Once it has begun, a batch does not crash, whatever its tasks come to. -/
theorem Batch.run_ne_crashed (deadline : Timer) (b : Batch σ α) (w w' : World σ) :
    (Batch.run deadline b w).run ≠ .crashed w' := by
  -- Every turn leads to a batch that follows, as in the recursion of `Batch.run`.
  have acc : Acc Follows b := WellFoundedRelation.wf.apply b
  induction acc generalizing w with
  | intro b _ ih =>
    rw [Batch.run]
    intro h
    split at h
    · cases h
    · split at h
      · split at h
        · rw [Course.run] at h
          split at h
          · next b' w₁ hact => exact ih b' (follows_act? hact) w₁ h
          · cases h
        · cases h
      · cases h

namespace BatchTerms

variable {rs : List Resource} {t : BatchTerms} {reg : Registry} {g : Goal} {wait : Waits σ rs}
  {w : World σ}

theorem run_waitBy_ne_crashed (nonempty : rs ≠ [])
    (resolves : ∀ r ∈ rs, ∃ h, reg.resolveFor r = .ok h) (fits : t.Fits w) (w' : World σ) :
    (t.waitBy reg g rs wait w).run ≠ .crashed w' := by
  obtain ⟨handlers, hhandlers⟩ := exists_mapM_eq_ok resolves
  rw [run_waitBy_eq_bind nonempty hhandlers fits, ← Course.run_bind]
  exact fun h => Batch.run_ne_crashed _ _ _ w' (Course.run_bind_pure_eq_crashed_iff.1 h)

end BatchTerms

/-! ## Configurations -/

namespace Environment

open BatchTerms (pods podRegistry podStart pod resolves_pods tireless_wait_pods)

/-- The seconds that are set lead beyond the last instant of the clock, or there are more permits
set than there may be. -/
def Overtaxes (lookup : String → Option String) (w : World σ) : Prop :=
  (∃ s n, lookup "WAIT_TIMEOUT_SECS" = some s ∧ Denotes s n ∧
    twoTo 63 * Duration.nanosPerSecond ≤ Activity.nanosNow w + n * Duration.nanosPerSecond) ∨
  ∃ s n, lookup "WAIT_CONCURRENCY" = some s ∧ Denotes s n ∧ twoTo 61 ≤ n

variable {lookup : String → Option String} {e : Environment} {limit : Duration} {cap : Option Nat}

theorem lastInstant_lt_iff {n : Nat} :
    Activity.lastInstant < n ↔ twoTo 63 * Duration.nanosPerSecond ≤ n := by
  have last : Activity.lastInstant + 1 = twoTo 63 * Duration.nanosPerSecond := by decide +kernel
  omega

theorem maxPermits_lt_iff {n : Nat} : Activity.maxPermits < max 1 n ↔ twoTo 61 ≤ n := by
  have last : Activity.maxPermits + 1 = twoTo 61 := by decide +kernel
  have several : 1 < twoTo 61 := by decide +kernel
  omega

/-- What holds of some number that a variable stands for holds of the one that it stands for. -/
theorem exists_denotes_iff {v : Option String} {s : String} {n : Nat} {p : Nat → Prop}
    (hv : v = some s) (hn : Denotes s n) :
    (∃ s n, v = some s ∧ Denotes s n ∧ p n) ↔ p n := by
  constructor
  · rintro ⟨s', n', hv', hn', hp⟩
    obtain rfl := Option.some.inj (hv.symm.trans hv')
    exact hn'.unique hn ▸ hp
  · intro hp
    exact ⟨s, n, hv, hn, hp⟩

theorem AsSet.exists_seconds (h : AsSet lookup e) (timed : e.waitTimeout = some limit) :
    ∃ s n, lookup "WAIT_TIMEOUT_SECS" = some s ∧ Denotes s n ∧ limit = .ofSeconds n := by
  have hrel := timed ▸ h.waitTimeout
  generalize lookup "WAIT_TIMEOUT_SECS" = v at hrel ⊢
  cases hrel with
  | some hd =>
    obtain ⟨n, hn, hlimit⟩ := hd
    exact ⟨_, n, rfl, hn, hlimit⟩

/-- The permits are too many if and only if the number is that they come from. -/
theorem AsSet.overtaxed_permits_iff (h : AsSet lookup e)
    (capped : cap.map (max 1) = e.waitConcurrency.map (max 1)) :
    (∃ n, cap.map (max 1) = some n ∧ Activity.maxPermits < n) ↔
      ∃ s n, lookup "WAIT_CONCURRENCY" = some s ∧ Denotes s n ∧ twoTo 61 ≤ n := by
  have hrel := h.waitConcurrency
  rw [capped]
  generalize lookup "WAIT_CONCURRENCY" = v, e.waitConcurrency = c at hrel ⊢
  cases hrel with
  | none =>
    constructor
    · rintro ⟨_, ⟨⟩, _⟩
    · rintro ⟨_, _, ⟨⟩, _⟩
  | some hn =>
    rw [exists_denotes_iff rfl hn, ← maxPermits_lt_iff]
    exact ⟨fun ⟨_, hmax, hlt⟩ => Option.some.inj hmax ▸ hlt, fun hlt => ⟨_, rfl, hlt⟩⟩

/-- A batch fits if and only if its configuration does not overtax it. -/
theorem AsSet.fits_iff (h : AsSet lookup e) (timed : e.waitTimeout = some limit)
    (capped : cap.map (max 1) = e.waitConcurrency.map (max 1)) (backoff : Backoff) (w : World σ) :
    (⟨limit, backoff, cap⟩ : BatchTerms).Fits w ↔ ¬ Overtaxes lookup w := by
  obtain ⟨s, n, hs, hn, rfl⟩ := h.exists_seconds timed
  rw [BatchTerms.Fits, BatchTerms.permits, Overtaxes, ← h.overtaxed_permits_iff capped,
    exists_denotes_iff hs hn, ← lastInstant_lt_iff, not_or, Nat.not_lt]
  simp only [not_exists, not_and, Nat.not_lt]
  rfl

/-- The settings limit the concurrency as the configuration does. -/
theorem map_concurrency_settings (e : Environment) :
    e.settings.concurrency.map (max 1) = e.waitConcurrency.map (max 1) := by
  rw [settings_eq]
  cases e.waitConcurrency with
  | none => rfl
  | some n =>
    have atLeastOne : max 1 (max n 1) = max 1 n := by omega
    exact congrArg some atLeastOne

/-- So many seconds and so many permits are set, and what has to be. -/
def assigned (seconds permits : Nat) : String → Option String
  | "MANIFEST_PATH" => some "pods.yaml"
  | "WAIT_TIMEOUT_SECS" => some seconds.repr
  | "WAIT_CONCURRENCY" => some permits.repr
  | _ => none

theorem read_assigned {seconds permits : Nat} (hs : seconds < twoTo 64)
    (hp : permits < twoTo 64) :
    read (assigned seconds permits) =
      .ok ⟨"pods.yaml", "default", false, some (.ofSeconds seconds), some permits, none⟩ :=
  read_eq_ok_iff.2
    { manifestPath := rfl
      defaultNamespace := rfl
      deleteExisting := .inr ⟨rfl, rfl⟩
      waitTimeout := .some ⟨seconds, denotes_repr hs, rfl⟩
      waitConcurrency := .some (denotes_repr hp)
      kubeconfigPath := rfl }

theorem overtaxes_assigned_iff {seconds permits : Nat} (hs : seconds < twoTo 64)
    (hp : permits < twoTo 64) (w : World σ) :
    Overtaxes (assigned seconds permits) w ↔
      twoTo 63 * Duration.nanosPerSecond ≤
          Activity.nanosNow w + seconds * Duration.nanosPerSecond ∨ twoTo 61 ≤ permits :=
  or_congr (exists_denotes_iff rfl (denotes_repr hs)) (exists_denotes_iff rfl (denotes_repr hp))

/-- A batch that is waited for as a configuration says crashes at once if that overtaxes it. If not,
it does not crash, whatever its tasks come to, and if none of them runs out of turns there is a
report. -/
theorem wait_crashes_iff (lookup : String → Option String) (e : Environment)
    (h : read lookup = .ok e) (limit : Duration) (timed : e.waitTimeout = some limit)
    (cap : Option Nat) (capped : cap = e.waitConcurrency ∨ cap = e.settings.concurrency)
    (backoff : Backoff) (o : Outside σ) (reg : Registry) (g : Goal) (rs : List Resource)
    (nonempty : rs ≠ []) (resolves : ∀ r ∈ rs, ∃ handler, reg.resolveFor r = .ok handler)
    (w : World σ) :
    (Overtaxes lookup w →
      ((⟨limit, backoff, cap⟩ : BatchTerms).wait o reg g rs w).run = .crashed w) ∧
    (¬ Overtaxes lookup w →
      (∀ w', ((⟨limit, backoff, cap⟩ : BatchTerms).wait o reg g rs w).run ≠ .crashed w') ∧
      (BatchTerms.Tireless reg (fun handler (r : { r // r ∈ rs }) budget =>
          handler.wait o g r.1.ns r.1 budget backoff) →
        ∃ w' report, ((⟨limit, backoff, cap⟩ : BatchTerms).wait o reg g rs w).run =
          .ended w' (.ok report))) := by
  have permits : cap.map (max 1) = e.waitConcurrency.map (max 1) := by
    rcases capped with rfl | rfl
    · rfl
    · exact map_concurrency_settings e
  have fits_iff := (read_eq_ok_iff.1 h).fits_iff timed permits backoff w
  constructor
  · intro overtaxes
    exact BatchTerms.run_waitBy_eq_crashed nonempty resolves
      (mt fits_iff.1 (not_not_intro overtaxes))
  · intro moderate
    have fits := fits_iff.2 moderate
    refine ⟨BatchTerms.run_waitBy_ne_crashed nonempty resolves fits, fun tireless => ?_⟩
    obtain ⟨w', log, b, hrun, -, -⟩ :=
      BatchTerms.run_waitBy (g := g) nonempty resolves fits tireless
    exact ⟨w', _, hrun⟩

/-- With `2^63` seconds, two pods cannot be waited for; with 30 there is a report on them. -/
theorem wait_crashes_beyond_clock :
    ((⟨.ofSeconds (twoTo 63), .default, some 4⟩ : BatchTerms).wait pods podRegistry .ready
      (["ready", "late"].map pod) podStart).run = .crashed podStart ∧
    ∃ w' report, ((⟨.ofSeconds 30, .default, some 4⟩ : BatchTerms).wait pods podRegistry .ready
      (["ready", "late"].map pod) podStart).run = .ended w' (.ok report) := by
  have at_seconds (n : Nat) (hn : n < twoTo 64) :=
    wait_crashes_iff (assigned n 4) _ (read_assigned hn (by decide)) _ rfl _ (.inl rfl) .default
      pods podRegistry .ready (["ready", "late"].map pod) nofun (resolves_pods _) podStart
  constructor
  · refine (at_seconds (twoTo 63) (by decide)).1 ?_
    rw [overtaxes_assigned_iff (by decide) (by decide)]
    decide +kernel
  · refine ((at_seconds 30 (by decide)).2 ?_).2 (tireless_wait_pods _ _)
    rw [overtaxes_assigned_iff (by decide) (by decide)]
    decide +kernel

/-- There is a configuration with which no pod can be waited for, not even one that is ready. -/
theorem no_report_of_configured : ∃ e, read (assigned 1 (twoTo 61)) = .ok e ∧
    e.waitTimeout = some (.ofSeconds 1) ∧
    ¬ ∃ w' report, ((⟨.ofSeconds 1, .default, e.waitConcurrency⟩ : BatchTerms).wait pods podRegistry
      .ready (["ready"].map pod) podStart).run = .ended w' (.ok report) := by
  refine ⟨_, read_assigned (by decide) (by decide), rfl, ?_⟩
  rintro ⟨w', report, hrun⟩
  have tooMany : ¬ (⟨.ofSeconds 1, .default, some (twoTo 61)⟩ : BatchTerms).Fits podStart := by
    rintro ⟨-, permitted⟩
    exact absurd (permitted _ rfl) (by decide +kernel)
  have crashed : ((⟨.ofSeconds 1, .default, some (twoTo 61)⟩ : BatchTerms).wait pods podRegistry
      .ready (["ready"].map pod) podStart).run = .crashed podStart :=
    BatchTerms.run_waitBy_eq_crashed nofun (resolves_pods _) tooMany
  cases crashed.symm.trans hrun

end Environment

end Rollout
