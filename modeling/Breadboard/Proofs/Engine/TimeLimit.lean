import Breadboard.Proofs.Decimal.Nearest
import Breadboard.Proofs.Engine.Runs
import Breadboard.Settings
import Mathlib.Data.Rat.Floor

/-!
# Time limits

The deadline of a run is the sum of what the clock shows and the limit. A wait that begins before
the deadline lasts at least as long as the least float above zero, so a clock that keeps time comes
to a deadline that is finite, and a process that does not end is killed. It never comes to one that
is infinite or no number.
-/

namespace Breadboard

open Float.Model (UnpackedFloat)

namespace Runner

variable {r : Runner} {e : Engine} {limit : Float} {waits : List Float} {time : List Float → ℚ}

theorem unpack_pollInterval :
    ∃ hm, pollInterval.toModel.unpack = .finite .positive 7205759403792794 (-56) hm :=
  ⟨by decide, by rfl⟩

theorem isFinite_pollInterval : pollInterval.isFinite := by rfl

theorem valueOf_pollInterval_lt : valueOf pollInterval < 1 := by
  obtain ⟨hm, h⟩ := unpack_pollInterval
  unfold valueOf
  rw [h, value_positive]
  norm_num

/-- The clock of a run keeps time: what it shows is not behind the time, a wait that goes by lasts
at least as long as it was to, and the limit is set at no more than a second from the time. -/
structure KeepsTime (e : Engine) (time : List Float → ℚ) : Prop where
  start_finite : e.startReading.isFinite
  start_nonneg : 0 ≤ valueOf e.startReading
  /-- Up to here two floats are at most a second apart. -/
  start_le : valueOf e.startReading ≤ 2 ^ 53
  start_le_time : valueOf e.startReading ≤ time [] + 1
  reading_finite (waits : List Float) : (e.reading waits).isFinite
  /-- The clock shows no float that is less than another one that the time has come to. -/
  le_reading (waits : List Float) (f : Float) : f.isFinite → valueOf f ≤ time waits →
    f ≤ e.reading waits
  lasts (waits : List Float) (t : Float) : t ≤ pollInterval →
    time waits + valueOf t ≤ time (waits ++ [t])

/-! ## Limits that are reached -/

/-- The deadline of a finite limit is finite, and little more than twice the limit away. -/
theorem KeepsTime.deadline (h : KeepsTime e time) (hlimit : limit.isFinite)
    (hpos : 0 ≤ valueOf limit) :
    (e.startReading + limit).isFinite ∧ 0 ≤ valueOf (e.startReading + limit) ∧
      valueOf (e.startReading + limit) ≤ time [] + (1 + 2 * valueOf limit) := by
  have hstart := h.start_nonneg
  have hmax : valueOf limit ≤ maxFinite := value_le_maxFinite (shaped_unpack hlimit)
  have hrange : (2 : ℚ) ^ 53 + maxFinite < rangeEnd := by
    have hpow : (2 : ℚ) ^ 53 < 2 ^ 970 := pow_lt_pow_right₀ one_lt_two (by decide)
    have hunit : (2 : ℚ) ^ 971 = 2 * 2 ^ 970 := pow_succ' 2 970
    rw [natCast_rangeEnd, maxFinite, zpow_ofNat, hunit]
    generalize (2 : ℚ) ^ 970 = half at hpow ⊢
    linarith
  obtain ⟨hfinite, hnearest⟩ := nearest_add h.start_finite hlimit (by
    rw [abs_of_nonneg (add_nonneg hstart hpos)]
    linarith [h.start_le])
  have hdistance := hnearest _ (representable_valueOf h.start_finite)
  rw [sub_add_cancel_left, abs_neg, abs_of_nonneg hpos] at hdistance
  refine ⟨hfinite, hnearest.ge representable_zero (add_nonneg hstart hpos), ?_⟩
  linarith [(abs_le.mp hdistance).2, h.start_le_time]

/-- Nothing is left of a limit once its deadline has come. -/
theorem KeepsTime.lt_deadline (h : KeepsTime e time) (hlimit : limit.isFinite)
    (hpos : 0 ≤ valueOf limit) (hleft : ¬ e.remaining limit waits ≤ 0.0) :
    time waits < valueOf (e.startReading + limit) := by
  obtain ⟨hfinite, hnonneg, -⟩ := h.deadline hlimit hpos
  have hreading := h.reading_finite waits
  by_contra hcome
  have hle := (float_le_iff hfinite hreading).mp (h.le_reading waits _ hfinite (not_lt.mp hcome))
  obtain ⟨hdifference, hnearest⟩ := nearest_sub hfinite hreading hnonneg (hnonneg.trans hle)
  refine hleft ((float_le_iff hdifference (by rfl)).mpr ?_)
  rw [valueOf_zero]
  exact hnearest.le representable_zero (by linarith)

/-- A wait with time left lasts at least as long as the least float. -/
theorem leastFloat_le_nextWait {remaining : Float} (h : ¬ remaining ≤ 0.0) :
    leastFloat ≤ valueOf (nextWait remaining) := by
  obtain ⟨hpos, hle⟩ := nextWait_bounds h
  have hfinite : (nextWait remaining).isFinite := by
    by_contra hinfinite
    exact not_float_le_of_not_isFinite hinfinite (fun hle => not_float_lt_of_le hle hpos)
      isFinite_pollInterval hle
  refine leastFloat_le (representable_valueOf hfinite) ?_
  rw [float_lt_iff (by rfl) hfinite, valueOf_zero] at hpos
  exact hpos

/-- After so many waits at least so many of the least floats have gone by. -/
theorem KeepsTime.le_time_take (h : KeepsTime e time) (htimely : Timely e limit waits) (i : Nat)
    (hi : i ≤ waits.length) : time [] + i * leastFloat ≤ time (waits.take i) := by
  induction i with
  | zero => rw [Nat.cast_zero, zero_mul, add_zero, List.take_zero]
  | succ i ih =>
    have hwait : waits[i]? = some waits[i] := List.getElem?_eq_getElem hi
    obtain ⟨hgo, ht⟩ := htimely i _ hwait
    have hleft := (stop?_eq_none_iff.mp hgo).2
    have hlasts := h.lasts (waits.take i) waits[i] (ht ▸ (nextWait_bounds hleft).2)
    have hleast : leastFloat ≤ valueOf waits[i] := ht ▸ leastFloat_le_nextWait hleft
    rw [List.take_add_one, hwait, Nat.cast_succ, add_one_mul]
    have hbefore := ih (Nat.le_of_succ_le hi)
    exact le_trans (by linarith) hlasts

theorem KeepsTime.length_le (h : KeepsTime e time) (htimely : Timely e limit waits)
    (hlimit : limit.isFinite) (hpos : 0 ≤ valueOf limit) :
    waits.length ≤ ⌈(1 + 2 * valueOf limit) / leastFloat⌉₊ := by
  rcases Nat.eq_zero_or_pos waits.length with hzero | hlength
  · omega
  obtain ⟨i, hi⟩ : ∃ i, waits.length = i + 1 := ⟨waits.length - 1, by omega⟩
  obtain ⟨hgo, -⟩ := htimely i _ (List.getElem?_eq_getElem (show i < waits.length by omega))
  have hbefore := h.lt_deadline hlimit hpos (stop?_eq_none_iff.mp hgo).2
  have hgone := h.le_time_take htimely i (by omega)
  have hdeadline := (h.deadline hlimit hpos).2.2
  rw [hi, Nat.succ_le_iff, Nat.lt_ceil, lt_div_iff₀ leastFloat_pos]
  linarith

/-! ## Limits that are not reached -/

/-- Of a limit that is positive infinity or no number there is always more than an interval left. -/
theorem remaining_endless (hstart : e.startReading.isFinite) (hreading : (e.reading waits).isFinite)
    (hlimit : ¬ limit.isFinite) (h : ¬ limit ≤ 0.0) :
    ¬ e.remaining limit waits ≤ 0.0 ∧ ¬ e.remaining limit waits < pollInterval := by
  have hsum := unpack_add_of_not_isFinite hstart hlimit
  have hdeadline : ¬ (e.startReading + limit).isFinite := by
    show ¬ (e.startReading + limit).toModel.unpack.isFinite
    rwa [hsum]
  have hleft (f : Float) : e.remaining limit waits ≤ f ↔ limit ≤ f := by
    rw [Engine.remaining, float_le_iff_compare, unpack_sub_of_not_isFinite hdeadline hreading, hsum,
      ← float_le_iff_compare]
  have hinterval := not_float_le_of_not_isFinite hlimit h isFinite_pollInterval
  exact ⟨mt (hleft _).mp h, fun hless => hinterval ((hleft _).mp (float_le_of_lt hless))⟩

/-- With such a limit a run that is not cancelled lasts as long as its process. -/
theorem run_endless (hstarts : r.Starts e) (htimeout : r.timeout.seconds? = some limit)
    (hstart : e.startReading.isFinite) (hreading : ∀ waits, (e.reading waits).isFinite)
    (hcancel : e.cancelAfter = none) (hlimit : ¬ limit.isFinite) (h : ¬ limit ≤ 0.0)
    (deck : String) : ∃ command,
      r.run e deck = endedRun e command deck (List.replicate (e.hang + 1) pollInterval) := by
  have hendless (waits : List Float) := remaining_endless hstart (hreading waits) hlimit h
  have hcourse := r.course_run e deck
  generalize r.run e deck = run at hcourse ⊢
  cases hcourse with
  | notFound hfind => exact absurd hfind hstarts.found
  | notWritten _ hwrite => exact absurd (hstarts.written.symm.trans hwrite) nofun
  | notStarted _ _ hfault => exact absurd (hstarts.started.symm.trans hfault) nofun
  | abandoned _ _ hnone => exact absurd (htimeout.symm.trans hnone) nofun
  | @killed _ _ waits _ _ _ hsome _ _ hstop =>
    cases htimeout.symm.trans hsome
    have hgo := stop?_eq_none_iff.mpr ⟨not_cancelledAfter hcancel waits.length, (hendless waits).1⟩
    exact absurd (hgo.symm.trans hstop) nofun
  | @ended command _ waits _ _ hsome htimely hlength =>
    cases htimeout.symm.trans hsome
    refine ⟨command, congrArg _ (List.eq_replicate_iff.mpr ⟨hlength, fun t ht => ?_⟩)⟩
    obtain ⟨i, hi, rfl⟩ := List.getElem_of_mem ht
    rw [(htimely i _ (List.getElem?_eq_getElem hi)).2]
    exact if_neg (hendless _).2

/-! ## Runs with a limit -/

/-- With this limit, a process that is not cancelled and outlasts so many waits is killed after at
most that many, the wait after the kill included, and the run says that its time was over. Output
that is no text, and is collected after the kill, lets an error escape instead. -/
def EndsWithin (limit : Float) (bound : Nat) : Prop :=
  ∀ (r : Runner) (e : Engine) (time : List Float → ℚ) (deck : String), r.timeout = .float limit →
    r.Starts e → KeepsTime e time → e.cancelAfter = none → bound < e.hang →
      (r.run e deck).waits.length ≤ bound ∧ (r.run e deck).killed = true ∧
        ((r.run e deck).outcome = .ok (.timedOut limit) ∨
          ∃ fault, e.text = .error fault ∧ (r.run e deck).outcome = .error (.output fault))

theorem killed_eq_or (e : Engine) (reason : RunEnd) : e.killed reason = .ok reason ∨
    ∃ fault, e.text = .error fault ∧ e.killed reason = .error (.output fault) := by
  unfold Engine.killed
  split
  · exact .inl rfl
  · cases e.text with
    | ok printed => exact .inl rfl
    | error fault => exact .inr ⟨fault, rfl, rfl⟩

theorem endsWithin_of_isFinite (hlimit : limit.isFinite) (hpos : 0 ≤ valueOf limit) :
    EndsWithin limit (⌈(1 + 2 * valueOf limit) / leastFloat⌉₊ + 1) := by
  rintro r e time deck htimeout hstarts hkeeps hcancel hhang
  have htimeout : r.timeout.seconds? = some limit := by rw [htimeout]; rfl
  have hcourse := r.course_run e deck
  generalize r.run e deck = run at hcourse ⊢
  cases hcourse with
  | notFound hfind => exact absurd hfind hstarts.found
  | notWritten _ hwrite => exact absurd (hstarts.written.symm.trans hwrite) nofun
  | notStarted _ _ hfault => exact absurd (hstarts.started.symm.trans hfault) nofun
  | abandoned _ _ hnone => exact absurd (htimeout.symm.trans hnone) nofun
  | @killed _ _ waits reason _ _ hsome htimely _ hstop =>
    cases htimeout.symm.trans hsome
    have hover : reason = .timedOut limit := by
      rcases stop?_cases hstop with ⟨-, hcancelled⟩ | ⟨hover, -⟩
      · exact absurd ((not_cancelledAfter hcancel _).symm.trans hcancelled) Bool.false_ne_true
      · exact hover
    refine ⟨?_, killed_killedRun _ _ _ _ _, hover ▸ killed_eq_or e reason⟩
    rw [waits_killedRun, List.length_append]
    exact Nat.add_le_add_right (hkeeps.length_le htimely hlimit hpos) 1
  | ended _ _ hsome htimely hlength =>
    cases htimeout.symm.trans hsome
    have := hkeeps.length_le htimely hlimit hpos
    omega

/-! ## A clock that keeps time -/

/-- What a clock shows after so many seconds: the nearest float, if there is one. -/
@[irreducible] def shown (seconds : Nat) : Float := nearestFloat (min seconds (rangeEnd - 1))

theorem shown_spec {seconds : Nat} (hpos : 0 < seconds) : (shown seconds).isFinite ∧
    ∀ f : Float, f.isFinite → valueOf f ≤ seconds → f ≤ shown seconds := by
  have hrange : 0 < rangeEnd - 1 := by decide +kernel
  have hbelow : min seconds (rangeEnd - 1) < rangeEnd :=
    (min_le_right _ _).trans_lt (Nat.sub_one_lt_of_lt (Nat.lt_of_sub_pos hrange))
  obtain ⟨hfinite, hnearest⟩ := nearestFloat_spec (lt_min hpos hrange) hbelow
  unfold shown
  refine ⟨hfinite, fun f hf hle => (float_le_iff hf hfinite).mpr ?_⟩
  have hmax : valueOf f ≤ maxFinite := value_le_maxFinite (shaped_unpack hf)
  refine hnearest.ge (representable_valueOf hf) ?_
  rw [Nat.cast_min]
  exact le_min hle (hmax.trans maxFinite_le_pred_rangeEnd)

/-- An engine that is found and started, and outlasts so many waits. Each of them takes a
second. -/
def hangs (waits : Nat) : Engine where
  onPath := some "ngspice"
  hang := waits
  reading gone := shown (gone.length + 1)

theorem reading_hangs (waits : Nat) (gone : List Float) :
    (hangs waits).reading gone = shown (gone.length + 1) := rfl

theorem startReading_hangs (waits : Nat) : (hangs waits).startReading = 0.0 := rfl

theorem valueOf_lt_one {t : Float} (h : t ≤ pollInterval) : valueOf t < 1 := by
  by_cases hfinite : t.isFinite
  · exact ((float_le_iff hfinite isFinite_pollInterval).mp h).trans_lt valueOf_pollInterval_lt
  · rw [valueOf_of_not_isFinite hfinite]
    exact one_pos

theorem keepsTime_hangs (waits : Nat) :
    KeepsTime (hangs waits) fun gone => (gone.length + 1 : ℕ) where
  start_finite := by
    rw [startReading_hangs]
    rfl
  start_nonneg := by
    rw [startReading_hangs, valueOf_zero]
  start_le := by
    rw [startReading_hangs, valueOf_zero]
    positivity
  start_le_time := by
    rw [startReading_hangs, valueOf_zero]
    positivity
  reading_finite gone := by
    rw [reading_hangs]
    exact (shown_spec (Nat.succ_pos gone.length)).1
  le_reading gone := by
    rw [reading_hangs]
    exact (shown_spec (Nat.succ_pos gone.length)).2
  lasts gone t ht := by
    have hlt := valueOf_lt_one ht
    rw [List.length_append, List.length_singleton, Nat.cast_succ (gone.length + 1)]
    linarith

theorem not_endsWithin (hlimit : ¬ limit.isFinite) (h : ¬ limit ≤ 0.0) (bound : Nat) :
    ¬ EndsWithin limit bound := by
  intro hends
  have hstarts : (Runner.mk none limit).Starts (hangs (bound + 1)) :=
    ⟨Option.some_ne_none "ngspice", rfl, rfl⟩
  have hkeeps := keepsTime_hangs (bound + 1)
  obtain ⟨-, hkilled, -⟩ := hends _ _ _ "" rfl hstarts hkeeps rfl (Nat.lt_succ_self bound)
  obtain ⟨command, hrun⟩ :=
    run_endless hstarts rfl hkeeps.start_finite hkeeps.reading_finite rfl hlimit h ""
  rw [hrun, killed_endedRun] at hkilled
  cases hkilled

end Runner

namespace Settings

theorem not_timeout_le_zero {environment : Option String} {fields : List (String × Json)}
    {s : Settings} (h : ofFields environment fields = .ok s) : ¬ s.timeout ≤ 0.0 := by
  unfold ofFields at h
  cases hfold : fields.foldlM (fun s f => s.setField f.1 f.2) defaults with
  | error error => rw [hfold] at h; cases h
  | ok set =>
    rw [hfold] at h
    have h : (set.withEnvironment environment).checked = .ok s := h
    obtain ⟨rfl, hpos, -⟩ := checked_eq_ok_iff.mp h
    exact hpos

/-- **The time limit of accepted settings bounds a run exactly if it is finite.** -/
theorem exists_endsWithin_iff {environment : Option String} {fields : List (String × Json)}
    {s : Settings} (h : ofFields environment fields = .ok s) :
    (∃ bound, Runner.EndsWithin s.timeout bound) ↔ s.timeout.isFinite := by
  have hpos := not_timeout_le_zero h
  constructor
  · rintro ⟨bound, hbound⟩
    by_contra hlimit
    exact Runner.not_endsWithin hlimit hpos bound hbound
  · intro hlimit
    rw [float_le_iff hlimit (by rfl), valueOf_zero, not_le] at hpos
    exact ⟨_, Runner.endsWithin_of_isFinite hlimit hpos.le⟩

theorem exists_endsWithin_half :
    ofFields none [("timeout", .float 0.5)] = .ok { defaults with timeout := 0.5 } ∧
      ∃ bound, Runner.EndsWithin 0.5 bound := by
  have h : ofFields none [("timeout", .float 0.5)] = .ok { defaults with timeout := 0.5 } := by rfl
  exact ⟨h, (exists_endsWithin_iff h).mpr (by decide +kernel)⟩

/-- What is no number is accepted for a limit, and bounds no run. -/
theorem not_exists_endsWithin_nan :
    ofFields none [("timeout", .float (0.0 / 0.0))] =
        .ok { defaults with timeout := 0.0 / 0.0 } ∧
      ¬ ∃ bound, Runner.EndsWithin (0.0 / 0.0) bound := by
  refine ⟨by rfl, ?_⟩
  rintro ⟨bound, hbound⟩
  exact Runner.not_endsWithin (by decide +kernel) (by decide +kernel) bound hbound

end Settings

end Breadboard
