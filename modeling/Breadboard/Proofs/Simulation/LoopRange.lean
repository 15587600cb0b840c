import Breadboard.Json.Printer
import Breadboard.Proofs.Decimal.Range
import Breadboard.Proofs.Simulation.Totality

/-!
# The range of a solved loop

Both numbers of a loop are read from the deck and finite, and the resistance is above zero. The
current is their quotient and may leave the range of floats all the same; then, and only then, a
number that is reported is not finite.
-/

namespace Breadboard

open Text

namespace OhmsLaw

/-- All numbers that are reported for a loop: those of its operating point, and the times and the
vectors of its series. -/
def Loop.numbers (l : Loop) : List Float :=
  l.operatingPoint.map (·.2) ++ l.series.time ++ l.series.voltages.flatMap (·.2)
    ++ l.series.currents.flatMap (·.2)

variable {text : String} {l : Loop}

/-- The numbers of a loop are those that its elements are read with. -/
theorem read_of_loopOf {source resistor : Element} (h : loopOf source resistor = .ok l) :
    Quantity.read (String.ofList source.value) = some l.volts ∧
      Quantity.read (String.ofList resistor.value) = some l.ohms ∧ ¬ l.ohms ≤ 0.0 := by
  unfold loopOf at h
  split at h
  · cases h
  · cases h
  · split at h
    · cases h
    · split at h
      · next hvolts hohms =>
        split at h
        · cases h
        · next hpositive =>
          cases h
          exact ⟨hvolts, hohms, hpositive⟩
      · cases h

/-- What the numbers of a solved loop are like. -/
structure Loop.Sound (l : Loop) : Prop where
  volts : l.volts.isFinite
  ohms : l.ohms.isFinite
  positive : 0 < valueOf l.ohms

theorem sound_of_solve (h : solve text = .ok l) : l.Sound := by
  rw [solve_eq] at h
  split at h
  · next source resistor _ =>
    obtain ⟨hvolts, hohms, hpositive⟩ := read_of_loopOf h
    have hfinite := Quantity.isFinite_of_read hohms
    refine ⟨Quantity.isFinite_of_read hvolts, hfinite, ?_⟩
    have hlt :=
      (float_lt_iff (by decide +kernel) hfinite).mp ((not_le_zero_iff hfinite).mp hpositive)
    rwa [valueOf_zero] at hlt
  · cases h

/-- Of all numbers that are reported only the current may be not finite. -/
theorem isFinite_or_eq_current (h : l.Sound) : ∀ x ∈ l.numbers, x.isFinite ∨ x = l.current := by
  have hzero : (0.0 : Float).isFinite := by decide +kernel
  have hlast : (1e-3 : Float).isFinite := by decide +kernel
  have hneg := Decimal.isFinite_neg h.volts
  unfold Loop.numbers Loop.operatingPoint Loop.series Loop.voltages Loop.times
  split <;> simp [hzero, hlast, hneg, h.volts]

theorem current_mem_numbers (l : Loop) : l.current ∈ l.numbers := by
  simp [Loop.numbers, Loop.operatingPoint]

/-- **Where the current leaves the range.** A deck is solved with a finite voltage and a finite
resistance above zero. What is reported is finite but for the current, and that is finite exactly if
the exact quotient is below the end of the range of floats. -/
theorem numbers_finite_iff (h : solve text = .ok l) :
    l.Sound ∧ (∀ x ∈ l.numbers, x.isFinite ∨ x = l.current) ∧
      ((∀ x ∈ l.numbers, x.isFinite) ↔ |valueOf l.volts| / valueOf l.ohms < rangeEnd) := by
  have hsound := sound_of_solve h
  have hothers := isFinite_or_eq_current hsound
  refine ⟨hsound, hothers, ?_⟩
  rw [← isFinite_div_iff hsound.volts hsound.ohms hsound.positive]
  constructor
  · exact fun hall => hall l.current (current_mem_numbers l)
  · intro hcurrent x hx
    rcases hothers x hx with hfinite | rfl
    · exact hfinite
    · exact hcurrent

theorem numbers_finite_iff_great :
    solve "t\nV1 1 0 DC -1e300\nR1 0 1 1e-8\n.end\n" = .ok ⟨"v1", 1, 0, -1e300, 1e-8⟩ ∧
      |valueOf (-1e300)| / valueOf 1e-8 < rangeEnd := by
  have hsolve :
      solve "t\nV1 1 0 DC -1e300\nR1 0 1 1e-8\n.end\n" = .ok ⟨"v1", 1, 0, -1e300, 1e-8⟩ := by
    decide +kernel
  obtain ⟨-, -, hiff⟩ := numbers_finite_iff hsolve
  exact ⟨hsolve, hiff.mp (by decide +kernel)⟩

/-- Both numbers are floats, but their quotient is none, and it is written as no JSON number. -/
theorem numbers_overflow :
    ∃ l, solve "t\nV1 1 0 DC 1e300\nR1 1 0 1e-300\n.end\n" = .ok l ∧
      ∃ x ∈ l.numbers, x.isFinite = false ∧ Json.floatText x = "Infinity" := by
  refine ⟨⟨"v1", 1, 0, 1e300, 1e-300⟩, by decide +kernel, _, current_mem_numbers _, ?_, ?_⟩
  · decide +kernel
  · decide +kernel

end OhmsLaw

end Breadboard
