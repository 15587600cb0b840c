import Breadboard.Proofs.Netlist.Assembly
import Mathlib.Data.List.Forall2

/-!
# Runs in lock-step

Two runs go in lock-step when both stop at the same place with corresponding conflicts, or both come
to an end with the same lines and corresponding assemblies. What one component keeps, a run keeps
(`Assembly.lockstep_run`), and decks whose runs go in lock-step have the same text
(`Deck.lockstep_ofComponents`).
-/

namespace Breadboard

/-- Two computations that both fail, with faults related by `E`, or both succeed, with results
related by `P`. -/
inductive Lockstep {ε ε' α α' : Type} (E : ε → ε' → Prop) (P : α → α' → Prop) :
    Except ε α → Except ε' α' → Prop where
  | error {e : ε} {e' : ε'} : E e e' → Lockstep E P (.error e) (.error e')
  | ok {a : α} {a' : α'} : P a a' → Lockstep E P (.ok a) (.ok a')

namespace Lockstep

variable {ε ε' α α' : Type} {E F : ε → ε' → Prop} {P Q : α → α' → Prop} {x : Except ε α}
  {y : Except ε' α'}

theorem mono (h : Lockstep E P x y) (hE : ∀ e e', E e e' → F e e')
    (hP : ∀ a a', x = .ok a → y = .ok a' → P a a' → Q a a') : Lockstep F Q x y := by
  cases h with
  | error he => exact .error (hE _ _ he)
  | ok hp => exact .ok (hP _ _ rfl rfl hp)

theorem map {β β' : Type} {Q : β → β' → Prop} {f : α → β} {g : α' → β'} (h : Lockstep E P x y)
    (hPQ : ∀ a a', P a a' → Q (f a) (g a')) : Lockstep E Q (x.map f) (y.map g) := by
  cases h with
  | error he => exact .error he
  | ok hp => exact .ok (hPQ _ _ hp)

theorem exists_error_iff (h : Lockstep E P x y) : (∃ e, x = .error e) ↔ ∃ e, y = .error e := by
  cases h with
  | error he => simp
  | ok hp => simp

theorem exists_ok_iff (h : Lockstep E P x y) : (∃ a, x = .ok a) ↔ ∃ a, y = .ok a := by
  cases h with
  | error he => simp
  | ok hp => simp

theorem eq {x y : Except ε α} (h : Lockstep Eq Eq x y) : x = y := by
  cases h with
  | error he => rw [he]
  | ok hp => rw [hp]

end Lockstep

/-! ## Runs -/

namespace Assembly

variable {E : JunctionConflict → JunctionConflict → Prop} {P : Assembly → Assembly → Prop}
  {a a' : Assembly}

/-- Results with the same output and related assemblies. -/
def SameOutput {β : Type} (P : Assembly → Assembly → Prop) (r r' : Assembly × β) : Prop :=
  P r.1 r'.1 ∧ r'.2 = r.2

/-- Runs go in lock-step if their first components do, and from related assemblies the rest. -/
theorem lockstep_run_cons {c c' : Component} {rest rest' : List Component}
    (hplace : Lockstep E (SameOutput P) (a.place c) (a'.place c'))
    (hrest : ∀ b b', P b b' → Lockstep E (SameOutput P) (b.run rest) (b'.run rest')) :
    Lockstep E (SameOutput P) (a.run (c :: rest)) (a'.run (c' :: rest')) := by
  unfold run
  generalize a.place c = x at hplace ⊢
  generalize a'.place c' = x' at hplace ⊢
  cases hplace with
  | error he => exact .error he
  | @ok r r' hr =>
    obtain ⟨b, line⟩ := r
    obtain ⟨b', line'⟩ := r'
    obtain ⟨hb, rfl⟩ := hr
    have hnext := hrest b b' hb
    simp only
    generalize b.run rest = y at hnext ⊢
    generalize b'.run rest' = y' at hnext ⊢
    cases hnext with
    | error he => exact .error he
    | @ok q q' hq =>
      obtain ⟨last, lines⟩ := q
      obtain ⟨last', lines'⟩ := q'
      obtain ⟨hlast, rfl⟩ := hq
      exact .ok ⟨hlast, rfl⟩

/-- What corresponding components keep, runs over corresponding components keep. -/
theorem lockstep_run {C : Component → Component → Prop}
    (step : ∀ {a a' c c'}, P a a' → C c c' → Lockstep E (SameOutput P) (a.place c) (a'.place c'))
    {components components' : List Component} (hc : List.Forall₂ C components components')
    (ha : P a a') : Lockstep E (SameOutput P) (a.run components) (a'.run components') := by
  induction hc generalizing a a' with
  | nil => exact .ok ⟨ha, rfl⟩
  | cons hc _ ih => exact lockstep_run_cons (step ha hc) fun _ _ hb => ih hb

end Assembly

/-! ## Decks -/

namespace Deck

variable {components components' : List Component} {s : Settings}

/-- The deck of a run that came to its end. -/
def ofRun (s : Settings) (a : Assembly) (deviceLines : List DeviceLine) : Deck where
  text := endOnce ("\n".intercalate
    (lines s (deviceLines.map DeviceLine.text) a.nodes.toNodeMap))
  deviceLines := deviceLines
  nodeMap := a.nodes.toNodeMap
  diagnostics := (a.diagnostics ++ a.undefinedModels).map Diagnostic.message

theorem ofComponents_eq (components : List Component) (s : Settings) :
    ofComponents components s = (Assembly.start.run components).map fun r => ofRun s r.1 r.2 := by
  unfold ofComponents
  cases Assembly.start.run components <;> rfl

theorem lockstep_ofComponents {E : JunctionConflict → JunctionConflict → Prop}
    {P : Assembly → Assembly → Prop} {Q : Deck → Deck → Prop}
    (h : Lockstep E (Assembly.SameOutput P) (Assembly.start.run components)
      (Assembly.start.run components'))
    (hQ : ∀ a a' deviceLines, P a a' → Q (ofRun s a deviceLines) (ofRun s a' deviceLines)) :
    Lockstep E Q (ofComponents components s) (ofComponents components' s) := by
  rw [ofComponents_eq, ofComponents_eq]
  refine h.map ?_
  rintro ⟨a, lines⟩ ⟨a', lines'⟩ ⟨ha, hlines⟩
  simp only at hlines
  rw [hlines]
  exact hQ a a' lines ha

/-- The text of a deck depends on its lines and on the vectors to print. -/
theorem ofRun_text_congr {a a' : Assembly} (s : Settings) (deviceLines : List DeviceLine)
    (h : vectors a'.nodes.toNodeMap = vectors a.nodes.toNodeMap) :
    (ofRun s a' deviceLines).text = (ofRun s a deviceLines).text := by
  unfold ofRun lines controlBlock
  simp only [h]

/-- The first `n` components give a deck, and with the next one there is a conflict. -/
def StopsAt (components : List Component) (s : Settings) (n : Nat) : Prop :=
  (∃ deck, ofComponents (components.take n) s = .ok deck) ∧
    ∃ e, ofComponents (components.take (n + 1)) s = .error e

theorem stopsAt_iff_of_lockstep {E : JunctionConflict → JunctionConflict → Prop}
    {Q : Deck → Deck → Prop}
    (h : ∀ k, Lockstep E Q (ofComponents (components.take k) s)
      (ofComponents (components'.take k) s)) (n : Nat) :
    StopsAt components s n ↔ StopsAt components' s n :=
  and_congr (h n).exists_ok_iff (h (n + 1)).exists_error_iff

end Deck

end Breadboard
