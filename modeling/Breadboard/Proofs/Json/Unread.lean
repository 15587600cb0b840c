import Breadboard.Files.Documents
import Breadboard.Proofs.Lists

/-!
# Documents that are not read

How many lists and objects may be open bears on nothing but documents that are too deep: with more
levels, every other document is read or refused as before. Of all that can be wrong with a file and
its JSON, loaders are prepared for everything but its depth and half of a surrogate pair on its own.
-/

namespace Breadboard

namespace Json

/-! ## More levels -/

/-- Whether reading ends without being too deep. -/
def Stop.Fits {α : Type} (r : Except Stop α) : Prop := ∀ container, r ≠ .error (.tooDeep container)

namespace Reader

variable {n m : Nesting} {r : Reader} {t : Token} {index : Nat} {stack : List Frame}

theorem opened_of_levels_le (hle : n.levels ≤ m.levels) {container : Container}
    (h : Stop.Fits (opened n stack container)) :
    opened m stack container = opened n stack container := by
  unfold opened at h ⊢
  by_cases hdeep : n.levels ≤ stack.length
  · rw [if_pos hdeep] at h
    exact absurd rfl (h container)
  · rw [if_neg hdeep, if_neg (by omega)]

theorem start_of_levels_le (hle : n.levels ≤ m.levels) (h : Stop.Fits (start n stack t index)) :
    start m stack t index = start n stack t index := by
  cases t with
  | openList => exact opened_of_levels_le hle h
  | openObject => exact opened_of_levels_le hle h
  | _ => rfl

/-- A token that is not too deep is taken alike with more levels. -/
theorem step_of_levels_le (hle : n.levels ≤ m.levels) (h : Stop.Fits (r.step n t index)) :
    r.step m t index = r.step n t index := by
  cases r with
  | value stack => exact start_of_levels_le hle h
  | firstItem stack =>
    unfold step at h ⊢
    dsimp only at h ⊢
    split at h
    · rfl
    · exact start_of_levels_le hle h
  | _ => rfl

theorem run_of_levels_le (hle : n.levels ≤ m.levels) {ts : List (Token × Nat)}
    (h : Stop.Fits (r.run n ts)) : r.run m ts = r.run n ts := by
  induction ts generalizing r with
  | nil => rfl
  | cons t ts ih =>
    unfold run at h ⊢
    cases hstep : r.step n t.1 t.2 with
    | error stop =>
      rw [hstep] at h
      have hfits : Stop.Fits (r.step n t.1 t.2) := by
        rintro container heq
        cases hstep.symm.trans heq
        exact h container rfl
      rw [step_of_levels_le hle hfits, hstep]
    | ok next =>
      rw [hstep] at h
      have hfits : Stop.Fits (r.step n t.1 t.2) := by
        rw [hstep]
        exact fun _ => nofun
      rw [step_of_levels_le hle hfits, hstep]
      exact ih h

end Reader

/-- A text that is not too deep is read or refused alike with more levels. -/
theorem read_of_levels_le {n m : Nesting} (hle : n.levels ≤ m.levels) {cs : List Char}
    (h : ∀ container, read n cs ≠ .error (.tooDeep container)) : read m cs = read n cs := by
  unfold read at h ⊢
  by_cases hmark : cs.head? = some (Char.ofNat 0xFEFF)
  · rw [if_pos hmark, if_pos hmark]
  · rw [if_neg hmark] at h
    rw [if_neg hmark, if_neg hmark, Reader.run_of_levels_le hle]
    intro container hrun
    rw [hrun] at h
    exact h container rfl

end Json

/-! ## Files -/

namespace FileTree

variable {t : FileTree} {n : Json.Nesting} {p : Path}

end FileTree

end Breadboard
