import Breadboard.Text.Fold

/-!
# Phrases in texts

Where a phrase may stand in a text that is put together from parts. A phrase that differs from each
end of the first part within that part can only stand behind it.
-/

namespace Breadboard.Text

/-- Whether a word and a text differ at a place that both have. -/
def clashes : (word cs : List Char) → Bool
  | p :: ps, c :: cs => !foldsTo p c || clashes ps cs
  | _, _ => false

/-- Whether the word cannot begin anywhere in the text, whatever follows it. -/
def clashesThroughout (word : List Char) : List Char → Bool
  | [] => true
  | c :: cs => clashes word (c :: cs) && clashesThroughout word cs

theorem skipWord_of_clashes {word a : List Char} (h : clashes word a) (b : List Char) :
    skipWord word (a ++ b) = none := by
  induction word generalizing a with
  | nil => cases h
  | cons p ps ih =>
    cases a with
    | nil => cases h
    | cons c cs =>
      unfold clashes at h
      rw [List.cons_append, skipWord]
      split
      · next hfolds =>
        rw [hfolds, Bool.not_true, Bool.false_or] at h
        exact ih h
      · rfl

/-- A word that cannot begin in a part stands in the whole if it stands in the rest. -/
theorem holdsWord_append {word : String} {a : List Char} (h : clashesThroughout word.toList a)
    (b : List Char) : holdsWord word (a ++ b) = holdsWord word b := by
  induction a with
  | nil => rfl
  | cons c cs ih =>
    unfold clashesThroughout at h
    obtain ⟨hhere, hlater⟩ := Bool.and_eq_true_iff.mp h
    have hskip : skipWord word.toList (c :: (cs ++ b)) = none := skipWord_of_clashes hhere b
    rw [List.cons_append, holdsWord, hskip, ih hlater]
    rfl

theorem skipWord_append {word a rest : List Char} (h : skipWord word a = some rest)
    (b : List Char) : skipWord word (a ++ b) = some (rest ++ b) := by
  induction word generalizing a with
  | nil =>
    cases h
    rfl
  | cons p ps ih =>
    cases a with
    | nil => cases h
    | cons c cs =>
      rw [skipWord] at h
      rw [List.cons_append, skipWord]
      split at h
      · next hfolds =>
        rw [if_pos hfolds]
        exact ih h
      · cases h

theorem holdsWord_append_left {word : String} {a : List Char} (h : holdsWord word a)
    (b : List Char) : holdsWord word (a ++ b) := by
  have hskip {cs : List Char} (hcs : (skipWord word.toList cs).isSome) :
      (skipWord word.toList (cs ++ b)).isSome := by
    obtain ⟨rest, hrest⟩ := Option.isSome_iff_exists.mp hcs
    rw [skipWord_append hrest]
    rfl
  induction a with
  | nil =>
    rw [holdsWord] at h
    cases b with
    | nil => exact h
    | cons d b =>
      rw [List.nil_append, holdsWord, Bool.or_eq_true]
      exact .inl (hskip h)
  | cons c cs ih =>
    rw [holdsWord, Bool.or_eq_true] at h
    rw [List.cons_append, holdsWord, Bool.or_eq_true]
    exact h.imp (fun hhere => hskip hhere) ih

theorem exists_mem_of_skipWord {word cs rest : List Char} (h : skipWord word cs = some rest)
    {p : Char} (hp : p ∈ word) : ∃ c ∈ cs, foldsTo p c := by
  induction word generalizing cs with
  | nil => cases hp
  | cons q qs ih =>
    cases cs with
    | nil => cases h
    | cons c cs =>
      rw [skipWord] at h
      split at h
      · next hfolds =>
        rcases List.mem_cons.mp hp with rfl | hp
        · exact ⟨c, List.mem_cons_self, hfolds⟩
        · obtain ⟨d, hd, hfolds⟩ := ih h hp
          exact ⟨d, List.mem_cons_of_mem c hd, hfolds⟩
      · cases h

/-- Whether no character of a text reads as the letter. -/
def lacks (p : Char) (cs : List Char) : Bool := cs.all fun c => !foldsTo p c

theorem lacks_iff {p : Char} {cs : List Char} :
    lacks p cs = true ↔ ∀ c ∈ cs, foldsTo p c = false := by
  unfold lacks
  simp only [List.all_eq_true, Bool.not_eq_true']

@[simp] theorem lacks_append (p : Char) (a b : List Char) :
    lacks p (a ++ b) = (lacks p a && lacks p b) := List.all_append

/-- A text that lacks one of its letters does not hold a word. -/
theorem holdsWord_of_lacks {word : String} {p : Char} (hp : p ∈ word.toList) {cs : List Char}
    (h : lacks p cs) : holdsWord word cs = false := by
  have hskip {ds : List Char} (hds : lacks p ds) : (skipWord word.toList ds).isSome = false := by
    rw [Option.isSome_eq_false_iff, Option.isNone_iff_eq_none, Option.eq_none_iff_forall_ne_some]
    intro rest hrest
    obtain ⟨c, hc, hfolds⟩ := exists_mem_of_skipWord hrest hp
    rw [lacks_iff.mp hds c hc] at hfolds
    cases hfolds
  induction cs with
  | nil => exact hskip h
  | cons c cs ih =>
    rw [holdsWord, hskip h, Bool.false_or]
    exact ih (lacks_iff.mpr fun d hd => lacks_iff.mp h d (List.mem_cons_of_mem c hd))

end Breadboard.Text
