import Breadboard.Proofs.Output.PrintedVariables
import Breadboard.Proofs.Output.Written

/-!
# Printed points

The points of a raw file section are printed one to a line, or each as an index and a first value
with the further values on lines of their own. Both ways give the same rows.
-/

namespace Breadboard.RawFile

open Text Numeral

/-- A line that holds nothing but this number. -/
def HoldsValue (t : Written) (line : List Char) : Prop := words line = [t.text]

/-- Lines that print points: one to a line behind its index, or the index with the first value and
then each further value on a line; blank lines may stand between points. -/
inductive PrintsRows : List (List Written) → List (List Char) → Prop
  | nil : PrintsRows [] []
  | blank {rows ls line} (hb : allBlank line) (h : PrintsRows rows ls) :
      PrintsRows rows (line :: ls)
  | row {rows ls line index} (row : List Written) (hi : IsCount index)
      (hl : words line = index :: row.map Written.text) (h : PrintsRows rows ls) :
      PrintsRows (row :: rows) (line :: ls)
  | point {rows ls line below index} (t : Written) (more : List Written) (hi : IsCount index)
      (hl : words line = [index, t.text]) (hb : List.Forall₂ HoldsValue more below)
      (h : PrintsRows rows ls) : PrintsRows ((t :: more) :: rows) (line :: (below ++ ls))

/-! ## Value lines -/

variable {rows : List (List Written)} {ls : List (List Char)}
  {line : List Char} {width : Nat}

theorem isValueLine_of_head {c : Char} (hc : c ∈ (trimStart line).head?)
    (h : "0123456789+-.".toList.contains c) : isValueLine line := by
  unfold isValueLine
  split
  · rfl
  · next d rest htrim =>
    rw [htrim] at hc
    obtain rfl : d = c := Option.some.inj hc
    exact h

theorem contains_of_isDigit {c : Char} (h : c.isDigit) : "0123456789+-.".toList.contains c := by
  obtain ⟨hlow, hhigh⟩ : 48 ≤ c.toNat ∧ c.toNat ≤ 57 := by
    rw [Char.isDigit, Bool.and_eq_true, decide_eq_true_eq, decide_eq_true_eq] at h
    exact h
  rw [← Char.ofNat_toNat c]
  generalize c.toNat = n at hlow hhigh
  interval_cases n <;> decide

theorem isValueLine_of_index {index : List Char} {more : List (List Char)} (hi : IsCount index)
    (h : words line = index :: more) : isValueLine line := by
  obtain ⟨rest, htrim, -, -, -⟩ := exists_of_words_eq_cons h
  obtain ⟨d, index, rfl⟩ := List.exists_cons_of_ne_nil hi.1
  refine isValueLine_of_head (c := d) (by rw [htrim]; rfl)
    (contains_of_isDigit (hi.2 d List.mem_cons_self))

theorem isValueLine_of_holdsValue {t : Written} (h : HoldsValue t line) : isValueLine line := by
  obtain ⟨rest, htrim, -, -, -⟩ := exists_of_words_eq_cons h
  obtain ⟨d, ds, hd, hfirst⟩ := t.exists_head
  have hcontains : "0123456789+-.".toList.contains d := by
    rcases hfirst with hdigit | rfl
    · exact contains_of_isDigit hdigit
    · decide
  rw [Written.text, hd] at htrim
  cases hs : t.sign with
  | none =>
    rw [hs] at htrim
    exact isValueLine_of_head (by rw [htrim]; rfl) hcontains
  | some s =>
    rw [hs] at htrim
    refine isValueLine_of_head (by rw [htrim]; rfl) ?_
    cases s <;> decide

theorem forall_of_holdsValue {more : List Written} {below : List (List Char)}
    (hb : List.Forall₂ HoldsValue more below) :
    ∀ line ∈ below, isValueLine line ∧ allBlank line = false := by
  induction hb with
  | nil => exact fun _ hl => nomatch hl
  | cons ht _ ih =>
    exact List.forall_mem_cons.mpr
      ⟨⟨isValueLine_of_holdsValue ht, allBlank_of_words_eq_cons ht⟩, ih⟩

theorem isValueLine_of_allBlank (h : allBlank line) : isValueLine line := by
  have htrim : trimStart line = [] := List.dropWhile_eq_nil_iff.mpr (List.all_eq_true.mp h)
  rw [isValueLine, htrim]

theorem PrintsRows.isValueLine (h : PrintsRows rows ls) : ∀ line ∈ ls, isValueLine line := by
  induction h with
  | nil => exact fun _ hl => nomatch hl
  | blank hb _ ih => exact List.forall_mem_cons.mpr ⟨isValueLine_of_allBlank hb, ih⟩
  | row row hi hl _ ih => exact List.forall_mem_cons.mpr ⟨isValueLine_of_index hi hl, ih⟩
  | point t more hi hl hb _ ih =>
    refine List.forall_mem_cons.mpr ⟨isValueLine_of_index hi hl, fun line hline => ?_⟩
    rcases List.mem_append.mp hline with hline | hline
    · exact (forall_of_holdsValue hb line hline).1
    · exact ih line hline

/-! ## Rows -/

/-- A line that completes a row puts it before the rows of the lines behind it. -/
theorem readRows_cons_of_row {pending next : Option (List (List Char))} {tokens : List (List Char)}
    (h : lineEffect width pending (words line) = .row tokens next) :
    readRows width pending (line :: ls) =
      (readRows width next ls).map ((tokens.mapM readFinite).toList ++ ·) := by
  rw [readRows, h]
  dsimp only
  cases readRows width next ls <;> rfl

theorem readRows_cons_of_pending {pending : Option (List (List Char))} {tokens : List (List Char)}
    (h : lineEffect width pending (words line) = .pending tokens) :
    readRows width pending (line :: ls) = readRows width (some tokens) ls := by
  rw [readRows, h]

/-- The lines of further values complete the point that is being read. -/
theorem readRows_append_of_holdsValue {more : List Written} {below : List (List Char)}
    (hb : List.Forall₂ HoldsValue more below) {done : List (List Char)} (hne : more ≠ [])
    (hw : done.length + more.length = width) (rest : List (List Char)) :
    readRows width (some done) (below ++ rest) =
      (readRows width none rest).map
        (((done ++ more.map Written.text).mapM readFinite).toList ++ ·) := by
  induction hb generalizing done with
  | nil => exact absurd rfl hne
  | @cons t line more below ht hb ih =>
    rw [List.length_cons] at hw
    have heffect : lineEffect width (some done) (words line) =
        .ofPoint width (done ++ [t.text]) := by
      rw [show words line = [t.text] from ht]
      rfl
    cases hb with
    | nil =>
      have hrow : lineEffect width (some done) (words line) = .row (done ++ [t.text]) none := by
        rw [heffect, LineEffect.ofPoint, if_pos (by simpa using hw)]
      rw [List.singleton_append, readRows_cons_of_row hrow]
      rfl
    | cons hu hb =>
      have hpending : lineEffect width (some done) (words line) = .pending (done ++ [t.text]) := by
        rw [heffect, LineEffect.ofPoint, if_neg]
        rw [List.length_append, List.length_singleton]
        rw [List.length_cons] at hw
        omega
      rw [List.cons_append, readRows_cons_of_pending hpending,
        ih (List.cons_ne_nil _ _) (by rw [List.length_append, List.length_singleton]; omega)]
      simp

theorem isIndex_of_isCount {index : List Char} (hi : IsCount index) : isIndex index := by
  rw [isIndex, Bool.and_eq_true, List.all_eq_true]
  refine ⟨by simpa using hi.1, fun c hc => ?_⟩
  rw [isDigitLike, hi.isDecimal c hc, Bool.true_or]

theorem lineEffect_row {index : List Char} {row : List Written} (hi : IsCount index)
    (hw : row.length = width) (hpos : 0 < width) (pending : Option (List (List Char))) :
    lineEffect width pending (index :: row.map Written.text) =
      .row (row.map Written.text) none := by
  obtain ⟨t, more, rfl⟩ := List.exists_cons_of_length_pos (hw ▸ hpos)
  rw [List.map_cons, lineEffect, if_pos (isIndex_of_isCount hi), if_pos (by simpa using hw)]
  exact List.cons_ne_nil _ _

theorem readRows_of_point {index : List Char} {t : Written} {more : List Written}
    {below : List (List Char)} (hi : IsCount index) (hl : words line = [index, t.text])
    (hb : List.Forall₂ HoldsValue more below) (hw : (t :: more).length = width)
    (rest : List (List Char)) :
    readRows width none (line :: (below ++ rest)) =
      (readRows width none rest).map
        ((((t :: more).map Written.text).mapM readFinite).toList ++ ·) := by
  have hindex : isIndex index := isIndex_of_isCount hi
  cases hb with
  | nil =>
    have hrow : lineEffect width none (words line) = .row [t.text] none := by
      have hone : lineEffect width none (index :: [t].map Written.text) =
          .row ([t].map Written.text) none := lineEffect_row hi hw (hw ▸ Nat.succ_pos _) none
      rwa [List.map_singleton, ← hl] at hone
    rw [List.nil_append, readRows_cons_of_row hrow]
    rfl
  | @cons u later more below hu hb =>
    have hsize : [t.text].length + (u :: more).length = width := by
      rw [← hw, List.length_singleton, Nat.add_comm]
      rfl
    have hpending : lineEffect width none (words line) = .pending [t.text] := by
      have hne : ¬ [t.text].length = width := by
        simp only [List.length_cons, List.length_nil] at hsize ⊢
        omega
      rw [hl, lineEffect, if_pos hindex, if_neg hne, if_pos List.length_singleton,
        LineEffect.ofPoint, if_neg hne]
      exact List.cons_ne_nil _ _
    rw [readRows_cons_of_pending hpending,
      readRows_append_of_holdsValue (.cons hu hb) (List.cons_ne_nil _ _) hsize]
    rfl

theorem mapM_readFinite_text {row : List Written} (h : ∀ t ∈ row, t.value.isFinite) :
    (row.map Written.text).mapM readFinite = some (row.map Written.value) := by
  rw [mapM_eq_some_iff, List.map_map, List.map_map]
  exact List.map_congr_left fun t ht => t.readFinite_text (h t ht)

/-- All points are read as rows, whichever way they are printed. -/
theorem readRows_of_printsRows (h : PrintsRows rows ls) (hpos : 0 < width)
    (hw : ∀ row ∈ rows, row.length = width)
    (hf : ∀ row ∈ rows, ∀ t ∈ row, t.value.isFinite) :
    readRows width none (ls.filter (! allBlank ·)) =
      .ok (rows.map fun row => row.map Written.value) := by
  induction h with
  | nil => rfl
  | blank hb _ ih =>
    rw [List.filter_cons_of_neg (by simp [hb])]
    exact ih hw hf
  | @row rows ls line index row hi hl _ ih =>
    obtain ⟨hwidth, hwrest⟩ := List.forall_mem_cons.mp hw
    obtain ⟨hfinite, hfrest⟩ := List.forall_mem_cons.mp hf
    have heffect : lineEffect width none (words line) = .row (row.map Written.text) none :=
      hl ▸ lineEffect_row hi hwidth hpos none
    rw [List.filter_cons_of_pos (by simp [allBlank_of_words_eq_cons hl]),
      readRows_cons_of_row heffect, ih hwrest hfrest, mapM_readFinite_text hfinite]
    rfl
  | @point rows ls line below index t more hi hl hb _ ih =>
    obtain ⟨hwidth, hwrest⟩ := List.forall_mem_cons.mp hw
    obtain ⟨hfinite, hfrest⟩ := List.forall_mem_cons.mp hf
    have hbelow : below.filter (! allBlank ·) = below :=
      List.filter_eq_self.mpr fun l hl => by simp [(forall_of_holdsValue hb l hl).2]
    rw [List.filter_cons_of_pos (by simp [allBlank_of_words_eq_cons hl]), List.filter_append,
      hbelow, readRows_of_point hi hl hb hwidth, ih hwrest hfrest, mapM_readFinite_text hfinite]
    rfl

end Breadboard.RawFile
