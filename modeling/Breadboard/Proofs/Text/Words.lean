import Breadboard.Text.Blank
import Mathlib.Data.List.Induction
import Mathlib.Data.List.TakeWhile

/-!
# Words and fields

How a text splits into words. A line in which fields stand one after another, with any blanks or
none around each, has words that are runs of neighbouring fields; without its blanks it is the
fields joined.
-/

namespace Breadboard.Text

/-- A text that is empty or starts with a blank, so that no word goes on in it. -/
def Detached (cs : List Char) : Prop := ∀ c ∈ cs.head?, isBlank c

theorem detached_cons {c : Char} (h : isBlank c) (cs : List Char) : Detached (c :: cs) := by
  intro d hd
  rw [List.head?_cons, Option.mem_some_iff] at hd
  rwa [← hd]

/-- A word: at least one character and no blank. -/
def IsWord (w : List Char) : Prop := w ≠ [] ∧ ∀ c ∈ w, isBlank c = false

/-! ## Words at the start of a text -/

@[simp] theorem words_nil : words [] = [] := by
  simp [words, List.splitOnP_nil]

theorem words_append_cons_blank {c : Char} (h : isBlank c) (cs ds : List Char) :
    words (cs ++ c :: ds) = words cs ++ words ds := by
  unfold words
  rw [List.splitOnP_append_cons cs ds h, List.filter_append]

theorem words_cons_blank {c : Char} (h : isBlank c) (cs : List Char) :
    words (c :: cs) = words cs := by
  simpa using words_append_cons_blank h [] cs

theorem words_append_blank {c : Char} (h : isBlank c) (cs : List Char) :
    words (cs ++ [c]) = words cs := by
  simpa using words_append_cons_blank h cs []

theorem words_trimStart (cs : List Char) : words (trimStart cs) = words cs := by
  induction cs with
  | nil => rfl
  | cons c cs ih =>
    unfold trimStart at ih ⊢
    by_cases h : isBlank c
    · rw [List.dropWhile_cons_of_pos h, ih, words_cons_blank h]
    · rw [List.dropWhile_cons_of_neg h]

theorem detached_dropWhile (cs : List Char) : Detached (cs.dropWhile (! isBlank ·)) := by
  intro c hc
  have := List.head?_dropWhile_not (! isBlank ·) cs
  rw [Option.mem_def.mp hc] at this
  simpa using this

theorem splitOnP_append_of_not_blank {w : List Char} (hw : ∀ c ∈ w, isBlank c = false)
    (rest : List Char) :
    (w ++ rest).splitOnP isBlank = (rest.splitOnP isBlank).modifyHead (w ++ ·) := by
  induction w with
  | nil =>
    rw [List.nil_append]
    cases rest.splitOnP isBlank <;> rfl
  | cons c w ih =>
    rw [List.cons_append, List.splitOnP_cons_eq_if_modifyHead, hw c List.mem_cons_self,
      ih fun d hd => hw d (List.mem_cons_of_mem c hd)]
    cases rest.splitOnP isBlank <;> rfl

/-- A word before a blank or the end of the text is the first word of the text. -/
theorem words_append_detached {w rest : List Char} (hw : IsWord w) (hr : Detached rest) :
    words (w ++ rest) = w :: words rest := by
  unfold words
  rw [splitOnP_append_of_not_blank hw.2]
  cases rest with
  | nil => simp [List.splitOnP_nil, hw.1]
  | cons b rest =>
    have hb : isBlank b := hr b rfl
    simp [List.splitOnP_cons_eq_if_modifyHead, hb, hw.1]

/-- A word before another word makes one word with it. -/
theorem words_append_attached {w : List Char} (hw : IsWord w) {c : Char} (cs : List Char)
    (hc : isBlank c = false) :
    ∃ v vs, words (c :: cs) = v :: vs ∧ words (w ++ c :: cs) = (w ++ v) :: vs := by
  obtain ⟨first, others, hsplit⟩ := List.exists_cons_of_ne_nil (List.splitOnP_ne_nil isBlank cs)
  refine ⟨c :: first, others.filter (! ·.isEmpty), ?_, ?_⟩
  · simp [words, List.splitOnP_cons_eq_if_modifyHead, hc, hsplit]
  · unfold words
    rw [splitOnP_append_of_not_blank hw.2, List.splitOnP_cons_eq_if_modifyHead, hc]
    simp [hsplit]

theorem not_blank_of_head {cs : List Char} {c : Char} (h : c ∈ (trimStart cs).head?) :
    isBlank c = false := by
  have hhead := List.head?_dropWhile_not isBlank cs
  rw [show (cs.dropWhile isBlank).head? = some c from h] at hhead
  exact hhead

theorem mem_dropWhile_of_not_blank {cs : List Char} {c : Char} (hc : c ∈ cs)
    (hb : isBlank c = false) : c ∈ cs.dropWhile isBlank := by
  rw [← List.takeWhile_append_dropWhile (p := isBlank) (l := cs), List.mem_append] at hc
  rcases hc with hc | hc
  · have := List.all_eq_true.mp (List.all_takeWhile (p := isBlank)) c hc
    rw [hb] at this
    cases this
  · exact hc

/-- Trimming keeps all characters that are no blanks. -/
theorem mem_trim {cs : List Char} {c : Char} (hc : c ∈ cs) (hb : isBlank c = false) :
    c ∈ trim cs := by
  have hmem : c ∈ trimStart cs := mem_dropWhile_of_not_blank hc hb
  unfold trim trimEnd
  rw [List.mem_reverse]
  exact mem_dropWhile_of_not_blank (List.mem_reverse.mpr hmem) hb

theorem mem_trim_of_head {cs : List Char} {c : Char} (h : c ∈ (trimStart cs).head?) :
    c ∈ trim cs :=
  mem_trim ((List.dropWhile_suffix isBlank).subset (List.mem_of_mem_head? h)) (not_blank_of_head h)

theorem trimStart_append {w : List Char} (hw : IsWord w) (rest : List Char) :
    trimStart (w ++ rest) = w ++ rest := by
  obtain ⟨c, cs, rfl⟩ := List.exists_cons_of_ne_nil hw.1
  rw [trimStart, List.cons_append, List.dropWhile_cons_of_neg]
  simp [hw.2 c List.mem_cons_self]

theorem exists_of_trimStart_ne_nil {cs : List Char} (h : trimStart cs ≠ []) :
    ∃ w rest, trimStart cs = w ++ rest ∧ IsWord w ∧ Detached rest ∧ words cs = w :: words rest := by
  obtain ⟨c, tail, ht⟩ := List.exists_cons_of_ne_nil h
  have hc : isBlank c = false := by
    refine not_blank_of_head (?_ : c ∈ (trimStart cs).head?)
    rw [ht]
    rfl
  have hword : IsWord ((c :: tail).takeWhile (! isBlank ·)) := by
    refine ⟨by simp [hc], fun d hd => ?_⟩
    simpa using List.all_eq_true.mp (List.all_takeWhile (p := (! isBlank ·))) d hd
  have hsplit := List.takeWhile_append_dropWhile (p := (! isBlank ·)) (l := c :: tail)
  have hwords := words_append_detached hword (detached_dropWhile (c :: tail))
  rw [hsplit, ← ht, words_trimStart] at hwords
  rw [← ht] at hword hsplit
  exact ⟨_, _, hsplit.symm, hword, detached_dropWhile _, hwords⟩

theorem trim_cons {c : Char} (hc : isBlank c = false) (cs : List Char) :
    trim (c :: cs) = c :: trimEnd cs := by
  have hkept : (cs.reverse ++ [c]).dropWhile isBlank = cs.reverse.dropWhile isBlank ++ [c] := by
    rw [List.dropWhile_append]
    split
    · next hnil => simp [List.isEmpty_iff.mp hnil, hc]
    · rfl
  rw [trim, trimStart, List.dropWhile_cons_of_neg (by simp [hc]), trimEnd, List.reverse_cons, hkept,
    List.reverse_append]
  rfl

theorem exists_trim_cons {c : Char} (hc : isBlank c = false) (cs : List Char) :
    ∃ ds, trim (c :: cs) = c :: ds := ⟨trimEnd cs, trim_cons hc cs⟩

theorem words_trim (cs : List Char) : words (trim cs) = words cs := by
  have hend (ds : List Char) : words (trimEnd ds) = words ds := by
    unfold trimEnd
    induction ds using List.reverseRecOn with
    | nil => rfl
    | append_singleton ds d ih =>
      rw [List.reverse_append, List.reverse_singleton, List.singleton_append]
      by_cases hd : isBlank d
      · rw [List.dropWhile_cons_of_pos hd, ih, words_append_blank hd]
      · rw [List.dropWhile_cons_of_neg hd, List.reverse_cons, List.reverse_reverse]
  rw [trim, hend, words_trimStart]

theorem trimStart_of_words_nil {cs : List Char} (h : words cs = []) : trimStart cs = [] := by
  by_cases hne : trimStart cs = []
  · exact hne
  · obtain ⟨w, rest, -, -, -, hwords⟩ := exists_of_trimStart_ne_nil hne
    rw [h] at hwords
    cases hwords

/-- A text with a first word holds it behind its leading blanks, and what follows is detached. -/
theorem exists_of_words_eq_cons {cs w : List Char} {ws : List (List Char)}
    (h : words cs = w :: ws) :
    ∃ rest, trimStart cs = w ++ rest ∧ Detached rest ∧ words rest = ws ∧ IsWord w := by
  have hne : trimStart cs ≠ [] := by
    intro hnil
    rw [← words_trimStart, hnil, words_nil] at h
    cases h
  obtain ⟨v, rest, ht, hv, hrest, hwords⟩ := exists_of_trimStart_ne_nil hne
  rw [h, List.cons.injEq] at hwords
  obtain ⟨rfl, rfl⟩ := hwords
  exact ⟨rest, ht, hrest, rfl, hv⟩

theorem takeWhile_word {w rest : List Char} (hw : IsWord w) (hr : Detached rest) :
    (w ++ rest).takeWhile (! isBlank ·) = w := by
  rw [List.takeWhile_append_of_pos fun c hc => by simp [hw.2 c hc]]
  cases rest with
  | nil => simp
  | cons b rest => simp [hr b rfl]

theorem trim_of_words_eq_singleton {cs w : List Char} (h : words cs = [w]) : trim cs = w := by
  obtain ⟨rest, htrim, -, hrest, hw⟩ := exists_of_words_eq_cons h
  have hblank : ∀ c ∈ rest.reverse, isBlank c := fun c hc =>
    List.dropWhile_eq_nil_iff.mp (trimStart_of_words_nil hrest) c (List.mem_reverse.mp hc)
  have hreverse : IsWord w.reverse :=
    ⟨by simpa using hw.1, fun c hc => hw.2 c (List.mem_reverse.mp hc)⟩
  have hkeep := trimStart_append hreverse []
  rw [List.append_nil, trimStart] at hkeep
  rw [trim, htrim, trimEnd, List.reverse_append, List.dropWhile_append_of_pos hblank, hkeep,
    List.reverse_reverse]

theorem words_of_isWord {w : List Char} (hw : IsWord w) : words w = [w] := by
  have hend : Detached [] := fun c hc => nomatch hc
  have hone := words_append_detached hw hend
  rwa [List.append_nil, words_nil] at hone

/-- A text is one word if nothing but the blanks around it is to be trimmed. -/
theorem exists_words_eq_singleton_iff {cs : List Char} :
    (∃ w, words cs = [w]) ↔ IsWord (trim cs) := by
  constructor
  · rintro ⟨w, hw⟩
    obtain ⟨-, -, -, -, hword⟩ := exists_of_words_eq_cons hw
    rwa [trim_of_words_eq_singleton hw]
  · intro hword
    exact ⟨trim cs, by rw [← words_trim, words_of_isWord hword]⟩

theorem allBlank_of_words_eq_cons {cs w : List Char} {ws : List (List Char)}
    (h : words cs = w :: ws) : allBlank cs = false := by
  obtain ⟨rest, htrim, -, -, hw⟩ := exists_of_words_eq_cons h
  obtain ⟨c, w, rfl⟩ := List.exists_cons_of_ne_nil hw.1
  have hmem : c ∈ trimStart cs := by
    rw [htrim]
    exact List.mem_cons_self
  have hc : c ∈ cs := (List.dropWhile_suffix isBlank).subset hmem
  rw [allBlank, List.all_eq_false]
  exact ⟨c, hc, by simp [hw.2 c List.mem_cons_self]⟩

/-- Every character is a blank or stands in a word. -/
theorem exists_mem_words {c : Char} : ∀ {cs : List Char}, c ∈ cs → isBlank c = false →
    ∃ w ∈ words cs, c ∈ w
  | cs, hc, hb => by
    have hmem : c ∈ trimStart cs := mem_dropWhile_of_not_blank hc hb
    obtain ⟨w, rest, htrim, hw, -, hwords⟩ := exists_of_trimStart_ne_nil (List.ne_nil_of_mem hmem)
    have hshort : rest.length < cs.length := by
      have hlength := congrArg List.length htrim
      have hpos := List.length_pos_iff.mpr hw.1
      have hle := (List.dropWhile_sublist (l := cs) isBlank).length_le
      rw [List.length_append] at hlength
      unfold trimStart at hlength
      omega
    rw [hwords]
    rcases List.mem_append.mp (htrim ▸ hmem) with hfirst | hrest
    · exact ⟨w, List.mem_cons_self, hfirst⟩
    · obtain ⟨v, hv, hcv⟩ := exists_mem_words hrest hb
      exact ⟨v, List.mem_cons_of_mem w hv, hcv⟩
termination_by cs => cs.length

/-! ## Fields spread over a line -/

/-- A line that holds these fields in this order, with any blanks or none before, between and
behind them. -/
inductive Spread : (fields : List (List Char)) → (line : List Char) → Prop
  | nil : Spread [] []
  | blank {fields line} {c : Char} (hc : isBlank c) (h : Spread fields line) :
      Spread fields (c :: line)
  | field {fields line} (w : List Char) (h : Spread fields line) : Spread (w :: fields) (w ++ line)

namespace Spread

variable {fields : List (List Char)} {line : List Char}

theorem flatten (fields : List (List Char)) : Spread fields fields.flatten := by
  induction fields with
  | nil => exact .nil
  | cons w fields ih =>
    rw [List.flatten_cons]
    exact .field w ih

theorem filter_eq (h : Spread fields line) (hf : ∀ w ∈ fields, IsWord w) :
    line.filter (! isBlank ·) = fields.flatten := by
  induction h with
  | nil => rfl
  | blank hc _ ih => simpa [hc] using ih hf
  | field w _ ih =>
    have hw : w.filter (! isBlank ·) = w :=
      List.filter_eq_self.mpr fun c hc => by simp [(hf w List.mem_cons_self).2 c hc]
    rw [List.filter_append, hw, ih fun v hv => hf v (List.mem_cons_of_mem w hv),
      List.flatten_cons]

theorem not_allBlank (h : Spread fields line) (hf : ∀ w ∈ fields, IsWord w)
    (hne : fields ≠ []) : allBlank line = false := by
  obtain ⟨w, ws, rfl⟩ := List.exists_cons_of_ne_nil hne
  obtain ⟨c, cs, rfl⟩ := List.exists_cons_of_ne_nil (hf w List.mem_cons_self).1
  have hfilter := h.filter_eq hf
  rw [allBlank, ← Bool.not_eq_true]
  intro hall
  have hnone : line.filter (! isBlank ·) = [] :=
    List.filter_eq_nil_iff.mpr fun d hd => by simp [List.all_eq_true.mp hall d hd]
  rw [hnone] at hfilter
  cases hfilter

theorem trimStart_eq {w : List Char} (h : Spread (w :: fields) line) (hw : IsWord w) :
    ∃ rest, trimStart line = w ++ rest ∧ Spread fields rest := by
  generalize hall : w :: fields = all at h
  induction h with
  | nil => cases hall
  | blank hc _ ih =>
    rw [trimStart, List.dropWhile_cons_of_pos hc]
    exact ih hall
  | @field _ line v h _ =>
    rw [List.cons.injEq] at hall
    obtain ⟨rfl, rfl⟩ := hall
    exact ⟨line, trimStart_append hw line, h⟩

/-- The words of the line are runs of neighbouring fields. -/
theorem exists_groups (h : Spread fields line) (hf : ∀ w ∈ fields, IsWord w) :
    ∃ groups : List (List (List Char)), groups.flatten = fields ∧ (∀ g ∈ groups, g ≠ []) ∧
      words line = groups.map List.flatten := by
  induction h with
  | nil => exact ⟨[], rfl, by simp, by simp⟩
  | blank hc _ ih => rw [words_cons_blank hc]; exact ih hf
  | @field fields line w _ ih =>
    have hw := hf w List.mem_cons_self
    obtain ⟨groups, hflat, hne, hwords⟩ := ih fun v hv => hf v (List.mem_cons_of_mem w hv)
    by_cases hd : Detached line
    · refine ⟨[w] :: groups, by simp [hflat], by simpa using hne, ?_⟩
      rw [words_append_detached hw hd, hwords]
      simp
    · cases line with
      | nil => exact absurd (fun c hc => by cases hc) hd
      | cons c cs =>
        have hc : isBlank c = false := by simpa [Detached] using hd
        obtain ⟨v, vs, hv, hwv⟩ := words_append_attached hw cs hc
        rw [hwords] at hv
        -- the field joins the group that makes up the first word
        cases groups with
        | nil => cases hv
        | cons g gs =>
          rw [List.map_cons, List.cons.injEq] at hv
          refine ⟨(w :: g) :: gs, by simp [← hflat], ?_, ?_⟩
          · simpa using fun g' hg' => hne g' (List.mem_cons_of_mem g hg')
          · rw [hwv, List.map_cons, List.flatten_cons, hv.1, hv.2]

end Spread

end Breadboard.Text
