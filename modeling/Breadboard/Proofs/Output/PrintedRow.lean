import Breadboard.Proofs.Lists
import Breadboard.Proofs.Output.Scientific

/-!
# Printed rows

A printed row is an index and numbers in scientific form, with any blanks or none around each. Its
reading is the index and the values, however the fields are set apart: words that hold several
fields hold too many points for one numeral, and then the row is read with its blanks left out.
-/

namespace Breadboard

open Text Numeral

/-- The digits of an index: at least one, and no more than whole numbers are read from. -/
structure WritesIndex (ds : List Char) (index : Nat) : Prop where
  digits : ∀ c ∈ ds, isDecimal c
  pos : ds ≠ []
  short : ds.length ≤ maxDigits
  value : Decimal.ofDigits (ds.filterMap digitValue?) = index

/-- A line that prints a row: its fields are the digits of the index and these numbers. -/
def PrintsRow (index : Nat) (tokens : List Scientific) (line : List Char) : Prop :=
  ∃ ds, WritesIndex ds index ∧ Spread (ds :: tokens.map Scientific.text) line

variable {index : Nat} {ds : List Char} {tokens : List Scientific} {line : List Char}

namespace WritesIndex

theorem isWord (h : WritesIndex ds index) : IsWord ds :=
  ⟨h.pos, fun c hc => (plain_of_isDecimal h.digits c hc).1⟩

theorem readInt_eq (h : WritesIndex ds index) : readInt ds = .ok index := by
  rw [readInt_digits h.digits h.pos h.short, h.value]

theorem natural_eq (h : WritesIndex ds index) :
    natural (ds.filterMap digitValue?) = .ok index := by
  rw [natural_ok (by rw [length_filterMap_digitValue? h.digits]; exact h.short), h.value]

end WritesIndex

theorem isWord_fields (h : WritesIndex ds index) :
    ∀ w ∈ ds :: tokens.map Scientific.text, IsWord w := by
  intro w hw
  rcases List.mem_cons.mp hw with rfl | hw
  · exact h.isWord
  · obtain ⟨t, -, rfl⟩ := List.mem_map.mp hw
    exact t.isWord_text

/-! ## Rows whose numbers run together -/

namespace Row

/-- A number starts with a digit before a point, or with a sign. -/
theorem startsValue_cases {cs : List Char} (h : startsValue (sign cs).2) :
    (∃ d more, cs = d :: '.' :: more ∧ isDecimal d) ∨ (startsSigned cs ∧ EndsDigits cs) := by
  cases cs with
  | nil => cases h
  | cons c cs =>
    by_cases hc : c = '-' ∨ c = '+'
    · right
      rcases hc with rfl | rfl
      · exact ⟨rfl, endsDigits_cons.mpr (by decide)⟩
      · exact ⟨rfl, endsDigits_cons.mpr (by decide)⟩
    · left
      rw [not_or] at hc
      have hsign : sign (c :: cs) = (false, c :: cs) := by simp [sign, hc.1, hc.2]
      rw [hsign] at h
      unfold startsValue at h
      split at h
      · next d more heq => exact ⟨d, more, heq, h⟩
      · cases h

/-- The index is the run of digits that stands before a number. -/
theorem joinedIndex_eq_some_iff {cs rest : List Char} :
    joinedIndex cs = some (ds, rest) ↔
      cs = ds ++ rest ∧ ds ≠ [] ∧ (∀ c ∈ ds, isDecimal c) ∧ startsValue (sign rest).2 := by
  constructor
  · intro h
    have hsplit := List.takeWhile_append_dropWhile (p := isDecimal) (l := cs)
    have hrun : ∀ c ∈ cs.takeWhile isDecimal, isDecimal c := List.all_eq_true.mp List.all_takeWhile
    unfold joinedIndex at h
    simp only at h
    split at h
    · cases h
    · next hne =>
      split at h
      · next hstarts =>
        cases h
        rw [Bool.and_eq_true] at hstarts
        exact ⟨hsplit.symm, by simpa using hne, hrun, hstarts.2⟩
      · split at h
        · next more d heq hlast =>
          split at h
          · cases h
          · next hlen =>
            cases h
            -- the digit before the point was read with the index and is given back
            have hback := List.dropLast_append_getLast? d hlast
            refine ⟨?_, ?_, fun c hc => hrun c ((List.dropLast_sublist _).subset hc), ?_⟩
            · rw [← List.singleton_append, ← List.append_assoc, hback, hsplit]
            · rw [← List.length_pos_iff, List.length_dropLast]
              omega
            · have hd : isDecimal d := hrun d (List.mem_of_getLast? hlast)
              rw [heq, sign_of_isDecimal hd]
              exact hd
        · cases h
  · rintro ⟨rfl, hpos, hdigits, hstarts⟩
    have hds : ds.isEmpty = false := by simp [hpos]
    unfold joinedIndex
    rcases startsValue_cases hstarts with ⟨d, more, rfl, hd⟩ | ⟨hsigned, hends⟩
    · have hall : ∀ c ∈ ds ++ [d], isDecimal c := by
        intro c hc
        rcases List.mem_append.mp hc with hc | hc
        · exact hdigits c hc
        · rwa [List.mem_singleton.mp hc]
      have hends : EndsDigits ('.' :: more) := endsDigits_cons.mpr (by decide)
      have hsplit : ds ++ d :: '.' :: more = (ds ++ [d]) ++ '.' :: more := by simp
      have hlen : ¬ (ds ++ [d]).length < 2 := by
        have := List.length_pos_iff.mpr hpos
        rw [List.length_append, List.length_singleton]
        omega
      simp only [hsplit, takeWhile_append hall hends, dropWhile_append hall hends]
      rw [if_neg (by simp), if_neg (by simp [startsSigned]), List.getLast?_concat,
        List.dropLast_concat]
      simp only [if_neg hlen]
    · simp only [takeWhile_append hdigits hends, dropWhile_append hdigits hends, hds, hsigned,
        hstarts]
      rfl

theorem joinedIndex_append (h : WritesIndex ds index) (t : Scientific) (more : List Char) :
    joinedIndex (ds ++ (t.text ++ more)) = some (ds, t.text ++ more) := by
  refine joinedIndex_eq_some_iff.mpr ⟨rfl, h.pos, h.digits, ?_⟩
  rw [t.sign_text]
  exact t.whole_digit

theorem joinedValues_flatten (hfin : ∀ t ∈ tokens, t.value.isFinite) :
    joinedValues (tokens.map Scientific.text).flatten = some (tokens.map Scientific.value) := by
  induction tokens with
  | nil =>
    rw [joinedValues]
    rfl
  | cons t ts ih =>
    have hne : ((t :: ts).map Scientific.text).flatten.isEmpty ≠ true := by
      simp [t.isWord_text.1]
    have ht : t.decimal.toFloat.isFinite := hfin t List.mem_cons_self
    have hvalue := t.joinedValue_append (Scientific.continues_flatten ts)
    rw [← List.flatten_cons, ← List.map_cons] at hvalue
    rw [joinedValues, if_neg hne]
    split
    · next heq => rw [hvalue] at heq; cases heq
    · next d rest heq =>
      rw [hvalue] at heq
      cases heq
      rw [if_pos ht, ih fun u hu => hfin u (List.mem_cons_of_mem t hu)]
      rfl

theorem readJoined_of_spread (h : WritesIndex ds index)
    (hs : Spread (ds :: tokens.map Scientific.text) line) (hne : tokens ≠ [])
    (hfin : ∀ t ∈ tokens, t.value.isFinite) :
    readJoined line = .ok (some ⟨index, tokens.map Scientific.value⟩) := by
  obtain ⟨t, ts, rfl⟩ := List.exists_cons_of_ne_nil hne
  have hvalues := joinedValues_flatten hfin
  unfold readJoined
  rw [hs.filter_eq (isWord_fields h), List.flatten_cons]
  rw [List.map_cons, List.flatten_cons] at hvalues ⊢
  simp only [joinedIndex_append h, h.natural_eq, hvalues]

/-! ## Rows whose numbers stand apart -/

/-- Groups of numbers that hold no more than one point each are the single numbers. -/
theorem groups_eq_singletons {groups : List (List (List Char))} (hne : ∀ g ∈ groups, g ≠ [])
    (hflat : groups.flatten = tokens.map Scientific.text)
    (hcount : ∀ g ∈ groups, g.flatten.count '.' ≤ 1) :
    groups.map List.flatten = tokens.map Scientific.text := by
  induction groups generalizing tokens with
  | nil => exact hflat
  | cons g gs ih =>
    obtain ⟨w, more, rfl⟩ := List.exists_cons_of_ne_nil (hne g List.mem_cons_self)
    cases tokens with
    | nil => cases hflat
    | cons t ts =>
      rw [List.flatten_cons, List.map_cons, List.cons_append, List.cons.injEq] at hflat
      obtain ⟨rfl, hrest⟩ := hflat
      have hone := hcount _ List.mem_cons_self
      rw [List.flatten_cons, List.count_append, t.count_text] at hone
      cases more with
      | cons v vs =>
        -- a second number in the group brings a second point
        cases ts with
        | nil => cases hrest
        | cons u us =>
          rw [List.cons_append, List.map_cons, List.cons.injEq] at hrest
          rw [hrest.1, List.flatten_cons, List.count_append, u.count_text] at hone
          omega
      | nil =>
        rw [List.map_cons, List.map_cons, ih (fun g hg => hne g (List.mem_cons_of_mem _ hg))
          hrest fun g hg => hcount g (List.mem_cons_of_mem _ hg)]
        simp

/-- All words of a row that is read word by word are numerals. -/
theorem exists_of_readSpaced {row : Row} (h : readSpaced line = some row) :
    ∃ first others n values, words line = first :: others ∧ readInt first = .ok n ∧
      others.mapM readFloat = some values := by
  unfold readSpaced at h
  split at h
  · next first value rest heq =>
    split at h
    · next n values hn hvalues => exact ⟨first, value :: rest, n, values, heq, hn, hvalues⟩
    · cases h
  · cases h

theorem plain_fields (h : WritesIndex ds index) :
    ∀ w ∈ ds :: tokens.map Scientific.text, Plain w := by
  intro w hw
  rcases List.mem_cons.mp hw with rfl | hw
  · exact plain_of_isDecimal h.digits
  · obtain ⟨t, -, rfl⟩ := List.mem_map.mp hw
    exact t.plain_text

theorem words_eq_of_readSpaced (h : WritesIndex ds index)
    (hs : Spread (ds :: tokens.map Scientific.text) line) {row : Row}
    (hrow : readSpaced line = some row) : words line = ds :: tokens.map Scientific.text := by
  obtain ⟨groups, hflat, hne, hwords⟩ := hs.exists_groups (isWord_fields h)
  obtain ⟨first, others, n, values, hsplit, hindex, hvalues⟩ := exists_of_readSpaced hrow
  have hplain : ∀ g ∈ groups, Plain g.flatten := by
    intro g hg c hc
    obtain ⟨w, hw, hcw⟩ := List.mem_flatten.mp hc
    exact plain_fields h w (hflat ▸ List.mem_flatten.mpr ⟨g, hg, hw⟩) c hcw
  cases groups with
  | nil => cases hflat
  | cons g gs =>
    rw [hwords, List.map_cons, List.cons.injEq] at hsplit
    obtain ⟨rfl, rfl⟩ := hsplit
    obtain ⟨w, more, rfl⟩ := List.exists_cons_of_ne_nil (hne g List.mem_cons_self)
    rw [List.flatten_cons, List.cons_append, List.cons.injEq] at hflat
    obtain ⟨rfl, hrest⟩ := hflat
    have hnone := count_of_readInt (hplain _ List.mem_cons_self) hindex
    rw [List.flatten_cons, List.count_append] at hnone
    have hsingle : more = [] := by
      cases more with
      | nil => rfl
      | cons v vs =>
        -- the first word would hold the point of a number
        cases tokens with
        | nil => cases hrest
        | cons t ts =>
          rw [List.cons_append, List.map_cons, List.cons.injEq] at hrest
          rw [hrest.1, List.flatten_cons, List.count_append, t.count_text] at hnone
          omega
    rw [hsingle, List.nil_append] at hrest
    have hone : ∀ g ∈ gs, g.flatten.count '.' ≤ 1 := by
      intro g hg
      have hread : readFloat g.flatten ∈ (gs.map List.flatten).map readFloat :=
        List.mem_map_of_mem (List.mem_map_of_mem hg)
      rw [mapM_eq_some_iff.mp hvalues] at hread
      obtain ⟨f, -, hf⟩ := List.mem_map.mp hread
      exact count_of_readFloat (hplain g (List.mem_cons_of_mem _ hg)) hf.symm
    rw [hwords, List.map_cons, hsingle,
      groups_eq_singletons (fun g hg => hne g (List.mem_cons_of_mem _ hg)) hrest hone]
    simp

theorem mapM_readFloat_text (tokens : List Scientific) :
    (tokens.map Scientific.text).mapM readFloat = some (tokens.map Scientific.value) := by
  rw [mapM_eq_some_iff, List.map_map, List.map_map]
  exact List.map_congr_left fun t _ => t.readFloat_text

theorem readSpaced_eq (h : WritesIndex ds index)
    (hs : Spread (ds :: tokens.map Scientific.text) line) {row : Row}
    (hrow : readSpaced line = some row) : row = ⟨index, tokens.map Scientific.value⟩ := by
  have hwords := words_eq_of_readSpaced h hs hrow
  have hvalues := mapM_readFloat_text tokens
  unfold readSpaced at hrow
  rw [hwords] at hrow
  cases tokens with
  | nil => cases hrow
  | cons t ts =>
    rw [List.map_cons] at hvalues hrow
    simp only [h.readInt_eq, hvalues, Option.some.injEq] at hrow
    exact hrow.symm

/-- A printed row is read as its index and its values, however its fields are set apart. -/
theorem read_of_printsRow (h : PrintsRow index tokens line) (hne : tokens ≠ [])
    (hfin : ∀ t ∈ tokens, t.value.isFinite) :
    read line = .ok (some ⟨index, tokens.map Scientific.value⟩) := by
  obtain ⟨ds, hds, hs⟩ := h
  have hfinite : (tokens.map Scientific.value).all Float.isFinite := by
    rw [List.all_map, List.all_eq_true]
    exact hfin
  unfold read
  rw [hs.not_allBlank (isWord_fields hds) (List.cons_ne_nil _ _), if_neg Bool.false_ne_true]
  cases hrow : readSpaced line with
  | some row =>
    rw [readSpaced_eq hds hs hrow]
    simp only [hfinite, if_true]
  | none => exact readJoined_of_spread hds hs hne hfin

theorem writesIndex_of_digits (hd : ∀ c ∈ ds, isDecimal c) (hpos : ds ≠ [])
    (hshort : ds.length ≤ maxDigits) :
    WritesIndex ds (Decimal.ofDigits (ds.filterMap digitValue?)) :=
  ⟨hd, hpos, hshort, rfl⟩

/-- **Delimiters do not matter.** Let the digits of an index and numbers in scientific form stand on
a line, with any blanks or none before, between and behind them. The row of the line is the index
and the numbers, each read by itself, and so is the row of the same fields run together. -/
theorem read_of_spread (hd : ∀ c ∈ ds, isDecimal c) (hpos : ds ≠ [])
    (hshort : ds.length ≤ maxDigits) (hne : tokens ≠ []) (hfin : ∀ t ∈ tokens, t.value.isFinite)
    (hs : Spread (ds :: tokens.map Scientific.text) line) :
    ∃ n values, readInt ds = .ok n ∧ (tokens.map Scientific.text).mapM readFloat = some values ∧
      read line = .ok (some ⟨n, values⟩) ∧
      readJoined (ds ++ (tokens.map Scientific.text).flatten) = .ok (some ⟨n, values⟩) := by
  have hds := writesIndex_of_digits hd hpos hshort
  have hjoined : Spread (ds :: tokens.map Scientific.text)
      (ds ++ (tokens.map Scientific.text).flatten) := by
    have h := Spread.flatten (ds :: tokens.map Scientific.text)
    rwa [List.flatten_cons] at h
  refine ⟨_, _, hds.readInt_eq, mapM_readFloat_text tokens, ?_, ?_⟩
  · exact read_of_printsRow ⟨ds, hds, hs⟩ hne hfin
  · exact readJoined_of_spread hds hjoined hne hfin

/-- An exponent of three digits, then a number with a sign. -/
def neighbours : List Scientific :=
  [⟨none, '3', "50".toList, .plus, "100".toList, by decide, List.all_eq_true.mp (by decide),
      by decide, List.all_eq_true.mp (by decide), by decide⟩,
    ⟨some .minus, '8', "25".toList, .minus, "02".toList, by decide, List.all_eq_true.mp (by decide),
      by decide, List.all_eq_true.mp (by decide), by decide⟩]

theorem read_of_spread_partly :
    ∃ n values, readInt "0012".toList = .ok n ∧
      (neighbours.map Scientific.text).mapM readFloat = some values ∧
      read " 0012\t3.50e+100-8.25e-02 ".toList = .ok (some ⟨n, values⟩) ∧
      readJoined ("0012".toList ++ (neighbours.map Scientific.text).flatten) =
        .ok (some ⟨n, values⟩) := by
  refine read_of_spread (List.all_eq_true.mp (by decide)) (by decide) (by decide) (by decide)
    (by decide +kernel) ?_
  exact .blank (by decide) (.field "0012".toList (.blank (by decide)
    (.field "3.50e+100".toList (.field "-8.25e-02".toList (.blank (by decide) .nil)))))

end Row

end Breadboard
