import Breadboard.Proofs.Output.OperatingLines
import Breadboard.Proofs.Output.Totality

/-!
# Tables and operating points in one output

An engine prints tables and the lines of an operating point into one output. No line of an operating
point is a header or a row, and no line of a table gives a quantity, so each is read as if the other
were not there, however the lines are mixed.
-/

namespace Breadboard

open Text Numeral

/-! ## Rows hold nothing but numbers -/

namespace Row

variable {c : Char} {cs rest : List Char}

theorem mem_sign (hc : c ∉ ['+', '-', '.', 'e', 'E']) (hm : c ∈ cs) : c ∈ (sign cs).2 := by
  unfold sign
  split
  · exact List.mem_of_ne_of_mem (fun h => hc (by rw [h]; decide)) hm
  · exact List.mem_of_ne_of_mem (fun h => hc (by rw [h]; decide)) hm
  · exact hm

theorem mem_digits (hd : isDecimal c = false) (hm : c ∈ cs) : c ∈ (digits cs).2 := by
  rw [← List.takeWhile_append_dropWhile (p := isDecimal) (l := cs), List.mem_append] at hm
  rcases hm with hrun | hrest
  · rw [List.mem_takeWhile_imp hrun] at hd
    cases hd
  · exact hrest

theorem mem_joinedExponentDigits (hd : isDecimal c = false) {ds : List Char}
    (h : joinedExponentDigits cs = some (ds, rest)) (hm : c ∈ cs) : c ∈ rest := by
  have hdrop : ∀ n ≤ (cs.takeWhile isDecimal).length, c ∈ cs.drop n := by
    intro n hn
    rw [← List.take_append_drop n cs, List.mem_append] at hm
    rcases hm with htake | hdrop
    · have hprefix := List.takeWhile_prefix isDecimal (l := cs)
      have hrun : c ∈ cs.takeWhile isDecimal := by
        rw [List.prefix_iff_eq_take.mp hprefix]
        exact List.take_subset_take_left cs hn htake
      rw [List.mem_takeWhile_imp hrun] at hd
      cases hd
    · exact hdrop
  simp only [joinedExponentDigits] at h
  split at h
  · next hthree =>
    cases h
    exact hdrop 3 hthree.1
  · split at h
    · next htwo =>
      cases h
      exact hdrop 2 htwo.1
    · cases h

theorem mem_joinedExponent (hd : isDecimal c = false) (hc : c ∉ ['+', '-', '.', 'e', 'E'])
    (hm : c ∈ cs) : c ∈ (joinedExponent cs).2 := by
  unfold joinedExponent
  cases cs with
  | nil => exact hm
  | cons m cs =>
    dsimp only
    split
    · next hmark =>
      have hne : c ≠ m := by
        rintro rfl
        simp only [isExponentMark, Bool.or_eq_true, beq_iff_eq] at hmark
        rcases hmark with rfl | rfl <;> exact hc (by decide)
      split
      · exact hm
      · next hdigits =>
        exact mem_joinedExponentDigits hd hdigits (mem_sign hc (List.mem_of_ne_of_mem hne hm))
    · exact hm

theorem mem_joinedValue (hd : isDecimal c = false) (hc : c ∉ ['+', '-', '.', 'e', 'E'])
    {d : Decimal} (h : joinedValue cs = some (d, rest)) (hm : c ∈ cs) : c ∈ rest := by
  have hunsigned := mem_sign hc hm
  simp only [joinedValue] at h
  split at h
  · next whole tail heq =>
    rw [heq] at hunsigned
    have hpoint : c ≠ '.' := fun h => hc (by rw [h]; decide)
    split at h
    · cases h
    · cases h
    · next after _ hwhole hfraction =>
      have hne : c ≠ whole := by
        rintro rfl
        rw [isDecimal, hwhole] at hd
        cases hd
      have htail :=
        mem_digits hd (List.mem_of_ne_of_mem hpoint (List.mem_of_ne_of_mem hne hunsigned))
      rw [hfraction] at htail
      cases h
      exact mem_joinedExponent hd hc htail
  · cases h

theorem not_mem_of_joinedValues (hd : isDecimal c = false) (hc : c ∉ ['+', '-', '.', 'e', 'E'])
    {values : List Float} (h : joinedValues cs = some values) : c ∉ cs := by
  fun_induction joinedValues cs generalizing values with
  | case1 cs hempty =>
    rw [List.isEmpty_iff.mp hempty]
    exact List.not_mem_nil
  | case2 cs hempty hnone => cases h
  | case3 cs hempty d rest hread hfinite ih =>
    obtain ⟨more, hmore, -⟩ := Option.map_eq_some_iff.mp h
    exact fun hm => ih hmore (mem_joinedValue hd hc hread hm)
  | case4 cs hempty d rest hread hinfinite => cases h

/-- A line with a sign that no number holds is no row whose numbers run together. -/
theorem readJoined_ne_some (hd : isDecimal c = false) (hc : c ∉ ['+', '-', '.', 'e', 'E'])
    (hb : isBlank c = false) (hm : c ∈ cs) (row : Row) : readJoined cs ≠ .ok (some row) := by
  intro h
  unfold readJoined at h
  split at h
  · cases h
  · next ds tail hindex =>
    obtain ⟨heq, -, hdigits, -⟩ := joinedIndex_eq_some_iff.mp hindex
    have htail : c ∈ tail := by
      have hmem : c ∈ cs.filter (! isBlank ·) := List.mem_filter.mpr ⟨hm, by simp [hb]⟩
      rcases List.mem_append.mp (heq ▸ hmem) with hds | htail
      · rw [hdigits c hds] at hd
        cases hd
      · exact htail
    split at h
    · cases h
    · split at h
      · cases h
      · next values hvalues => exact not_mem_of_joinedValues hd hc hvalues htail

end Row

/-! ## Operating points are no rows and no headers -/

namespace OperatingPoint.Entry

variable (e : Entry)

theorem readSpaced_text : Row.readSpaced e.text = none := by
  refine Option.eq_none_iff_forall_ne_some.mpr fun row hrow => ?_
  obtain ⟨first, others, n, values, hwords, -, hvalues⟩ := Row.exists_of_readSpaced hrow
  rw [e.words_text] at hwords
  obtain ⟨-, rfl⟩ := List.cons.inj hwords
  have hequals : readFloat ['='] = none := by decide
  rw [List.mapM_cons, hequals] at hvalues
  cases hvalues

/-- A line of an operating point is no row. -/
theorem read_text (h : ∀ run, Row.Indexes e.text run → run.length ≤ maxDigits) :
    Row.read e.text = .ok none := by
  cases hread : Row.read e.text with
  | error err =>
    obtain ⟨-, run, hrun, hlong, -⟩ := Row.read_eq_error_iff.mp hread
    exact absurd (h run hrun) (Nat.not_le.mpr hlong)
  | ok row =>
    cases row with
    | none => rfl
    | some row =>
      unfold Row.read at hread
      rw [e.readSpaced_text] at hread
      split at hread
      · cases hread
      · exact absurd hread
          (Row.readJoined_ne_some (by decide) (by decide) (by decide) e.equals_mem_text row)

theorem sample_text (h : ∀ run, Row.Indexes e.text run → run.length ≤ maxDigits)
    (columns : List Int) : Table.sample columns e.text = .ok none := by
  unfold Table.sample
  rw [e.read_text h]

theorem headerColumns_text : Table.headerColumns e.text = none := by
  have hbracket : ∀ (p : Char) (rest : List Char), isBlank p = false →
      Table.headerColumns (p :: '(' :: rest) = none := by
    intro p rest hp
    have htrim : trimStart (p :: '(' :: rest) = p :: '(' :: rest :=
      List.dropWhile_cons_of_neg (by simp [hp])
    refine Table.headerColumns_of_skipWord ?_ ?_ <;>
      · rw [htrim]
        simp [skipWord, foldsTo]
  cases hf : e.form with
  | voltage =>
    rw [text, subject, hf]
    exact hbracket 'v' _ (by decide)
  | current =>
    rw [text, subject, hf]
    exact hbracket 'i' _ (by decide)
  | branch => exact Table.headerColumns_of_not_mem (e.bracket_not_mem_text hf)

theorem header_text : Table.header e.text = .ok none :=
  Table.header_eq_none e.headerColumns_text

end OperatingPoint.Entry

/-! ## Tables are no operating points -/

namespace Table

variable {columns : List Int} {line : List Char}

theorem readLine_of_heads (hn : ∀ k ∈ columns, IsNode k)
    (h : Heads (columns.map vectorName) line) : OperatingPoint.readLine line = none := by
  have hwords : ∀ w ∈ words line, '=' ∉ w ∧ '#' ∉ w := by
    rw [show words line = _ from h]
    refine List.forall_mem_cons.mpr ⟨by decide, List.forall_mem_cons.mpr ⟨by decide, ?_⟩⟩
    rw [List.map_map, List.forall_mem_map]
    intro k hk
    obtain ⟨n, rfl⟩ := Int.eq_ofNat_of_zero_le (hn k hk).1
    have hdigits : ∀ c, isDecimal c = false → c ∉ Nat.toDigits 10 n := by
      intro c hc hmem
      rw [isDecimal_of_isDigit (Nat.isDigit_of_mem_toDigits (by decide) (by decide) hmem)] at hc
      cases hc
    rw [Function.comp_apply, toList_vectorName]
    simp [hdigits '=' (by decide), hdigits '#' (by decide)]
  have hnot : ∀ c, isBlank c = false → (∀ w ∈ words line, c ∉ w) → c ∉ line := by
    intro c hb hc hmem
    obtain ⟨w, hw, hcw⟩ := exists_mem_words hmem hb
    exact hc w hw hcw
  obtain ⟨rest, htrim, -⟩ := exists_of_words_eq_cons h
  refine OperatingPoint.readLine_eq_none (hnot '=' (by decide) fun w hw => (hwords w hw).1)
    (hnot '#' (by decide) fun w hw => (hwords w hw).2) fun c hc => ?_
  rw [htrim] at hc
  obtain rfl : 'I' = c := Option.some.inj hc
  decide

theorem readLine_of_printsRow {index : Nat} {tokens : List Scientific}
    (h : PrintsRow index tokens line) : OperatingPoint.readLine line = none := by
  obtain ⟨d, hd, hdigit⟩ := exists_head_of_printsRow h
  obtain ⟨ds, hds, hspread⟩ := h
  have hnot : ∀ c, isDecimal c = false → c ∉ ['+', '-', '.', 'e'] → isBlank c = false →
      c ∉ line := by
    intro c hdecimal hother hb hmem
    have hfields : c ∈ (ds :: tokens.map Scientific.text).flatten := by
      rw [← hspread.filter_eq (isWord_fields hds)]
      exact List.mem_filter.mpr ⟨hmem, by simp [hb]⟩
    rw [List.flatten_cons, List.mem_append] at hfields
    rcases hfields with hindex | hvalues
    · rw [hds.digits c hindex] at hdecimal
      cases hdecimal
    · obtain ⟨w, hw, hcw⟩ := List.mem_flatten.mp hvalues
      obtain ⟨t, -, rfl⟩ := List.mem_map.mp hw
      rcases t.isDecimal_or_of_mem_text hcw with htext | htext
      · rw [htext] at hdecimal
        cases hdecimal
      · exact hother htext
  refine OperatingPoint.readLine_eq_none (hnot '=' (by decide) (by decide) (by decide))
    (hnot '#' (by decide) (by decide) (by decide)) fun c hc => ?_
  obtain rfl : d = c := Option.some.inj (hd.symm.trans hc)
  exact foldsTo_of_isDecimal hdigit (by decide)

theorem readLine_of_isRule (h : isRule line) : OperatingPoint.readLine line = none := by
  have hdash : ∀ c ∈ trim line, c = '-' := fun c hc =>
    beq_iff_eq.mp (List.all_eq_true.mp h c hc)
  have hnot : ∀ c, c ≠ '-' → isBlank c = false → c ∉ line :=
    fun c hne hb hmem => hne (hdash c (mem_trim hmem hb))
  refine OperatingPoint.readLine_eq_none (hnot '=' (by decide) (by decide))
    (hnot '#' (by decide) (by decide)) fun c hc => ?_
  rw [hdash c (mem_trim_of_head hc)]
  decide

theorem readLine_of_body {entries : List Entry} {ls : List (List Char)}
    (hn : ∀ k ∈ columns, IsNode k) (h : Body (columns.map vectorName) entries ls) :
    ∀ line ∈ ls, OperatingPoint.readLine line = none := by
  induction h with
  | nil => exact fun _ hl => nomatch hl
  | rule hr _ ih => exact List.forall_mem_cons.mpr ⟨readLine_of_isRule hr, ih⟩
  | header hh _ ih => exact List.forall_mem_cons.mpr ⟨readLine_of_heads hn hh, ih⟩
  | row e hp _ ih => exact List.forall_mem_cons.mpr ⟨readLine_of_printsRow hp, ih⟩

theorem readLine_of_tables {count : Nat} {time : Nat → Scientific} {value : Nat → Int → Scientific}
    {groups : List (List Int)} {ls : List (List Char)} (hn : ∀ k ∈ groups.flatten, IsNode k)
    (h : Tables count time value groups ls) :
    ∀ line ∈ ls, OperatingPoint.readLine line = none := by
  induction h with
  | nil => exact fun _ hl => nomatch hl
  | table hh hb _ ih =>
    rw [List.flatten_cons, List.forall_mem_append] at hn
    exact List.forall_mem_cons.mpr ⟨readLine_of_heads hn.1 hh,
      List.forall_mem_append.mpr ⟨readLine_of_body hn.1 hb, ih hn.2⟩⟩

end Table

/-! ## Two lists of lines in one -/

/-- A list that holds the members of two lists, each in its order. -/
inductive Interleaved {α : Type} : List α → List α → List α → Prop
  | nil : Interleaved [] [] []
  | left {xs ys zs x} (h : Interleaved xs ys zs) : Interleaved (x :: xs) ys (x :: zs)
  | right {xs ys zs y} (h : Interleaved xs ys zs) : Interleaved xs (y :: ys) (y :: zs)

section Interleaved

variable {table others ls : List (List Char)}

/-- Lines that are no headers and no rows leave what is read of a table as it is. -/
theorem Table.Reading.run_of_interleaved (h : Interleaved table others ls)
    (ho : ∀ line ∈ others, header line = .ok none ∧ ∀ columns, sample columns line = .ok none)
    (r : Reading) : ∃ more, r.run ls = (r.run table).map (dropMore more) := by
  induction h generalizing r with
  | nil => exact ⟨0, rfl⟩
  | @left table _ ls line _ ih =>
    rw [run, run]
    cases r.step line with
    | error e => exact ⟨0, rfl⟩
    | ok q => exact ih ho q
  | @right table _ ls line _ ih =>
    obtain ⟨hline, hrest⟩ := List.forall_mem_cons.mp ho
    obtain ⟨dropped, hstep⟩ := step_of_no_sample (r := r) hline.1 fun columns _ => hline.2 columns
    obtain ⟨more, hmore⟩ := ih hrest r
    refine ⟨more + dropped, ?_⟩
    rw [run, hstep]
    dsimp only
    rw [run_dropMore, hmore]
    cases r.run table with
    | error e => rfl
    | ok q =>
      show Except.ok _ = Except.ok _
      simp only [dropMore, Nat.add_assoc]

/-- Lines that give no quantity leave an operating point as it is. -/
theorem OperatingPoint.readLines_of_interleaved (h : Interleaved table others ls)
    (ht : ∀ line ∈ table, readLine line = none) (found : List (String × Float)) :
    readLines found ls = readLines found others := by
  induction h generalizing found with
  | nil => rfl
  | left _ ih =>
    obtain ⟨hline, hrest⟩ := List.forall_mem_cons.mp ht
    rw [readLines_cons_of_none hline, ih hrest]
  | @right _ others ls line _ ih =>
    cases hline : readLine line with
    | none => rw [readLines_cons_of_none hline, readLines_cons_of_none hline, ih ht]
    | some x => rw [readLines_cons_of_some hline, readLines_cons_of_some hline, ih ht]

theorem OperatingPoint.readLines_text (entries : List Entry) (found : List (String × Float)) :
    readLines found (entries.map Entry.text) =
      (entries.map fun e => (e.quantity.name, e.number.value)).foldl
        (fun acc x => Assoc.put x.1 x.2 acc) found := by
  induction entries generalizing found with
  | nil => rfl
  | cons e entries ih =>
    rw [List.map_cons, readLines_cons_of_some e.readLine_text, ih, List.map_cons, List.foldl_cons]

end Interleaved

/-! ## Decoding both -/

namespace Decoded

open OperatingPoint

section Interleaved

variable {out : String} {count : Nat} {time : Nat → Scientific} {value : Nat → Int → Scientific}
  {groups : List (List Int)} {table : List (List Char)} {entries : List Entry}

/-- The series of tables is read whatever lines of an operating point stand among theirs. -/
theorem exists_readWithDropped_of_interleaved (hp : Table.Printable count time value groups)
    (htable : Table.Tables count time value groups table)
    (hshort : ∀ e ∈ entries, ∀ run, Row.Indexes e.text run → run.length ≤ maxDigits)
    (hlines : Interleaved table (entries.map Entry.text) (lines out)) :
    ∃ dropped, Table.readWithDropped out =
      .ok (some (Table.gridSeries count time value groups.flatten), dropped) := by
  have hothers : ∀ line ∈ entries.map Entry.text, Table.header line = .ok none ∧
      ∀ columns, Table.sample columns line = .ok none :=
    List.forall_mem_map.mpr fun e he => ⟨e.header_text, e.sample_text (hshort e he)⟩
  obtain ⟨q, hq, hseries⟩ := Table.exists_run_of_printsTables hp htable.printsTables
  obtain ⟨more, hmore⟩ := Table.Reading.run_of_interleaved hlines hothers ⟨none, [], [], 0⟩
  have hdropped : (q.dropMore more).series.1 =
      some (Table.gridSeries count time value groups.flatten) := by
    rw [Table.Reading.series_dropMore, hseries]
  refine ⟨(q.dropMore more).series.2, ?_⟩
  unfold Table.readWithDropped
  rw [hmore, hq, ← hdropped]
  rfl

theorem read_of_interleaved (hn : ∀ k ∈ groups.flatten, Table.IsNode k)
    (htable : Table.Tables count time value groups table)
    (hlines : Interleaved table (entries.map Entry.text) (lines out)) :
    OperatingPoint.read out =
      Assoc.ofList (entries.map fun e => (e.quantity.name, e.number.value)) := by
  rw [OperatingPoint.read, readLines_of_interleaved hlines (Table.readLine_of_tables hn htable),
    readLines_text]
  rfl

/-- **Tables and operating points do not disturb each other.** Let the lines of an output be those
of printed tables and those of an operating point, mixed in any way, and let no line of the latter
start with an index that is too long to read. With more rows than are required, what is decoded is
the series of the tables and the operating point of the other lines, each as it is read alone: the
series has the printed times and values, and each quantity has the number that is printed last. -/
theorem ofOutput_of_interleaved {minPoints : Int} (hp : Table.Printable count time value groups)
    (htable : Table.Tables count time value groups table)
    (hshort : ∀ e ∈ entries, ∀ run, Row.Indexes e.text run → run.length ≤ maxDigits)
    (hlines : Interleaved table (entries.map Entry.text) (lines out)) (hcount : minPoints < count) :
    ∃ s point values, ofOutput out minPoints = .ok ⟨some (.table, s), point⟩ ∧
      Table.SeriesOf count time value groups.flatten s ∧
      (∀ plain, lines plain = table → Table.read plain = .ok (some s)) ∧
      (entries.map (·.number.text)).mapM readFloat = some values ∧
      point = Assoc.ofList ((entries.map (·.quantity.name)).zip values) ∧
      (∀ name, point.lookup name =
        ((entries.map (·.quantity.name)).zip values).reverse.lookup name) ∧
      ∀ plain, lines plain = entries.map Entry.text → OperatingPoint.read plain = point := by
  obtain ⟨dropped, hread⟩ := exists_readWithDropped_of_interleaved hp htable hshort hlines
  have hpoint := read_of_interleaved hp.nodes htable hlines
  have hsize : minPoints < (Table.gridSeries count time value groups.flatten).size := by
    rwa [Series.size, Table.gridSeries, List.length_map, List.length_range]
  have hzip : (entries.map (·.quantity.name)).zip (entries.map (·.number.value)) =
      entries.map fun e => (e.quantity.name, e.number.value) := List.zip_map'
  refine ⟨_, _, entries.map (·.number.value), Decoded.ofOutput_of_table hread hsize,
    Table.seriesOf_gridSeries _, ?_, ?_, ?_, ?_, ?_⟩
  · intro plain hplain
    rw [Table.read, Table.readWithDropped_of_printsTables hp (hplain ▸ htable.printsTables)]
    rfl
  · rw [mapM_eq_some_iff, List.map_map, List.map_map]
    exact List.map_congr_left fun e _ => e.number.readFloat_text
  · rw [hzip, hpoint]
  · intro name
    rw [hzip, hpoint, Assoc.lookup_ofList]
  · intro plain hplain
    rw [hpoint, OperatingPoint.read, hplain, readLines_text]
    rfl

end Interleaved

/-- A quantity whose name is this letter or digit. -/
def lettered (form : Form) (c : Char) (number : Written)
    (hc : isBlank c = false ∧ c ∉ ['(', ')', '#', '=']) (hf : number.value.isFinite) : Entry where
  form := form
  name := [c]
  number := number
  name_pos := List.cons_ne_nil _ _
  name_word := List.forall_mem_singleton.mpr hc.1
  name_plain := List.forall_mem_singleton.mpr hc.2
  finite := hf

/-- Four quantities, the voltage of node 1 twice. -/
def quantities : List Entry :=
  [lettered .voltage '1' (.oneDigit 2) (by decide) (by decide +kernel),
    lettered .branch 'V' .scaled (by decide) (by decide +kernel),
    lettered .current 'R' .half (by decide) (by decide +kernel),
    lettered .voltage '1' (.oneDigit 3) (by decide) (by decide +kernel)]

/-- Two tables with the quantities before, among and behind their lines. -/
def mixed : List (List Char) :=
  ["v(1) = 2".toList, "Index time v(1)".toList, "---".toList, "V#branch = -4.5E-3".toList,
    Table.firstRow, [], "Index time v(1)".toList, "---".toList,
    "1\t1.00e+00\t5.00e+00".toList, "i(R) = .5".toList, "Index time v(3) v(2)".toList,
    "---".toList, "00.00e+003.00e+002.00e+00".toList, "11.00e+003.00e+002.00e+00".toList,
    "v(1) = 3".toList]

theorem interleaved_mixed :
    Interleaved Table.twoTables (quantities.map Entry.text) mixed := by
  have htexts : quantities.map Entry.text = ["v(1) = 2".toList, "V#branch = -4.5E-3".toList,
      "i(R) = .5".toList, "v(1) = 3".toList] := by
    decide +kernel
  rw [htexts]
  exact .right (.left (.left (.right (.left (.left (.left (.left (.left (.right (.left (.left
    (.left (.left (.right .nil))))))))))))))

theorem ofOutput_of_interleaved_mixed :
    ∃ s point values, ofOutput (unlines mixed) 1 = .ok ⟨some (.table, s), point⟩ ∧
      Table.SeriesOf 2 Table.steps Table.signals [[1], [3, 2]].flatten s ∧
      (∀ plain, lines plain = Table.twoTables → Table.read plain = .ok (some s)) ∧
      (quantities.map (·.number.text)).mapM readFloat = some values ∧
      point = Assoc.ofList ((quantities.map (·.quantity.name)).zip values) ∧
      (∀ name, point.lookup name =
        ((quantities.map (·.quantity.name)).zip values).reverse.lookup name) ∧
      ∀ plain, lines plain = quantities.map Entry.text → OperatingPoint.read plain = point := by
  have hlines : lines (unlines mixed) = mixed := lines_unlines (forall_endsLine (by decide))
  have hlength : ∀ e ∈ quantities, e.text.length ≤ maxDigits := by decide +kernel
  refine ofOutput_of_interleaved Table.printable_twoTables Table.tables_twoTables ?_
    (hlines.symm ▸ interleaved_mixed) (by decide)
  intro e he run hrun
  exact Nat.not_lt.mp fun hlong => not_overlong_of_length (hlength e he) ⟨run, .inl hrun, hlong⟩

/-! ## Names that start with a long number -/

/-- The current of a branch whose name starts with so many digits. -/
def onesEntry (n : Nat) : Entry where
  form := .branch
  name := List.replicate n '1' ++ "2.5".toList
  number := .oneDigit 1
  name_pos := by simp
  name_word := List.forall_mem_append.mpr
    ⟨List.forall_mem_replicate.mpr (.inr (by decide)), List.all_iff_forall_prop.mp (by decide)⟩
  name_plain := List.forall_mem_append.mpr
    ⟨List.forall_mem_replicate.mpr (.inr (by decide)), List.all_iff_forall_prop.mp (by decide)⟩
  finite := by decide +kernel

/-- A table of one row, with this entry right behind the header. -/
def onesMixed (n : Nat) : List (List Char) :=
  ["Index time v(1)".toList, (onesEntry n).text, Table.firstRow]

section Ones

variable {n : Nat} (h : maxDigits < n)

theorem text_onesEntry :
    (onesEntry n).text = List.replicate n '1' ++ "2.5#branch = 1".toList := by
  simp only [onesEntry, Entry.text, Entry.subject, List.append_assoc]
  rfl

theorem lines_onesMixed : lines (unlines (onesMixed n)) = onesMixed n := by
  have htable : ∀ l ∈ ["Index time v(1)".toList, Table.firstRow], ∀ c ∈ l, endsLine c = false :=
    forall_endsLine (by decide)
  have hentry : ∀ c ∈ (onesEntry n).text, endsLine c = false := by
    rw [text_onesEntry]
    exact List.forall_mem_append.mpr
      ⟨List.forall_mem_replicate.mpr (.inr (by decide)), List.all_iff_forall_prop.mp (by decide)⟩
  obtain ⟨hhead, hrow⟩ := List.forall_mem_cons.mp htable
  exact lines_unlines (List.forall_mem_cons.mpr ⟨hhead, List.forall_mem_cons.mpr ⟨hentry, hrow⟩⟩)

include h

/-- The name is taken for an index, so the line is an error instead of no row. -/
theorem read_onesEntry : Row.read (onesEntry n).text = .error ⟨n⟩ := by
  have hdigits : ∀ c ∈ List.replicate n '1', isDecimal c :=
    List.forall_mem_replicate.mpr (.inr (by decide))
  have hindexes : Row.Indexes (onesEntry n).text (List.replicate n '1') := by
    refine ⟨by simp; omega, hdigits, "2.5#branch=1".toList, ?_, by decide⟩
    rw [text_onesEntry, List.filter_append, filter_of_isDecimal hdigits]
    rfl
  exact Row.read_eq_error_iff.mpr ⟨(onesEntry n).readSpaced_text, _, hindexes,
    by rwa [List.length_replicate], by rw [List.length_replicate]⟩

theorem ofOutput_onesMixed (minPoints : Int) :
    ofOutput (unlines (onesMixed n)) minPoints = .error ⟨n⟩ := by
  have hheads : Table.Heads ([1].map Table.vectorName) "Index time v(1)".toList := by
    unfold Table.Heads
    decide +kernel
  have hrule : Table.isRule (onesEntry n).text = false := by
    rw [Table.isRule, List.all_eq_false]
    exact ⟨'=', mem_trim (onesEntry n).equals_mem_text (by decide), by decide⟩
  refine ofOutput_of_run_error ?_ minPoints
  rw [lines_onesMixed]
  exact Table.run_of_read_error (by decide) (by decide) (by decide) hheads
    (onesEntry n).header_text hrule (read_onesEntry h) _

end Ones

theorem ofOutput_long_name :
    ∃ table, Table.Printable 1 Table.steps Table.signals [[1]] ∧
      Table.Tables 1 Table.steps Table.signals [[1]] table ∧
      Interleaved table ([onesEntry 4301].map Entry.text)
        (lines (unlines (onesMixed 4301))) ∧
      ofOutput (unlines (onesMixed 4301)) 0 = .error ⟨4301⟩ := by
  refine ⟨_, Table.printable_firstRow, Table.tables_firstRow, ?_,
    ofOutput_onesMixed (by decide) 0⟩
  rw [lines_onesMixed]
  exact .left (.right (.left .nil))

end Decoded

end Breadboard
