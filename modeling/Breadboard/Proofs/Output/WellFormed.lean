import Breadboard.Proofs.Output.Totality

/-!
# What is decoded is well formed

Rows are left out at several places: where numbers are missing or not finite, where tables do not
fit together, and where time runs back. What is left has a finite value for every node at every
time, whatever the output was, and it is what the first strategy with enough points found.
-/

namespace Breadboard

open Text Numeral

/-! ## Series -/

/-- A series whose times are finite and never run back, and whose vectors have as many values as
there are times, all of them finite. -/
structure Series.WellFormed (s : Series) : Prop where
  ordered : s.time.IsChain (· ≤ ·)
  times : ∀ t ∈ s.time, t.isFinite
  sizes : ∀ v ∈ s.voltages, v.2.length = s.size
  values : ∀ v ∈ s.voltages, ∀ x ∈ v.2, x.isFinite
  currents : s.currents = []

theorem Series.isChain_of_runsBack {time : List Float} (h : runsBack time = false)
    (hf : ∀ t ∈ time, t.isFinite) : time.IsChain (· ≤ ·) := by
  induction time with
  | nil => exact .nil
  | cons t rest ih =>
    obtain ⟨ht, hrest⟩ := List.forall_mem_cons.mp hf
    cases rest with
    | nil => exact .singleton t
    | cons u rest =>
      unfold runsBack at h
      obtain ⟨hforward, hbehind⟩ := Bool.or_eq_false_iff.mp h
      have hle : t ≤ u :=
        le_of_not_float_lt ht (hrest u List.mem_cons_self) (of_decide_eq_false hforward)
      exact .cons_cons hle (ih hbehind hrest)

/-- A series that passes the checks is well formed if it holds only finite numbers. -/
theorem Series.IsValid.wellFormed {s : Series} (h : s.IsValid) (ht : ∀ t ∈ s.time, t.isFinite)
    (hv : ∀ v ∈ s.voltages, ∀ x ∈ v.2, x.isFinite) (hc : s.currents = []) : s.WellFormed := by
  obtain ⟨hsizes, -, hback⟩ := Series.isValid_iff.mp h
  exact ⟨Series.isChain_of_runsBack hback ht, ht, hsizes, hv, hc⟩

/-! ## Rows -/

namespace Row

theorem finite_of_joinedValues {cs : List Char} {values : List Float}
    (h : joinedValues cs = some values) : ∀ x ∈ values, x.isFinite := by
  fun_induction joinedValues cs generalizing values with
  | case1 cs hempty =>
    cases h
    exact fun _ hx => nomatch hx
  | case2 cs hempty hnone => cases h
  | case3 cs hempty d rest hread hfinite ih =>
    obtain ⟨more, hmore, rfl⟩ := Option.map_eq_some_iff.mp h
    exact List.forall_mem_cons.mpr ⟨hfinite, ih hmore⟩
  | case4 cs hempty d rest hread hinfinite => cases h

theorem finite_of_readJoined {line : List Char} {row : Row} (h : readJoined line = .ok (some row)) :
    ∀ x ∈ row.values, x.isFinite := by
  unfold readJoined at h
  split at h
  · cases h
  · split at h
    · cases h
    · split at h
      · cases h
      · next values hvalues =>
        cases h
        exact finite_of_joinedValues hvalues

/-- A row holds finite values, whichever way it was read. -/
theorem finite_of_read {line : List Char} {row : Row} (h : read line = .ok (some row)) :
    ∀ x ∈ row.values, x.isFinite := by
  unfold read at h
  split at h
  · cases h
  · split at h
    · split at h
      · next hfinite =>
        cases h
        exact List.all_eq_true.mp hfinite
      · cases h
    · exact finite_of_readJoined h

end Row

/-! ## Tables -/

namespace Table

/-- A row of a table whose time and values are finite. -/
structure Sample.Finite (s : Sample) : Prop where
  time : s.time.isFinite
  values : ∀ v ∈ s.values, v.2.isFinite

theorem Sample.Finite.join {s t : Sample} (hs : s.Finite) (ht : t.Finite) : (s.join t).Finite where
  time := hs.time
  values v hv := (Assoc.mem_foldl_put hv).elim (hs.values v) (ht.values v)

theorem finite_of_sample {columns : List Int} {line : List Char} {s : Sample}
    (h : sample columns line = .ok (some s)) : s.Finite := by
  unfold sample at h
  split at h
  · cases h
  · cases h
  · next row hrow =>
    have hfinite := Row.finite_of_read hrow
    split at h
    · cases h
    · next time values hvalues =>
      rw [hvalues] at hfinite
      obtain ⟨htime, hrest⟩ := List.forall_mem_cons.mp hfinite
      split at h
      · cases h
        refine ⟨htime, fun v hv => ?_⟩
        rcases Assoc.mem_foldl_put hv with hnil | hzip
        · cases hnil
        · exact hrest v.2 (List.of_mem_zip hzip).2
      · cases h

theorem Reading.finite_rows {r : Reading} {ls : List (List Char)}
    (h : Reading.start.run ls = .ok r) : ∀ s ∈ r.rows, s.Finite := by
  refine Reading.forall_rows (fun _ _ => Sample.Finite.join) fun s hs => ?_
  rcases Reading.mem_samples_of_run h hs with hstart | ⟨line, -, columns, hsample⟩
  · cases hstart
  · exact finite_of_sample hsample

theorem wellFormed_of_series {r : Reading} {ls : List (List Char)}
    (h : Reading.start.run ls = .ok r) {s : Series} (hs : r.series.1 = some s) : s.WellFormed := by
  have hvalid := (Reading.sound_start.run h).series hs
  have hfinite : ∀ row ∈ keepRows r.nodes.length none r.rows, row.Finite :=
    fun row hrow => Reading.finite_rows h row (mem_keepRows hrow).1
  rw [Reading.fst_series] at hs
  split at hs
  · cases hs
  · cases hs
    refine hvalid.wellFormed ?_ ?_ rfl
    · intro t ht
      obtain ⟨row, hrow, rfl⟩ := List.mem_map.mp ht
      exact (hfinite row hrow).time
    · intro v hv x hx
      obtain ⟨k, -, rfl⟩ := List.mem_map.mp hv
      obtain ⟨row, hrow, hlookup⟩ := List.mem_filterMap.mp hx
      exact (hfinite row hrow).values (k, x) (Assoc.mem_of_lookup hlookup)

theorem wellFormed_of_readWithDropped {out : String} {s : Series} {dropped : Nat}
    (h : readWithDropped out = .ok (some s, dropped)) : s.WellFormed := by
  unfold readWithDropped at h
  rw [show (⟨none, [], [], 0⟩ : Reading) = .start from rfl] at h
  cases hrun : Reading.start.run (lines out) with
  | error e =>
    rw [hrun] at h
    cases h
  | ok r =>
    rw [hrun] at h
    have hseries : r.series = (some s, dropped) := Except.ok.inj h
    exact wellFormed_of_series hrun (congrArg Prod.fst hseries)

end Table

/-! ## Raw files -/

namespace RawFile

theorem finite_of_mem_readRows {width : Nat} {pending : Option (List (List Char))}
    {ls : List (List Char)} {rows : List (List Float)} (h : readRows width pending ls = .ok rows) :
    ∀ row ∈ rows, ∀ x ∈ row, x.isFinite := by
  induction ls generalizing pending rows with
  | nil =>
    cases h
    exact fun _ hrow => nomatch hrow
  | cons line ls ih =>
    unfold readRows at h
    split at h
    · next tokens next _ =>
      split at h
      · cases h
      · next hrest =>
        cases h
        intro row hrow x hx
        rcases List.mem_append.mp hrow with hrow | hrow
        · obtain ⟨token, -, hread⟩ := (mem_iff_of_mapM_eq_some (Option.mem_toList.mp hrow)).mp hx
          exact (Option.filter_eq_some_iff.mp hread).2
        · exact ih hrest row hrow x hx
    · exact ih h
    · split at h
      · cases h
      · next found hfound =>
        split at h
        · cases h
        · next hrest =>
          cases h
          intro row hrow x hx
          rcases List.mem_append.mp hrow with hrow | hrow
          · have hmem := (Option.filter_eq_some_iff.mp (Option.mem_toList.mp hrow)).1
            obtain ⟨joined, rfl, rfl⟩ := Option.map_eq_some_iff.mp hmem
            exact Row.finite_of_readJoined hfound x hx
          · exact ih hrest row hrow x hx

theorem mem_of_mem_keepRows {column : Nat} {last : Option Float} {rows : List (List Float)}
    {row : List Float} (h : row ∈ keepRows column last rows) : row ∈ rows := by
  induction rows generalizing last with
  | nil => cases h
  | cons first rows ih =>
    unfold keepRows at h
    dsimp only at h
    split at h
    · exact List.mem_cons_of_mem first (ih h)
    · rcases List.mem_cons.mp h with rfl | h
      · exact List.mem_cons_self
      · exact List.mem_cons_of_mem first (ih h)

/-- A section with a series has a time, and the series is read off the rows that are kept. -/
theorem Section.exists_of_read {s : Section} {series : Series}
    (h : s.read = .ok (some series)) :
    ∃ time columns rows, s.names.findIdx? (· == "time".toList) = some time ∧
      nodeColumns 0 [] s.names = .ok columns ∧
      readRows s.names.length none s.values = .ok rows ∧
      series = ⟨(keepRows time none rows).map (·.getD time 0.0),
        columns.map fun c => (c.1, (keepRows time none rows).map (·.getD c.2 0.0)), []⟩ := by
  unfold Section.read at h
  split at h
  · cases h
  · next time htime =>
    split at h
    · cases h
    · next columns hcolumns =>
      split at h
      · cases h
      · next rows hrows =>
        dsimp only at h
        split at h
        · cases h
        · cases h
          exact ⟨time, columns, rows, htime, hcolumns, hrows, rfl⟩

theorem Section.wellFormed_of_read {s : Section} {series : Series}
    (h : s.read = .ok (some series)) : series.WellFormed := by
  obtain ⟨time, columns, rows, htime, hcolumns, hrows, rfl⟩ := Section.exists_of_read h
  have hcomplete := s.complete time columns rows htime hcolumns hrows
  have hcell : ∀ row ∈ keepRows time none rows, ∀ c < row.length, (row.getD c 0.0).isFinite := by
    intro row hrow c hc
    rw [List.getD_eq_getElem?_getD, List.getElem?_eq_getElem hc]
    exact finite_of_mem_readRows hrows row (mem_of_mem_keepRows hrow) _ (List.getElem_mem hc)
  have hvalid : Series.IsValid ⟨(keepRows time none rows).map (·.getD time 0.0),
      columns.map fun c => (c.1, (keepRows time none rows).map (·.getD c.2 0.0)), []⟩ := by
    refine Series.isValid_of_voltages ?_ (runsBack_keepRows time none rows)
    intro v hv
    obtain ⟨c, -, rfl⟩ := List.mem_map.mp hv
    rw [List.length_map, List.length_map]
  refine hvalid.wellFormed ?_ ?_ rfl
  · intro t ht
    obtain ⟨row, hrow, rfl⟩ := List.mem_map.mp ht
    exact hcell row hrow time (hcomplete row (mem_of_mem_keepRows hrow)).1
  · intro v hv x hx
    obtain ⟨c, hc, rfl⟩ := List.mem_map.mp hv
    obtain ⟨row, hrow, rfl⟩ := List.mem_map.mp hx
    exact hcell row hrow c.2 ((hcomplete row (mem_of_mem_keepRows hrow)).2 c hc)

theorem wellFormed_of_readSections {found : List Section} {series : Series}
    (h : readSections found = .ok (some series)) : series.WellFormed := by
  induction found with
  | nil => cases h
  | cons s found ih =>
    unfold readSections at h
    split at h
    · cases h
    · next hread =>
      cases h
      exact s.wellFormed_of_read hread
    · exact ih h

end RawFile

/-! ## Strategies -/

/-- A strategy that finds no series, or one with no more points than these. -/
def Strategy.FallsShort (s : Strategy) (out : String) (minPoints : Int) : Prop :=
  ∃ found dropped, s.read out = .ok (found, dropped) ∧ ∀ x ∈ found, (x.size : Int) ≤ minPoints

theorem Strategy.wellFormed_of_read {s : Strategy} {out : String} {series : Series} {dropped : Nat}
    (h : s.read out = .ok (some series, dropped)) : series.WellFormed := by
  cases s with
  | table => exact Table.wellFormed_of_readWithDropped h
  | rawFile =>
    unfold Strategy.read at h
    cases hread : RawFile.read out with
    | error e =>
      rw [hread] at h
      cases h
    | ok found =>
      rw [hread] at h
      cases h
      exact RawFile.wellFormed_of_readSections hread

namespace Decoded

/-- The result of the first of these strategies that finds more points than these; none, if all of
them fall short. -/
def FirstOf (out : String) (minPoints : Int) (strategies : List Strategy) :
    Option (Strategy × Series) → Prop
  | none => ∀ s ∈ strategies, s.FallsShort out minPoints
  | some (s, series) => ∃ before after dropped, strategies = before ++ s :: after ∧
      (∀ t ∈ before, t.FallsShort out minPoints) ∧
      s.read out = .ok (some series, dropped) ∧ minPoints < series.size

theorem FirstOf.cons {out : String} {minPoints : Int} {s : Strategy} {strategies : List Strategy}
    {found : Option (Strategy × Series)} (h : FirstOf out minPoints strategies found)
    (hs : s.FallsShort out minPoints) : FirstOf out minPoints (s :: strategies) found := by
  cases found with
  | none => exact List.forall_mem_cons.mpr ⟨hs, h⟩
  | some found =>
    obtain ⟨before, after, dropped, rfl, hbefore, hread, hsize⟩ := h
    exact ⟨s :: before, after, dropped, rfl, List.forall_mem_cons.mpr ⟨hs, hbefore⟩, hread, hsize⟩

/-- The search ends at the first strategy that does not fall short. -/
theorem firstOf_of_search {out : String} {minPoints : Int} {strategies : List Strategy}
    {found : Option (Strategy × Series)} (h : (search out minPoints strategies).2 = .ok found) :
    FirstOf out minPoints strategies found := by
  induction strategies with
  | nil =>
    cases h
    exact fun _ hs => nomatch hs
  | cons s rest ih =>
    unfold search at h
    split at h
    · cases h
    · next candidate dropped hread =>
      dsimp only at h
      split at h
      · next series hfilter =>
        cases h
        obtain ⟨rfl, hsize⟩ := Option.filter_eq_some_iff.mp hfilter
        refine ⟨[], rest, dropped, rfl, ?_, hread, of_decide_eq_true hsize⟩
        rintro t ⟨⟩
      · next hfilter =>
        refine (ih h).cons ⟨candidate, dropped, hread, fun x hx => ?_⟩
        have hsmall := Option.filter_eq_none_iff.mp hfilter x hx
        simpa using hsmall

end Decoded

/-! ## Operating points -/

namespace OperatingPoint

theorem finite_of_readLine {line : List Char} {q : Quantity} {v : Float}
    (h : readLine line = some (q, v)) : v.isFinite := by
  have hfound : (readings line).find? (fun r => r.2.isFinite) = some (q, v) := h
  simpa using List.find?_some hfound

theorem finite_of_readLines {found : List (String × Float)} {ls : List (List Char)}
    (h : ∀ e ∈ found, e.2.isFinite) : ∀ e ∈ readLines found ls, e.2.isFinite := by
  induction ls generalizing found with
  | nil => exact h
  | cons line ls ih =>
    cases hread : readLine line with
    | none =>
      rw [readLines_cons_of_none hread]
      exact ih h
    | some q =>
      obtain ⟨q, v⟩ := q
      rw [readLines_cons_of_some hread]
      refine ih fun e he => ?_
      rcases Assoc.mem_put he with rfl | he
      · exact finite_of_readLine hread
      · exact h e he

end OperatingPoint

/-! ## Decoding -/

namespace Decoded

theorem parts_of_ofOutput {out : String} {minPoints : Int} {d : Decoded}
    (h : ofOutput out minPoints = .ok d) :
    (search out minPoints Strategy.all).2 = .ok d.transient ∧
      d.operatingPoint = OperatingPoint.read out := by
  unfold ofOutput at h
  split at h
  · cases h
  · next hsearch =>
    cases h
    exact ⟨hsearch, rfl⟩

/-- **What is decoded is well formed.** Of any output that is read, the series is well formed, has
more points than required, and is what the first strategy with so many points found; without a
series, no strategy found so many. The operating point holds finite values only and does not depend
on how many points are required. -/
theorem wellFormed_of_ofOutput {out : String} {minPoints : Int} {d : Decoded}
    (h : ofOutput out minPoints = .ok d) :
    FirstOf out minPoints Strategy.all d.transient ∧ (∀ s ∈ d.series, s.WellFormed) ∧
      (∀ e ∈ d.operatingPoint, e.2.isFinite) ∧
      ∀ other d', ofOutput out other = .ok d' → d'.operatingPoint = d.operatingPoint := by
  obtain ⟨hsearch, hpoint⟩ := parts_of_ofOutput h
  have hfirst := firstOf_of_search hsearch
  refine ⟨hfirst, ?_, ?_, ?_⟩
  · intro s hs
    obtain ⟨⟨strategy, series⟩, htransient, rfl⟩ := Option.map_eq_some_iff.mp hs
    rw [htransient] at hfirst
    obtain ⟨-, -, dropped, -, -, hfound, -⟩ := hfirst
    exact strategy.wellFormed_of_read hfound
  · rw [hpoint]
    exact OperatingPoint.finite_of_readLines fun _ he => nomatch he
  · intro other d' hd'
    rw [hpoint]
    exact (parts_of_ofOutput hd').2

/-- A table of one row behind a line that gives a voltage. -/
def measured : List (List Char) :=
  ["v(1) = 2.5".toList, "Index time v(1)".toList, "0\t0.00e+00\t4.00e+00".toList]

theorem wellFormed_of_ofOutput_measured :
    ∃ d, ofOutput (unlines measured) 0 = .ok d ∧ d.series.isSome ∧
      d.operatingPoint = [("v_1", 2.5)] ∧
      FirstOf (unlines measured) 0 Strategy.all d.transient ∧ (∀ s ∈ d.series, s.WellFormed) ∧
      (∀ e ∈ d.operatingPoint, e.2.isFinite) ∧
      ∀ other d', ofOutput (unlines measured) other = .ok d' →
        d'.operatingPoint = d.operatingPoint := by
  have hlines : lines (unlines measured) = measured :=
    lines_unlines (forall_endsLine (by decide))
  have hprints : Table.PrintsTables 1 Table.steps Table.signals [[1]]
      (lines (unlines measured)) := by
    rw [hlines]
    exact ⟨["v(1) = 2.5".toList], _, rfl, List.forall_mem_singleton.mpr (by decide +kernel),
      Table.tables_firstRow⟩
  have htable := Table.readWithDropped_of_printsTables Table.printable_firstRow hprints
  obtain ⟨d, hd, hseries⟩ : ∃ d, ofOutput (unlines measured) 0 = .ok d ∧ d.series.isSome :=
    ⟨_, ofOutput_of_table htable (by decide), rfl⟩
  refine ⟨d, hd, hseries, ?_, wellFormed_of_ofOutput hd⟩
  rw [(parts_of_ofOutput hd).2]
  decide +kernel

end Decoded

end Breadboard
