import Breadboard.Output.Decode
import Breadboard.Proofs.Output.RawFileRows
import Breadboard.Proofs.Output.TableGroups

/-!
# Output that is decoded

Of whatever an engine prints, only a number that is too long to read is an error. All other output
is decoded, and lines that do not fit are dropped: it is read as if they were not there.
-/

namespace Breadboard

open Text Numeral

/-! ## Lines that are dropped -/

namespace Table

namespace Reading

/-- A reading that has dropped more rows. -/
def dropMore (more : Nat) (r : Reading) : Reading := { r with dropped := r.dropped + more }

theorem step_dropMore (more : Nat) (r : Reading) (line : List Char) :
    (r.dropMore more).step line = (r.step line).map (dropMore more) := by
  obtain ⟨columns, nodes, samples, dropped⟩ := r
  unfold step dropMore
  cases header line with
  | error e => rfl
  | ok heads =>
    cases heads with
    | some heads => rfl
    | none =>
      cases columns with
      | none => rfl
      | some columns =>
        dsimp only
        split
        · rfl
        · cases sample columns line with
          | error e => rfl
          | ok s =>
            cases s with
            | some s => rfl
            | none =>
              show Except.ok _ = Except.ok _
              rw [Nat.add_right_comm]

theorem run_dropMore (more : Nat) (r : Reading) (ls : List (List Char)) :
    (r.dropMore more).run ls = (r.run ls).map (dropMore more) := by
  induction ls generalizing r with
  | nil => rfl
  | cons line ls ih =>
    rw [run, run, step_dropMore]
    cases r.step line with
    | error e => rfl
    | ok q => exact ih q

theorem series_dropMore (more : Nat) (r : Reading) : (r.dropMore more).series.1 = r.series.1 := by
  rw [fst_series, fst_series]
  rfl

end Reading

/-- A line that, behind these lines, is no header and gives no row that fits. -/
def Drops (before : List (List Char)) (line : List Char) : Prop :=
  header line = .ok none ∧
    ∀ r columns, Reading.start.run before = .ok r → r.columns = some columns →
      sample columns line = .ok none

/-- A line that is no header and gives no row is dropped. -/
theorem Reading.step_of_no_sample {r : Reading} {line : List Char} (hh : header line = .ok none)
    (hs : ∀ columns, r.columns = some columns → sample columns line = .ok none) :
    ∃ more, r.step line = .ok (r.dropMore more) := by
  unfold Reading.step
  rw [hh]
  cases hcolumns : r.columns with
  | none => exact ⟨0, rfl⟩
  | some columns =>
    dsimp only
    split
    · exact ⟨0, rfl⟩
    · refine ⟨1, ?_⟩
      rw [hs columns hcolumns, ← hcolumns]
      rfl

theorem step_of_drops {before : List (List Char)} {line : List Char} (h : Drops before line)
    {r : Reading} (hr : Reading.start.run before = .ok r) :
    ∃ more, r.step line = .ok (r.dropMore more) :=
  Reading.step_of_no_sample h.1 fun columns => h.2 r columns hr

/-- A row that cannot be read, right behind a header, is an error whatever follows. -/
theorem run_of_read_error {columns : List Int} {head line : List Char} {e : TooManyDigits}
    (hn : ∀ k ∈ columns, IsNode k) (hne : columns ≠ []) (hd : columns.Nodup)
    (hh : Heads (columns.map vectorName) head) (hheader : header line = .ok none)
    (hrule : isRule line = false) (hread : Row.read line = .error e) (rest : List (List Char)) :
    Reading.start.run (head :: line :: rest) = .error e := by
  have hfirst : Reading.start.step head = .ok ⟨some columns, columns, [], 0⟩ :=
    step_of_heads_new hn hne hd hh
  have hsample : sample columns line = .error e := by
    unfold sample
    rw [hread]
  have hsecond : (⟨some columns, columns, [], 0⟩ : Reading).step line = .error e := by
    unfold Reading.step
    simp only [hheader, hrule, hsample, Bool.false_eq_true, if_false]
  rw [Reading.run, hfirst]
  dsimp only
  rw [Reading.run, hsecond]

theorem read_eq (out : String) :
    read out = (Reading.start.run (lines out)).map fun r => r.series.1 := by
  unfold read readWithDropped
  show (Reading.start.run (lines out)).bind _ >>= _ = _
  cases Reading.start.run (lines out) with
  | error e => rfl
  | ok r => rfl

/-- The series is that of the lines without the one that is dropped. -/
theorem read_of_drops {out shorter : String} {before after : List (List Char)} {line : List Char}
    (h : Drops before line) (ho : lines out = before ++ line :: after)
    (hs : lines shorter = before ++ after) : read out = read shorter := by
  rw [read_eq, read_eq, ho, hs, run_append, run_append]
  cases hbefore : Reading.start.run before with
  | error e => rfl
  | ok r =>
    obtain ⟨more, hstep⟩ := step_of_drops h hbefore
    show (r.run (line :: after)).map _ = (r.run after).map _
    rw [Reading.run, hstep]
    dsimp only
    rw [Reading.run_dropMore]
    cases r.run after with
    | error e => rfl
    | ok q => exact congrArg Except.ok (Reading.series_dropMore more q)

end Table

theorem OperatingPoint.read_of_readLine_none {out shorter : String}
    {before after : List (List Char)} {line : List Char} (h : readLine line = none)
    (ho : lines out = before ++ line :: after) (hs : lines shorter = before ++ after) :
    read out = read shorter := by
  unfold read readLines
  rw [ho, hs, List.foldl_append, List.foldl_append, List.foldl_cons]
  simp only [h]

/-! ## Decoding -/

namespace Decoded

/-- An output that is read: no reading of it fails, the series that are found are valid, the rows of
its raw file sections are complete, and a line that gives nothing changes nothing. -/
structure Reads (out : String) : Prop where
  table : ∃ found, Table.read out = .ok found ∧ ∀ s ∈ found, s.IsValid
  rawFile : ∃ found, RawFile.read out = .ok found ∧ ∀ s ∈ found, s.IsValid
  complete : ∀ s ∈ RawFile.sections (lines out), s.Complete
  outcome : ∀ minPoints, ∃ d, ofOutput out minPoints = .ok d ∧
    d.operatingPoint = OperatingPoint.read out ∧ ∀ s ∈ d.series, s.IsValid
  dropped : ∀ before line after shorter, lines out = before ++ line :: after →
    lines shorter = before ++ after →
    (Table.Drops before line → Table.read out = Table.read shorter) ∧
      (OperatingPoint.readLine line = none → OperatingPoint.read out = OperatingPoint.read shorter)

theorem strategy_ok {out : String} (h : ∀ line ∈ lines out, ¬ Overlong line) (s : Strategy) :
    ∃ found dropped, s.read out = .ok (found, dropped) ∧ ∀ x ∈ found, x.IsValid := by
  cases s with
  | table => exact Table.read_ok h
  | rawFile =>
    obtain ⟨found, hread, hvalid⟩ := RawFile.read_ok h
    refine ⟨found, 0, ?_, hvalid⟩
    unfold Strategy.read
    rw [hread]
    rfl

theorem search_ok {out : String} (h : ∀ line ∈ lines out, ¬ Overlong line) (minPoints : Int)
    (strategies : List Strategy) :
    ∃ found, (search out minPoints strategies).2 = .ok found ∧ ∀ x ∈ found, x.2.IsValid := by
  induction strategies with
  | nil => exact ⟨none, rfl, fun _ hx => nomatch hx⟩
  | cons s rest ih =>
    obtain ⟨found, dropped, hread, hvalid⟩ := strategy_ok h s
    unfold search
    rw [hread]
    dsimp only
    split
    · next series hfilter =>
      refine ⟨_, rfl, ?_⟩
      rintro _ ⟨⟩
      exact hvalid series (Option.filter_eq_some_iff.mp hfilter).1
    · exact ih

theorem ofOutput_ok {out : String} (h : ∀ line ∈ lines out, ¬ Overlong line) (minPoints : Int) :
    ∃ d, ofOutput out minPoints = .ok d ∧ d.operatingPoint = OperatingPoint.read out ∧
      ∀ s ∈ d.series, s.IsValid := by
  obtain ⟨found, hsearch, hvalid⟩ := search_ok h minPoints Strategy.all
  refine ⟨⟨found, OperatingPoint.read out⟩, ?_, rfl, ?_⟩
  · unfold ofOutput
    rw [hsearch]
  · intro s hs
    obtain ⟨x, hx, rfl⟩ := Option.map_eq_some_iff.mp hs
    exact hvalid x hx

/-- The tables are tried first, so a table with enough rows is what is decoded. -/
theorem ofOutput_of_table {out : String} {series : Series} {dropped : Nat} {minPoints : Int}
    (h : Table.readWithDropped out = .ok (some series, dropped))
    (hsize : minPoints < series.size) :
    ofOutput out minPoints = .ok ⟨some (.table, series), OperatingPoint.read out⟩ := by
  have hread : Strategy.table.read out = .ok (some series, dropped) := h
  have hfilter : (some series).filter (fun series => minPoints < series.size) = some series := by
    rw [Option.filter_some, if_pos (decide_eq_true hsize)]
  unfold ofOutput Strategy.all search
  simp only [hread, hfilter]

theorem ofOutput_of_run_error {out : String} {e : TooManyDigits}
    (h : Table.Reading.start.run (lines out) = .error e) (minPoints : Int) :
    ofOutput out minPoints = .error e := by
  have hread : Strategy.table.read out = .error e := by
    unfold Strategy.read Table.readWithDropped
    rw [show (⟨none, [], [], 0⟩ : Table.Reading) = .start from rfl, h]
    rfl
  unfold ofOutput Strategy.all search
  rw [hread]

/-- **All output is read.** An output that holds no number too long to read, in front of the first
number of a line or in brackets, is decoded whatever else it holds, and lines that give nothing are
dropped. A row is an error exactly when its numbers run together and its index is too long. -/
theorem reads_of_not_overlong {out : String} (h : ∀ line ∈ lines out, ¬ Overlong line) :
    Reads out ∧ ∀ line e, Row.read line = .error e ↔ Row.readSpaced line = none ∧
      ∃ run, Row.Indexes line run ∧ maxDigits < run.length ∧ e = ⟨run.length⟩ := by
  refine ⟨?_, fun line e => Row.read_eq_error_iff⟩
  obtain ⟨found, dropped, htable, hvalid⟩ := Table.read_ok h
  constructor
  · refine ⟨found, ?_, hvalid⟩
    unfold Table.read
    rw [htable]
    rfl
  · exact RawFile.read_ok h
  · exact fun s _ => s.complete
  · exact ofOutput_ok h
  · intro before line after shorter ho hs
    exact ⟨fun hd => Table.read_of_drops hd ho hs,
      fun hn => OperatingPoint.read_of_readLine_none hn ho hs⟩

/-- A table with lines that are no rows, and a row that runs together. -/
def faulty : List (List Char) :=
  ["Index time v(1)".toList, "0\t0.0e+00\t4.0e+00".toList, "no row (7)".toList,
    "1 1.0e+00".toList, "21.0e+005.0e+00".toList]

theorem reads_of_not_overlong_faulty :
    (∀ line ∈ lines (unlines faulty), ¬ Overlong line) ∧ Reads (unlines faulty) := by
  have hlines : lines (unlines faulty) = faulty :=
    lines_unlines (forall_endsLine (by decide))
  have hshort : ∀ line ∈ lines (unlines faulty), ¬ Overlong line := by
    rw [hlines]
    intro line hl
    exact not_overlong_of_length (by revert line; decide +kernel)
  exact ⟨hshort, (reads_of_not_overlong hshort).1⟩

/-- A row that runs together, with so many digits in its index. -/
def ones (n : Nat) : List Char := List.replicate n '1' ++ "1.0e+001.0e+00".toList

/-- A table of one such row. -/
def onesTable (n : Nat) : List (List Char) := ["Index time v(1)".toList, ones n]

section Ones

variable {n : Nat} (h : maxDigits < n)

theorem eq_false_of_mem_ones {p : Char → Bool} (hone : p '1' = false)
    (htail : "1.0e+001.0e+00".toList.any p = false) : ∀ c ∈ ones n, p c = false := by
  intro c hc
  rcases List.mem_append.mp hc with hc | hc
  · rwa [List.eq_of_mem_replicate hc]
  · exact Bool.eq_false_iff.mpr (List.any_eq_false.mp htail c hc)

theorem lines_onesTable : lines (unlines (onesTable n)) = onesTable n := by
  have hheader : ∀ l ∈ ["Index time v(1)".toList], ∀ c ∈ l, endsLine c = false :=
    forall_endsLine (by decide)
  apply lines_unlines
  intro l hl
  rcases List.mem_cons.mp hl with rfl | hl
  · exact hheader _ List.mem_cons_self
  · rw [List.mem_singleton.mp hl]
    exact eq_false_of_mem_ones (by decide) (by decide)

include h

theorem read_ones : Row.read (ones n) = .error ⟨n⟩ := by
  have hpos : n ≠ 0 := by omega
  have hdigits : ∀ c ∈ List.replicate n '1', isDecimal c := by
    intro c hc
    rw [List.eq_of_mem_replicate hc]
    decide
  have hindexes : Row.Indexes (ones n) (List.replicate n '1') := by
    refine ⟨by simp [hpos], hdigits, "1.0e+001.0e+00".toList, ?_, by decide⟩
    rw [ones, List.filter_append, filter_of_isDecimal hdigits]
    rfl
  -- all of the row is one word, so its numbers do not stand apart
  have hword : IsWord (ones n) :=
    ⟨List.append_ne_nil_of_right_ne_nil _ (by decide), eq_false_of_mem_ones (by decide) (by decide)⟩
  have hwords : words (ones n) = [ones n] := by
    have hend : Detached [] := fun c hc => nomatch hc
    have hone := words_append_detached hword hend
    rwa [List.append_nil] at hone
  have hspaced : Row.readSpaced (ones n) = none := by
    unfold Row.readSpaced
    rw [hwords]
  refine Row.read_eq_error_iff.mpr ⟨hspaced, _, hindexes, ?_, ?_⟩
  · rwa [List.length_replicate]
  · rw [List.length_replicate]

theorem run_onesTable : Table.Reading.start.run (onesTable n) = .error ⟨n⟩ := by
  have hheads : Table.Heads ([1].map Table.vectorName) "Index time v(1)".toList := by
    unfold Table.Heads
    decide +kernel
  have hread := read_ones h
  obtain ⟨m, rfl⟩ := Nat.exists_eq_succ_of_ne_zero (n := n) (by omega)
  have hhead : ones (m + 1) = '1' :: ones m := rfl
  have htrim : trimStart (ones (m + 1)) = ones (m + 1) := by
    rw [hhead, trimStart, List.dropWhile_cons_of_neg (by decide)]
  have hheader : Table.header (ones (m + 1)) = .ok none := by
    refine Table.header_eq_none (Table.headerColumns_eq_none ?_)
    rw [htrim, hhead]
    rintro _ ⟨⟩
    decide
  have hrule : Table.isRule (ones (m + 1)) = false := by
    rw [Table.isRule, List.all_eq_false]
    exact ⟨'1', mem_trim_of_head (by rw [htrim, hhead]; rfl), by decide⟩
  exact Table.run_of_read_error (by decide) (by decide) (by decide) hheads hheader hrule hread []

/-- With more digits than are read, the row is not dropped: nothing of the output is decoded. -/
theorem ofOutput_onesTable (minPoints : Int) :
    ofOutput (unlines (onesTable n)) minPoints = .error ⟨n⟩ :=
  ofOutput_of_run_error (by rw [lines_onesTable, run_onesTable h]) minPoints

end Ones

theorem ofOutput_long_index :
    Row.read (ones 4301) = .error ⟨4301⟩ ∧
      ofOutput (unlines (onesTable 4301)) 0 = .error ⟨4301⟩ :=
  ⟨read_ones (by decide), ofOutput_onesTable (by decide) 0⟩

end Decoded

end Breadboard
