import Breadboard.Proofs.Output.Overlong
import Mathlib.Data.List.Perm.Basic

/-!
# Tables of any lines

A reading keeps its order whatever the lines are: nodes are listed once each, and rows have values
for listed nodes only. So the rows that are kept have a value for every node, and their vectors make
up a series.
-/

namespace Breadboard

open Text Numeral

/-! ## Series -/

namespace Series

/-- A series that the checks on its vectors accept. -/
def IsValid (s : Series) : Prop := ofVectors s.time s.voltages s.currents = .ok s

theorem checkLengths_eq_ok_iff {expected : Nat} {vectors : List (String × List Float)} :
    checkLengths expected vectors = .ok () ↔ ∀ v ∈ vectors, v.2.length = expected := by
  induction vectors with
  | nil => exact iff_of_true rfl fun _ hv => nomatch hv
  | cons v vectors ih =>
    obtain ⟨key, values⟩ := v
    unfold checkLengths
    rw [List.forall_mem_cons, ← ih]
    by_cases hlength : values.length = expected
    · rw [if_pos hlength]
      exact ⟨fun h => ⟨hlength, h⟩, fun h => h.2⟩
    · rw [if_neg hlength]
      exact iff_of_false (fun h => nomatch h) fun h => hlength h.1

theorem isValid_iff {s : Series} :
    s.IsValid ↔ (∀ v ∈ s.voltages, v.2.length = s.time.length) ∧
      (∀ v ∈ s.currents, v.2.length = s.time.length) ∧ runsBack s.time = false := by
  have hvoltages : checkLengths s.time.length (s.voltages.map fun v => (toString v.1, v.2)) =
      .ok () ↔ ∀ v ∈ s.voltages, v.2.length = s.time.length := by
    rw [checkLengths_eq_ok_iff, List.forall_mem_map]
  have hcurrents : checkLengths s.time.length s.currents = .ok () ↔
      ∀ v ∈ s.currents, v.2.length = s.time.length := checkLengths_eq_ok_iff
  rw [← hvoltages, ← hcurrents]
  unfold IsValid ofVectors
  cases checkLengths s.time.length (s.voltages.map fun v => (toString v.1, v.2)) with
  | error e => exact iff_of_false (fun h => nomatch h) fun h => nomatch h.1
  | ok =>
    cases checkLengths s.time.length s.currents with
    | error e => exact iff_of_false (fun h => nomatch h) fun h => nomatch h.2.1
    | ok =>
      cases runsBack s.time with
      | true => exact iff_of_false (fun h => nomatch h) fun h => nomatch h.2.2
      | false => exact iff_of_true rfl ⟨rfl, rfl, rfl⟩

theorem isValid_of_voltages {time : List Float} {voltages : List (Int × List Float)}
    (hv : ∀ v ∈ voltages, v.2.length = time.length) (ht : runsBack time = false) :
    IsValid ⟨time, voltages, []⟩ := by
  refine isValid_iff.mpr ⟨hv, ?_, ht⟩
  rintro v ⟨⟩

theorem runsBack_append {last : Option Float} {t : Float} {rest : List Float}
    (h : ¬ last.any (t < ·)) (hr : runsBack (t :: rest) = false) :
    runsBack (last.toList ++ t :: rest) = false := by
  cases last with
  | none => exact hr
  | some u =>
    have hforward : ¬ t < u := by simpa using h
    show (decide (t < u) || runsBack (t :: rest)) = false
    rw [decide_eq_false hforward]
    exact hr

end Series

/-! ## Tables -/

namespace Table

/-- A row with no values but for these nodes, and none twice. -/
structure Sample.Over (nodes : List Int) (s : Sample) : Prop where
  distinct : (Assoc.keys s.values).Nodup
  subset : Assoc.keys s.values ⊆ nodes

namespace Sample.Over

variable {nodes more : List Int} {s t : Sample}

theorem mono (h : s.Over nodes) (hm : nodes ⊆ more) : s.Over more :=
  ⟨h.distinct, fun _ hk => hm (h.subset hk)⟩

theorem foldl_put {values : List (Int × Float)} {index : Int} {time : Float}
    (h : Sample.Over nodes ⟨index, time, values⟩) {entries : List (Int × Float)}
    (he : Assoc.keys entries ⊆ nodes) :
    Sample.Over nodes ⟨index, time, entries.foldl (fun vs v => Assoc.put v.1 v.2 vs) values⟩ := by
  induction entries generalizing values with
  | nil => exact h
  | cons e entries ih =>
    have hkey : e.1 ∈ nodes := he List.mem_cons_self
    rw [List.foldl_cons]
    refine ih ⟨Assoc.nodup_keys_put h.distinct _ _, ?_⟩ fun k hk => he (List.mem_cons_of_mem _ hk)
    rw [Assoc.keys_put]
    split
    · exact h.subset
    · exact List.append_subset.mpr ⟨h.subset, List.cons_subset.mpr ⟨hkey, List.nil_subset _⟩⟩

theorem join (hs : s.Over nodes) (ht : t.Over nodes) : (s.join t).Over nodes :=
  foldl_put hs ht.subset

/-- A row with as many values as there are nodes has one for each. -/
theorem isSome_lookup (h : s.Over nodes) (hw : s.values.length = nodes.length) {k : Int}
    (hk : k ∈ nodes) : (s.values.lookup k).isSome := by
  have hperm : (Assoc.keys s.values).Perm nodes := by
    refine (List.subperm_of_subset h.distinct h.subset).perm_of_length_le ?_
    rw [Assoc.keys, List.length_map, hw]
  cases hl : s.values.lookup k with
  | some v => rfl
  | none => exact absurd (hperm.mem_iff.mpr hk) (Assoc.lookup_eq_none_iff.mp hl)

end Sample.Over

theorem sample_ok (columns : List Int) {line : List Char} (h : ¬ Overlong line) :
    ∃ s, sample columns line = .ok s := by
  obtain ⟨row, hrow⟩ := Row.read_ok h
  unfold sample
  rw [hrow]
  cases row with
  | none => exact ⟨none, rfl⟩
  | some row =>
    obtain ⟨index, values⟩ := row
    cases values with
    | nil => exact ⟨none, rfl⟩
    | cons time values =>
      dsimp only
      split
      · exact ⟨_, rfl⟩
      · exact ⟨none, rfl⟩

theorem sample_over {columns : List Int} {line : List Char} {s : Sample}
    (h : sample columns line = .ok (some s)) : s.Over columns := by
  unfold sample at h
  split at h
  · cases h
  · cases h
  · split at h
    · cases h
    · next time values _ =>
      split at h
      · next hlength =>
        cases h
        have hkeys : Assoc.keys (columns.zip values) = columns :=
          List.map_fst_zip (Nat.le_of_eq hlength.symm)
        have hnone : ∀ index, Sample.Over columns ⟨index, time, []⟩ := fun _ =>
          ⟨List.nodup_nil, List.nil_subset _⟩
        exact (hnone _).foldl_put (by rw [hkeys]; exact List.Subset.refl _)
      · cases h

/-- What holds of a reading at every line: the nodes of the headers are listed once each, the
columns are among them, and so are the nodes for which rows have values. -/
structure Reading.Sound (r : Reading) : Prop where
  nodes : r.nodes.Nodup
  columns : ∀ columns, r.columns = some columns → columns ⊆ r.nodes
  samples : ∀ s ∈ r.samples, s.Over r.nodes

namespace Reading

variable {r q : Reading} {line : List Char} {ls : List (List Char)}

/-- Before the first line. -/
def start : Reading := ⟨none, [], [], 0⟩

theorem sound_start : start.Sound where
  nodes := List.nodup_nil
  columns _ h := nomatch h
  samples _ h := nomatch h

theorem Sound.step (hr : r.Sound) (h : r.step line = .ok q) : q.Sound := by
  unfold Reading.step at h
  split at h
  · cases h
  · next columns _ =>
    cases h
    have hsub : r.nodes ⊆ (r.nodes ++ columns).eraseDups := fun k hk =>
      List.mem_eraseDups.mpr (List.mem_append_left _ hk)
    refine ⟨nodup_eraseDups _, ?_, fun s hs => (hr.samples s hs).mono hsub⟩
    rintro _ ⟨⟩ k hk
    exact List.mem_eraseDups.mpr (List.mem_append_right _ hk)
  · split at h
    · cases h
      exact hr
    · next columns hcolumns =>
      split at h
      · cases h
        exact hr
      · split at h
        · cases h
        · cases h
          exact ⟨hr.nodes, hr.columns, hr.samples⟩
        · next s hs =>
          cases h
          refine ⟨hr.nodes, hr.columns, fun t ht => ?_⟩
          rcases List.mem_cons.mp ht with rfl | ht
          · exact (sample_over hs).mono (hr.columns columns hcolumns)
          · exact hr.samples t ht

theorem Sound.run (hr : r.Sound) (h : r.run ls = .ok q) : q.Sound := by
  induction ls generalizing r with
  | nil =>
    cases h
    exact hr
  | cons line ls ih =>
    unfold Reading.run at h
    split at h
    · cases h
    · next next hstep => exact ih (hr.step hstep) h

/-- Every row of a reading is the row of one of its lines. -/
theorem mem_samples_of_step (h : r.step line = .ok q) {s : Sample} (hs : s ∈ q.samples) :
    s ∈ r.samples ∨ ∃ columns, sample columns line = .ok (some s) := by
  unfold Reading.step at h
  split at h
  · cases h
  · cases h
    exact .inl hs
  · split at h
    · cases h
      exact .inl hs
    · split at h
      · cases h
        exact .inl hs
      · split at h
        · cases h
        · cases h
          exact .inl hs
        · next t ht =>
          cases h
          rcases List.mem_cons.mp hs with rfl | hs
          · exact .inr ⟨_, ht⟩
          · exact .inl hs

theorem mem_samples_of_run (h : r.run ls = .ok q) {s : Sample} (hs : s ∈ q.samples) :
    s ∈ r.samples ∨ ∃ line ∈ ls, ∃ columns, sample columns line = .ok (some s) := by
  induction ls generalizing r with
  | nil =>
    cases h
    exact .inl hs
  | cons line ls ih =>
    unfold Reading.run at h
    split at h
    · cases h
    · next next hstep =>
      rcases ih h with hnext | ⟨later, hlater, hsample⟩
      · rcases mem_samples_of_step hstep hnext with hold | hsample
        · exact .inl hold
        · exact .inr ⟨line, List.mem_cons_self, hsample⟩
      · exact .inr ⟨later, List.mem_cons_of_mem line hlater, hsample⟩

theorem step_ok (h : ¬ Overlong line) : ∃ q, r.step line = .ok q := by
  obtain ⟨nodes, hheader⟩ := header_ok h
  unfold Reading.step
  rw [hheader]
  cases nodes with
  | some columns => exact ⟨_, rfl⟩
  | none =>
    cases r.columns with
    | none => exact ⟨_, rfl⟩
    | some columns =>
      obtain ⟨s, hs⟩ := sample_ok columns h
      dsimp only
      split
      · exact ⟨_, rfl⟩
      · rw [hs]
        cases s with
        | none => exact ⟨_, rfl⟩
        | some s => exact ⟨_, rfl⟩

theorem run_ok (h : ∀ line ∈ ls, ¬ Overlong line) : ∃ q, r.run ls = .ok q := by
  induction ls generalizing r with
  | nil => exact ⟨r, rfl⟩
  | cons line ls ih =>
    obtain ⟨q, hstep⟩ := step_ok (r := r) (h line List.mem_cons_self)
    unfold Reading.run
    rw [hstep]
    exact ih fun l hl => h l (List.mem_cons_of_mem line hl)

end Reading

/-! ## The series of tables -/

/-- What holds of two rows that are joined and of the joined one holds after joining neighbours. -/
theorem forall_mergeFrom {p : Sample → Prop} (hjoin : ∀ s t, p s → p t → p (s.join t))
    {s : Sample} {rest : List Sample} (hs : p s) (hr : ∀ t ∈ rest, p t) :
    ∀ t ∈ merge.mergeFrom s rest, p t := by
  induction rest generalizing s with
  | nil => exact List.forall_mem_singleton.mpr hs
  | cons t rest ih =>
    obtain ⟨ht, hrest⟩ := List.forall_mem_cons.mp hr
    unfold merge.mergeFrom
    split
    · exact ih (hjoin s t hs ht) hrest
    · exact List.forall_mem_cons.mpr ⟨hs, ih ht hrest⟩

theorem Reading.forall_rows {p : Sample → Prop} (hjoin : ∀ s t, p s → p t → p (s.join t))
    {r : Reading} (h : ∀ s ∈ r.samples, p s) : ∀ s ∈ r.rows, p s := by
  have hsorted : ∀ s ∈ r.samples.reverse.mergeSort fun a b => a.index ≤ b.index, p s :=
    fun s hs => h s (List.mem_reverse.mp (List.mem_mergeSort.mp hs))
  unfold Reading.rows merge
  split
  · exact fun s hs => nomatch hs
  · next s rest heq =>
    rw [heq] at hsorted
    obtain ⟨hs, hrest⟩ := List.forall_mem_cons.mp hsorted
    exact forall_mergeFrom hjoin hs hrest

theorem Reading.Sound.rows {r : Reading} (hr : r.Sound) : ∀ s ∈ r.rows, s.Over r.nodes :=
  Reading.forall_rows (fun _ _ => Sample.Over.join) hr.samples

theorem mem_keepRows {width : Nat} {last : Option Float} {rows : List Sample} {s : Sample}
    (h : s ∈ keepRows width last rows) : s ∈ rows ∧ s.values.length = width := by
  induction rows generalizing last with
  | nil => cases h
  | cons t rows ih =>
    unfold keepRows at h
    split at h
    · exact ⟨List.mem_cons_of_mem t (ih h).1, (ih h).2⟩
    · next hkeep =>
      rcases List.mem_cons.mp h with rfl | h
      · exact ⟨List.mem_cons_self, Decidable.not_not.mp (not_or.mp hkeep).1⟩
      · exact ⟨List.mem_cons_of_mem t (ih h).1, (ih h).2⟩

theorem runsBack_keepRows (width : Nat) (last : Option Float) (rows : List Sample) :
    Series.runsBack (last.toList ++ (keepRows width last rows).map Sample.time) = false := by
  induction rows generalizing last with
  | nil => cases last <;> rfl
  | cons s rows ih =>
    unfold keepRows
    split
    · exact ih last
    · next hkeep => exact Series.runsBack_append (not_or.mp hkeep).2 (ih (some s.time))

theorem Reading.fst_series (r : Reading) :
    r.series.1 =
      if (keepRows r.nodes.length none r.rows).isEmpty then none
      else some ⟨(keepRows r.nodes.length none r.rows).map Sample.time,
        r.nodes.map fun n => (n, columnOf (keepRows r.nodes.length none r.rows) n), []⟩ := by
  unfold Reading.series
  dsimp only
  split
  · rfl
  · rfl

/-- The vectors of the rows that are kept pass the checks on a series. -/
theorem Reading.Sound.series {r : Reading} (hr : r.Sound) {s : Series}
    (h : r.series.1 = some s) : s.IsValid := by
  rw [Reading.fst_series] at h
  split at h
  · cases h
  · cases h
    refine Series.isValid_of_voltages ?_ (runsBack_keepRows _ none _)
    intro v hv
    obtain ⟨k, hk, rfl⟩ := List.mem_map.mp hv
    rw [columnOf, List.length_filterMap_eq_countP, List.length_map, List.countP_eq_length]
    intro row hrow
    obtain ⟨hmem, hwidth⟩ := mem_keepRows hrow
    exact (hr.rows row hmem).isSome_lookup hwidth hk

theorem read_ok {out : String} (h : ∀ line ∈ lines out, ¬ Overlong line) :
    ∃ found dropped, readWithDropped out = .ok (found, dropped) ∧ ∀ s ∈ found, s.IsValid := by
  obtain ⟨r, hrun⟩ := Reading.run_ok (r := .start) h
  have hr := Reading.sound_start.run hrun
  refine ⟨r.series.1, r.series.2, ?_, fun s hs => hr.series hs⟩
  unfold readWithDropped
  rw [show (⟨none, [], [], 0⟩ : Reading) = .start from rfl, hrun]
  rfl

end Table

end Breadboard
