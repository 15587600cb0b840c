import Breadboard.Output.RawFile
import Breadboard.Proofs.Output.PrintedHeader
import Breadboard.Proofs.Text.Letters

/-!
# Numbers that are too long to read

Whole numbers are read from at most `maxDigits` digits. A line has up to three kinds of them: the
index of a row whose numbers run together, the nodes in a header and the node of a variable. Lines
without a longer one are read without an error, whatever else they hold.
-/

namespace Breadboard

open Text Numeral

/-- A run of digits that the line holds in brackets, its blanks left out. -/
def Brackets (line run : List Char) : Prop :=
  (∀ c ∈ run, isDecimal c) ∧
    ∃ before after, line.filter (! isBlank ·) = before ++ '(' :: (run ++ ')' :: after)

/-- A run of digits before a number, with which the line starts, its blanks left out. -/
def Row.Indexes (line run : List Char) : Prop :=
  run ≠ [] ∧ (∀ c ∈ run, isDecimal c) ∧
    ∃ rest, line.filter (! isBlank ·) = run ++ rest ∧ startsValue (sign rest).2

/-- A line with more digits, in front of its first number or in brackets, than whole numbers are
read from. -/
def Overlong (line : List Char) : Prop :=
  ∃ run, (Row.Indexes line run ∨ Brackets line run) ∧ maxDigits < run.length

variable {line : List Char}

theorem not_overlong_of_length (h : line.length ≤ maxDigits) : ¬ Overlong line := by
  rintro ⟨run, hrun, hlong⟩
  have hfilter := List.length_filter_le (! isBlank ·) line
  rcases hrun with ⟨-, -, rest, heq, -⟩ | ⟨-, before, after, heq⟩
  · rw [heq, List.length_append] at hfilter
    omega
  · rw [heq] at hfilter
    simp only [List.length_append, List.length_cons] at hfilter
    omega

/-! ## Rows -/

theorem Numeral.natural_eq_error_iff {ds : List Nat} {e : TooManyDigits} :
    natural ds = .error e ↔ maxDigits < ds.length ∧ e = ⟨ds.length⟩ := by
  unfold natural
  by_cases h : maxDigits < ds.length
  · simp [h, eq_comm]
  · simp [h]

namespace Row

theorem readJoined_eq_error_iff {e : TooManyDigits} :
    readJoined line = .error e ↔
      ∃ run, Indexes line run ∧ maxDigits < run.length ∧ e = ⟨run.length⟩ := by
  constructor
  · intro h
    unfold readJoined at h
    split at h
    · cases h
    · next ds rest hindex =>
      obtain ⟨heq, hne, hdigits, hstarts⟩ := joinedIndex_eq_some_iff.mp hindex
      split at h
      · next hnatural =>
        cases h
        rw [natural_eq_error_iff, length_filterMap_digitValue? hdigits] at hnatural
        exact ⟨ds, ⟨hne, hdigits, rest, heq, hstarts⟩, hnatural⟩
      · split at h
        · cases h
        · cases h
  · rintro ⟨run, ⟨hne, hdigits, rest, heq, hstarts⟩, hlong, rfl⟩
    have hindex := joinedIndex_eq_some_iff.mpr ⟨heq, hne, hdigits, hstarts⟩
    have hlength := length_filterMap_digitValue? hdigits
    have hnatural : natural (run.filterMap digitValue?) = .error ⟨run.length⟩ := by
      rw [natural_eq_error_iff, hlength]
      exact ⟨hlong, rfl⟩
    unfold readJoined
    simp only [hindex, hnatural]

/-- A row is an error when its numbers do not stand apart and its index is too long. -/
theorem read_eq_error_iff {e : TooManyDigits} :
    read line = .error e ↔ readSpaced line = none ∧
      ∃ run, Indexes line run ∧ maxDigits < run.length ∧ e = ⟨run.length⟩ := by
  unfold read
  rw [← readJoined_eq_error_iff]
  by_cases hblank : allBlank line
  · have hnone : readJoined line = .ok none := by
      have hfilter : line.filter (! isBlank ·) = [] :=
        List.filter_eq_nil_iff.mpr fun c hc => by simp [List.all_eq_true.mp hblank c hc]
      unfold readJoined
      rw [hfilter]
      rfl
    simp [hblank, hnone]
  · cases hspaced : readSpaced line with
    | none => simp [hblank]
    | some row => simp [hblank]

theorem readJoined_ok (h : ¬ Overlong line) : ∃ row, readJoined line = .ok row := by
  cases hread : readJoined line with
  | ok row => exact ⟨row, rfl⟩
  | error e =>
    obtain ⟨run, hrun, hlong, -⟩ := readJoined_eq_error_iff.mp hread
    exact absurd ⟨run, .inl hrun, hlong⟩ h

theorem read_ok (h : ¬ Overlong line) : ∃ row, read line = .ok row := by
  cases hread : read line with
  | ok row => exact ⟨row, rfl⟩
  | error e =>
    obtain ⟨-, run, hrun, hlong, -⟩ := read_eq_error_iff.mp hread
    exact absurd ⟨run, .inl hrun, hlong⟩ h

end Row

/-! ## Parts of a line -/

namespace Brackets

variable {part run : List Char}

theorem of_infix (h : Brackets part run) (hp : part <:+: line) : Brackets line run := by
  obtain ⟨hdigits, before, after, heq⟩ := h
  obtain ⟨front, back, rfl⟩ := hp
  refine ⟨hdigits, front.filter (! isBlank ·) ++ before, after ++ back.filter (! isBlank ·), ?_⟩
  rw [List.filter_append, List.filter_append, heq]
  simp only [List.append_assoc, List.cons_append]

theorem of_suffix (h : Brackets part run) (hp : part <:+ line) : Brackets line run :=
  h.of_infix hp.isInfix

end Brackets

theorem Overlong.of_brackets {run : List Char} (h : Brackets line run)
    (hl : maxDigits < run.length) : Overlong line := ⟨run, .inr h, hl⟩

namespace Text

theorem skipWord_suffix {word cs rest : List Char} (h : skipWord word cs = some rest) :
    rest <:+ cs := by
  induction word generalizing cs with
  | nil =>
    cases h
    exact List.suffix_rfl
  | cons p ps ih =>
    cases cs with
    | nil => cases h
    | cons c cs =>
      unfold skipWord at h
      split at h
      · exact (ih h).trans (List.suffix_cons c cs)
      · cases h

theorem trimStart_suffix (cs : List Char) : trimStart cs <:+ cs := List.dropWhile_suffix _

theorem filter_trimStart (cs : List Char) :
    (trimStart cs).filter (! isBlank ·) = cs.filter (! isBlank ·) := by
  have hblank : (cs.takeWhile isBlank).filter (! isBlank ·) = [] := by
    refine List.filter_eq_nil_iff.mpr fun c hc => ?_
    simp [List.all_eq_true.mp List.all_takeWhile c hc]
  have hsplit := congrArg (List.filter (! isBlank ·))
    (List.takeWhile_append_dropWhile (p := isBlank) (l := cs))
  rwa [List.filter_append, hblank, List.nil_append] at hsplit

theorem filter_of_isDecimal {run : List Char} (h : ∀ c ∈ run, isDecimal c) :
    run.filter (! isBlank ·) = run :=
  List.filter_eq_self.mpr fun c hc => by simp [isBlank_of_isDecimal (h c hc)]

theorem isDecimal_of_isLower {c : Char} (h : c.isLower) : isDecimal c = false := by
  obtain ⟨hlow, hhigh⟩ := isLower_iff_toNat.mp h
  rw [← Char.ofNat_toNat c]
  generalize c.toNat = n at hlow hhigh
  interval_cases n <;> decide

theorem isDecimal_of_toLower {c : Char} (h : isDecimal c.toLower) : isDecimal c := by
  rcases toLower_eq_or_isLower c with heq | hlower
  · rwa [heq] at h
  · rw [isDecimal_of_isLower hlower] at h
    cases h

/-- An opening bracket is read as nothing but itself. -/
theorem exists_of_skipWord_bracket {p : Char} {cs rest : List Char}
    (h : skipWord [p, '('] cs = some rest) : ∃ c, foldsTo p c ∧ cs = c :: '(' :: rest := by
  have hbracket : ∀ {c : Char}, foldsTo '(' c → c = '(' := fun hc =>
    eq_of_toLower_eq (by decide) (by simpa [foldsTo] using hc)
  cases cs with
  | nil => cases h
  | cons c cs =>
    cases cs with
    | nil => simp [skipWord] at h
    | cons b cs =>
      simp only [skipWord] at h
      split at h
      · next hc =>
        split at h
        · next hb =>
          cases h
          exact ⟨c, hc, by rw [hbracket hb]⟩
        · cases h
      · cases h

theorem exists_of_skipWord_v {cs rest : List Char} (h : skipWord "v(".toList cs = some rest) :
    ∃ c, foldsTo 'v' c ∧ cs = c :: '(' :: rest := exists_of_skipWord_bracket h

end Text

/-! ## Headers -/

namespace Table

theorem behindBlanks_suffix {cs rest : List Char} (h : behindBlanks cs = some rest) :
    rest <:+ cs := by
  unfold behindBlanks at h
  split at h
  · cases h
    exact trimStart_suffix cs
  · cases h

theorem exists_of_column {cs rest : List Char} {ds : List Nat} (h : column cs = some (ds, rest)) :
    ∃ c opened run closing, c :: '(' :: opened <:+ cs ∧ trimStart opened = run ++ closing ∧
      trimStart closing = ')' :: rest ∧ (∀ d ∈ run, isDecimal d) ∧
      run.filterMap digitValue? = ds := by
  unfold column at h
  simp only [Option.bind_eq_bind, Option.bind_eq_some_iff] at h
  obtain ⟨inner, hinner, opened, hopened, h⟩ := h
  obtain ⟨c, -, rfl⟩ := exists_of_skipWord_v hopened
  split at h
  · cases h
  · next closing _ hdigits =>
    split at h
    · next after hclosing =>
      cases h
      obtain ⟨run, hopened, hrun, hvalues⟩ := exists_of_digits hdigits
      exact ⟨c, opened, run, closing, behindBlanks_suffix hinner, hopened, hclosing, hrun, hvalues⟩
    · cases h

theorem column_brackets {cs rest : List Char} {ds : List Nat} (h : column cs = some (ds, rest)) :
    rest <:+ cs ∧ ∃ run, Brackets cs run ∧ ds.length = run.length := by
  obtain ⟨c, opened, run, closing, hsuffix, hopened, hclosing, hrun, rfl⟩ := exists_of_column h
  constructor
  · have hrest : rest <:+ closing :=
      (hclosing ▸ List.suffix_cons ')' rest).trans (trimStart_suffix closing)
    have hbehind : closing <:+ opened :=
      (hopened ▸ List.suffix_append run closing).trans (trimStart_suffix opened)
    have hinner : opened <:+ c :: '(' :: opened := List.suffix_append [c, '('] opened
    exact ((hrest.trans hbehind).trans hinner).trans hsuffix
  · refine ⟨run, Brackets.of_suffix ⟨hrun, ?_⟩ hsuffix, length_filterMap_digitValue? hrun⟩
    refine ⟨[c].filter (! isBlank ·), rest.filter (! isBlank ·), ?_⟩
    have hfilter : opened.filter (! isBlank ·) = run ++ ')' :: rest.filter (! isBlank ·) := by
      rw [← filter_trimStart, hopened, List.filter_append, filter_of_isDecimal hrun,
        ← filter_trimStart closing, hclosing]
      rfl
    rw [← List.singleton_append, List.filter_append, ← hfilter]
    rfl

theorem columns_brackets {cs : List Char} {found : List (List Nat)} (h : columns cs = some found) :
    ∀ ds ∈ found, ∃ run, Brackets cs run ∧ ds.length = run.length := by
  fun_induction columns cs generalizing found with
  | case1 cs hc hblank =>
    cases h
    intro ds hds
    cases hds
  | case2 cs hc hblank => cases h
  | case3 cs ds rest hc ih =>
    obtain ⟨more, hmore, rfl⟩ := Option.map_eq_some_iff.mp h
    obtain ⟨hsuffix, hfirst⟩ := column_brackets hc
    intro ds' hds
    rcases List.mem_cons.mp hds with rfl | hds
    · exact hfirst
    · obtain ⟨run, hrun, hlength⟩ := ih hmore ds' hds
      exact ⟨run, hrun.of_suffix hsuffix, hlength⟩

theorem headerColumns_brackets {found : List (List Nat)} (h : headerColumns line = some found) :
    ∀ ds ∈ found, ∃ run, Brackets line run ∧ ds.length = run.length := by
  have htrim := trimStart_suffix line
  have hindex : ((skipWord "index".toList (trimStart line)).bind behindBlanks).getD (trimStart line)
      <:+ line := by
    cases hw : (skipWord "index".toList (trimStart line)).bind behindBlanks with
    | none => exact htrim
    | some rest =>
      obtain ⟨cs, hskip, hblanks⟩ := Option.bind_eq_some_iff.mp hw
      exact ((behindBlanks_suffix hblanks).trans (skipWord_suffix hskip)).trans htrim
  unfold headerColumns at h
  simp only [Option.bind_eq_bind, Option.bind_eq_some_iff] at h
  obtain ⟨behind, htime, found', hfound, h⟩ := h
  have hsuffix : behind <:+ line := (skipWord_suffix htime).trans hindex
  split at h
  · cases h
  · cases h
    intro ds hds
    obtain ⟨run, hrun, hlength⟩ := columns_brackets hfound ds hds
    exact ⟨run, hrun.of_suffix hsuffix, hlength⟩

theorem headerColumns_ne_nil {found : List (List Nat)} (h : headerColumns line = some found) :
    found ≠ [] := by
  unfold headerColumns at h
  simp only [Option.bind_eq_bind, Option.bind_eq_some_iff] at h
  obtain ⟨-, -, found', -, h⟩ := h
  split at h
  · cases h
  · next hne =>
    cases h
    simpa using hne

/-- A header names its columns in brackets. -/
theorem headerColumns_of_not_mem (h : '(' ∉ line) : headerColumns line = none := by
  refine Option.eq_none_iff_forall_ne_some.mpr fun found hfound => ?_
  obtain ⟨ds, hds⟩ := List.exists_mem_of_ne_nil found (headerColumns_ne_nil hfound)
  obtain ⟨run, ⟨-, before, after, hline⟩, -⟩ := headerColumns_brackets hfound ds hds
  have hmem : '(' ∈ line.filter (! isBlank ·) := by simp [hline]
  exact h (List.mem_filter.mp hmem).1

theorem header_ok (h : ¬ Overlong line) : ∃ nodes, header line = .ok nodes := by
  cases hfound : headerColumns line with
  | none => exact ⟨none, header_eq_none hfound⟩
  | some found =>
    have hshort : ∀ ds ∈ found, ds.length ≤ maxDigits := by
      intro ds hds
      obtain ⟨run, hrun, hlength⟩ := headerColumns_brackets hfound ds hds
      rw [hlength]
      exact Nat.not_lt.mp fun hlong => h (.of_brackets hrun hlong)
    unfold header
    rw [hfound]
    simp only [mapM_natural_of_short hshort]
    exact ⟨_, rfl⟩

end Table

/-! ## Variables -/

namespace RawFile

theorem exists_of_variableName {name : List Char} (h : variableName line = some name) :
    ∃ w, name = lowerAscii w ∧ w <:+: line ∧ ∀ c ∈ w, isBlank c = false := by
  have hword : ∀ rest : List Char, ∀ c ∈ (trimStart rest).takeWhile (! isBlank ·),
      isBlank c = false := by
    intro rest c hc
    simpa using List.all_eq_true.mp List.all_takeWhile c hc
  unfold variableName at h
  split at h
  · cases h
  · next rest _ hdigits =>
    obtain ⟨run, htrim, -, -⟩ := exists_of_digits hdigits
    have hrest : rest <:+ line :=
      (htrim ▸ List.suffix_append run rest).trans (trimStart_suffix line)
    split at h
    · split at h
      · cases h
      · cases h
        refine ⟨_, rfl, ?_, hword rest⟩
        exact (List.takeWhile_prefix _).isInfix.trans ((trimStart_suffix rest).trans hrest).isInfix
    · cases h

/-- The only names that are errors hold a run of digits in brackets. -/
theorem exists_of_voltageNode {name : List Char} {e : TooManyDigits}
    (h : voltageNode name = .error e) :
    ∃ c run, foldsTo 'v' c ∧ name = c :: '(' :: (run ++ [')']) ∧ (∀ d ∈ run, isDecimal d) ∧
      maxDigits < run.length := by
  unfold voltageNode at h
  split at h
  · cases h
  · next cs hskip =>
    obtain ⟨c, hc, rfl⟩ := exists_of_skipWord_v hskip
    split at h
    · cases h
    · next ds _ hdigits =>
      obtain ⟨run, rfl, hrun, rfl⟩ := exists_of_digits hdigits
      split at h
      · next hnatural =>
        refine ⟨c, run, hc, rfl, hrun, ?_⟩
        rw [← length_filterMap_digitValue? hrun]
        exact (natural_eq_error_iff.mp hnatural).1
      · cases h
    · cases h

theorem voltageNode_ok {name : List Char} (h : ¬ Overlong line)
    (hn : variableName line = some name) : ∃ node, voltageNode name = .ok node := by
  cases hread : voltageNode name with
  | ok node => exact ⟨node, rfl⟩
  | error e =>
    obtain ⟨w, rfl, hinfix, hblank⟩ := exists_of_variableName hn
    obtain ⟨c, run, -, heq, hrun, hlong⟩ := exists_of_voltageNode hread
    -- the word holds the same brackets and digits in its own letters
    obtain ⟨c', tail, rfl, -, htail⟩ := List.map_eq_cons_iff.mp heq
    obtain ⟨opening, inside, rfl, hopening, hinside⟩ := List.map_eq_cons_iff.mp htail
    obtain ⟨run', closing, rfl, rfl, hclosing⟩ := List.map_eq_append_iff.mp hinside
    obtain ⟨last, rest, rfl, hlast, hrest⟩ := List.map_eq_cons_iff.mp hclosing
    obtain rfl := List.map_eq_nil_iff.mp hrest
    obtain rfl := eq_of_toLower_eq (by decide) hopening
    obtain rfl := eq_of_toLower_eq (by decide) hlast
    have hdigits : ∀ d ∈ run', isDecimal d := fun d hd =>
      isDecimal_of_toLower (hrun d.toLower (List.mem_map_of_mem hd))
    have hword : (c' :: '(' :: (run' ++ [')'])).filter (! isBlank ·) =
        [c'] ++ '(' :: (run' ++ ')' :: []) :=
      List.filter_eq_self.mpr fun d hd => by simp [hblank d hd]
    have hbrackets : Brackets (c' :: '(' :: (run' ++ [')'])) run' :=
      ⟨hdigits, [c'], [], hword⟩
    rw [List.length_map] at hlong
    exact absurd (.of_brackets (hbrackets.of_infix hinfix) hlong) h

end RawFile

end Breadboard
