import Breadboard.Proofs.Command.Batch
import Mathlib.Data.List.Dedup

/-!
# The result files of a batch

A batch names the result of a circuit by the stem of its file. Files of one stem stand in different
directories or differ in what is behind the stem, and of their results only the last is kept. So
every circuit that is reported as fine has a result file of its own exactly if their stems differ.
-/

namespace Breadboard.Command

open FileTree

variable {s : Settings} {format : ResultFormat} {a : Surroundings} {directory p : Path}
  {t u v : FileTree} {c d : Console} {failFast : Bool}

/-! ## Turns -/

/-- The turn of a circuit in a batch: its file and the text of its result, if it has one. -/
structure Turn where
  file : Path
  text? : Option String

namespace Turn

/-- Whether there is a result. -/
def isFine (turn : Turn) : Bool := turn.text?.isSome

/-- The name of the file that the result goes to. -/
def resultName (format : ResultFormat) (turn : Turn) : String :=
  turn.file.stem ++ extension format

end Turn

/-- The course of a batch over the files, whose engine runs are counted: every circuit comes to
what it comes to with the files that the turns before it left, and its result is written. -/
inductive Course (s : Settings) (format : ResultFormat) (a : Surroundings) (directory : Path) :
    FileTree → Nat → List Turn → FileTree → Prop
  | done {t : FileTree} {runs : Nat} : Course s format a directory t runs [] t
  | turn {t u v : FileTree} {runs : Nat} {turn : Turn} {turns : List Turn}
      (hresult : resultText t a.nesting s format a.date (a.engine runs) turn.file.text =
        .ok turn.text?)
      (hwrite : delivered t (directory.child (turn.resultName format)) turn.text? = .ok u)
      (rest : Course s format a directory u
        (runs + if (deckText? t a.nesting s turn.file).isSome then 1 else 0) turns v) :
      Course s format a directory t runs (turn :: turns) v

/-- What a batch reports of its turns. -/
def Reported (turns : List Turn) (entries : List BatchEntry) : Prop :=
  List.Forall₂ (fun turn entry => entry.file = turn.file.name ∧ entry.isOk = turn.isFine)
    turns entries

/-- A batch that gets through its files has a course over those that it came to. -/
theorem exists_course {paths : List Path} {entries : List BatchEntry}
    (hpaths : ∀ p ∈ paths, .ofText p.text = p)
    (hrun : batchAll s format (some directory) failFast paths a c = (.ok entries, d)) :
    ∃ turns, Course s format a directory c.files c.runs turns d.files ∧
      turns.map Turn.file <+: paths ∧ Reported turns entries ∧ d.printed = c.printed := by
  induction paths generalizing c entries with
  | nil =>
    cases hrun
    exact ⟨[], .done, List.nil_prefix, .nil, rfl⟩
  | cons path rest ih =>
    obtain ⟨hpath, hrest⟩ := List.forall_mem_cons.mp hpaths
    rw [Request.batchAll_cons] at hrun
    obtain ⟨entry, e, hone, hrun⟩ := Action.exists_of_bind_ok hrun
    obtain ⟨text?, hresult, hname, hok, hwrite, hprinted, hruns⟩ := batchOne_ok hpath hone
    split at hrun
    · cases hrun
      refine ⟨[⟨path, text?⟩], .turn hresult hwrite .done, ?_, .cons ⟨hname, hok⟩ .nil, hprinted⟩
      exact List.prefix_append [path] rest
    · obtain ⟨more, e', hmore, hrun⟩ := Action.exists_of_bind_ok hrun
      cases hrun
      obtain ⟨turns, hcourse, hbegins, hreported, hprinted'⟩ := ih hrest hmore
      rw [hruns] at hcourse
      refine ⟨⟨path, text?⟩ :: turns, .turn hresult hwrite hcourse, ?_,
        .cons ⟨hname, hok⟩ hreported, hprinted'.trans hprinted⟩
      exact List.cons_prefix_cons.mpr ⟨rfl, hbegins⟩

/-! ## What a course leaves -/

namespace Course

variable {runs : Nat} {turns before after : List Turn} {turn : Turn} {outputs : List String}
  {text : String}

/-- A course writes the results of its fine turns, all of them in the output directory. -/
theorem keeps (h : Course s format a directory t runs turns u)
    (hresolve : t.resolve directory = .ok outputs) (hplace : t.at? outputs = some .directory) :
    Keeps (fun place => ∃ turn ∈ turns, turn.isFine ∧ place = outputs ++ [turn.resultName format])
      t u := by
  induction h with
  | done => exact .refl _
  | @turn t u v runs turn turns hresult hwrite rest ih =>
    have hwritten : Keeps (fun place => turn.isFine ∧
        place = outputs ++ [turn.resultName format]) t u := by
      cases htext : turn.text? with
      | none =>
        rw [htext] at hwrite
        rw [← Except.ok.inj hwrite]
        exact .refl _
      | some text =>
        rw [htext] at hwrite
        obtain ⟨-, hkeeps⟩ := keeps_of_write_child hresolve hplace
          (Request.plain_target format turn.file.stem).1 hwrite
        exact hkeeps.mono fun place hplace => ⟨by rw [Turn.isFine, htext]; rfl, hplace⟩
    have hothers := ih (hwritten.resolve hresolve) (hwritten.directories _ hplace)
    refine (hwritten.mono fun place hplace => ?_).trans (hothers.mono fun place hplace => ?_)
    · exact ⟨turn, List.mem_cons_self, hplace⟩
    · obtain ⟨other, hother, hrest⟩ := hplace
      exact ⟨other, List.mem_cons_of_mem _ hother, hrest⟩

/-- Of the results that go to one file the last is kept. -/
theorem holds_last (h : Course s format a directory t runs (before ++ turn :: after) u)
    (hresolve : t.resolve directory = .ok outputs) (hplace : t.at? outputs = some .directory)
    (htext : turn.text? = some text)
    (hlast : ∀ later ∈ after, later.isFine → later.resultName format ≠ turn.resultName format) :
    u.Holds (directory.child (turn.resultName format)) text := by
  generalize hturns : before ++ turn :: after = turns at h
  induction h generalizing before with
  | done => simp at hturns
  | @turn t u v runs first turns hresult hwrite rest ih =>
    have hfirst : Course s format a directory t runs [first] u := .turn hresult hwrite .done
    have hkeeps := hfirst.keeps hresolve hplace
    cases before with
    | cons other before =>
      obtain ⟨-, hturns⟩ := List.cons.inj hturns
      exact ih (hkeeps.resolve hresolve) (hkeeps.directories _ hplace) hturns
    | nil =>
      obtain ⟨rfl, rfl⟩ := List.cons.inj hturns
      rw [htext] at hwrite
      obtain ⟨hchild, hholds⟩ := holds_of_write_child hresolve hplace
        (Request.plain_target format turn.file.stem) hwrite
      have hothers := rest.keeps (hkeeps.resolve hresolve) (hkeeps.directories _ hplace)
      refine hholds.of_keeps hothers (hkeeps.resolve hchild) ?_
      rintro ⟨later, hlater, hfine, hsame⟩
      have hname := List.append_cancel_left hsame
      exact hlast later hlater hfine (List.cons.inj hname).1.symm

end Course

/-! ## The files of a batch -/

theorem ofText_text_ofText (text : String) :
    Path.ofText (Path.ofText text).text = .ofText text := by
  by_cases hne : (Path.ofText text).names = []
  · have hpath : Path.ofText text = ⟨(Path.ofText text).root, []⟩ := congrArg (Path.mk _) hne
    rw [hpath]
    obtain h | h | h := Path.root_ofText text <;> rw [h] <;> decide
  · exact Path.ofText_text (Path.root_ofText text) hne fun _ => Path.isPart_of_mem_ofText

/-- The files of a batch are read back from their texts, whether they come from a directory or from
a pattern. -/
theorem ofText_text_of_batchFiles {pattern : String} {paths : List Path} (hnamed : t.WellNamed)
    (h : batchFiles t pattern = .ok (some paths)) : ∀ p ∈ paths, Path.ofText p.text = p := by
  unfold batchFiles at h
  obtain ⟨isDirectory, -, h⟩ := exists_of_bind_ok h
  dsimp only at h
  split at h
  · split at h
    · cases h
      exact fun p hp => absurd hp List.not_mem_nil
    · next names hresolve =>
      cases h
      intro p hp
      obtain ⟨name, hname, rfl⟩ := List.mem_map.mp (List.mem_mergeSort.mp hp)
      exact Path.ofText_child (hnamed.of_mem_list (List.mem_filter.mp hname).1).1
  · split at h
    · obtain ⟨found, hfound, h⟩ := exists_of_bind_ok h
      cases h
      intro p hp
      unfold Glob.paths at hfound
      dsimp only at hfound
      split at hfound
      · cases hfound
      · cases hfound
        obtain ⟨hmem, -⟩ := List.mem_filter.mp (List.mem_mergeSort.mp hp)
        obtain ⟨text, -, rfl⟩ := List.mem_map.mp hmem
        exact ofText_text_ofText text
    · cases h

/-! ## The batch as a whole -/

/-- What a batch that ends without a crash has done: it made the output directory if it had files to
go through, and then, with the settings it accepted, took the turns of the files that it came to, in
their order, and printed the summary of its entries. -/
structure Batched (settings : Option String) (pattern : String) (format : ResultFormat)
    (output : String) (a : Surroundings) (c d : Console) (turns : List Turn)
    (entries : List BatchEntry) : Prop where
  course : ∃ made s, Keeps (fun _ => False) c.files made ∧
    Course s format a (.ofText output) made c.runs turns d.files ∧
    (turns ≠ [] → accepted made a.nesting a.environment settings = .ok s ∧
      made.find (.ofText output) = .ok .directory)
  files : ∀ paths, batchFiles c.files pattern = .ok (some paths) →
    turns.map Turn.file <+: paths
  reported : Reported turns entries
  printed : turns = [] ∧ d.printed = c.printed ∨
    d.printed = ((summary entries).map (· ++ "\n")).reverse ++ c.printed

variable {settings : Option String} {pattern output : String} {r : Except Halt Nat}

/-- A batch that comes to no file has left all files as they were, up to directories. -/
theorem batched_nil {made : FileTree} (hkeeps : Keeps (fun _ => False) c.files made)
    (hfiles : d.files = made) (hprinted : d.printed = c.printed) :
    Batched settings pattern format output a c d [] [] where
  course := ⟨made, .defaults, hkeeps, hfiles ▸ .done, fun h => absurd rfl h⟩
  files _ _ := List.nil_prefix
  reported := .nil
  printed := .inl ⟨rfl, hprinted⟩

theorem batch_of_no_files {found : Option (List Path)}
    (hpaths : batchFiles c.files pattern = .ok found)
    (hnone : found = none ∨ found = some []) :
    (Command.batch settings pattern format (some output) failFast).Ends a c (.ok 1) c := by
  rcases hnone with rfl | rfl
  · exact (Action.Ends.ask hpaths).bind fun _ => (Action.Ends.tell _).bind fun _ => ⟨_, rfl⟩
  · exact (Action.Ends.ask hpaths).bind fun _ => (Action.Ends.tell _).bind fun _ => ⟨_, rfl⟩

/-- A batch whose settings are refused has made the output directory and nothing else. -/
theorem batch_of_refused {paths : List Path} {made : FileTree} {halt : Halt}
    (hpaths : batchFiles c.files pattern = .ok (some paths)) (hne : paths ≠ [])
    (hmade : c.files.makeDirectories (.ofText output) = .ok made)
    (hrefused : accepted made a.nesting a.environment settings = .error halt) :
    (Command.batch settings pattern format (some output) failFast).Ends a c (.error halt)
      { c with files := made } := by
  obtain ⟨messages, hsettings⟩ :=
    settingsIn_ends (a := a) (c := { c with files := made }) settings
  rw [hrefused] at hsettings
  obtain ⟨path, rest, rfl⟩ := List.exists_cons_of_ne_nil hne
  refine ⟨messages, ?_⟩
  unfold Command.batch
  rw [Action.bind_apply, Action.ask_eq (batchFiles · pattern) hpaths]
  simp only [Option.map_some, Action.bind_apply, Action.makeDirectories, hmade, hsettings]

/-- A batch that accepts its settings takes the turns of its files. -/
theorem batched_of_accepted {paths : List Path} {made : FileTree}
    (hpaths : batchFiles c.files pattern = .ok (some paths)) (hne : paths ≠ [])
    (hread : ∀ p ∈ paths, .ofText p.text = p)
    (hmade : c.files.makeDirectories (.ofText output) = .ok made)
    (haccepted : accepted made a.nesting a.environment settings = .ok s)
    (h : Command.batch settings pattern format (some output) failFast a c = (r, d))
    (hends : exitCode? r ≠ none) :
    ∃ turns entries, Batched settings pattern format output a c d turns entries := by
  obtain ⟨hkeeps, hfind⟩ := makeDirectories_spec hmade
  obtain ⟨messages, hbatch⟩ := Request.batch_eq failFast format hpaths hne hmade haccepted
  rw [h] at hbatch
  cases hall : batchAll s format (some (.ofText output)) failFast paths a
      { c with files := made, messages } with
  | mk ending e =>
    rw [hall] at hbatch
    cases ending with
    | error halt =>
      cases hbatch
      cases halt with
      | exit code => exact absurd (congrArg Prod.fst hall) (Request.batchAll_not_exit hread code)
      | crash crash => exact absurd rfl hends
    | ok entries =>
      cases hbatch
      obtain ⟨turns, hcourse, hbegins, hreported, hprinted⟩ := exists_course hread hall
      refine ⟨turns, entries, ⟨made, s, hkeeps, hcourse, fun _ => ⟨haccepted, hfind⟩⟩, ?_,
        hreported, .inr ?_⟩
      · intro others hothers
        cases hpaths.symm.trans hothers
        exact hbegins
      · rw [← hprinted]

theorem exists_batched (hnamed : c.files.WellNamed)
    (h : perform settings (.batch pattern format (some output) failFast) a c = (r, d))
    (hends : exitCode? r ≠ none) :
    ∃ turns entries, Batched settings pattern format output a c d turns entries := by
  change Command.batch settings pattern format (some output) failFast a c = (r, d) at h
  cases hpaths : batchFiles c.files pattern with
  | error fault =>
    obtain ⟨rfl, -⟩ := (Action.Ends.ask_error hpaths).bind_error.eq_of_run h
    exact absurd rfl hends
  | ok found =>
    by_cases hnone : found = none ∨ found = some []
    · obtain ⟨-, messages, rfl⟩ := (batch_of_no_files hpaths hnone).eq_of_run h
      exact ⟨[], [], batched_nil (.refl _) rfl rfl⟩
    · obtain ⟨paths, rfl, hne⟩ : ∃ paths, found = some paths ∧ paths ≠ [] := by
        cases found with
        | none => exact absurd (.inl rfl) hnone
        | some paths => exact ⟨paths, rfl, fun hempty => hnone (.inr (congrArg some hempty))⟩
      cases hmade : c.files.makeDirectories (.ofText output) with
      | error fault =>
        have hcrash := (congrArg Prod.fst h).symm.trans (Request.batch_of_unmade hpaths hne hmade)
        exact absurd (congrArg exitCode? hcrash) hends
      | ok made =>
        cases haccepted : accepted made a.nesting a.environment settings with
        | error halt =>
          obtain ⟨-, messages, rfl⟩ := (batch_of_refused hpaths hne hmade haccepted).eq_of_run h
          exact ⟨[], [], batched_nil (makeDirectories_spec hmade).1 rfl rfl⟩
        | ok s =>
          have hread := ofText_text_of_batchFiles hnamed hpaths
          exact batched_of_accepted hpaths hne hread hmade haccepted h hends

/-! ## Result files -/

/-- The turns that are fine, in order. -/
def fine (turns : List Turn) : List Turn := turns.filter Turn.isFine

/-- The stems of the circuits that are fine. -/
def fineStems (turns : List Turn) : List String := (fine turns).map fun turn => turn.file.stem

/-- The names of the result files, each once. -/
def resultNames (format : ResultFormat) (turns : List Turn) : List String :=
  ((fine turns).map (Turn.resultName format)).dedup

/-- Every circuit that is reported as fine has a result file of its own in the directory: there are
as many of them as fine entries, and each holds the result of its circuit. -/
structure EachHasItsOwn (format : ResultFormat) (directory : Path) (turns : List Turn)
    (entries : List BatchEntry) (t : FileTree) : Prop where
  count : (resultNames format turns).length = (entries.filter BatchEntry.isOk).length
  holds : ∀ turn ∈ turns, ∀ text, turn.text? = some text →
    t.Holds (directory.child (turn.resultName format)) text

/-- Of the results of one stem the last is in the directory. -/
def HoldsLast (format : ResultFormat) (directory : Path) (turns : List Turn) (t : FileTree) :
    Prop :=
  ∀ before turn after, turns = before ++ turn :: after → ∀ text, turn.text? = some text →
    turn.file.stem ∉ fineStems after → t.Holds (directory.child (turn.resultName format)) text

variable {turns : List Turn} {entries : List BatchEntry}

theorem map_resultName (format : ResultFormat) (turns : List Turn) :
    turns.map (Turn.resultName format) =
      (turns.map fun turn => turn.file.stem).map (· ++ extension format) := by
  rw [List.map_map]
  rfl

theorem append_extension_injective (format : ResultFormat) :
    Function.Injective (· ++ extension format) := fun _ _ h => (String.append_left_inj _).mp h

theorem length_resultNames (format : ResultFormat) (turns : List Turn) :
    (resultNames format turns).length = (fineStems turns).dedup.length := by
  unfold resultNames fineStems
  rw [map_resultName, List.dedup_map_of_injective (append_extension_injective format),
    List.length_map]

theorem Reported.length_fine (h : Reported turns entries) :
    (entries.filter BatchEntry.isOk).length = (fine turns).length := by
  unfold fine
  induction h with
  | nil => rfl
  | cons hentry _ ih =>
    rw [List.filter_cons, List.filter_cons, hentry.2]
    split
    · rw [List.length_cons, List.length_cons, ih]
    · exact ih

theorem Batched.holdsLast (h : Batched settings pattern format output a c d turns entries) :
    HoldsLast format (.ofText output) turns d.files := by
  rintro before turn after rfl text htext hlast
  obtain ⟨made, s, -, hcourse, hmade⟩ := h.course
  obtain ⟨outputs, hresolve, hplace⟩ := find_eq_ok_iff.mp (hmade (by simp)).2
  refine hcourse.holds_last hresolve hplace htext fun later hlater hfine hname => hlast ?_
  rw [← append_extension_injective format hname]
  exact List.mem_map_of_mem (List.mem_filter.mpr ⟨hlater, hfine⟩)

/-- **Result files of a batch.** A batch on a directory or a pattern that ends without a crash has
taken the turns of its files and reported them. There are as many result files as different stems of
fine circuits, and of the results of one stem the last is kept. So every circuit that is reported as
fine has a result file of its own with its result exactly if the stems of these circuits differ. -/
theorem batch_eachHasItsOwn_iff (hnamed : c.files.WellNamed)
    (h : perform settings (.batch pattern format (some output) failFast) a c = (r, d))
    (hends : exitCode? r ≠ none) :
    ∃ turns entries, Batched settings pattern format output a c d turns entries ∧
      (resultNames format turns).length = (fineStems turns).dedup.length ∧
      HoldsLast format (.ofText output) turns d.files ∧
      (EachHasItsOwn format (.ofText output) turns entries d.files ↔ (fineStems turns).Nodup) := by
  obtain ⟨turns, entries, hbatched⟩ := exists_batched hnamed h hends
  have hlength := length_resultNames format turns
  have hstems : (fineStems turns).length = (entries.filter BatchEntry.isOk).length := by
    rw [hbatched.reported.length_fine]
    exact List.length_map _
  refine ⟨turns, entries, hbatched, hlength, hbatched.holdsLast, fun hown => ?_, fun hnodup => ?_⟩
  · have hcount : (fineStems turns).dedup.length = (fineStems turns).length := by
      rw [← hlength, hown.count, hstems]
    rw [← (List.dedup_sublist _).eq_of_length hcount]
    exact List.nodup_dedup _
  · refine ⟨by rw [hlength, hnodup.dedup, hstems], fun turn hturn text htext => ?_⟩
    obtain ⟨before, after, rfl⟩ := List.append_of_mem hturn
    refine hbatched.holdsLast before turn after rfl text htext fun hlater => ?_
    -- The stem of the turn would be among those of the fine turns behind it.
    have hfine : turn.isFine = true := by
      rw [Turn.isFine, htext]
      rfl
    unfold fineStems fine at hnodup hlater
    rw [List.filter_append, List.filter_cons_of_pos hfine, List.map_append, List.map_cons] at hnodup
    exact (List.nodup_cons.mp (List.nodup_append.mp hnodup).2.1).1 hlater

/-! ## Circuits in two directories -/

/-- Two circuits in two directories, the second in a file of this name. -/
def twoDirectories (name : String) : FileTree where
  files := [(["work", "d1", "a.json"], Text.encodeUtf8 "\x7b\"components\": []\x7d".toList),
    (["work", "d2", name], Text.encodeUtf8 "\x7b\"components\": []\x7d".toList)]
  directories := []
  here := ["work"]

/-- An engine that gives the first circuit another result than the second. -/
def differentResults : Surroundings where
  engine k :=
    { onPath := some "/usr/bin/ngspice"
      printed := Text.encodeUtf8
        (if k = 0 then "v(1) = 1.0e+00\n" else "v(1) = 2.0e+00\n").toList }
  verbose := false
  environment := none
  date := "2024-01-01 00:00:00"
  nesting := .usual

/-- The batch on the circuits in both directories. -/
def batchOnBoth (name : String) : Except Halt Nat × Console :=
  perform none (.batch "*/?.json" .json (some "out") false) differentResults
    { files := twoDirectories name }

/-- The names of the second file that are looked at. -/
def secondNames : List String := ["a.json", "b.json"]

theorem batchFiles_twoDirectories {name : String} (hname : name ∈ secondNames) :
    batchFiles (twoDirectories name) "*/?.json" =
      .ok (some [⟨"", ["d1", "a.json"]⟩, ⟨"", ["d2", name]⟩]) := by
  have hpaths : ∀ n ∈ secondNames,
      (twoDirectories n).leadsToDirectory (.ofText "*/?.json") = .ok false ∧
      Glob.paths (twoDirectories n) "*/?.json" =
        .ok [⟨"", ["d1", "a.json"]⟩, ⟨"", ["d2", n]⟩] ∧
      Path.le ⟨"", ["d1", "a.json"]⟩ ⟨"", ["d2", n]⟩ = true := by
    decide +kernel
  obtain ⟨hdirectory, hglob, hle⟩ := hpaths name hname
  have hsorted : [(⟨"", ["d1", "a.json"]⟩ : Path), ⟨"", ["d2", name]⟩].mergeSort Path.le =
      [⟨"", ["d1", "a.json"]⟩, ⟨"", ["d2", name]⟩] :=
    List.mergeSort_of_pairwise (List.pairwise_pair.mpr hle)
  unfold batchFiles
  dsimp only
  rw [hdirectory, hglob]
  show Except.ok (some (List.mergeSort _ Path.le)) = _
  rw [hsorted]

theorem batch_eachHasItsOwn_twoStems : ∃ r d turns entries,
    batchOnBoth "b.json" = (r, d) ∧ exitCode? r = some 0 ∧
    Batched none "*/?.json" .json "out" differentResults { files := twoDirectories "b.json" } d
      turns entries ∧
    EachHasItsOwn .json (.ofText "out") turns entries d.files := by
  have hfiles := batchFiles_twoDirectories (show "b.json" ∈ secondNames by decide)
  have hrun : batchOnBoth "b.json" = (Action.ask (batchFiles · "*/?.json") >>= _)
      differentResults { files := twoDirectories "b.json" } := rfl
  have hends : exitCode? (batchOnBoth "b.json").1 = some 0 := by
    rw [hrun, Action.bind_apply, Action.ask_eq (batchFiles · "*/?.json") hfiles]
    decide +kernel
  have hcode : exitCode? (batchOnBoth "b.json").1 ≠ none := by
    rw [hends]
    exact Option.some_ne_none 0
  have h : perform none (.batch "*/?.json" .json (some "out") false) differentResults
      { files := twoDirectories "b.json" } =
        ((batchOnBoth "b.json").1, (batchOnBoth "b.json").2) := rfl
  obtain ⟨turns, entries, hbatched, -, -, hown⟩ :=
    batch_eachHasItsOwn_iff (by decide +kernel) h hcode
  refine ⟨_, _, turns, entries, rfl, hends, hbatched, hown.mpr ?_⟩
  have hstems : (fineStems turns).Sublist ["a", "b"] := by
    have hsublist := ((hbatched.files _ hfiles).sublist.map Path.stem)
    rw [List.map_map] at hsublist
    exact (List.filter_sublist.map _).trans hsublist
  exact hstems.nodup (by decide)

/-- Of two circuits of one stem both are reported as fine, and there is one result file. -/
theorem batch_one_file_for_two : exitCode? (batchOnBoth "a.json").1 = some 0 ∧
    (batchOnBoth "a.json").2.printed.head? = some "\n2/2 succeeded, 0 failed\n" ∧
    (batchOnBoth "a.json").2.files.list ["work", "out"] = ["a.json"] := by
  have hfiles := batchFiles_twoDirectories (show "a.json" ∈ secondNames by decide)
  have hrun : batchOnBoth "a.json" = (Action.ask (batchFiles · "*/?.json") >>= _)
      differentResults { files := twoDirectories "a.json" } := rfl
  rw [hrun, Action.bind_apply, Action.ask_eq (batchFiles · "*/?.json") hfiles]
  decide +kernel

end Breadboard.Command
