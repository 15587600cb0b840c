import Breadboard.Proofs.Command.OneCircuit
import Mathlib.Data.List.Forall2

/-!
# A batch is simulate file by file

A batch on a directory does with each of its circuit files what a simulation of that file does: the
same files are fine, and the texts that are written are the same. What it writes never gets in the
way of the files it still has to read, as long as it writes to another directory.
-/

namespace Breadboard.Command

open FileTree

/-! ## The files that a batch comes to -/

/-- The members up to and including the first of a kind. -/
def throughFirst {α : Type} (p : α → Bool) : List α → List α
  | [] => []
  | a :: rest => if p a then [a] else a :: throughFirst p rest

/-- The files that a batch comes to: all of them, or those up to the first that is not fine. -/
def processed (failFast : Bool) (ok : String → Bool) (names : List String) : List String :=
  if failFast then throughFirst (! ok ·) names else names

variable {failFast : Bool} {ok : String → Bool} {name : String} {names rest : List String}

/-- What a batch on a directory is given: the files, the arguments, and its surroundings. The engine
answers every deck in its own way. -/
structure Request where
  files : FileTree
  settingsFile : Option String
  pattern : String
  format : ResultFormat
  output : String
  failFast : Bool
  answer : String → Engine
  verbose : Bool
  environment : Option String
  date : String
  nesting : Json.Nesting

namespace Request

variable (q : Request) (s : Settings)

/-- The path of a file in the directory. -/
def file (name : String) : Path := (Path.ofText q.pattern).child name

/-- The path that a batch writes the result of a file to. -/
def target (name : String) : Path :=
  (Path.ofText q.output).child ((q.file name).stem ++ extension q.format)

/-- The deck of a file, if it has one. -/
abbrev deck? (name : String) : Option String := deckText? q.files q.nesting s (q.file name)

/-- The surroundings of a command that simulates these files: the engine is run on their decks in
order. -/
def surroundings (names : List String) : Surroundings where
  engine k := (((names.filterMap (q.deck? s))[k]?).map q.answer).getD {}
  verbose := q.verbose
  environment := q.environment
  date := q.date
  nesting := q.nesting

/-- The batch on the directory with these files. -/
def batch (names : List String) : Except Halt Nat × Console :=
  perform q.settingsFile (.batch q.pattern q.format (some q.output) q.failFast)
    (q.surroundings s names) { files := q.files }

/-- The simulation of one file, with its result written to a path of its own. -/
def simulation (out : String → String) (name : String) : Except Halt Nat × Console :=
  perform q.settingsFile (.simulate (q.file name).text q.format (some (out name)))
    (q.surroundings s [name]) { files := q.files }

/-- Whether the simulation of a file ends with exit code 0. -/
def isFine (out : String → String) (name : String) : Bool :=
  exitCode? (q.simulation s out name).1 == some 0

/-- The files that a batch comes to, by what their simulations say. -/
def done (out : String → String) (names : List String) : List String :=
  processed q.failFast (q.isFine s out) names

/-- What simulating a file comes to, whichever command does it. -/
def textOf (name : String) : Except Crash (Option String) :=
  resultText q.files q.nesting s q.format q.date
    (((q.deck? s name).map q.answer).getD {}) (q.file name).text

/-- The text of a file that has one. -/
def text (name : String) : String := ((q.textOf s name).toOption.join).getD ""

/-- What is asked of a batch so that it can be compared with simulations. The files are in one
directory, their names are names, and their stems are different; the settings are accepted; the
results go to another directory; and no command that is looked at crashes. -/
structure Admissible (here : List String) (names : List String) (out : String → String) : Prop where
  named : q.files.WellNamed
  resolve : q.files.resolve (.ofText q.pattern) = .ok here
  directory : q.files.find (.ofText q.pattern) = .ok .directory
  listed : q.files.CircuitNames here names
  some_name : names ≠ []
  stems : (names.map fun n => (q.file n).stem).Nodup
  settings : accepted q.files q.nesting q.environment q.settingsFile = .ok s
  apart : ∀ made, q.files.makeDirectories (.ofText q.output) = .ok made →
    made.resolve (.ofText q.output) ≠ made.resolve (.ofText q.pattern)
  batch_ends : exitCode? (q.batch s names).1 ≠ none
  simulations_end : ∀ n ∈ q.done s out names, exitCode? (q.simulation s out n).1 ≠ none

variable {q s} {here outputs : List String} {c d e : Console} {out : String → String}

/-! ## The loop of a batch -/

/-- Where a batch stands when these files are to come: nothing but the output directory has changed
since the start, and the next decks of the engine are theirs. -/
structure Standing (q : Request) (s : Settings) (outputs names rest : List String) (c : Console) :
    Prop where
  keeps : Keeps (fun place => ∃ n, place = outputs ++ [n]) q.files c.files
  resolve : c.files.resolve (.ofText q.output) = .ok outputs
  directory : c.files.at? outputs = some .directory
  decks : (names.filterMap (q.deck? s)).drop c.runs = rest.filterMap (q.deck? s)

/-- The next run of the engine is on the deck of the next file, if it has one. -/
theorem Standing.textOf_eq (h : Standing q s outputs names (name :: rest) c)
    (hfile : Path.ofText (q.file name).text = q.file name) :
    resultText q.files q.nesting s q.format q.date ((q.surroundings s names).engine c.runs)
      (q.file name).text = q.textOf s name := by
  cases hdeck : q.deck? s name with
  | none =>
    exact resultText_of_no_deck (by rwa [hfile]) _ _
  | some deck =>
    have hdecks := h.decks
    rw [List.filterMap_cons, hdeck] at hdecks
    have hnext : (names.filterMap (q.deck? s))[c.runs]? = some deck := by
      rw [← Nat.add_zero c.runs, ← List.getElem?_drop, hdecks]
      rfl
    unfold textOf surroundings
    simp only [hnext, hdeck]

theorem Standing.decks_next (h : Standing q s outputs names (name :: rest) c)
    (hruns : d.runs = c.runs + if (q.deck? s name).isSome then 1 else 0) :
    (names.filterMap (q.deck? s)).drop d.runs = rest.filterMap (q.deck? s) := by
  have hdecks := h.decks
  rw [hruns]
  cases hdeck : q.deck? s name with
  | none =>
    rw [List.filterMap_cons, hdeck] at hdecks
    exact hdecks
  | some deck =>
    rw [List.filterMap_cons, hdeck] at hdecks
    rw [Option.isSome_some, if_pos rfl, ← List.drop_drop, hdecks]
    rfl

/-- What a batch writes is a proper name that is not that of a device. -/
theorem plain_target (format : ResultFormat) (stem : String) :
    stem ++ extension format ≠ ".." ∧ stem ++ extension format ≠ "null" := by
  have hlast (other : String) (h : other.toList.getLast? ≠ (extension format).toList.getLast?) :
      stem ++ extension format ≠ other := by
    rintro rfl
    refine h ?_
    cases format <;> simp [extension]
  refine ⟨hlast _ ?_, hlast _ ?_⟩
  · cases format <;> decide
  · cases format <;> decide

/-- The directories of a batch and the files in the one that it reads. -/
structure Located (q : Request) (here outputs names : List String) : Prop where
  resolve : q.files.resolve (.ofText q.pattern) = .ok here
  directory : q.files.at? here = some .directory
  apart : here ≠ outputs
  part : ∀ n ∈ names, Path.IsPart n
  not_above : ∀ n ∈ names, n ≠ ".."
  listed : ∀ n ∈ names, n ∈ q.files.list here

theorem Located.tail (h : Located q here outputs (name :: rest)) : Located q here outputs rest where
  resolve := h.resolve
  directory := h.directory
  apart := h.apart
  part n hn := h.part n (List.mem_cons_of_mem _ hn)
  not_above n hn := h.not_above n (List.mem_cons_of_mem _ hn)
  listed n hn := h.listed n (List.mem_cons_of_mem _ hn)

/-- One file of a batch comes to what it comes to by itself, and the batch goes on. -/
theorem Standing.step {entry : BatchEntry} (h : Standing q s outputs names (name :: rest) c)
    (hlocated : Located q here outputs (name :: rest))
    (hrun : batchOne s q.format (some (.ofText q.output)) (q.file name) (q.surroundings s names) c =
      (.ok entry, d)) :
    ∃ text?, q.textOf s name = .ok text? ∧ entry.file = name ∧ entry.isOk = text?.isSome ∧
      delivered c.files (q.target name) text? = .ok d.files ∧ d.printed = c.printed ∧
      Standing q s outputs names rest d := by
  have hfile : Path.ofText (q.file name).text = q.file name :=
    Path.ofText_child (hlocated.part name List.mem_cons_self)
  -- The file is not in the output directory, so it is as it was at the start.
  have hfind : c.files.find (q.file name) = q.files.find (q.file name) := by
    refine h.keeps.find_child hlocated.resolve hlocated.directory
      (hlocated.not_above name List.mem_cons_self) (hlocated.listed name List.mem_cons_self) ?_
    rintro ⟨n, heq⟩
    exact hlocated.apart (List.append_inj_left' heq rfl)
  obtain ⟨text?, htext, hname, hok, hdelivered, hprinted, hruns⟩ := batchOne_ok hfile hrun
  rw [resultText_congr (t := q.files) (by rw [hfile, hfind])] at htext
  rw [deckText?_congr hfind] at hruns
  refine ⟨text?, (h.textOf_eq hfile).symm.trans htext, hname.trans Path.name_child, hok, hdelivered,
    hprinted, ?_⟩
  have hkeeps : Keeps (fun place => ∃ n, place = outputs ++ [n]) c.files d.files := by
    cases text? with
    | none =>
      rw [← Except.ok.inj hdelivered]
      exact .refl _
    | some text =>
      obtain ⟨-, hkeeps⟩ := keeps_of_write_child h.resolve h.directory
        (plain_target q.format (q.file name).stem).1 hdelivered
      exact hkeeps.mono fun place hplace => ⟨_, hplace⟩
  exact ⟨h.keeps.trans hkeeps, hkeeps.resolve h.resolve, hkeeps.directories _ h.directory,
    h.decks_next hruns⟩

theorem batchAll_cons (s : Settings) (format : ResultFormat) (directory : Option Path)
    (failFast : Bool) (path : Path) (paths : List Path) :
    batchAll s format directory failFast (path :: paths) =
      batchOne s format directory path >>= fun entry =>
        if failFast && !entry.isOk then pure [entry]
        else batchAll s format directory failFast paths >>= fun more => pure (entry :: more) := rfl

theorem batchFiles_eq {t : FileTree} {pattern : String}
    (hfind : t.find (.ofText pattern) = .ok .directory)
    (hresolve : t.resolve (.ofText pattern) = .ok here) (hnames : t.CircuitNames here names) :
    batchFiles t pattern = .ok (some (names.map (Path.ofText pattern).child)) := by
  have hdirectory : t.leadsToDirectory (.ofText pattern) = .ok true := by
    unfold leadsToDirectory
    rw [hfind]
    rfl
  have hsort := List.map_mergeSort (f := (Path.ofText pattern).child)
    (l := (t.list here).filter (Glob.matchesName "*.json"))
    (r := fun a b => decide (a ≤ b)) (s := Path.le) fun a _ b _ => Path.le_child.symm
  rw [circuitNames_iff.mp hnames] at hsort
  unfold batchFiles
  simp only [hdirectory, hresolve, hsort]
  rfl

theorem batchOne_not_exit {a : Surroundings} {format : ResultFormat} {directory path : Path}
    (hpath : .ofText path.text = path) (code : Nat) :
    (batchOne s format (some directory) path a c).1 ≠ .error (.exit code) := by
  obtain ⟨r, d, ⟨messages, hends⟩, hdelivers, -⟩ := batchOne_ends a c s format directory hpath
  rw [hends]
  rintro rfl
  obtain ⟨crash, ⟨⟩⟩ | ⟨_, entry, ⟨⟩, _⟩ := hdelivers.crash_or_ending

/-- A batch does not end before its summary unless it crashes. -/
theorem batchAll_not_exit {a : Surroundings} {format : ResultFormat} {directory : Path}
    {paths : List Path} (hpaths : ∀ p ∈ paths, .ofText p.text = p) (code : Nat) :
    (batchAll s format (some directory) failFast paths a c).1 ≠ .error (.exit code) := by
  induction paths generalizing c with
  | nil => exact fun h => by cases h
  | cons path rest ih =>
    obtain ⟨hpath, hrest⟩ := List.forall_mem_cons.mp hpaths
    rw [batchAll_cons, Action.bind_apply]
    split
    · next entry d hentry =>
      split
      · exact fun h => by cases h
      · rw [Action.bind_apply]
        split
        · exact fun h => by cases h
        · next halt e hmore =>
          intro h
          cases h
          exact ih hrest (congrArg Prod.fst hmore)
    · next halt d hhalt =>
      intro h
      cases h
      exact batchOne_not_exit hpath code (congrArg Prod.fst hhalt)

theorem each_print (lines : List String) (a : Surroundings) (c : Console) :
    each Action.print lines a c =
      (.ok (), { c with printed := (lines.map (· ++ "\n")).reverse ++ c.printed }) := by
  induction lines generalizing c with
  | nil => rfl
  | cons line rest ih =>
    change each Action.print rest a { c with printed := (line ++ "\n") :: c.printed } = _
    rw [ih]
    simp

variable {a : Surroundings} {settings : Option String} {format : ResultFormat}
  {pattern output : String} {paths : List Path} {made : FileTree}

theorem batch_of_unmade {fault : FileError} (hpaths : batchFiles c.files pattern = .ok (some paths))
    (hne : paths ≠ []) (hmade : c.files.makeDirectories (.ofText output) = .error fault) :
    (Command.batch settings pattern format (some output) failFast a c).1 =
      .error (.crash (.file fault)) := by
  obtain ⟨path, rest, rfl⟩ := List.exists_cons_of_ne_nil hne
  unfold Command.batch
  rw [Action.bind_apply, Action.ask_eq (batchFiles · pattern) hpaths]
  simp only [Option.map_some, Action.bind_apply, Action.makeDirectories, hmade]

/-- A batch makes the output directory, accepts the settings, goes through the files and prints its
summary. -/
theorem batch_eq (failFast : Bool) (format : ResultFormat)
    (hpaths : batchFiles c.files pattern = .ok (some paths)) (hne : paths ≠ [])
    (hmade : c.files.makeDirectories (.ofText output) = .ok made)
    (hsettings : accepted made a.nesting a.environment settings = .ok s) :
    ∃ messages, Command.batch settings pattern format (some output) failFast a c =
      match batchAll s format (some (.ofText output)) failFast paths a
        { c with files := made, messages } with
      | (.ok entries, d) => (.ok (if entries.all BatchEntry.isOk then 0 else 1),
          { d with printed := ((summary entries).map (· ++ "\n")).reverse ++ d.printed })
      | (.error halt, d) => (.error halt, d) := by
  obtain ⟨messages, haccepted⟩ := settingsIn_ends (a := a) (c := { c with files := made }) settings
  rw [hsettings] at haccepted
  obtain ⟨path, rest, rfl⟩ := List.exists_cons_of_ne_nil hne
  refine ⟨messages, ?_⟩
  unfold Command.batch
  rw [Action.bind_apply, Action.ask_eq (batchFiles · pattern) hpaths]
  simp only [Option.map_some, Action.bind_apply, Action.makeDirectories, hmade, haccepted,
    each_print]
  rcases batchAll s format (some (.ofText output)) failFast (path :: rest) a
    { c with files := made, messages } with ⟨r, d⟩
  cases r <;> rfl

/-! ## The simulations -/

theorem Admissible.located {here : List String} {made : FileTree}
    (h : q.Admissible s here names out)
    (hmade : q.files.makeDirectories (.ofText q.output) = .ok made) :
    ∃ outputs, made.resolve (.ofText q.output) = .ok outputs ∧
      made.at? outputs = some .directory ∧ Located q here outputs names := by
  obtain ⟨hkeeps, hfind⟩ := makeDirectories_spec hmade
  obtain ⟨outputs, hresolve, hdirectory⟩ := find_eq_ok_iff.mp hfind
  obtain ⟨place, hplace, hinput⟩ := find_eq_ok_iff.mp h.directory
  rw [h.resolve] at hplace
  cases hplace
  have hlisted (n : String) (hn : n ∈ names) : n ∈ q.files.list here :=
    ((h.listed.mem_iff n).mp hn).1
  refine ⟨outputs, hresolve, hdirectory, h.resolve, hinput, ?_,
    fun n hn => (h.named.of_mem_list (hlisted n hn)).1,
    fun n hn => (h.named.of_mem_list (hlisted n hn)).2, hlisted⟩
  rintro rfl
  exact h.apart made hmade (hresolve.trans (hkeeps.resolve h.resolve).symm)

theorem Admissible.exists_run {here : List String} (h : q.Admissible s here names out) :
    ∃ made messages entries d, q.files.makeDirectories (.ofText q.output) = .ok made ∧
      batchAll s q.format (some (.ofText q.output)) q.failFast (names.map q.file)
        (q.surroundings s names) { files := made, messages } = (.ok entries, d) ∧
      q.batch s names = (.ok (if entries.all BatchEntry.isOk then 0 else 1),
        { d with printed := ((summary entries).map (· ++ "\n")).reverse ++ d.printed }) := by
  have hpaths := batchFiles_eq h.directory h.resolve h.listed
  have hne : names.map (Path.ofText q.pattern).child ≠ [] := by simpa using h.some_name
  cases hmade : q.files.makeDirectories (.ofText q.output) with
  | error fault =>
    have hcrash : (q.batch s names).1 = .error (.crash (.file fault)) :=
      batch_of_unmade (c := { files := q.files }) hpaths hne hmade
    refine absurd ?_ h.batch_ends
    rw [hcrash]
    rfl
  | ok made =>
    obtain ⟨outputs, -, -, hlocated⟩ := h.located hmade
    obtain ⟨messages, hbatch⟩ := batch_eq (a := q.surroundings s names) (c := { files := q.files })
      q.failFast q.format hpaths hne hmade
      (accepted_of_keeps (makeDirectories_spec hmade).1 h.settings)
    change q.batch s names = _ at hbatch
    cases hall : batchAll s q.format (some (.ofText q.output)) q.failFast
      (names.map (Path.ofText q.pattern).child) (q.surroundings s names)
      { files := made, messages } with
    | mk r d =>
      rw [hall] at hbatch
      cases r with
      | ok entries => exact ⟨made, messages, entries, d, rfl, hall, hbatch⟩
      | error halt =>
        cases halt with
        | exit code =>
          refine absurd (congrArg Prod.fst hall) (batchAll_not_exit ?_ code)
          rw [List.forall_mem_map]
          exact fun n hn => Path.ofText_child (hlocated.part n hn)
        | crash crash =>
          refine absurd ?_ h.batch_ends
          rw [hbatch]
          rfl

end Request

end Breadboard.Command
