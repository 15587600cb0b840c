import Breadboard.Proofs.Files.Saved

/-!
# What making directories and writing files leave alone

A directory that is made and a file that is written disturb nothing else: all that stood in the
tree stands there as before, and paths to it lead where they did.
-/

namespace Breadboard.FileTree

variable {t u v : FileTree} {names others start path : List String} {p : Path}

/-! ## Names below directories -/

/-- Whatever is above these names is a directory. -/
def Rooted (t : FileTree) (names : List String) : Prop :=
  ∀ above, above <+: names → above ≠ names → t.isDirectory above = true

theorem isDirectory_of_at? (h : t.at? names = some .directory) : t.isDirectory names = true := by
  unfold at? at h
  split at h
  · cases h
  · split at h
    · cases h
    · split at h
      · assumption
      · cases h

theorem isDirectory_iff : t.isDirectory names = true ↔
    names = [] ∨ names ∈ t.here :: t.directories ∨
      ∃ other ∈ t.entries, names <+: other ∧ names ≠ other := by
  have hlength {other : List String} (hbegins : names <+: other) :
      names.length < other.length ↔ names ≠ other := by
    constructor
    · rintro hlt rfl
      exact Nat.lt_irrefl _ hlt
    · intro hne
      exact Nat.lt_of_le_of_ne hbegins.length_le fun heq => hne (hbegins.eq_of_length heq)
  unfold isDirectory
  rw [Bool.or_eq_true, Bool.or_eq_true, List.isEmpty_iff, List.contains_iff_mem,
    List.any_eq_true, or_assoc]
  refine or_congr_right (or_congr_right (exists_congr fun other => and_congr_right fun _ => ?_))
  rw [Bool.and_eq_true, List.isPrefixOf_iff_prefix, decide_eq_true_iff]
  exact and_congr_right hlength

theorem rooted_of_mem_entries (h : names ∈ t.entries) : t.Rooted names :=
  fun _ hbegins hne => isDirectory_iff.mpr (.inr (.inr ⟨names, h, hbegins, hne⟩))

theorem rooted_nil : t.Rooted [] := fun _ hbegins hne => absurd (List.prefix_nil.mp hbegins) hne

theorem Rooted.dropLast (h : t.Rooted names) : t.Rooted names.dropLast := by
  intro above hbegins hne
  refine h above (hbegins.trans (List.dropLast_prefix names)) ?_
  rintro rfl
  exact hne (hbegins.eq_of_length_le (by rw [List.length_dropLast]; omega))

theorem Rooted.concat (h : t.Rooted names) (hdirectory : t.isDirectory names = true)
    (name : String) : t.Rooted (names ++ [name]) := by
  intro above hbegins hne
  rcases List.prefix_concat_iff.mp hbegins with heq | hbegins
  · exact absurd heq hne
  · by_cases heq : above = names
    · rwa [heq]
    · exact h above hbegins heq

theorem Rooted.of_resolveFrom (hstart : t.Rooted start)
    (h : t.resolveFrom start path = .ok names) : t.Rooted names := by
  induction path generalizing start with
  | nil =>
    cases h
    exact hstart
  | cons name path ih =>
    rw [resolveFrom] at h
    split at h
    · cases h
    · cases h
    · next hdirectory =>
      split at h
      · cases h
      · split at h
        · exact ih hstart.dropLast h
        · exact ih (hstart.concat (isDirectory_of_at? hdirectory) name) h

/-- Where a path leads there are directories above. -/
theorem rooted_of_resolve (h : t.resolve p = .ok names) : t.Rooted names := by
  unfold resolve at h
  split at h
  · cases h
  · split at h
    · cases h
    · refine Rooted.of_resolveFrom ?_ h
      split
      · exact rooted_nil
      · exact rooted_of_mem_entries List.mem_cons_self

/-! ## Trees with one thing more -/

/-- A tree that has the same as another, and perhaps something at these names. -/
structure Adds (names : List String) (t u : FileTree) : Prop where
  here : u.here = t.here
  directories : ∀ q, q ∈ t.directories → q ∈ u.directories
  directories_only : ∀ q, q ∈ u.directories → q ∈ t.directories ∨ q = names
  entries : ∀ q, q ∈ t.entries → q ∈ u.entries
  entries_only : ∀ q, q ∈ u.entries → q ∈ t.entries ∨ q = names

theorem Adds.isDirectory_eq (h : Adds names t u) (hrooted : t.Rooted names)
    (hne : others ≠ names) : u.isDirectory others = t.isDirectory others := by
  rw [Bool.eq_iff_iff, isDirectory_iff, isDirectory_iff, List.mem_cons, List.mem_cons, h.here]
  constructor
  · rintro (hroot | (hhere | hmade) | ⟨other, hother, hbegins, habove⟩)
    · exact .inl hroot
    · exact .inr (.inl (.inl hhere))
    · exact .inr (.inl (.inr ((h.directories_only _ hmade).resolve_right hne)))
    · rcases h.entries_only other hother with hold | rfl
      · exact .inr (.inr ⟨other, hold, hbegins, habove⟩)
      · have hdirectory := isDirectory_iff.mp (hrooted others hbegins habove)
        rwa [List.mem_cons] at hdirectory
  · rintro (hroot | (hhere | hmade) | ⟨other, hother, hbelow⟩)
    · exact .inl hroot
    · exact .inr (.inl (.inl hhere))
    · exact .inr (.inl (.inr (h.directories _ hmade)))
    · exact .inr (.inr ⟨other, h.entries other hother, hbelow⟩)

theorem Adds.at?_eq (h : Adds names t u) (hrooted : t.Rooted names) (hne : others ≠ names)
    (hbytes : u.bytes? others = t.bytes? others) : u.at? others = t.at? others := by
  unfold at?
  rw [hbytes, h.isDirectory_eq hrooted hne]

theorem mem_entries_of_put {bytes : List UInt8} (h : others ∈ (t.put names bytes).entries) :
    others ∈ t.entries ∨ others = names := by
  unfold put at h
  split at h
  · exact .inl h
  · split at h
    · have hkeys : (t.files.map fun f => if f.1 = names then (names, bytes) else f).map (·.1) =
          t.files.map (·.1) := by
        rw [List.map_map]
        refine List.map_congr_left fun f _ => ?_
        by_cases hf : f.1 = names
        · simp [hf]
        · simp [hf]
      unfold entries at h ⊢
      rw [hkeys] at h
      exact .inl h
    · unfold entries at h ⊢
      rw [List.map_append] at h
      simp only [List.cons_append, List.mem_cons, List.mem_append, List.map_cons, List.map_nil,
        List.not_mem_nil, or_false] at h ⊢
      tauto

theorem adds_put (bytes : List UInt8) : Adds names t (t.put names bytes) where
  here := here_put
  directories _ hq := by rwa [directories_put]
  directories_only _ hq := .inl (by rwa [directories_put] at hq)
  entries _ := mem_entries_put
  entries_only _ := mem_entries_of_put

theorem adds_directory :
    Adds names t { t with directories := t.directories ++ [names] } where
  here := rfl
  directories _ hq := List.mem_append_left _ hq
  directories_only q hq := by simpa using hq
  entries q hq := by
    simp only [FileTree.entries, List.cons_append, List.append_assoc, List.mem_cons,
      List.mem_append, List.not_mem_nil, false_or] at hq ⊢
    tauto
  entries_only q hq := by
    simp only [FileTree.entries, List.cons_append, List.append_assoc, List.mem_cons,
      List.mem_append, List.not_mem_nil, false_or] at hq ⊢
    tauto

theorem at?_put_of_ne {bytes : List UInt8} (hrooted : t.Rooted names) (hne : others ≠ names) :
    (t.put names bytes).at? others = t.at? others :=
  (adds_put bytes).at?_eq hrooted hne (bytes?_put_of_ne hne)

/-- A directory that is made stands where nothing was, and changes nothing else. -/
theorem exists_of_makeDirectory (h : t.makeDirectory p = .ok u) :
    ∃ names, t.resolve p = .ok names ∧ t.at? names = none ∧ u.here = t.here ∧
      u.at? names = some .directory ∧ ∀ others, others ≠ names → u.at? others = t.at? others := by
  unfold makeDirectory at h
  split at h
  · cases h
  · next names hresolve =>
    split at h
    · cases h
    · next hfree =>
      cases h
      rw [Bool.not_eq_true, Option.isSome_eq_false_iff, Option.isNone_iff_eq_none] at hfree
      refine ⟨names, hresolve, hfree, rfl, ?_, fun others hne =>
        adds_directory.at?_eq (rooted_of_resolve hresolve) hne rfl⟩
      have hdirectory : isDirectory { t with directories := t.directories ++ [names] } names :=
        isDirectory_iff.mpr (.inr (.inl (by simp)))
      unfold at? at hfree ⊢
      split at hfree
      · cases hfree
      · next hdevice =>
        rw [if_neg hdevice]
        split at hfree
        · cases hfree
        · next hbytes =>
          have hbytes' : bytes? { t with directories := t.directories ++ [names] } names = none :=
            hbytes
          rw [hbytes']
          exact if_pos hdirectory

/-! ## Trees that keep what was there -/

/-- Nothing is lost or moved from the first tree to the second, and what stands at other names than
the changed ones stands there as before. -/
structure Keeps (changed : List String → Prop) (t u : FileTree) : Prop where
  here : u.here = t.here
  directories : ∀ q, t.at? q = some .directory → u.at? q = some .directory
  others : ∀ q, ¬ changed q → t.at? q ≠ none → u.at? q = t.at? q

namespace Keeps

variable {changed more : List String → Prop}

theorem refl (t : FileTree) : Keeps changed t t := ⟨rfl, fun _ h => h, fun _ _ _ => rfl⟩

theorem trans (h : Keeps changed t u) (h' : Keeps changed u v) : Keeps changed t v where
  here := h'.here.trans h.here
  directories q hq := h'.directories q (h.directories q hq)
  others q hq hsome := by
    have hfirst := h.others q hq hsome
    rw [h'.others q hq (hfirst ▸ hsome), hfirst]

theorem mono (h : Keeps changed t u) (himp : ∀ q, changed q → more q) : Keeps more t u :=
  ⟨h.here, h.directories, fun q hq => h.others q fun hchanged => hq (himp q hchanged)⟩

theorem resolveFrom (h : Keeps changed t u) (hresolve : t.resolveFrom start path = .ok names) :
    u.resolveFrom start path = .ok names := by
  induction path generalizing start with
  | nil => exact hresolve
  | cons name path ih =>
    unfold FileTree.resolveFrom at hresolve ⊢
    split at hresolve
    · cases hresolve
    · cases hresolve
    · next hstart =>
      rw [h.directories start hstart]
      dsimp only
      split at hresolve
      · cases hresolve
      · next hshort =>
        rw [if_neg hshort]
        split at hresolve
        · next hparent => rw [if_pos hparent, ih hresolve]
        · next hchild => rw [if_neg hchild, ih hresolve]

theorem resolve (h : Keeps changed t u) (hresolve : t.resolve p = .ok names) :
    u.resolve p = .ok names := by
  unfold FileTree.resolve at hresolve ⊢
  split at hresolve
  · cases hresolve
  · next hnul =>
    rw [if_neg hnul]
    split at hresolve
    · cases hresolve
    · next hshort =>
      rw [if_neg hshort, h.here]
      exact h.resolveFrom hresolve

end Keeps

theorem find_eq_ok_iff {place : Place} :
    t.find p = .ok place ↔ ∃ names, t.resolve p = .ok names ∧ t.at? names = some place := by
  unfold find
  cases t.resolve p with
  | error fault => simp
  | ok names => cases h : t.at? names <;> simp [h]

/-- What a path led to is found there still, unless it was changed. -/
theorem Keeps.find_eq_ok {changed : List String → Prop} {place : Place} (h : Keeps changed t u)
    (hresolve : t.resolve p = .ok names) (hnames : ¬ changed names)
    (hfind : t.find p = .ok place) : u.find p = .ok place := by
  obtain ⟨names', hresolve', hplace⟩ := find_eq_ok_iff.mp hfind
  rw [hresolve] at hresolve'
  cases hresolve'
  refine find_eq_ok_iff.mpr ⟨names, h.resolve hresolve, ?_⟩
  rw [h.others names hnames (by simp [hplace]), hplace]

/-- A written file changes one place. -/
theorem keeps_of_write {text : String} (h : t.write p text = .ok u) :
    ∃ names, t.resolve p = .ok names ∧ Keeps (· = names) t u := by
  unfold write at h
  split at h
  · cases h
  · cases h
  · next names hresolve hfree =>
    cases h
    refine ⟨names, hresolve, here_put, fun q hq => ?_, fun q hq _ =>
      at?_put_of_ne (rooted_of_resolve hresolve) hq⟩
    by_cases heq : q = names
    · subst heq
      exact absurd (find_eq_ok_iff.mpr ⟨q, hresolve, hq⟩) hfree
    · exact at?_put_of_directory heq hq

/-! ## Directories that are made -/

theorem keeps_of_makeDirectory (h : t.makeDirectory p = .ok u) : Keeps (fun _ => False) t u := by
  obtain ⟨names, hresolve, hfree, hhere, hmade, hothers⟩ := exists_of_makeDirectory h
  have hother (q : List String) (hq : t.at? q ≠ none) : u.at? q = t.at? q := by
    refine hothers q ?_
    rintro rfl
    exact hq hfree
  exact ⟨hhere, fun q hq => by rw [hother q (by simp [hq]), hq], fun q _ => hother q⟩

theorem find_of_makeDirectory (h : t.makeDirectory p = .ok u) : u.find p = .ok .directory := by
  have hkeeps := keeps_of_makeDirectory h
  obtain ⟨names, hresolve, -, -, hmade, -⟩ := exists_of_makeDirectory h
  exact find_eq_ok_iff.mpr ⟨names, hkeeps.resolve hresolve, hmade⟩

theorem provideDirectory_spec (h : t.provideDirectory p = .ok u) :
    Keeps (fun _ => False) t u ∧ u.find p = .ok .directory := by
  unfold provideDirectory at h
  split at h
  · next hmade =>
    cases h
    exact ⟨keeps_of_makeDirectory hmade, find_of_makeDirectory hmade⟩
  · next hfind =>
    cases h
    exact ⟨.refl t, hfind⟩
  · cases h

/-- The directories above are made one after another, and each keeps what was there. -/
theorem provideDirectories_spec {root : String} {reversed : List String}
    (h : t.provideDirectories root reversed = .ok u) :
    Keeps (fun _ => False) t u ∧ u.find ⟨root, reversed.reverse⟩ = .ok .directory := by
  induction reversed generalizing u with
  | nil => exact provideDirectory_spec h
  | cons name above ih =>
    unfold provideDirectories at h
    dsimp only at h
    split at h
    · split at h
      · cases h
      · next v hv =>
        obtain ⟨hkeeps, hfind⟩ := provideDirectory_spec h
        exact ⟨(ih hv).1.trans hkeeps, hfind⟩
    · exact provideDirectory_spec h

/-- A directory that was asked for is there, and nothing else is disturbed. -/
theorem makeDirectories_spec (h : t.makeDirectories p = .ok u) :
    Keeps (fun _ => False) t u ∧ u.find p = .ok .directory := by
  obtain ⟨hkeeps, hfind⟩ := provideDirectories_spec h
  rw [List.reverse_reverse] at hfind
  exact ⟨hkeeps, hfind⟩

/-! ## What is in a directory -/

theorem resolveFrom_append (rest : List String) : t.resolveFrom start (path ++ rest) =
    t.resolveFrom start path >>= fun names => t.resolveFrom names rest := by
  induction path generalizing start with
  | nil => rfl
  | cons name path ih =>
    rw [List.cons_append, resolveFrom, resolveFrom]
    split
    · rfl
    · rfl
    · split
      · rfl
      · split
        · exact ih
        · exact ih

/-- The error of a name in a directory, whatever is in the directory. -/
def nameFault? (p : Path) (name : String) : Option FileFault :=
  if Path.hasNul name then some .nul
  else if Path.limit ≤ (p.child name).text.utf8ByteSize then some .nameTooLong
  else if 255 < name.utf8ByteSize then some .nameTooLong
  else none

theorem resolve_child {name : String} (hresolve : t.resolve p = .ok names)
    (hplace : t.at? names = some .directory) (hname : name ≠ "..") :
    t.resolve (p.child name) =
      match nameFault? p name with
      | some fault => .error fault
      | none => .ok (names ++ [name]) := by
  unfold resolve at hresolve
  split at hresolve
  · cases hresolve
  · next hnul =>
    rw [Bool.not_eq_true] at hnul
    split at hresolve
    · cases hresolve
    · have hstep : t.resolveFrom (if (p.child name).isAbsolute then [] else t.here)
          (p.child name).names = t.resolveFrom names [name] := by
        change t.resolveFrom (if p.isAbsolute then [] else t.here) (p.names ++ [name]) = _
        rw [resolveFrom_append, hresolve]
        rfl
      have hlast : t.resolveFrom names [name] =
          if 255 < name.utf8ByteSize then .error .nameTooLong else .ok (names ++ [name]) := by
        rw [resolveFrom, hplace]
        dsimp only
        rw [if_neg hname]
        rfl
      have hnuls : (p.child name).names.any Path.hasNul = Path.hasNul name := by
        rw [Path.child, List.any_append, hnul, Bool.false_or, List.any_cons, List.any_nil,
          Bool.or_false]
      unfold resolve nameFault?
      rw [hnuls, hstep, hlast]
      by_cases hnul : Path.hasNul name
      · simp only [if_pos hnul]
      · by_cases hlong : Path.limit ≤ (p.child name).text.utf8ByteSize
        · simp only [if_neg hnul, if_pos hlong]
        · simp only [if_neg hnul, if_neg hlong]
          split <;> rfl

theorem isSome_bytes?_iff : (t.bytes? names).isSome ↔ names ∈ t.files.map (·.1) := by
  unfold bytes?
  rw [Option.isSome_iff_ne_none, ne_eq, Assoc.lookup_eq_none_iff, not_not, Assoc.keys]

theorem isSome_at?_iff (hne : names ≠ []) :
    (t.at? names).isSome ↔ ∃ other ∈ t.entries, names <+: other := by
  have hcases : (t.at? names).isSome ↔ names = nullDevice ∨ (t.bytes? names).isSome ∨
      t.isDirectory names := by
    unfold at?
    by_cases hdevice : names = nullDevice
    · simp [hdevice]
    · cases t.bytes? names <;> simp [hdevice]
  rw [hcases, isSome_bytes?_iff, isDirectory_iff]
  constructor
  · rintro (hdevice | hfile | hroot | hmade | ⟨other, hother, hbegins, -⟩)
    · exact ⟨names, by simp [entries, hdevice], List.prefix_rfl⟩
    · exact ⟨names, by simp only [entries, List.mem_append, List.mem_cons]; tauto, List.prefix_rfl⟩
    · exact absurd hroot hne
    · exact ⟨names, List.mem_append_left _ hmade, List.prefix_rfl⟩
    · exact ⟨other, hother, hbegins⟩
  · rintro ⟨other, hother, hbegins⟩
    by_cases heq : names = other
    · subst heq
      simp only [entries, List.mem_append, List.mem_cons] at hother ⊢
      tauto
    · exact .inr (.inr (.inr (.inr ⟨other, hother, hbegins, heq⟩)))

theorem concat_prefix_iff {name : String} {other : List String} :
    names ++ [name] <+: other ↔ names <+: other ∧ other[names.length]? = some name := by
  constructor
  · rintro ⟨rest, rfl⟩
    exact ⟨⟨name :: rest, by simp⟩, by simp⟩
  · rintro ⟨⟨rest, rfl⟩, hname⟩
    rw [List.getElem?_append_right (Nat.le_refl _), Nat.sub_self] at hname
    obtain ⟨rest, rfl⟩ := List.head?_eq_some_iff.mp (List.head?_eq_getElem?.trans hname)
    exact ⟨rest, by simp⟩

/-- The names in a directory are those under which something stands. -/
theorem mem_list_iff {name : String} :
    name ∈ t.list names ↔ (t.at? (names ++ [name])).isSome := by
  unfold list
  rw [isSome_at?_iff (by simp), List.mem_eraseDups, List.mem_filterMap]
  refine exists_congr fun other => and_congr_right fun _ => ?_
  rw [concat_prefix_iff, ← List.isPrefixOf_iff_prefix]
  split <;> simp_all

/-- What is in a directory is found there still, unless it was changed; so is a name that cannot
be looked for. -/
theorem Keeps.find_child {changed : List String → Prop} {name : String} (h : Keeps changed t u)
    (hresolve : t.resolve p = .ok names) (hplace : t.at? names = some .directory)
    (hname : name ≠ "..") (hlisted : name ∈ t.list names) (hkept : ¬ changed (names ++ [name])) :
    u.find (p.child name) = t.find (p.child name) := by
  have hsome : t.at? (names ++ [name]) ≠ none :=
    Option.isSome_iff_ne_none.mp (mem_list_iff.mp hlisted)
  unfold find
  rw [resolve_child hresolve hplace hname,
    resolve_child (h.resolve hresolve) (h.directories names hplace) hname]
  cases nameFault? p name with
  | some fault => rfl
  | none => simp only [h.others _ hkept hsome]

/-! ## Texts that stay -/

theorem Holds.of_keeps {changed : List String → Prop} {text : String} (h : t.Holds p text)
    (hkeeps : Keeps changed t u) (hresolve : t.resolve p = .ok names) (hkept : ¬ changed names) :
    u.Holds p text := by
  unfold Holds read at h ⊢
  split at h
  · next hfind => rw [hkeeps.find_eq_ok hresolve hkept hfind]; exact h
  · cases h
  · cases h

/-- A file that is written in a directory is the only one to change. -/
theorem keeps_of_write_child {name text : String} (hresolve : t.resolve p = .ok names)
    (hplace : t.at? names = some .directory) (hname : name ≠ "..")
    (h : t.write (p.child name) text = .ok u) :
    t.resolve (p.child name) = .ok (names ++ [name]) ∧ Keeps (· = names ++ [name]) t u := by
  obtain ⟨place, hchild, hkeeps⟩ := keeps_of_write h
  have hplaced := resolve_child hresolve hplace hname
  rw [hchild] at hplaced
  split at hplaced
  · cases hplaced
  · cases hplaced
    exact ⟨hchild, hkeeps⟩

theorem holds_of_write_child {name text : String} (hresolve : t.resolve p = .ok names)
    (hplace : t.at? names = some .directory) (hname : name ≠ ".." ∧ name ≠ "null")
    (h : t.write (p.child name) text = .ok u) :
    t.resolve (p.child name) = .ok (names ++ [name]) ∧ u.Holds (p.child name) text := by
  obtain ⟨hchild, -⟩ := keeps_of_write_child hresolve hplace hname.1 h
  refine ⟨hchild, holds_of_write h ?_⟩
  rw [hchild]
  intro heq
  have hlast := congrArg List.getLast? (Except.ok.inj heq)
  rw [List.getLast?_concat] at hlast
  exact hname.2 (Option.some.inj hlast)

end Breadboard.FileTree
