import Breadboard.Files.Glob
import Breadboard.Proofs.Files.Undisturbed
import Breadboard.Proofs.Lists
import Mathlib.Data.String.Basic

/-!
# The circuit files of a directory

The path of a file in a directory is read back from its text as it was, and the paths of the files
in one directory are in the order of their names. So a directory is worked through name by name.
-/

namespace Breadboard

namespace Path

variable {p : Path} {name other : String}

/-! ## Paths and their texts -/

/-- A text that is one name of a path: it is not empty, has no slash and is not a single dot. -/
structure IsPart (name : String) : Prop where
  ne_empty : name ≠ ""
  no_slash : '/' ∉ name.toList
  ne_dot : name ≠ "."

instance : Decidable (IsPart name) :=
  decidable_of_iff (name ≠ "" ∧ '/' ∉ name.toList ∧ name ≠ ".")
    ⟨fun ⟨hempty, hslash, hdot⟩ => ⟨hempty, hslash, hdot⟩,
      fun ⟨hempty, hslash, hdot⟩ => ⟨hempty, hslash, hdot⟩⟩

theorem not_mem_of_mem_splitOnP {cs part : List Char} (h : part ∈ cs.splitOnP (· == '/')) :
    '/' ∉ part :=
  fun hmem => absurd (eq_false_of_mem_splitOnP h '/' hmem) (by decide)

theorem isPart_of_mem_ofText {s : String} (h : name ∈ (ofText s).names) : IsPart name := by
  obtain ⟨cs, hcs, rfl⟩ := List.mem_map.mp h
  obtain ⟨hpart, hkept⟩ := List.mem_filter.mp hcs
  rw [Bool.not_eq_true', Bool.or_eq_false_iff, List.isEmpty_eq_false_iff, beq_eq_false_iff_ne]
    at hkept
  refine ⟨?_, ?_, ?_⟩
  · rw [ne_eq, String.ofList_eq_empty_iff]
    exact hkept.1
  · rw [String.toList_ofList]
    exact not_mem_of_mem_splitOnP hpart
  · intro hdot
    exact hkept.2 (by rw [← String.toList_ofList (l := cs), hdot]; rfl)

theorem root_ofText (s : String) :
    (ofText s).root = "" ∨ (ofText s).root = "/" ∨ (ofText s).root = "//" := by
  unfold ofText rootOf
  dsimp only
  split <;> simp

/-- What stands between the slashes of a path's text. -/
def partsOf (cs : List Char) : List (List Char) :=
  (cs.splitOnP (· == '/')).filter fun n => !(n.isEmpty || n == ['.'])

theorem partsOf_slash (cs : List Char) : partsOf ('/' :: cs) = partsOf cs := by
  unfold partsOf
  rw [List.splitOnP_cons_eq_if_modifyHead, if_pos (beq_self_eq_true '/')]
  rfl

theorem partsOf_intercalate {names : List String} (hne : names ≠ [])
    (hparts : ∀ n ∈ names, IsPart n) :
    partsOf (['/'].intercalate (names.map String.toList)) = names.map String.toList := by
  have hsplit : (['/'].intercalate (names.map String.toList)).splitOnP (· == '/') =
      names.map String.toList := by
    refine List.splitOn_intercalate '/' ?_ (by simpa using hne)
    rw [List.forall_mem_map]
    exact fun n hn => (hparts n hn).no_slash
  unfold partsOf
  rw [hsplit, List.filter_eq_self, List.forall_mem_map]
  intro n hn
  have hempty : n.toList ≠ [] := fun h => (hparts n hn).ne_empty (String.toList_eq_nil_iff.mp h)
  have hdot : n.toList ≠ ['.'] := fun h => (hparts n hn).ne_dot (String.toList_injective h)
  simp [hempty, hdot]

theorem takeWhile_intercalate {names : List String} (hparts : ∀ n ∈ names, IsPart n) :
    (['/'].intercalate (names.map String.toList)).takeWhile (· == '/') = [] := by
  cases names with
  | nil => rfl
  | cons n rest =>
    obtain ⟨hempty, hslash, -⟩ := hparts n List.mem_cons_self
    obtain ⟨c, cs, hn⟩ := List.exists_cons_of_ne_nil
      fun h => hempty (String.toList_eq_nil_iff.mp h)
    have hc : (c == '/') = false := beq_eq_false_iff_ne.mpr fun h => hslash (by simp [hn, h])
    have hhead : ∃ more, ['/'].intercalate ((n :: rest).map String.toList) = c :: more := by
      cases rest with
      | nil => exact ⟨cs, by simp [hn]⟩
      | cons m rest => exact ⟨_, by simp [hn, List.intercalate]; rfl⟩
    obtain ⟨more, hmore⟩ := hhead
    rw [hmore, List.takeWhile_cons, if_neg (by rw [hc]; exact Bool.false_ne_true)]

theorem ofText_text (hroot : p.root = "" ∨ p.root = "/" ∨ p.root = "//") (hne : p.names ≠ [])
    (hparts : ∀ n ∈ p.names, IsPart n) : ofText p.text = p := by
  have hnames : p.names.isEmpty = false := List.isEmpty_eq_false_iff.mpr hne
  have htext : p.text.toList = p.root.toList ++ ['/'].intercalate (p.names.map String.toList) := by
    unfold text
    rw [hnames, Bool.and_false, if_neg Bool.false_ne_true, String.toList_append,
      String.toList_intercalate]
    rfl
  have hrootOf : rootOf p.text.toList = p.root := by
    unfold rootOf
    rw [htext]
    obtain h | h | h := hroot <;> simp [h, takeWhile_intercalate hparts]
  have hpartsOf : partsOf p.text.toList = p.names.map String.toList := by
    rw [htext]
    obtain h | h | h := hroot <;>
      simp [h, partsOf_slash, partsOf_intercalate hne hparts]
  have hnamesOf : (partsOf p.text.toList).map String.ofList = p.names := by
    rw [hpartsOf, List.map_map]
    exact List.map_id'' (fun _ => String.ofList_toList) _
  exact congrArg₂ Path.mk hrootOf hnamesOf

/-- The text of a file in a directory that was read from a text. -/
theorem ofText_child {s : String} (h : IsPart name) :
    ofText ((ofText s).child name).text = (ofText s).child name := by
  refine ofText_text (root_ofText s) (by simp [child]) fun n hn => ?_
  rcases List.mem_append.mp hn with hn | hn
  · exact isPart_of_mem_ofText hn
  · rwa [List.mem_singleton.mp hn]

@[simp] theorem name_child : (p.child name).name = name := by simp [Path.name, child]

/-! ## The order in a directory -/

theorem namesLe_append (above : List String) (l r : List String) :
    namesLe (above ++ l) (above ++ r) = namesLe l r := by
  induction above with
  | nil => rfl
  | cons n above ih => rw [List.cons_append, List.cons_append, namesLe, if_pos rfl, ih]

theorem le_child : (p.child name).le (p.child other) = decide (name ≤ other) := by
  have hlast : namesLe [name] [other] = decide (name ≤ other) := by
    rw [namesLe]
    by_cases heq : name = other
    · simp [heq, namesLe]
    · rw [if_neg heq]
      simp [le_iff_lt_or_eq, heq]
  unfold le
  change namesLe (if p.isAbsolute then p.root :: (p.names ++ [name]) else p.names ++ [name])
    (if p.isAbsolute then p.root :: (p.names ++ [other]) else p.names ++ [other]) = _
  split
  · rw [← List.cons_append, ← List.cons_append, namesLe_append, hlast]
  · rw [namesLe_append, hlast]

end Path

/-! ## Names with an ending -/

namespace Glob

variable {ps : List Piece} {c : Char} {cs : List Char}

/-- The first mark is for the whole text, the others are those of the text without its first
character. -/
theorem marks_cons (ps : List Piece) (c : Char) (cs : List Char) :
    marks ps (c :: cs) = suit ps (c :: cs) :: marks ps cs := by
  have hhead (marked : List Bool) (h : marked ≠ []) :
      marked = marked.headD false :: marked.tail := by
    cases marked with
    | nil => exact absurd rfl h
    | cons b bs => rfl
  have htail : (marks ps (c :: cs)).tail = marks ps cs := by
    induction ps with
    | nil => rfl
    | cons p ps ih =>
      have hne : marks ps (c :: cs) ≠ [] := List.ne_nil_of_length_pos (by simp [length_marks])
      have hne' : marks ps cs ≠ [] := List.ne_nil_of_length_pos (by simp [length_marks])
      cases p with
      | run =>
        rw [marks, marks, hhead _ hne, ih]
        rfl
      | char | any | set =>
        rw [marks, marks, ih, hhead _ hne']
        · rfl
        all_goals exact fun h => by cases h
  have hne : marks ps (c :: cs) ≠ [] := List.ne_nil_of_length_pos (by simp [length_marks])
  rw [hhead _ hne, htail]
  rfl

theorem suit_run_cons :
    suit (.run :: ps) (c :: cs) = (suit ps (c :: cs) || suit (.run :: ps) cs) := by
  rw [suit, marks, marks_cons]
  rfl

theorem suit_char_cons {d : Char} : suit (.char d :: ps) (c :: cs) = (c == d && suit ps cs) := by
  have hne : marks ps cs ≠ [] := List.ne_nil_of_length_pos (by simp [length_marks])
  obtain ⟨b, bs, hmarks⟩ := List.exists_cons_of_ne_nil hne
  rw [suit, marks, marks_cons, List.tail_cons, suit, hmarks]
  · rfl
  · exact fun h => by cases h

theorem suit_chars_iff {text : List Char} : suit (text.map .char) cs ↔ text = cs := by
  induction text generalizing cs with
  | nil => cases cs <;> simp [suit, marks]
  | cons d text ih =>
    cases cs with
    | nil => simp [suit, marks]
    | cons c cs =>
      rw [List.map_cons, suit_char_cons, Bool.and_eq_true, beq_iff_eq, ih, List.cons.injEq, eq_comm]

/-- A star in front of characters matches the texts that end in them. -/
theorem suit_run_chars_iff {text : List Char} :
    suit (.run :: text.map .char) cs ↔ text <:+ cs := by
  induction cs with
  | nil =>
    have hnil : suit (.run :: text.map .char) [] = suit (text.map .char) [] := by
      have hlength := length_marks (text.map .char) []
      obtain ⟨b, hb⟩ := List.length_eq_one_iff.mp hlength
      rw [suit, marks, suit, hb]
      simp [orLater]
    rw [hnil, suit_chars_iff, List.suffix_nil]
  | cons c cs ih => rw [suit_run_cons, Bool.or_eq_true, suit_chars_iff, ih, List.suffix_cons_iff]

/-- The names of circuit files are those that end in ".json". -/
theorem matchesName_json_iff {name : String} :
    matchesName "*.json" name ↔ ".json".toList <:+ name.toList := by
  have hpieces : pieces "*.json" = .run :: ".json".toList.map .char := by decide
  rw [matchesName, hpieces, suit_run_chars_iff]

end Glob

namespace FileTree

variable {t : FileTree} {directory names : List String} {name : String}

/-- All names in a tree are names that a file or directory can have. -/
def WellNamed (t : FileTree) : Prop :=
  ∀ entry ∈ t.entries, ∀ name ∈ entry, Path.IsPart name ∧ name ≠ ".."

instance : Decidable t.WellNamed :=
  inferInstanceAs (Decidable (∀ entry ∈ t.entries, ∀ name ∈ entry, Path.IsPart name ∧ name ≠ ".."))

theorem WellNamed.of_mem_list (h : t.WellNamed) (hname : name ∈ t.list directory) :
    Path.IsPart name ∧ name ≠ ".." := by
  obtain ⟨entry, hentry, hbegins⟩ := (isSome_at?_iff (by simp)).mp (mem_list_iff.mp hname)
  exact h entry hentry name (hbegins.subset (List.mem_append_right _ (List.mem_singleton_self _)))

/-- These are the names of the circuit files in a directory, in order. -/
structure CircuitNames (t : FileTree) (directory names : List String) : Prop where
  ascending : names.Pairwise (· < ·)
  mem_iff : ∀ n, n ∈ names ↔ n ∈ t.list directory ∧ ".json".toList <:+ n.toList

theorem circuitNames_iff : t.CircuitNames directory names ↔
    ((t.list directory).filter (Glob.matchesName "*.json")).mergeSort (fun a b => decide (a ≤ b)) =
      names := by
  have htrans (a b c : String) (hab : decide (a ≤ b)) (hbc : decide (b ≤ c)) : decide (a ≤ c) :=
    decide_eq_true ((of_decide_eq_true hab).trans (of_decide_eq_true hbc))
  have htotal (a b : String) : decide (a ≤ b) || decide (b ≤ a) := by simpa using le_total a b
  have hpairwise := List.pairwise_mergeSort htrans htotal
    ((t.list directory).filter (Glob.matchesName "*.json"))
  have hperm := List.mergeSort_perm ((t.list directory).filter (Glob.matchesName "*.json"))
    (fun a b => decide (a ≤ b))
  have hnodup : ((t.list directory).filter (Glob.matchesName "*.json")).Nodup :=
    (nodup_eraseDups _).filter _
  simp only [decide_eq_true_eq] at hpairwise
  constructor
  · intro h
    refine List.Perm.eq_of_pairwise (fun a b _ _ => le_antisymm) hpairwise
      (h.ascending.imp le_of_lt) (hperm.trans ?_)
    refine (List.perm_ext_iff_of_nodup hnodup (h.ascending.imp ne_of_lt)).mpr fun n => ?_
    rw [h.mem_iff, List.mem_filter, Glob.matchesName_json_iff]
  · rintro rfl
    refine ⟨?_, fun n => by rw [hperm.mem_iff, List.mem_filter, Glob.matchesName_json_iff]⟩
    exact (hpairwise.and (hperm.nodup_iff.mpr hnodup)).imp fun h => lt_of_le_of_ne h.1 h.2

end FileTree

end Breadboard
