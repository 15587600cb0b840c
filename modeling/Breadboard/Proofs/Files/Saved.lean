import Breadboard.Files.Documents
import Breadboard.Proofs.Text.Lines
import Breadboard.Proofs.Text.Utf8
import Mathlib.Tactic.Tauto

/-!
# Saved texts

A text that is written to a file is in that file, and reading the file gives the text with its line
ends unified. So the lines that are read are the lines that were written.
-/

namespace Breadboard

open Text

namespace FileTree

variable {t : FileTree} {p : Path} {text : String}

/-- A file at this path holds this text. -/
def Holds (t : FileTree) (p : Path) (text : String) : Prop :=
  t.read p = .ok (encodeUtf8 text.toList)

theorem Holds.readText (h : t.Holds p text) :
    t.readText p = .ok (String.ofList (unifyNewlines text.toList)) := by
  unfold Holds at h
  unfold FileTree.readText
  rw [h]
  dsimp only
  rw [decodeUtf8_encodeUtf8]

/-! ## Writing -/

variable {names others : List String} {bytes : List UInt8}

/-- Other bytes for a file change what is found under its names alone. -/
theorem lookup_replace (files : List (List String × List UInt8)) :
    (files.map fun f => if f.1 = names then (names, bytes) else f).lookup others =
      (files.lookup others).map fun found => if others = names then bytes else found := by
  induction files with
  | nil => rfl
  | cons f files ih =>
    obtain ⟨key, value⟩ := f
    rw [List.map_cons]
    by_cases hkey : key = names
    · subst hkey
      rw [if_pos rfl, List.lookup_cons, List.lookup_cons, ih]
      cases hbeq : others == key with
      | true => simp [beq_iff_eq.mp hbeq]
      | false => rfl
    · rw [if_neg hkey, List.lookup_cons, List.lookup_cons, ih]
      cases hbeq : others == key with
      | true => simp [beq_iff_eq.mp hbeq, hkey]
      | false => rfl

theorem bytes?_put (hdevice : names ≠ nullDevice) :
    (t.put names bytes).bytes? names = some bytes := by
  unfold put bytes?
  rw [if_neg hdevice]
  split
  · next hmem =>
    have hfound : (t.files.lookup names).isSome := by
      rw [Option.isSome_iff_ne_none, ne_eq, Assoc.lookup_eq_none_iff, not_not]
      exact List.contains_iff_mem.mp hmem
    obtain ⟨found, hfound⟩ := Option.isSome_iff_exists.mp hfound
    rw [lookup_replace, hfound, Option.map_some, if_pos rfl]
  · next hmem =>
    have hmissing : t.files.lookup names = none := by
      rw [Assoc.lookup_eq_none_iff]
      exact fun h => hmem (List.contains_iff_mem.mpr h)
    rw [List.lookup_append, hmissing, Option.none_or, List.lookup_cons, beq_self_eq_true]

theorem bytes?_put_of_ne (hne : others ≠ names) :
    (t.put names bytes).bytes? others = t.bytes? others := by
  unfold put bytes?
  split
  · rfl
  · split
    · rw [lookup_replace]
      simp [hne]
    · have hbeq : (others == names) = false := beq_eq_false_iff_ne.mpr hne
      rw [List.lookup_append, List.lookup_cons, hbeq, List.lookup_nil, Option.or_none]

theorem mem_entries_put (h : others ∈ t.entries) : others ∈ (t.put names bytes).entries := by
  unfold put
  split
  · exact h
  · split
    · have hkeys : (t.files.map fun f => if f.1 = names then (names, bytes) else f).map (·.1) =
          t.files.map (·.1) := by
        rw [List.map_map]
        refine List.map_congr_left fun f _ => ?_
        by_cases hf : f.1 = names
        · simp [hf]
        · simp [hf]
      unfold entries at h ⊢
      rwa [hkeys]
    · unfold entries at h ⊢
      rw [List.map_append]
      simp only [List.cons_append, List.mem_cons, List.mem_append] at h ⊢
      tauto

theorem here_put : (t.put names bytes).here = t.here := by
  unfold put
  split
  · rfl
  · split <;> rfl

theorem directories_put : (t.put names bytes).directories = t.directories := by
  unfold put
  split
  · rfl
  · split <;> rfl

theorem isDirectory_put (h : t.isDirectory others) : (t.put names bytes).isDirectory others := by
  unfold isDirectory at h ⊢
  rw [here_put, directories_put]
  rw [Bool.or_eq_true, List.any_eq_true] at h ⊢
  refine h.imp_right ?_
  rintro ⟨other, hother, hbelow⟩
  exact ⟨other, mem_entries_put hother, hbelow⟩

/-- Directories stay where a file is put, unless it takes their place. -/
theorem at?_put_of_directory (hne : others ≠ names) (h : t.at? others = some .directory) :
    (t.put names bytes).at? others = some .directory := by
  unfold at? at h ⊢
  split at h
  · cases h
  · next hdevice =>
    rw [if_neg hdevice, bytes?_put_of_ne hne]
    cases hbytes : t.bytes? others with
    | some found =>
      rw [hbytes] at h
      cases h
    | none =>
      rw [hbytes] at h
      dsimp only at h ⊢
      split at h
      · next hdirectory => exact if_pos (isDirectory_put hdirectory)
      · cases h

theorem resolveFrom_put {start : List String} {path : List String}
    (h : t.resolveFrom start path = .ok names) (hnames : t.at? names ≠ some .directory) :
    (t.put names bytes).resolveFrom start path = .ok names := by
  induction path generalizing start with
  | nil => exact h
  | cons name path ih =>
    unfold resolveFrom at h ⊢
    split at h
    · cases h
    · cases h
    · next hstart =>
      have hne : start ≠ names := by
        rintro rfl
        exact hnames hstart
      rw [at?_put_of_directory hne hstart]
      dsimp only
      split at h
      · cases h
      · next hshort =>
        rw [if_neg hshort]
        split at h
        · next hparent => rw [if_pos hparent, ih h]
        · next hchild => rw [if_neg hchild, ih h]

theorem resolve_put (h : t.resolve p = .ok names) (hnames : t.at? names ≠ some .directory) :
    (t.put names bytes).resolve p = .ok names := by
  unfold resolve at h ⊢
  split at h
  · cases h
  · next hnul =>
    rw [if_neg hnul]
    split at h
    · cases h
    · next hshort =>
      rw [if_neg hshort, here_put]
      exact resolveFrom_put h hnames

/-- A text that was written to a file is in it; the null device keeps nothing. -/
theorem holds_of_write {written : FileTree} (h : t.write p text = .ok written)
    (hdevice : t.resolve p ≠ .ok nullDevice) : written.Holds p text := by
  unfold write at h
  cases hresolve : t.resolve p with
  | error fault =>
    rw [hresolve] at h
    split at h
    · cases h
    · cases h
    · next heq _ => cases heq
  | ok names =>
    rw [hresolve] at h
    split at h
    · cases h
    · cases h
    · next heq hfind =>
      cases heq
      cases h
      have hnames : t.at? names ≠ some .directory := by
        intro hdirectory
        refine hfind ?_
        rw [find, hresolve]
        simp only [hdirectory]
      have hne : names ≠ nullDevice := by
        rintro rfl
        exact hdevice hresolve
      have hat : (t.put names (encodeUtf8 text.toList)).at? names =
          some (.file (encodeUtf8 text.toList)) := by
        rw [at?, if_neg hne, bytes?_put hne]
      unfold Holds read find
      rw [resolve_put hresolve hnames]
      simp only [hat]

end FileTree

end Breadboard
