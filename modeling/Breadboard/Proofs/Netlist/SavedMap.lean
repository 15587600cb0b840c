import Breadboard.Proofs.Files.Saved
import Breadboard.Proofs.Json.RoundTrip
import Breadboard.Proofs.Netlist.LoadedMap

/-!
# Saved node maps

A node map that is saved as a JSON text is loaded as it was, entry by entry, whatever the names of
its nets are. Only a number with too many digits cannot be loaded.
-/

namespace Breadboard

open Text Numeral

namespace Json

/-- A written object of whole numbers is free of carriage returns. -/
theorem return_not_mem_wholeFields (es : List (String × Nat)) :
    '\r' ∉ indentedChars 0 (.object (wholeFields es)) := by
  have hmargin (depth : Nat) : '\r' ∉ margin depth := by simp [margin]
  have hdigits (n : Nat) : '\r' ∉ Nat.toDigits 10 n := fun h =>
    absurd (Token.isDigit_of_mem_toDigits h) (by decide)
  have hfields (depth : Nat) : '\r' ∉ indentedFields depth (wholeFields es) := by
    induction es with
    | nil => exact List.not_mem_nil
    | cons e es ih =>
      by_cases hnil : es = []
      · subst hnil
        rw [indentedFields_singleton]
        simp [return_not_mem_stringChars, hdigits]
      · rw [indentedFields_cons e hnil]
        simp [return_not_mem_stringChars, hdigits, hmargin, ih]
  by_cases hne : es = []
  · subst hne
    decide
  · rw [indentedChars_wholeFields hne]
    simp [hmargin, hfields]

end Json

namespace NodeMap

variable {m : NodeMap}

/-- What makes the map of a deck: distinct names, ground among them, and no negative numbers. -/
structure IsLoadable (m : NodeMap) : Prop where
  distinct : (Assoc.keys m.entries).Nodup
  ground : Net.ground ∈ Assoc.keys m.entries
  nonneg : ∀ e ∈ m.entries, 0 ≤ e.2

/-- The entries with their numbers as natural numbers. -/
def naturals (m : NodeMap) : List (String × Nat) := m.entries.map fun e => (e.1, e.2.toNat)

theorem toJson_eq (hm : m.IsLoadable) : m.toJson = .object (Json.wholeFields m.naturals) := by
  unfold toJson Json.wholeFields naturals
  rw [List.map_map]
  refine congrArg Json.object (List.map_congr_left fun e he => ?_)
  rw [Function.comp_apply, Int.toNat_of_nonneg (hm.nonneg e he)]

theorem ofDocument_toJson (hm : m.IsLoadable) : ofDocument m.toJson = .ok m := by
  have hmap : m = ofEntries m.entries := by
    unfold ofEntries
    rw [Assoc.ofList_of_nodup hm.distinct]
    simp [hm.ground]
  exact ofDocument_eq_ok_iff.mpr ⟨m, rfl, hmap⟩

theorem keys_naturals : Assoc.keys m.naturals = Assoc.keys m.entries := by
  unfold Assoc.keys naturals
  rw [List.map_map]
  rfl

/-- Whether all numbers of a map can be read. -/
def IsShort (m : NodeMap) : Prop := ∀ e ∈ m.entries, (toString e.2).length ≤ maxDigits

theorem isReadable_iff {k : Int} (hk : 0 ≤ k) :
    Json.IsReadable k.toNat ↔ (toString k).length ≤ maxDigits := by
  rw [← String.length_toList, show (toString k).toList = DeviceLine.nodeChars k from rfl,
    DeviceLine.nodeChars_eq hk]
  rfl

/-- A saved map is loaded as it was, and it is loaded exactly when its numbers can be read. -/
theorem load_of_holds {t : FileTree} {p : Path} (n : Json.Nesting) (hm : m.IsLoadable)
    (hsaved : t.Holds p m.toJson.indented) :
    (m.IsShort → load t n p = .ok m) ∧ (¬ m.IsShort → ∃ e, load t n p = .error e) := by
  have hchars : m.toJson.indented.toList =
      Json.indentedChars 0 (.object (Json.wholeFields m.naturals)) := by
    rw [toJson_eq hm, Json.indented, String.toList_ofList]
  have hread : t.readText p = .ok m.toJson.indented := by
    rw [hsaved.readText, hchars, unifyNewlines_of_not_mem (Json.return_not_mem_wholeFields _),
      ← hchars, String.ofList_toList]
  have hshort : m.IsShort ↔ ∀ e ∈ m.naturals, Json.IsReadable e.2 := by
    unfold IsShort naturals
    rw [List.forall_mem_map]
    exact forall₂_congr fun e he => (isReadable_iff (hm.nonneg e he)).symm
  have hok {j : Json} (hjson : Json.read n (Json.indentedChars 0
      (.object (Json.wholeFields m.naturals))) = .ok j) : load t n p = ofDocument j := by
    rw [← hchars] at hjson
    unfold load FileTree.readJson
    rw [hread]
    simp [hjson, bind, Except.bind, pure, Except.pure]
  have herror {e : Json.ReadError} (hjson : Json.read n (Json.indentedChars 0
      (.object (Json.wholeFields m.naturals))) = .error e) : load t n p = .error (.json e) := by
    rw [← hchars] at hjson
    unfold load FileTree.readJson
    rw [hread]
    simp [hjson, bind, Except.bind, throw, throwThe, MonadExceptOf.throw]
  have hkeys : (Assoc.keys m.naturals).Nodup := by
    rw [keys_naturals]
    exact hm.distinct
  rw [hshort]
  constructor
  · intro hes
    rw [hok (Json.read_indented hkeys hes), ← toJson_eq hm]
    exact ofDocument_toJson hm
  · intro hes
    have hlong : ∃ e ∈ m.naturals, ¬ Json.IsReadable e.2 := by
      by_contra hnone
      exact hes fun e he => by_contra fun hlong => hnone ⟨e, he, hlong⟩
    obtain ⟨e, hread⟩ := Json.read_indented_error hlong
    exact ⟨_, herror hread⟩

end NodeMap

theorem Deck.isLoadable_nodeMap {components : List Component} {s : Settings} {deck : Deck}
    (h : ofComponents components s = .ok deck) : deck.nodeMap.IsLoadable := by
  obtain ⟨t, ht, hmap⟩ := exists_numbered h
  rw [hmap]
  have hground : (Net.ground, (0 : Int)) ∈ t.entries := List.mem_of_mem_head? ht.ground_first
  exact ⟨ht.distinct, List.mem_map_of_mem hground, fun e he => ht.nonneg he⟩

end Breadboard
