import Breadboard.Proofs.Json.DistinctFields
import Breadboard.Proofs.Netlist.Session

/-!
# Loaded node maps

A node map is asked for nets in any spelling, and ground is node 0 in it. The map that a session
ends with obeys this. A map that is loaded is what its file says, so it obeys exactly if the file
gives every spelling of ground 0 and every other name the number of its canonical spelling
(`NodeMap.load_obeys_iff`).
-/

namespace Breadboard

theorem Net.isGround_ground : isGround ground = true := by decide

namespace NodeMap

variable {m : NodeMap} {entries : List (String × Int)} {name : String} {k : Int}

/-- What is relied on when a map is asked: ground is node 0, and every name of the map finds its
number. -/
structure Obeys (m : NodeMap) : Prop where
  ground : m.get? Net.ground = some 0
  named : ∀ name k, m.get? name = some k → m.nodeOf name = some k

/-- Entries that give every spelling of ground 0 and every other name the number of its canonical
spelling. -/
structure WellSpelled (entries : List (String × Int)) : Prop where
  ground : ∀ e ∈ entries, Net.isGround e.1 = true → e.2 = 0
  others : ∀ e ∈ entries, Net.isGround e.1 = false → (Net.canonical e.1, e.2) ∈ entries

/-- The map of a well numbered table obeys, for its names are canonical. -/
theorem obeys_of_numbered {t : NodeTable} (ht : t.Numbered) : t.toNodeMap.Obeys where
  ground := ht.lookup_ground
  named name k h := by
    have hcanonical : Net.canonical name = name := (ht.canonical _ (Assoc.mem_of_lookup h)).1
    unfold nodeOf
    rw [hcanonical]
    exact h

/-! ## Maps of files -/

theorem get?_ofEntries_eq_some_iff (hd : (Assoc.keys entries).Nodup) :
    (ofEntries entries).get? name = some k ↔
      (name, k) ∈ entries ∨ Net.ground ∉ Assoc.keys entries ∧ name = Net.ground ∧ k = 0 := by
  have hmem : entries.lookup name = some k ↔ (name, k) ∈ entries :=
    ⟨Assoc.mem_of_lookup, Assoc.lookup_of_mem hd⟩
  unfold ofEntries get?
  rw [Assoc.ofList_of_nodup hd]
  dsimp only
  split
  · next hcontains =>
    have hground := List.contains_iff_mem.mp hcontains
    rw [hmem]
    exact (or_iff_left fun h => h.1 hground).symm
  · next hcontains =>
    have hground : Net.ground ∉ Assoc.keys entries := fun h =>
      hcontains (List.contains_iff_mem.mpr h)
    rw [List.lookup_append, Option.or_eq_some_iff, hmem]
    refine or_congr_right ?_
    constructor
    · rintro ⟨-, hadded⟩
      have hentry := Assoc.mem_of_lookup hadded
      rw [List.mem_singleton, Prod.mk.injEq] at hentry
      exact ⟨hground, hentry⟩
    · rintro ⟨-, rfl, rfl⟩
      exact ⟨Assoc.lookup_eq_none_iff.mpr hground, List.lookup_cons_self⟩

/-- A map is read off the entries of its file. -/
theorem obeys_ofEntries_iff (hd : (Assoc.keys entries).Nodup) :
    (ofEntries entries).Obeys ↔ WellSpelled entries := by
  constructor
  · intro h
    have hnode {e : String × Int} (he : e ∈ entries) :
        (ofEntries entries).get? (Net.canonical e.1) = some e.2 :=
      h.named _ _ ((get?_ofEntries_eq_some_iff hd).mpr (.inl he))
    refine ⟨fun e he hground => ?_, fun e he hother => ?_⟩
    · have hzero := hnode he
      rw [beq_iff_eq.mp hground, h.ground] at hzero
      exact (Option.some.inj hzero).symm
    · rcases (get?_ofEntries_eq_some_iff hd).mp (hnode he) with hmem | ⟨-, hground, -⟩
      · exact hmem
      · exact absurd hground (beq_eq_false_iff_ne.mp hother)
  · intro h
    have hzero : (ofEntries entries).get? Net.ground = some 0 := by
      rw [get?_ofEntries_eq_some_iff hd]
      by_cases hground : Net.ground ∈ Assoc.keys entries
      · obtain ⟨⟨_, k⟩, he, rfl⟩ := List.mem_map.mp hground
        obtain rfl : k = 0 := h.ground _ he Net.isGround_ground
        exact .inl he
      · exact .inr ⟨hground, rfl, rfl⟩
    refine ⟨hzero, fun name k hname => ?_⟩
    unfold nodeOf
    rcases (get?_ofEntries_eq_some_iff hd).mp hname with he | ⟨-, rfl, rfl⟩
    · cases hground : Net.isGround name with
      | true =>
        rw [beq_iff_eq.mp hground, hzero]
        exact congrArg some (h.ground _ he hground).symm
      | false =>
        have hmem := h.others (name, k) he hground
        exact (get?_ofEntries_eq_some_iff hd).mpr (.inl hmem)
    · rw [Net.canonical_ground]
      exact hzero

theorem mapM_index?_eq_some_iff {fields : List (String × Json)} :
    (fields.mapM fun f => (index? f.2).map (f.1, ·)) = some entries ↔
      fields = entries.map fun e => (e.1, .int e.2) := by
  rw [mapM_eq_some_iff]
  induction fields generalizing entries with
  | nil => cases entries <;> simp
  | cons f fields ih =>
    cases entries with
    | nil => simp
    | cons e entries =>
      obtain ⟨name, j⟩ := f
      obtain ⟨name', k⟩ := e
      rw [List.map_cons, List.map_cons, List.map_cons, List.cons.injEq, List.cons.injEq, ih]
      refine and_congr_left' ?_
      cases j <;> simp [index?]

theorem ofDocument_eq_ok_iff {j : Json} : ofDocument j = .ok m ↔
    ∃ written : NodeMap, j = written.toJson ∧ m = ofEntries written.entries := by
  constructor
  · intro h
    unfold ofDocument at h
    split at h
    · split at h
      · next fields entries hentries =>
        cases h
        exact ⟨⟨entries⟩, congrArg Json.object (mapM_index?_eq_some_iff.mp hentries), rfl⟩
      · cases h
    · cases h
  · rintro ⟨written, rfl, rfl⟩
    unfold ofDocument toJson
    dsimp only
    rw [mapM_index?_eq_some_iff.mpr rfl]

/-- A map that is loaded is what its file says, and ground besides. -/
theorem load_eq_ok_iff {t : FileTree} {n : Json.Nesting} {p : Path} : load t n p = .ok m ↔
    ∃ written : NodeMap, t.readJson n p = .ok written.toJson ∧ m = ofEntries written.entries := by
  unfold load
  cases hread : t.readJson n p with
  | error e =>
    refine iff_of_false nofun ?_
    rintro ⟨_, ⟨⟩, -⟩
  | ok j =>
    simp only [bind, Except.bind, ofDocument_eq_ok_iff, Except.ok.injEq]

/-- **Loaded maps obey if their files are well spelled.** The map that a session ends with obeys,
whatever its steps. A map that is loaded obeys exactly if its file, which gives each name once, is
well spelled. -/
theorem load_obeys_iff {t : FileTree} {n : Json.Nesting} {p : Path} (h : load t n p = .ok m)
    (steps : List Session.Step) : (Session.after steps).nodes.toNodeMap.Obeys ∧
      ∃ written : NodeMap, t.readJson n p = .ok written.toJson ∧
        (Assoc.keys written.entries).Nodup ∧ (m.Obeys ↔ WellSpelled written.entries) := by
  refine ⟨obeys_of_numbered (Session.numbered_after steps), ?_⟩
  obtain ⟨written, hread, rfl⟩ := load_eq_ok_iff.mp h
  have hd : (Assoc.keys written.entries).Nodup := by
    have hkeys := Json.nodup_keys_of_isTidy (FileTree.isTidy_of_readJson hread)
    unfold Assoc.keys at hkeys ⊢
    rwa [List.map_map] at hkeys
  exact ⟨written, hread, hd, obeys_ofEntries_iff hd⟩

theorem toJson_injective : Function.Injective toJson := by
  rintro ⟨entries⟩ ⟨others⟩ h
  have hinj : Function.Injective fun e : String × Int => (e.1, Json.int e.2) := by
    rintro ⟨_, _⟩ ⟨_, _⟩ ⟨⟩
    rfl
  exact congrArg mk (List.map_injective_iff.mpr hinj (Json.object.inj h))

/-- A directory with a file `nodes.json` that holds this text. -/
def holding (text : String) : FileTree where
  files := [(["work", "nodes.json"], Text.encodeUtf8 text.toList)]
  directories := [["work"]]
  here := ["work"]

theorem readJson_holding {text : String} {j : Json}
    (h : ((holding text).readJson .usual (.ofText "nodes.json")).toOption = some j) :
    (holding text).readJson .usual (.ofText "nodes.json") = .ok j :=
  FileTree.readJson_of_toOption h

/-- A text that gives a net in two spellings, and ground by another name. -/
def twoSpellings : String := "\x7b\" a \": 1, \"a\": 1, \"GND\": 0\x7d"

theorem load_obeys_twoSpellings :
    ∃ m, load (holding twoSpellings) .usual (.ofText "nodes.json") = .ok m ∧ m.Obeys ∧
      m.entries = [(" a ", 1), ("a", 1), ("GND", 0), ("0", 0)] := by
  have hread : (holding twoSpellings).readJson .usual (.ofText "nodes.json") =
      .ok (toJson ⟨[(" a ", 1), ("a", 1), ("GND", 0)]⟩) := readJson_holding (by decide +kernel)
  have hload := load_eq_ok_iff.mpr ⟨_, hread, rfl⟩
  obtain ⟨-, written, hwritten, -, hiff⟩ := load_obeys_iff hload []
  obtain rfl := toJson_injective (Except.ok.inj (hwritten.symm.trans hread))
  have hobeys := hiff.mpr ⟨by decide, by decide⟩
  exact ⟨_, hload, hobeys, rfl⟩

/-- Texts that are loaded all the same: ground that is not node 0, and a net whose name is never
asked for, since it is not canonical. -/
theorem load_not_obeys :
    (∃ m, load (holding "\x7b\"0\": 5\x7d") .usual (.ofText "nodes.json") = .ok m ∧
      m.get? Net.ground = some 5 ∧ ¬ m.Obeys) ∧
    ∃ m, load (holding "\x7b\" OUT \": 1\x7d") .usual (.ofText "nodes.json") = .ok m ∧
      m.get? " OUT " = some 1 ∧ m.nodeOf " OUT " = none ∧ ¬ m.Obeys := by
  have hground : (holding "\x7b\"0\": 5\x7d").readJson .usual (.ofText "nodes.json") =
      .ok (toJson ⟨[("0", 5)]⟩) := readJson_holding (by decide +kernel)
  have hblanks : (holding "\x7b\" OUT \": 1\x7d").readJson .usual (.ofText "nodes.json") =
      .ok (toJson ⟨[(" OUT ", 1)]⟩) := readJson_holding (by decide +kernel)
  have hfive : (ofEntries [("0", 5)]).get? Net.ground = some 5 := by decide
  have hnamed : (ofEntries [(" OUT ", 1)]).get? " OUT " = some 1 := by decide
  have hnode : (ofEntries [(" OUT ", 1)]).nodeOf " OUT " = none := by decide
  refine ⟨⟨_, load_eq_ok_iff.mpr ⟨_, hground, rfl⟩, hfive, fun h => ?_⟩,
    ⟨_, load_eq_ok_iff.mpr ⟨_, hblanks, rfl⟩, hnamed, hnode, fun h => ?_⟩⟩
  · have hzero := hfive.symm.trans h.ground
    cases hzero
  · have hfound := hnode.symm.trans (h.named _ _ hnamed)
    cases hfound

end NodeMap

end Breadboard
