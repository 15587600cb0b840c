import Breadboard.Proofs.Netlist.Spelling

/-!
# Circuits spelled anew

A spelling maps the net of every pin to another text. If it keeps blanks blank and ground ground,
and makes two nets one exactly when they were one before, the circuit compiles as before: it stops
at the same junction, or gives the same deck with the nets of its map renamed. Blanks around nets
and the choice among the spellings of ground change nothing at all.
-/

namespace Breadboard

open Text

/-- A component with its nets spelled anew. -/
def Component.respell (f : String → String) (c : Component) : Component :=
  { c with pins := c.pins.map fun p => (p.1, { p.2 with net := f p.2.net }) }

/-- A new spelling of nets: blanks stay blank, ground stays ground, and two nets are one exactly
when they were. -/
structure Net.Respelling (nets : List String) (f : String → String) : Prop where
  blank : ∀ x ∈ nets, Net.canonical (f x) = "" ↔ Net.canonical x = ""
  ground : ∀ x ∈ nets, Net.canonical (f x) = Net.ground ↔ Net.canonical x = Net.ground
  same : ∀ x ∈ nets, ∀ y ∈ nets,
    Net.canonical (f x) = Net.canonical (f y) ↔ Net.canonical x = Net.canonical y

/-- The new canonical name for an old one: blanks and ground keep theirs, and the name of a net is
that of its new spelling. -/
inductive Net.Renamed (nets : List String) (f : String → String) : String → String → Prop where
  | special {n : String} : n = "" ∨ n = Net.ground → Renamed nets f n n
  | net {x : String} : x ∈ nets → Renamed nets f (Net.canonical x) (Net.canonical (f x))

/-- Whether two texts spell one net: they differ in the blanks around them, or are both ground. -/
def Net.SameNet (x y : String) : Prop :=
  trim x.toList = trim y.toList ∨ Net.isGround x = true ∧ Net.isGround y = true

variable {nets : List String} {f : String → String}

theorem Net.canonical_eq_of_sameNet {x y : String} (h : Net.SameNet x y) :
    Net.canonical x = Net.canonical y := by
  rcases h with h | ⟨hx, hy⟩
  · unfold Net.canonical
    rw [h]
  · rw [eq_of_beq hx, eq_of_beq hy]

/-! ## The names before and after -/

/-- What is special before is special after, and stays. -/
theorem Net.Respelling.eq_iff_of_special (hf : Net.Respelling nets f) {x n : String} (hx : x ∈ nets)
    (hn : n = "" ∨ n = Net.ground) : Net.canonical (f x) = n ↔ Net.canonical x = n := by
  rcases hn with rfl | rfl
  · exact hf.blank x hx
  · exact hf.ground x hx

theorem Net.Respelling.matching (hf : Net.Respelling nets f) :
    Net.Matching (Net.Renamed nets f) where
  eq_iff := by
    intro n n' m m' hn hm
    cases hn with
    | special hn =>
      cases hm with
      | special => exact Iff.rfl
      | net hy =>
        rw [eq_comm, eq_comm (a := n)]
        exact (hf.eq_iff_of_special hy hn).symm
    | net hx =>
      cases hm with
      | special hm => exact (hf.eq_iff_of_special hx hm).symm
      | net hy => exact (hf.same _ hx _ hy).symm
  blank := .special (.inl rfl)
  ground := .special (.inr rfl)
  canonical := by
    intro n n' hn
    cases hn with
    | special hn =>
      rcases hn with rfl | rfl
      · exact ⟨Net.canonical_empty, Net.canonical_empty⟩
      · exact ⟨Net.canonical_ground, Net.canonical_ground⟩
    | @net x _ => exact ⟨Net.canonical_canonical x, Net.canonical_canonical (f x)⟩

/-- Names that all stay as they are. -/
def Net.Kept (n n' : String) : Prop := n' = n ∧ Net.canonical n = n

theorem Net.matching_kept : Net.Matching Net.Kept where
  eq_iff := by
    rintro n _ m _ ⟨rfl, -⟩ ⟨rfl, -⟩
    exact Iff.rfl
  blank := ⟨rfl, Net.canonical_empty⟩
  ground := ⟨rfl, Net.canonical_ground⟩
  canonical := by
    rintro n _ ⟨rfl, hn⟩
    exact ⟨hn, hn⟩

theorem eq_of_forall₂_kept {l l' : List (String × Int)}
    (h : List.Forall₂ (SameNode Net.Kept) l l') : l = l' := by
  refine List.forall₂_eq_eq_eq ▸ h.imp ?_
  rintro ⟨n, i⟩ ⟨n', i'⟩ ⟨⟨hn, -⟩, hi⟩
  exact Prod.ext hn.symm hi.symm

/-! ## Components and circuits -/

variable {R : String → String → Prop}

theorem Component.alike_respell {c : Component}
    (h : ∀ x ∈ c.nets, R (Net.canonical x) (Net.canonical (f x))) : c.Alike R (c.respell f) where
  rest := rfl
  pins := by
    show List.Forall₂ _ c.pins (c.pins.map _)
    rw [List.forall₂_map_right_iff, List.forall₂_same]
    intro p hp
    exact ⟨rfl, h p.2.net (List.mem_map_of_mem hp)⟩

theorem forall₂_respell {components : List Component}
    (h : ∀ x ∈ components.flatMap Component.nets, R (Net.canonical x) (Net.canonical (f x))) :
    List.Forall₂ (Component.Alike R) components (components.map (Component.respell f)) := by
  rw [List.forall₂_map_right_iff, List.forall₂_same]
  intro c hc
  exact Component.alike_respell fun x hx => h x (List.mem_flatMap.mpr ⟨c, hc, hx⟩)

namespace Deck

theorem Alike.eq {deck deck' : Deck} (h : deck.Alike Net.Kept deck') : deck = deck' := by
  have hmap : deck.nodeMap = deck'.nodeMap := congrArg NodeMap.mk (eq_of_forall₂_kept h.nodes)
  show Deck.mk deck.text deck.deviceLines deck.nodeMap deck.diagnostics =
    Deck.mk deck'.text deck'.deviceLines deck'.nodeMap deck'.diagnostics
  rw [h.text, h.deviceLines, h.diagnostics, hmap]

theorem eq_of_conflictAlike {e e' : JunctionConflict} (h : Junction.ConflictAlike Net.Kept e e') :
    e = e' := by
  show JunctionConflict.mk e.junction e.nodes = JunctionConflict.mk e'.junction e'.nodes
  rw [h.junction, eq_of_forall₂_kept h.nodes]

/-- **Spelling.** A circuit whose nets are spelled anew goes in lock-step with the circuit as it
was: both stop, at the same junction, or both give a deck, with the same text, lines and notices,
and with the same nodes in the same order for the renamed nets. Where the new spelling differs in
blanks around nets and in the choice of spelling for ground, nothing differs. -/
theorem lockstep_respell (components : List Component) (s : Settings) :
    (∀ f, Net.Respelling (components.flatMap Component.nets) f →
      Lockstep (Junction.ConflictAlike (Net.Renamed (components.flatMap Component.nets) f))
          (Alike (Net.Renamed (components.flatMap Component.nets) f))
          (ofComponents components s) (ofComponents (components.map (Component.respell f)) s) ∧
        ∀ n, StopsAt components s n ↔ StopsAt (components.map (Component.respell f)) s n) ∧
    ∀ f, (∀ x ∈ components.flatMap Component.nets, Net.SameNet x (f x)) →
      ofComponents (components.map (Component.respell f)) s = ofComponents components s := by
  constructor
  · intro f hf
    have halike := forall₂_respell (R := Net.Renamed (components.flatMap Component.nets) f)
      fun _ hx => .net hx
    have hprefixes := fun k => lockstep_of_alike hf.matching (List.forall₂_take k halike) s
    exact ⟨lockstep_of_alike hf.matching halike s, stopsAt_iff_of_lockstep hprefixes⟩
  · intro f hf
    have halike := forall₂_respell (R := Net.Kept) fun x hx =>
      ⟨(Net.canonical_eq_of_sameNet (hf x hx)).symm, Net.canonical_canonical x⟩
    have hlockstep := lockstep_of_alike Net.matching_kept halike s
    exact (hlockstep.mono (fun _ _ => eq_of_conflictAlike) fun _ _ _ _ => Alike.eq).eq.symm

/-- A junction that joins a net to one that has a node, between devices. -/
def crossed : List Component :=
  [.wired "1" (.device .resistor) [("1", "a"), ("2", "gnd")],
    .wired "J" .junction [("1", " a "), ("2", "b"), ("3", "GND")],
    .wired "2" (.device .resistor) [("1", "c"), ("2", "b")],
    .wired "3" (.device .resistor) [("1", "b"), ("2", " ")]]

/-- A spelling that takes the names of nets round. -/
def roundabout (x : String) : String :=
  ([("a", "b"), (" a ", "\tb"), ("b", "c "), ("c", "a"), ("gnd", "0"), ("GND", " agnd"),
    (" ", "")].lookup x).getD x

theorem lockstep_respell_crossed :
    ∃ deck deck', ofComponents crossed .defaults = .ok deck ∧
      ofComponents (crossed.map (Component.respell roundabout)) .defaults = .ok deck' ∧
      deck.nodeMap.entries = [("0", 0), ("a", 1), ("b", 1), ("c", 2)] ∧
      deck'.nodeMap.entries = [("0", 0), ("b", 1), ("c", 1), ("a", 2)] ∧
      deck.Alike (Net.Renamed (crossed.flatMap Component.nets) roundabout) deck' ∧
      ofComponents (crossed.map (Component.respell Net.canonical)) .defaults = .ok deck := by
  obtain ⟨deck, h, -, hmap⟩ := exists_of_run crossed .defaults
    ⟨⟨[("0", 0), ("a", 1), ("b", 1), ("c", 2)]⟩, [.unwired "3" ["2"]], []⟩
    [⟨.resistor, "1", [1, 0], .value 1e3⟩, ⟨.resistor, "2", [2, 1], .value 1e3⟩]
    (by decide +kernel)
  obtain ⟨deck', h', -, hmap'⟩ := exists_of_run (crossed.map (Component.respell roundabout))
    .defaults ⟨⟨[("0", 0), ("b", 1), ("c", 1), ("a", 2)]⟩, [.unwired "3" ["2"]], []⟩
    [⟨.resistor, "1", [1, 0], .value 1e3⟩, ⟨.resistor, "2", [2, 1], .value 1e3⟩]
    (by decide +kernel)
  have hspelling : Net.Respelling (crossed.flatMap Component.nets) roundabout :=
    ⟨by decide +kernel, by decide +kernel, by decide +kernel⟩
  have hlockstep := ((lockstep_respell crossed .defaults).1 roundabout hspelling).1
  rw [h, h'] at hlockstep
  have hspaced := (lockstep_respell crossed .defaults).2 Net.canonical
    (by unfold Net.SameNet; decide +kernel)
  refine ⟨deck, deck', h, h', by rw [hmap]; rfl, by rw [hmap']; rfl, ?_, hspaced.trans h⟩
  cases hlockstep with
  | ok halike => exact halike

end Deck

end Breadboard
