import Breadboard.Proofs.Netlist.Lockstep

/-!
# Spelling of nets

A deck depends on which pins share a net, and on which of them are ground or blank, but not on how
the nets are spelled. Names of two assemblies that correspond one to one, ground to ground and
blanks to blanks, are kept in correspondence by every operation: entering a net, joining the nets of
a junction and placing a device (`Assembly.lockstep_place`). So a circuit and the same circuit with
its nets spelled anew compile in lock-step (`Deck.lockstep_of_alike`).
-/

namespace Breadboard

/-! ## Corresponding names -/

/-- A correspondence of canonical names, one to one, under which blanks and ground stay. -/
structure Net.Matching (R : String → String → Prop) : Prop where
  eq_iff : ∀ {n n' m m'}, R n n' → R m m' → (n = m ↔ n' = m')
  blank : R "" ""
  ground : R Net.ground Net.ground
  canonical : ∀ {n n'}, R n n' → Net.canonical n = n ∧ Net.canonical n' = n'

/-- Entries that give corresponding names the same node. -/
def SameNode (R : String → String → Prop) (e e' : String × Int) : Prop := R e.1 e'.1 ∧ e'.2 = e.2

variable {R : String → String → Prop}

theorem sameNode_of_rel {n n' : String} (h : R n n') (index : Int) :
    SameNode R (n, index) (n', index) :=
  ⟨h, rfl⟩

namespace Net.Matching

variable {n n' : String}

theorem beq_eq (hR : Matching R) {m m' : String} (hn : R n n') (hm : R m m') :
    (n == m) = (n' == m') := by
  rw [Bool.eq_iff_iff, beq_iff_eq, beq_iff_eq]
  exact hR.eq_iff hn hm

theorem blank_or_ground_iff (hR : Matching R) (hn : R n n') :
    n = "" ∨ n = Net.ground ↔ n' = "" ∨ n' = Net.ground :=
  or_congr (hR.eq_iff hn hR.blank) (hR.eq_iff hn hR.ground)

theorem rel_canonical (hR : Matching R) (hn : R n n') : R (Net.canonical n) (Net.canonical n') := by
  rw [(hR.canonical hn).1, (hR.canonical hn).2]
  exact hn

theorem lookup_eq (hR : Matching R) {l l' : List (String × Int)}
    (h : List.Forall₂ (SameNode R) l l') (hn : R n n') : l'.lookup n' = l.lookup n := by
  induction h with
  | nil => rfl
  | @cons e e' l l' he _ ih =>
    obtain ⟨m, i⟩ := e
    obtain ⟨m', i'⟩ := e'
    obtain ⟨hm, rfl⟩ := he
    rw [List.lookup_cons, List.lookup_cons, hR.beq_eq hn hm, ih]

theorem forall₂_put (hR : Matching R) {l l' : List (String × Int)}
    (h : List.Forall₂ (SameNode R) l l') (hn : R n n') (index : Int) :
    List.Forall₂ (SameNode R) (Assoc.put n index l) (Assoc.put n' index l') := by
  induction h with
  | nil => exact .cons (sameNode_of_rel hn index) .nil
  | @cons e e' l l' he htail ih =>
    obtain ⟨m, i⟩ := e
    obtain ⟨m', i'⟩ := e'
    unfold Assoc.put
    rw [hR.beq_eq he.1 hn]
    split_ifs
    · exact .cons ⟨he.1, rfl⟩ htail
    · exact .cons he ih

theorem forall₂_eraseDups (hR : Matching R) :
    ∀ {l l' : List String}, List.Forall₂ R l l' → List.Forall₂ R l.eraseDups l'.eraseDups
  | _, _, .nil => .nil
  | n :: l, n' :: l', .cons hn h => by
    -- the recursion is that of `eraseDups`: what differs from the first name is filtered first
    have hlen := List.length_filter_le (fun m => !m == n) l
    rw [List.eraseDups_cons, List.eraseDups_cons]
    refine .cons hn (forall₂_eraseDups hR (List.rel_filter ?_ h))
    intro m m' hm
    show (!m == n) = true ↔ (!m' == n') = true
    rw [hR.beq_eq hm hn]
termination_by l => l.length

end Net.Matching

/-! ## Node tables -/

namespace NodeTable

variable {t u : NodeTable} {x x' : String}

/-- Tables in which corresponding names were entered in the same order at the same nodes. -/
def Alike (R : String → String → Prop) (t u : NodeTable) : Prop :=
  List.Forall₂ (SameNode R) t.entries u.entries

theorem Alike.nodes_eq (h : Alike R t u) : u.entries.map (·.2) = t.entries.map (·.2) := by
  unfold Alike at h
  generalize t.entries = l at h ⊢
  generalize u.entries = l' at h ⊢
  induction h with
  | nil => rfl
  | cons he _ ih => rw [List.map_cons, List.map_cons, he.2, ih]

theorem Alike.top_eq (h : Alike R t u) : u.top = t.top := by
  rw [top, top, h.nodes_eq]

theorem Alike.vectors_eq (h : Alike R t u) :
    Deck.vectors u.toNodeMap = Deck.vectors t.toNodeMap := by
  unfold Deck.vectors NodeMap.indices
  rw [show u.toNodeMap.entries.map (·.2) = t.toNodeMap.entries.map (·.2) from h.nodes_eq]

theorem alike_start (hR : Net.Matching R) : Alike R start start :=
  .cons ⟨hR.ground, rfl⟩ .nil

section Matching

variable (hR : Net.Matching R) (h : Alike R t u)

include hR h

theorem Alike.enter (hx : R (Net.canonical x) (Net.canonical x')) :
    (u.enter x').1 = (t.enter x).1 ∧ Alike R (t.enter x).2 (u.enter x').2 := by
  by_cases hs : Net.canonical x = "" ∨ Net.canonical x = Net.ground
  · rw [enter_other hs, enter_other ((hR.blank_or_ground_iff hx).mp hs)]
    exact ⟨rfl, h⟩
  · have hs' := (hR.blank_or_ground_iff hx).not.mp hs
    have hl := hR.lookup_eq h hx
    unfold NodeTable.enter
    simp only [if_neg hs, if_neg hs']
    rw [hl]
    cases t.entries.lookup (Net.canonical x) with
    | some index => exact ⟨rfl, h⟩
    | none =>
      rw [h.top_eq]
      exact ⟨rfl, List.rel_append h (.cons (sameNode_of_rel hx _) .nil)⟩

theorem Alike.enterAll {nets nets' : List String}
    (hn : List.Forall₂ (fun x x' => R (Net.canonical x) (Net.canonical x')) nets nets') :
    (u.enterAll nets').1 = (t.enterAll nets).1 ∧
      Alike R (t.enterAll nets).2 (u.enterAll nets').2 := by
  induction hn generalizing t u with
  | nil => exact ⟨rfl, h⟩
  | cons hx _ ih =>
    obtain ⟨hindex, hnext⟩ := h.enter hR hx
    obtain ⟨hindices, hlast⟩ := ih hnext
    rw [enterAll_cons, enterAll_cons]
    exact ⟨by rw [hindex, hindices], hlast⟩

theorem Alike.assign {n n' : String} (hn : R n n') (index : Int) :
    Alike R (t.assign n index) (u.assign n' index) := by
  obtain ⟨hc, hc'⟩ := hR.canonical hn
  unfold NodeTable.assign
  simp only [hc, hc']
  by_cases hs : n = "" ∨ n = Net.ground
  · rw [if_pos hs, if_pos ((hR.blank_or_ground_iff hn).mp hs)]
    exact h
  · rw [if_neg hs, if_neg ((hR.blank_or_ground_iff hn).not.mp hs)]
    exact hR.forall₂_put h hn index

end Matching

end NodeTable

/-! ## Junctions -/

namespace Component

/-- Components that are the same but for their nets, which have corresponding names. -/
structure Alike (R : String → String → Prop) (c c' : Component) : Prop where
  rest : c' = { c with pins := c'.pins }
  pins : List.Forall₂
    (fun p p' => p'.1 = p.1 ∧ R (Net.canonical p.2.net) (Net.canonical p'.2.net)) c.pins c'.pins

variable {c c' : Component}

theorem Alike.nets (h : c.Alike R c') :
    List.Forall₂ (fun x x' => R (Net.canonical x) (Net.canonical x')) c.nets c'.nets :=
  List.rel_map (fun _ _ hp => hp.2) h.pins

theorem Alike.designator_eq (h : c.Alike R c') : c'.designator = c.designator := by
  rw [h.rest]
  rfl

theorem Alike.kind_eq (h : c.Alike R c') : c'.kind = c.kind := by
  rw [h.rest]

/-- A pin that is missing is missing in both, and counts as blank. -/
theorem Alike.netOf (hblank : R "" "") (h : c.Alike R c') (label : String) :
    R (Net.canonical (c.netOf label)) (Net.canonical (c'.netOf label)) := by
  have hpins := h.pins
  unfold Component.netOf
  generalize c.pins = l at hpins ⊢
  generalize c'.pins = l' at hpins ⊢
  induction hpins with
  | nil =>
    simp only [List.lookup_nil, Option.map_none, Option.getD_none, Net.canonical_empty]
    exact hblank
  | @cons p p' l l' hp _ ih =>
    obtain ⟨k, pin⟩ := p
    obtain ⟨k', pin'⟩ := p'
    simp only at hp
    obtain ⟨rfl, hnet⟩ := hp
    rw [List.lookup_cons, List.lookup_cons]
    cases label == k' with
    | true =>
      simp only [Option.map_some, Option.getD_some]
      exact hnet
    | false => exact ih

end Component

namespace Junction

variable {t u : NodeTable} {c c' : Component} {names names' : List String}

/-- Conflicts of one junction whose nets have corresponding names. -/
structure ConflictAlike (R : String → String → Prop) (e e' : JunctionConflict) : Prop where
  junction : e'.junction = e.junction
  nodes : List.Forall₂ (SameNode R) e.nodes e'.nodes

theorem disagree_eq {l l' : List (String × Int)} (h : List.Forall₂ (SameNode R) l l') :
    disagree l' = disagree l := by
  have hany : ∀ (i : Int) {l l' : List (String × Int)}, List.Forall₂ (SameNode R) l l' →
      l'.any (·.2 != i) = l.any (·.2 != i) := by
    intro i l l' h
    induction h with
    | nil => rfl
    | cons he _ ih => rw [List.any_cons, List.any_cons, ih, he.2]
  cases h with
  | nil => rfl
  | @cons e e' l l' he hrest =>
    unfold disagree
    simp only
    rw [he.2, hany e.2 hrest]

section Matching

variable (hR : Net.Matching R)

include hR

theorem forall₂_nets (h : c.Alike R c') : List.Forall₂ R (nets c) (nets c') := by
  have hnames : List.Forall₂ R (c.nets.map Net.canonical) (c'.nets.map Net.canonical) :=
    List.forall₂_map_left_iff.mpr (List.forall₂_map_right_iff.mpr h.nets)
  refine hR.forall₂_eraseDups (List.rel_filter ?_ hnames)
  intro n n' hn
  simpa using (hR.blank_or_ground_iff hn).not

variable (h : t.Alike R u) (hn : List.Forall₂ R names names')

include h hn

theorem forall₂_numbered :
    List.Forall₂ (SameNode R) (numbered t names) (numbered u names') := by
  refine List.rel_filterMap ?_ hn
  intro n n' hn
  show Option.Rel (SameNode R) ((t.lookup n).map (n, ·)) ((u.lookup n').map (n', ·))
  obtain ⟨hc, hc'⟩ := hR.canonical hn
  rw [NodeTable.lookup_eq, NodeTable.lookup_eq, hc, hc', hR.lookup_eq h hn]
  cases t.entries.lookup n with
  | some i => exact .some ⟨hn, rfl⟩
  | none => exact .none

theorem rel_primary {first first' : String} (hf : R first first') :
    R (primary t first names) (primary u first' names') := by
  have hnum := forall₂_numbered hR h hn
  unfold primary
  generalize numbered t names = l at hnum ⊢
  generalize numbered u names' = l' at hnum ⊢
  cases hnum with
  | nil => exact hf
  | cons he _ => exact he.1

theorem alike_join {main main' : String} (hm : R main main') (index : Int) :
    (join t main index names).Alike R (join u main' index names') := by
  induction hn generalizing t u with
  | nil => exact h
  | @cons n n' l l' hn _ ih =>
    have hiff := hR.eq_iff hn hm
    show (join (if n = main then t else t.assign n index) main index l).Alike R
      (join (if n' = main' then u else u.assign n' index) main' index l')
    by_cases hmain : n = main
    · rw [if_pos hmain, if_pos (hiff.mp hmain)]
      exact ih h
    · rw [if_neg hmain, if_neg (hiff.not.mp hmain)]
      exact ih (h.assign hR hn index)

omit hn in
/-- Junctions go in lock-step: both conflict, or both join their nets at the same node. -/
theorem lockstep_merge (hc : c.Alike R c') :
    Lockstep (ConflictAlike R) (fun r r' => r.1.Alike R r'.1 ∧ r'.2 = r.2) (merge t c)
      (merge u c') := by
  have hnets := forall₂_nets hR hc
  unfold merge
  generalize nets c = l at hnets ⊢
  generalize nets c' = l' at hnets ⊢
  cases hnets with
  | nil => exact .ok ⟨h, rfl⟩
  | cons hfirst hrest =>
    cases hrest with
    | nil => exact .ok ⟨h, rfl⟩
    | @cons second second' rest rest' hsecond hrest =>
      -- the same nets have nodes, and the same nodes, so both conflict or have a primary net alike
      have hall := List.Forall₂.cons hfirst (.cons hsecond hrest)
      have hnum := forall₂_numbered hR h hall
      simp only [disagree_eq hnum]
      split_ifs
      · exact .error ⟨hc.designator_eq, hnum⟩
      · have hmain := rel_primary hR h hall hfirst
        obtain ⟨hindex, hentered⟩ := h.enter hR (hR.rel_canonical hmain)
        have hjoined := alike_join hR hentered hall hmain
        refine .ok ⟨?_, congrArg some hindex⟩
        simp only [hindex]
        exact hjoined _

end Matching

end Junction

/-! ## Components and decks -/

namespace Assembly

/-- Assemblies that differ in the spelling of nets alone. -/
structure Alike (R : String → String → Prop) (a b : Assembly) : Prop where
  nodes : a.nodes.Alike R b.nodes
  diagnostics : b.diagnostics = a.diagnostics
  models : b.models = a.models

variable {a b : Assembly} {c c' : Component}

theorem Alike.report (h : a.Alike R b) (d : Diagnostic) : (a.report d).Alike R (b.report d) :=
  ⟨h.nodes, by rw [Assembly.report, Assembly.report, h.diagnostics], h.models⟩

theorem Alike.use (h : a.Alike R b) (model : Option String) :
    (a.use model).Alike R (b.use model) := by
  obtain ⟨nodes, diagnostics, models⟩ := a
  obtain ⟨nodes', diagnostics', models'⟩ := b
  obtain ⟨hnodes, rfl, rfl⟩ := h
  unfold Assembly.use
  cases model with
  | none => exact ⟨hnodes, rfl, rfl⟩
  | some name =>
    simp only
    split_ifs
    · exact ⟨hnodes, rfl, rfl⟩
    · exact ⟨hnodes, rfl, rfl⟩

section Matching

variable (hR : Net.Matching R) (h : a.Alike R b) (hc : c.Alike R c')

include hR

omit hR in
theorem tail_eq (hc : c.Alike R c') (d : Device) : d.tail c' = d.tail c := by
  rw [hc.rest]
  rfl

theorem unwiredPins_eq (hc : c.Alike R c') (d : Device) : d.unwiredPins c' = d.unwiredPins c := by
  refine List.filter_congr fun label _ => ?_
  exact (hR.beq_eq (hc.netOf hR.blank label) hR.blank).symm

include h hc

theorem alike_placeDevice (d : Device) :
    SameOutput (Alike R) (a.placeDevice d c) (b.placeDevice d c') := by
  have hpins : List.Forall₂ (fun x x' => R (Net.canonical x) (Net.canonical x'))
      (d.requiredPins.map c.netOf) (d.requiredPins.map c'.netOf) := by
    rw [List.forall₂_map_left_iff, List.forall₂_map_right_iff, List.forall₂_same]
    exact fun label _ => hc.netOf hR.blank label
  obtain ⟨hindices, hnodes⟩ := h.nodes.enterAll hR hpins
  unfold placeDevice
  rw [unwiredPins_eq hR hc d]
  cases d.unwiredPins c with
  | nil =>
    simp only [hindices, tail_eq hc, hc.designator_eq]
    have hentered : Alike R { a with nodes := (a.nodes.enterAll (d.requiredPins.map c.netOf)).2 }
        { b with nodes := (b.nodes.enterAll (d.requiredPins.map c'.netOf)).2 } :=
      ⟨hnodes, h.diagnostics, h.models⟩
    exact ⟨hentered.use _, rfl⟩
  | cons =>
    simp only [hc.designator_eq]
    exact ⟨h.report _, rfl⟩

theorem lockstep_place :
    Lockstep (Junction.ConflictAlike R) (SameOutput (Alike R)) (a.place c) (b.place c') := by
  unfold place
  rw [hc.kind_eq]
  cases c.kind with
  | displayOnly => exact .ok ⟨h, rfl⟩
  | unsupported =>
    simp only [hc.designator_eq, show c'.kindWord = c.kindWord by rw [hc.rest]]
    exact .ok ⟨h.report _, rfl⟩
  | device d => exact .ok (alike_placeDevice hR h hc d)
  | junction =>
    have hmerge := Junction.lockstep_merge hR h.nodes hc
    simp only
    generalize Junction.merge a.nodes c = r at hmerge ⊢
    generalize Junction.merge b.nodes c' = r' at hmerge ⊢
    cases hmerge with
    | error he => exact .error he
    | ok hr => exact .ok ⟨⟨hr.1, h.diagnostics, h.models⟩, rfl⟩

end Matching

end Assembly

/-- Decks that differ in the names of nets alone. -/
structure Deck.Alike (R : String → String → Prop) (deck deck' : Deck) : Prop where
  text : deck'.text = deck.text
  deviceLines : deck'.deviceLines = deck.deviceLines
  diagnostics : deck'.diagnostics = deck.diagnostics
  nodes : List.Forall₂ (SameNode R) deck.nodeMap.entries deck'.nodeMap.entries

theorem Assembly.Alike.deck {a b : Assembly} (h : a.Alike R b) (s : Settings)
    (deviceLines : List DeviceLine) :
    (Deck.ofRun s a deviceLines).Alike R (Deck.ofRun s b deviceLines) where
  text := Deck.ofRun_text_congr s deviceLines h.nodes.vectors_eq
  deviceLines := rfl
  diagnostics := by
    simp only [Deck.ofRun, Assembly.undefinedModels, h.diagnostics, h.models]
  nodes := h.nodes

/-- Circuits that differ in the spelling of nets compile in lock-step. -/
theorem Deck.lockstep_of_alike (hR : Net.Matching R) {components components' : List Component}
    (hc : List.Forall₂ (Component.Alike R) components components') (s : Settings) :
    Lockstep (Junction.ConflictAlike R) (Deck.Alike R) (ofComponents components s)
      (ofComponents components' s) :=
  lockstep_ofComponents
    (Assembly.lockstep_run (Assembly.lockstep_place hR) hc ⟨NodeTable.alike_start hR, rfl, rfl⟩)
    fun _ _ deviceLines h => h.deck s deviceLines

end Breadboard
