import Breadboard.Proofs.Netlist.Assembly

/-!
# Sessions

A session touches nets, resolves junctions and emits components in any order on one assembly. Here
each operation is written as a sequence of single reads and writes that stops where it fails, with
the writes made so far standing (`Session.resolve`, `Session.emit`). Each agrees with its one-step
form, and a failing one has written nothing (`Session.resolve_run`, `Session.emit_run`), so the
table stays well numbered and only grows, whatever the steps.
-/

namespace Breadboard.Session

/-- Work on an assembly that may stop with a conflict; what was written before it stands. -/
abbrev Work := EStateM JunctionConflict Assembly

/-- The node of a net, which is entered if it is new. -/
def touch (net : String) : Work Int :=
  modifyGet fun a => ((a.nodes.enter net).1, { a with nodes := (a.nodes.enter net).2 })

/-- Points a net at a node. -/
def point (net : String) (index : Int) : Work Unit :=
  modify fun a => { a with nodes := a.nodes.assign net index }

/-- Points all nets but the primary one at its node, one after another. -/
def pointAll (primary : String) (index : Int) : List String → Work Unit
  | [] => pure ()
  | net :: rest => do
    if net ≠ primary then point net index
    pointAll primary index rest

/-- The nodes of nets, touched one after another. -/
def touchAll : List String → Work (List Int)
  | [] => pure []
  | net :: rest => do
    let index ← touch net
    let indices ← touchAll rest
    return index :: indices

/-- Joins the nets of a junction. -/
def resolve (c : Component) : Work (Option Int) :=
  match Junction.nets c with
  | first :: second :: rest => do
    let nodes := Junction.numbered (← get).nodes (first :: second :: rest)
    if Junction.disagree nodes then throw ⟨c.designator, nodes⟩
    let primary := Junction.primary (← get).nodes first (first :: second :: rest)
    let index ← touch primary
    pointAll primary index (first :: second :: rest)
    return some index
  | _ => return none

/-- The line of a component, if it has one. -/
def emit (c : Component) : Work (Option DeviceLine) :=
  match c.kind with
  | .displayOnly => return none
  | .junction => do
    let _ ← resolve c
    return none
  | .unsupported => do
    modify fun a => a.report (.unsupported c.designator c.kindWord)
    return none
  | .device d =>
    match d.unwiredPins c with
    | [] => do
      let line := Assembly.lineOf d c (← touchAll (d.requiredPins.map c.netOf))
      modify fun a => a.use line.model?
      return some line
    | pins => do
      modify fun a => a.report (.unwired c.designator pins)
      return none

theorem pointAll_run (primary : String) (index : Int) (nets : List String) (a : Assembly) :
    (pointAll primary index nets).run a =
      .ok () { a with nodes := Junction.join a.nodes primary index nets } := by
  induction nets generalizing a with
  | nil => rfl
  | cons net rest ih =>
    unfold pointAll
    by_cases h : net = primary
    · rw [if_neg (not_not.mpr h)]
      show (pointAll primary index rest).run a = _
      rw [ih, Junction.join, Junction.join, List.foldl_cons, if_pos h]
    · rw [if_pos h]
      show (pointAll primary index rest).run { a with nodes := a.nodes.assign net index } = _
      rw [ih, Junction.join, Junction.join, List.foldl_cons, if_neg h]

theorem touchAll_run (nets : List String) (a : Assembly) :
    (touchAll nets).run a =
      .ok (a.nodes.enterAll nets).1 { a with nodes := (a.nodes.enterAll nets).2 } := by
  induction nets generalizing a with
  | nil => rfl
  | cons net rest ih =>
    have hnet : (touch net).run a =
        .ok (a.nodes.enter net).1 { a with nodes := (a.nodes.enter net).2 } := rfl
    simp only [touchAll, EStateM.run_bind, hnet, ih, NodeTable.enterAll_cons]
    rfl

/-- Resolving agrees with merging; where it fails it has written nothing. -/
theorem resolve_run (c : Component) (a : Assembly) :
    (resolve c).run a =
      match Junction.merge a.nodes c with
      | .error e => .error e a
      | .ok (nodes, node) => .ok node { a with nodes } := by
  unfold resolve Junction.merge
  rcases Junction.nets c with _ | ⟨first, _ | ⟨second, rest⟩⟩
  · rfl
  · rfl
  · simp only
    by_cases h : Junction.disagree (Junction.numbered a.nodes (first :: second :: rest)) = true
    · simp only [EStateM.run_bind, EStateM.run_get, h, if_true, EStateM.run_throw]
    · simp only [EStateM.run_bind, EStateM.run_get, h, if_false, EStateM.run_pure, touch,
        EStateM.run_modifyGet, pointAll_run, Bool.false_eq_true]

/-- Emitting agrees with placing; where it fails it has written nothing. -/
theorem emit_run (c : Component) (a : Assembly) :
    (emit c).run a =
      match a.place c with
      | .error e => .error e a
      | .ok (b, line) => .ok line b := by
  unfold emit Assembly.place
  cases hk : c.kind with
  | displayOnly => rfl
  | unsupported => rfl
  | junction =>
    simp only [EStateM.run_bind, resolve_run]
    cases Junction.merge a.nodes c with
    | error e => rfl
    | ok r => rfl
  | device d =>
    simp only [Assembly.placeDevice]
    cases d.unwiredPins c with
    | nil => simp only [EStateM.run_bind, touchAll_run, EStateM.run_modify]; rfl
    | cons => rfl

/-! ## Steps -/

/-- A step of a session. -/
inductive Step where
  | touch (net : String)
  | resolve (c : Component)
  | emit (c : Component)

/-- What a step does. -/
def Step.work : Step → Work Unit
  | .touch net => do let _ ← Session.touch net
  | .resolve c => do let _ ← Session.resolve c
  | .emit c => do let _ ← Session.emit c

/-- The bundles that a step adds if it does not fail. -/
def Step.bundles : Step → List (List String)
  | .touch net => Net.bundles net
  | .resolve c => Junction.bundles c
  | .emit c => c.bundles

/-- The assembly that a piece of work leaves, whether it stops or not. -/
def left {α : Type} : EStateM.Result JunctionConflict Assembly α → Assembly
  | .ok _ a => a
  | .error _ a => a

/-- The assembly after steps from the start; steps that fail count as steps. -/
def after (steps : List Step) : Assembly :=
  steps.foldl (fun a s => left (s.work.run a)) .start

/-- A step adds its bundles or, where it fails, nothing. -/
theorem step_cases (s : Step) (a : Assembly) :
    (∃ b, s.work.run a = .ok () b ∧ a.nodes.Grows s.bundles b.nodes) ∨
      ∃ e, s.work.run a = .error e a := by
  cases s with
  | touch net =>
    have hgrows := NodeTable.enter_grows a.nodes net
    refine .inl ⟨{ a with nodes := (a.nodes.enter net).2 }, rfl, ?_⟩
    simp only [Step.bundles, hgrows]
  | resolve c =>
    simp only [Step.work, EStateM.run_bind, resolve_run]
    cases h : Junction.merge a.nodes c with
    | error e => exact .inr ⟨e, rfl⟩
    | ok r =>
      refine .inl ⟨{ a with nodes := r.1 }, rfl, ?_⟩
      rw [Step.bundles]
      exact Junction.merge_grows h
  | emit c =>
    simp only [Step.work, EStateM.run_bind, emit_run]
    cases h : a.place c with
    | error e => exact .inr ⟨e, rfl⟩
    | ok r =>
      refine .inl ⟨r.1, rfl, ?_⟩
      rw [Step.bundles]
      exact Assembly.place_grows h

theorem after_append (steps : List Step) (s : Step) :
    after (steps ++ [s]) = left (s.work.run (after steps)) := by
  simp [after]

theorem left_grows (s : Step) (a : Assembly) :
    ∃ bundles, a.nodes.Grows bundles (left (s.work.run a)).nodes := by
  rcases step_cases s a with ⟨b, hb, hg⟩ | ⟨e, he⟩
  · rw [hb]
    exact ⟨_, hg⟩
  · rw [he]
    exact ⟨_, .refl⟩

theorem numbered_after (steps : List Step) : (after steps).nodes.Numbered := by
  induction steps using List.reverseRecOn with
  | nil => exact NodeTable.numbered_start
  | append_singleton steps s ih =>
    obtain ⟨_, hg⟩ := left_grows s (after steps)
    rw [after_append]
    exact hg.numbered ih

/-- After every step of every session the table is well numbered, the entries before the step stand
unchanged at its beginning, and a step that fails has changed nothing at all. -/
theorem numbered_after_every_step (steps : List Step) (s : Step) :
    (after (steps ++ [s])).nodes.Numbered ∧
      (after steps).nodes.entries <+: (after (steps ++ [s])).nodes.entries ∧
      ∀ e b, s.work.run (after steps) = .error e b →
        b = after steps ∧ after (steps ++ [s]) = after steps := by
  obtain ⟨_, hg⟩ := left_grows s (after steps)
  rw [← after_append] at hg
  refine ⟨numbered_after _, hg.entries_prefix, fun e b he => ?_⟩
  rcases step_cases s (after steps) with ⟨b', hb, -⟩ | ⟨e', he'⟩
  · rw [hb] at he
    cases he
  · rw [he'] at he
    cases he
    exact ⟨rfl, by rw [after_append, he', left]⟩

end Breadboard.Session
