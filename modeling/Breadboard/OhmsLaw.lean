import Breadboard.Output.Series
import Breadboard.Quantity
import Breadboard.Text.Lines
import Breadboard.Text.Lower

/-!
# Ohm's law

A deck with one direct voltage source across one resistor needs no engine. `OhmsLaw.solve`
recognises such a deck and gives its operating point and a series of two points; every other deck is
declined.
-/

namespace Breadboard

open Text Numeral

namespace OhmsLaw

/-- The element lines of a deck whose first line is gone: what is no comment, directive or
continuation and stands outside control blocks. -/
def elementLines (inControl : Bool) : List (List Char) → List (List Char)
  | [] => []
  | line :: rest =>
    let cs := trim line
    if (skipWord ".control".toList cs).isSome then elementLines true rest
    else if (skipWord ".endc".toList cs).isSome then elementLines false rest
    else
      match cs with
      | [] => elementLines inControl rest
      | c :: _ =>
        if inControl || "*.+;".toList.contains c then elementLines inControl rest
        else cs :: elementLines inControl rest

/-- An element between two nodes: its name, the digits of its nodes, and its value. -/
structure Element where
  name : List Char
  first : List Char
  second : List Char
  value : List Char
  deriving DecidableEq

/-- Whether a word is the name of an element of this letter. -/
def isNamed (letter : Char) (word : List Char) : Bool :=
  match word with
  | c :: _ :: _ => foldsTo letter c
  | _ => false

/-- Whether a word is a node number. -/
def isNode (word : List Char) : Bool := !word.isEmpty && word.all isDecimal

/-- A direct voltage source. -/
def source? (line : List Char) : Option Element :=
  match words line with
  | [name, first, second, dc, value] =>
    if isNamed 'v' name && isNode first && isNode second && lowerAscii dc == "dc".toList then
      some ⟨name, first, second, value⟩
    else none
  | _ => none

/-- A resistor. -/
def resistor? (line : List Char) : Option Element :=
  match words line with
  | [name, first, second, value] =>
    if isNamed 'r' name && isNode first && isNode second then some ⟨name, first, second, value⟩
    else none
  | _ => none

/-- The two nodes of an element. -/
def Element.nodes (e : Element) : Except TooManyDigits (Nat × Nat) := do
  return (← natural (e.first.filterMap digitValue?), ← natural (e.second.filterMap digitValue?))

/-- A source across a resistor: the name of the source in small letters, its nodes, the voltage and
the resistance. -/
structure Loop where
  source : String
  positive : Nat
  negative : Nat
  volts : Float
  ohms : Float
  deriving DecidableEq

/-- Why there is no answer. -/
inductive Refusal where
  | topology
  | resistance
  | tooManyDigits (e : TooManyDigits)
  deriving DecidableEq, Repr

/-- The wording of a refusal. -/
def Refusal.message : Refusal → String
  | .topology => "Analytic fallback only handles one DC voltage source across one resistor"
  | .resistance => "Analytic fallback needs a positive resistance"
  | .tooManyDigits e => e.message

/-- The loop of a source and a resistor that share their nodes. -/
def loopOf (source resistor : Element) : Except Refusal Loop :=
  match source.nodes, resistor.nodes with
  | .error e, _ => .error (.tooManyDigits e)
  | _, .error e => .error (.tooManyDigits e)
  | .ok (positive, negative), .ok (a, b) =>
    if positive = negative ∨ ¬((a = positive ∧ b = negative) ∨ (a = negative ∧ b = positive)) then
      .error .topology
    else
      match Quantity.read (String.ofList source.value),
          Quantity.read (String.ofList resistor.value) with
      | some volts, some ohms =>
        if ohms ≤ 0.0 then .error .resistance
        else .ok ⟨lower (String.ofList source.name), positive, negative, volts, ohms⟩
      | _, _ => .error .resistance

/-- The loop in a deck. -/
def solve (deck : String) : Except Refusal Loop :=
  match elementLines false (lines deck).tail with
  | [a, b] =>
    match (source? a).or (source? b), (resistor? a).or (resistor? b) with
    | some source, some resistor => loopOf source resistor
    | _, _ => .error .topology
  | _ => .error .topology

namespace Loop

/-- The current through the loop. -/
def current (l : Loop) : Float := l.volts / l.ohms

/-- The voltages of the two nodes. Ground is at zero; without ground the negative node is. -/
def voltages (l : Loop) : List (Int × Float) :=
  if l.positive = 0 then [(l.positive, 0.0), (l.negative, -l.volts)]
  else [(l.positive, l.volts), (l.negative, 0.0)]

/-- The times of the two points. -/
def times : List Float := [0.0, 1e-3]

/-- Constant vectors over the two points. -/
def series (l : Loop) : Series :=
  ⟨times, l.voltages.map fun n => (n.1, [n.2, n.2]), [(l.source, [l.current, l.current])]⟩

/-- The voltages of the nodes and the current of the source. -/
def operatingPoint (l : Loop) : List (String × Float) :=
  (l.voltages.map fun n => (s!"v_{n.1}", n.2)) ++ [(s!"i_{l.source}", l.current)]

end Loop

end OhmsLaw

end Breadboard
