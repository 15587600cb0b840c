import Breadboard.Assoc
import Breadboard.Json.Token

/-!
# Reading JSON

The reader takes the tokens one by one. Its state says what may come next and keeps the lists and
objects that are still open, of which there may be only so many. A field that is given twice keeps
its place and takes the last value.
-/

namespace Breadboard.Json

/-- How many lists and objects may be open at once. This is up to the machine, but one may always
be. -/
structure Nesting where
  levels : Nat
  pos : 0 < levels

/-- More levels than documents usually have. -/
def Nesting.usual : Nesting := ⟨1000, by decide⟩

/-- The two kinds of values with values inside them. -/
inductive Container where
  | list
  | object
  deriving DecidableEq, Repr

/-- A list or object that is open while a value inside it is read; items stand last first. -/
inductive Frame where
  | item (items : List Json)
  | field (fields : List (String × Json)) (name : String)

/-- What may come next. -/
inductive Reader where
  | value (stack : List Frame)
  | firstItem (stack : List Frame)
  | firstKey (stack : List Frame)
  | key (fields : List (String × Json)) (stack : List Frame)
  | colon (fields : List (String × Json)) (name : String) (stack : List Frame)
  | afterItem (items : List Json) (stack : List Frame)
  | afterField (fields : List (String × Json)) (stack : List Frame)
  | done (j : Json)

/-- Where reading stopped: a fault and its index, a number that is too long, or a list or object
inside too many others. -/
inductive Stop where
  | fault (fault : Fault) (index : Nat)
  | tooManyDigits (e : Numeral.TooManyDigits)
  | tooDeep (container : Container)

namespace Reader

/-- A complete value goes into the innermost open list or object. -/
def give (j : Json) : List Frame → Reader
  | [] => .done j
  | .item items :: stack => .afterItem (j :: items) stack
  | .field fields name :: stack => .afterField (Assoc.put name j fields) stack

/-- A list or object that is opened inside those of a stack. -/
def opened (n : Nesting) (stack : List Frame) (container : Container) : Except Stop Reader :=
  if n.levels ≤ stack.length then .error (.tooDeep container)
  else
    match container with
    | .list => .ok (.firstItem stack)
    | .object => .ok (.firstKey stack)

/-- A token where a value starts. -/
def start (n : Nesting) (stack : List Frame) (t : Token) (index : Nat) : Except Stop Reader :=
  match t with
  | .openList => opened n stack .list
  | .openObject => opened n stack .object
  | .text s => .ok (give (.text s) stack)
  | .scalar j => .ok (give j stack)
  | .badText f i => .error (.fault f i)
  | .badNumber e => .error (.tooManyDigits e)
  | _ => .error (.fault .value index)

/-- A token where the name of a field stands. -/
def named (fields : List (String × Json)) (stack : List Frame) (t : Token) (index : Nat) :
    Except Stop Reader :=
  match t with
  | .text s => .ok (.colon fields s stack)
  | .badText f i => .error (.fault f i)
  | _ => .error (.fault .propertyName index)

/-- One token. -/
def step (n : Nesting) (r : Reader) (t : Token) (index : Nat) : Except Stop Reader :=
  match r with
  | .value stack => start n stack t index
  | .firstItem stack =>
    match t with
    | .closeList => .ok (give (.list []) stack)
    | _ => start n (.item [] :: stack) t index
  | .firstKey stack =>
    match t with
    | .closeObject => .ok (give (.object []) stack)
    | _ => named [] stack t index
  | .key fields stack => named fields stack t index
  | .colon fields name stack =>
    match t with
    | .colon => .ok (.value (.field fields name :: stack))
    | _ => .error (.fault .colon index)
  | .afterItem items stack =>
    match t with
    | .comma => .ok (.value (.item items :: stack))
    | .closeList => .ok (give (.list items.reverse) stack)
    | _ => .error (.fault .comma index)
  | .afterField fields stack =>
    match t with
    | .comma => .ok (.key fields stack)
    | .closeObject => .ok (give (.object fields) stack)
    | _ => .error (.fault .comma index)
  | .done _ => .error (.fault .extraData index)

/-- The end of the text, at this index. -/
def finish (r : Reader) (index : Nat) : Except Stop Json :=
  match r with
  | .done j => .ok j
  | .value _ => .error (.fault .value index)
  | .firstItem _ => .error (.fault .value index)
  | .firstKey _ => .error (.fault .propertyName index)
  | .key _ _ => .error (.fault .propertyName index)
  | .colon _ _ _ => .error (.fault .colon index)
  | .afterItem _ _ => .error (.fault .comma index)
  | .afterField _ _ => .error (.fault .comma index)

/-- The tokens in turn. -/
def run (n : Nesting) (r : Reader) : List (Token × Nat) → Except Stop Reader
  | [] => .ok r
  | (t, index) :: rest =>
    match step n r t index with
    | .error e => .error e
    | .ok r => run n r rest

end Reader

/-- Why a text is not read: a fault with its line, column and index, a number that is too long, or
a list or object inside too many others. -/
inductive ReadError where
  | malformed (fault : Fault) (line column index : Nat)
  | tooManyDigits (e : Numeral.TooManyDigits)
  | tooDeep (container : Container)
  deriving DecidableEq, Repr

/-- The wording of a fault. -/
def Fault.message : Fault → String
  | .byteOrderMark => "Unexpected UTF-8 BOM (decode using utf-8-sig)"
  | .value => "Expecting value"
  | .propertyName => "Expecting property name enclosed in double quotes"
  | .colon => "Expecting ':' delimiter"
  | .comma => "Expecting ',' delimiter"
  | .extraData => "Extra data"
  | .unterminatedString => "Unterminated string starting at"
  | .controlCharacter => "Invalid control character at"
  | .escape => "Invalid \\escape"
  | .unicodeEscape => "Invalid \\uXXXX escape"
  | .unpairedSurrogate => "Unpaired surrogate"

/-- The word for a kind of values. -/
def Container.word : Container → String
  | .list => "array"
  | .object => "object"

/-- The wording of an error. -/
def ReadError.message : ReadError → String
  | .malformed fault line column index =>
    s!"{fault.message}: line {line} column {column} (char {index})"
  | .tooManyDigits e => e.message
  | .tooDeep container =>
    s!"maximum recursion depth exceeded while decoding a JSON {container.word} "
      ++ "from a unicode string"

/-- A fault with the line and column of its index. -/
def ReadError.locate (cs : List Char) (fault : Fault) (index : Nat) : ReadError :=
  let before := cs.take index
  .malformed fault (before.count '\n' + 1)
    ((before.reverse.takeWhile (· != '\n')).length + 1) index

/-- The error of a text at which reading stopped. -/
def ReadError.ofStop (cs : List Char) : Stop → ReadError
  | .fault f index => .locate cs f index
  | .tooManyDigits e => .tooManyDigits e
  | .tooDeep container => .tooDeep container

/-- The value of a JSON text. -/
def read (n : Nesting) (cs : List Char) : Except ReadError Json :=
  if cs.head? = some (Char.ofNat 0xFEFF) then .error (.locate cs .byteOrderMark 0)
  else
    match Reader.run n (.value []) (Token.scan 0 [] cs).reverse with
    | .error stop => .error (.ofStop cs stop)
    | .ok r => (r.finish cs.length).mapError (.ofStop cs)

end Breadboard.Json
