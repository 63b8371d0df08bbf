import ParseTree.Json.Numeral
import ParseTree.Json.Text
import ParseTree.Word

/-!
# JSON values

A form is the structure of a JSON text: atoms in arrays and objects, an object
being its members in order with repetitions. In a `Value` all names are texts and
all atoms are scalars. In a `Written` form, which is what a text says before
anybody reads it, a name or an atom may be unreadable: a numeral out of range, or
a string with half a surrogate pair. Such a form may be skipped but not read, and
a form is not read if it nests too deep.

The compact text of a value has its members and items in order and no blanks.

A structure is written as an object, where members that it does not know are
skipped and those it knows occur at most once, or as an array of its fields in
order, which may end early. An absent field takes its default if it has one. An
integer field takes only integers that fit it.
-/

namespace ParseTree.Json

inductive Scalar where
  | null
  | bool (value : Bool)
  | int (value : Int)
  /-- A number that is not an integer of 64 bits. -/
  | real (value : Numeral)
  | string (value : String)
deriving DecidableEq, Repr

inductive Form (κ α : Type) where
  | atom (value : α)
  | array (items : List (Form κ α))
  | object (members : List (κ × Form κ α))

abbrev Value := Form String Scalar

abbrev Written := Form (Option String) (Option Scalar)

/-- The number a numeral denotes, unless it is out of range. -/
def Scalar.ofNumeral? (n : Numeral) : Option Scalar :=
  match n.integer? with
  | some value => some (.int value)
  | none => if n.inRange then some (.real n) else none

namespace Written

mutual

/-- Read a form whose containers nest at most `depth` deep. -/
def read? : Nat → Written → Option Value
  | _, .atom value => value.map .atom
  | 0, .array _ => none
  | 0, .object _ => none
  | depth + 1, .array items => (readItems? depth items).map .array
  | depth + 1, .object members => (readMembers? depth members).map .object

def readItems? (depth : Nat) : List Written → Option (List Value)
  | [] => some []
  | item :: rest => do
      let item ← read? depth item
      let rest ← readItems? depth rest
      return item :: rest

def readMembers? (depth : Nat) :
    List (Option String × Written) → Option (List (String × Value))
  | [] => some []
  | (name, value) :: rest => do
      let name ← name
      let value ← read? depth value
      let rest ← readMembers? depth rest
      return (name, value) :: rest

end

end Written

namespace Value

def null : Value := .atom .null
def bool (value : Bool) : Value := .atom (.bool value)
def int (value : Int) : Value := .atom (.int value)
def string (value : String) : Value := .atom (.string value)

end Value

def Scalar.render : Scalar → List Char
  | .null => "null".toList
  | .bool true => "true".toList
  | .bool false => "false".toList
  | .int value => value.repr.toList
  | .real value => value.render
  | .string value => writtenString value

namespace Value

mutual

def chars : Value → List Char
  | .atom value => value.render
  | .array items => '[' :: charsOfItems items ++ [']']
  | .object members => '{' :: charsOfMembers members ++ ['}']

def charsOfItems : List Value → List Char
  | [] => []
  | item :: rest => chars item ++ charsOfMoreItems rest

/-- The items that follow the first one. -/
def charsOfMoreItems : List Value → List Char
  | [] => []
  | item :: rest => ',' :: chars item ++ charsOfMoreItems rest

def charsOfMembers : List (String × Value) → List Char
  | [] => []
  | (name, value) :: rest => writtenString name ++ ':' :: chars value ++ charsOfMoreMembers rest

/-- The members that follow the first one. -/
def charsOfMoreMembers : List (String × Value) → List Char
  | [] => []
  | (name, value) :: rest =>
      ',' :: writtenString name ++ ':' :: chars value ++ charsOfMoreMembers rest

end

def render (value : Value) : String := String.ofList (chars value)

def text? : Value → Option String
  | .atom (.string text) => some text
  | _ => none

def bool? : Value → Option Bool
  | .atom (.bool value) => some value
  | _ => none

def word? {α : Type} [Word α] : Value → Option α
  | .atom (.int value) => Word.ofInt? value
  | _ => none

def array? : Value → Option (List Value)
  | .array items => some items
  | _ => none

def texts? (value : Value) : Option (List String) := value.array?.bind fun items => items.mapM text?

def ofWord {α : Type} [Word α] (a : α) : Value := .int (Word.toInt a)

end Value

/-- The only value of a name: nothing if the name is absent, and no answer at all
if it is repeated. -/
def onlyValue? {α : Type} (members : List (String × α)) (name : String) : Option (Option α) :=
  match members.filter (·.1 == name) with
  | [] => some none
  | [(_, value)] => some (some value)
  | _ => none

/-- The fields of a structure, given how to read a member's name. -/
def Form.fields? {κ α : Type} (nameOf : κ → Option String) (names : List String) :
    Form κ α → Option (List (Option (Form κ α)))
  | .atom _ => none
  | .array items =>
      if items.length ≤ names.length then
        some (items.map some ++ List.replicate (names.length - items.length) none)
      else none
  | .object members => do
      let members ← members.mapM fun (name, value) => (nameOf name).map ((·, value))
      names.mapM (onlyValue? members)

def Value.fields? (names : List String) (value : Value) : Option (List (Option Value)) :=
  Form.fields? some names value

def Written.fields? (names : List String) (form : Written) : Option (List (Option Written)) :=
  Form.fields? id names form

/-- A field that must be there. -/
def required {α β : Type} (decode : α → Option β) (field : Option α) : Option β :=
  field.bind decode

/-- A field that has a default. -/
def optional {α β : Type} (absent : β) (decode : α → Option β) : Option α → Option β
  | none => some absent
  | some field => decode field

/-- Read a field and take it apart. The fields of the structures here are scalars
or lists of scalars, so there is at most one level to read. -/
def Written.decode {β : Type} (decode : Value → Option β) (form : Written) : Option β :=
  (form.read? 1).bind decode

end ParseTree.Json
