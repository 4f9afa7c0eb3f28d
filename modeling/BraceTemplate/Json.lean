/-! JSON values and their text. Objects keep the order of their members; `sorted` is the form in which
that order no longer matters. -/
namespace BraceTemplate

/-- A JSON value. A number that is not written with digits alone is kept by its spelling. -/
inductive Json where
  | null
  | bool (value : Bool)
  | natural (value : Nat)
  | number (spelling : String)
  | string (value : String)
  | array (items : List Json)
  | object (members : List (String × Json))
  deriving BEq, Inhabited, Repr

namespace Json

/-- One character of a JSON string. -/
def escape (c : Char) : List Char :=
  if c = '\x22' || c = '\\' then ['\\', c]
  else if c = '\n' then ['\\', 'n']
  else if c = '\r' then ['\\', 'r']
  else if c = '\t' then ['\\', 't']
  else if c = '\x08' then ['\\', 'b']
  else if c = '\x0c' then ['\\', 'f']
  else if c.toNat < 0x20 then
    ['\\', 'u', '0', '0', Nat.digitChar (c.toNat / 16), Nat.digitChar (c.toNat % 16)]
  else [c]

def quote (text : String) : String :=
  String.ofList ('\x22' :: text.toList.flatMap escape ++ ['\x22'])

/-- Texts with commas in between. -/
def joinCommas (comma : String) : List String → String
  | [] => ""
  | [text] => text
  | text :: rest => text ++ comma ++ joinCommas comma rest

mutual

/-- The text of a value without spaces. -/
def compact : Json → String
  | null => "null"
  | bool value => if value then "true" else "false"
  | natural value => toString value
  | number spelling => spelling
  | string value => quote value
  | array items => "[" ++ joinCommas "," (compactItems items) ++ "]"
  | object members => "\x7b" ++ joinCommas "," (compactMembers members) ++ "\x7d"

def compactItems : List Json → List String
  | [] => []
  | item :: rest => item.compact :: compactItems rest

def compactMembers : List (String × Json) → List String
  | [] => []
  | (key, value) :: rest => (quote key ++ ":" ++ value.compact) :: compactMembers rest

end

/-- The start of a line at the given depth. Each level is two spaces. -/
def newLine (depth : Nat) : String := String.ofList ('\n' :: List.replicate (2 * depth) ' ')

/-- Texts on lines of their own, one level below `depth`, between brackets. -/
def block (opening closing : String) (depth : Nat) (texts : List String) : String :=
  if texts.isEmpty then opening ++ closing
  else
    opening ++ newLine (depth + 1) ++ joinCommas ("," ++ newLine (depth + 1)) texts
      ++ newLine depth ++ closing

mutual

/-- The text of a value with one item or member a line. -/
def prettyAt (depth : Nat) : Json → String
  | null => "null"
  | bool value => if value then "true" else "false"
  | natural value => toString value
  | number spelling => spelling
  | string value => quote value
  | array items => block "[" "]" depth (prettyItems (depth + 1) items)
  | object members => block "\x7b" "\x7d" depth (prettyMembers (depth + 1) members)

def prettyItems (depth : Nat) : List Json → List String
  | [] => []
  | item :: rest => item.prettyAt depth :: prettyItems depth rest

def prettyMembers (depth : Nat) : List (String × Json) → List String
  | [] => []
  | (key, value) :: rest =>
    (quote key ++ ": " ++ value.prettyAt depth) :: prettyMembers depth rest

end

/-- The text of a value with one item or member a line. -/
def pretty (value : Json) : String := value.prettyAt 0

/-- Puts a member in front of the first one with a larger key. -/
def insertMember (member : String × Json) : List (String × Json) → List (String × Json)
  | [] => [member]
  | head :: rest =>
    if member.1 < head.1 then member :: head :: rest else head :: insertMember member rest

mutual

/-- The value with the members of every object in increasing order of their keys. -/
def sorted : Json → Json
  | array items => array (sortedItems items)
  | object members => object (sortedMembers members)
  | value => value

def sortedItems : List Json → List Json
  | [] => []
  | item :: rest => item.sorted :: sortedItems rest

/-- Members in order, and within them the members of every object. -/
def sortedMembers : List (String × Json) → List (String × Json)
  | [] => []
  | (key, value) :: rest => insertMember (key, value.sorted) (sortedMembers rest)

end

end Json

end BraceTemplate
