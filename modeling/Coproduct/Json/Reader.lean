import Coproduct.Json.Token
/-!
# Reading values

Values are read from tokens with the open containers on a stack. The reader takes one token at a
time and stops right behind the value, so it can be used in the middle of a text. A bound on the
number of open containers is part of the grammar: a container that would exceed it is malformed.

§1 the stack · §2 one token · §3 values and documents.
-/

namespace Coproduct.Json

/-! ## §1  The stack -/

/-- An open container whose next part is awaited: the items of an array so far, or the fields of
an object so far and the key whose value comes next. Both latest first. -/
inductive Frame where
  | array (items : List Value)
  | field (fields : List (String × Value)) (key : String)

/-- What may come next. At the start of a container its end may come as well. -/
inductive Await where
  | value (orEnd : Bool)
  | key (fields : List (String × Value)) (orEnd : Bool)
  | colon (fields : List (String × Value)) (key : String)
  | separator

/-- The reader between two tokens, or done. -/
inductive Reading where
  | more (await : Await) (stack : List Frame)
  | done (v : Value)

namespace Reading

/-- A value is complete: it goes to the innermost open container, or it is the result. -/
def give (v : Value) : List Frame → Reading
  | [] => .done v
  | .array items :: stack => .more .separator (.array (v :: items) :: stack)
  | .field fields key :: stack => .more .separator (.field ((key, v) :: fields) key :: stack)

/-! ## §2  One token -/

def value (limit : Nat) (orEnd : Bool) (stack : List Frame) : Token → Except Fault Reading
  | .null => .ok (give .null stack)
  | .bool b => .ok (give (.bool b) stack)
  | .number n => .ok (give (.number n) stack)
  | .string s => .ok (give (.string s) stack)
  | .openArray =>
    if stack.length < limit then .ok (.more (.value true) (.array [] :: stack))
    else .error .malformed
  | .openObject =>
    if stack.length < limit then .ok (.more (.key [] true) stack) else .error .malformed
  | .closeArray =>
    match orEnd, stack with
    | true, .array items :: stack => .ok (give (.array items.reverse) stack)
    | _, _ => .error .malformed
  | .broken _ fault => .error fault
  | .closeObject | .comma | .colon => .error .malformed

/-- A token where a key must start. Only what begins with a quote can be a key, so only such a
token can be cut off. -/
def key (fields : List (String × Value)) (orEnd : Bool) (stack : List Frame) :
    Token → Except Fault Reading
  | .string s => .ok (.more (.colon fields s) stack)
  | .broken true fault => .error fault
  | .closeObject =>
    if orEnd then .ok (give (.ofFields fields.reverse) stack) else .error .malformed
  | _ => .error .malformed

def separator (stack : List Frame) : Token → Except Fault Reading
  | .comma =>
    match stack with
    | .array items :: stack => .ok (.more (.value false) (.array items :: stack))
    | .field fields _ :: stack => .ok (.more (.key fields false) stack)
    | [] => .error .malformed
  | .closeArray =>
    match stack with
    | .array items :: stack => .ok (give (.array items.reverse) stack)
    | _ => .error .malformed
  | .closeObject =>
    match stack with
    | .field fields _ :: stack => .ok (give (.ofFields fields.reverse) stack)
    | _ => .error .malformed
  | _ => .error .malformed

def step (limit : Nat) (await : Await) (stack : List Frame) (token : Token) :
    Except Fault Reading :=
  match await with
  | .value orEnd => value limit orEnd stack token
  | .key fields orEnd => key fields orEnd stack token
  | .colon fields key =>
    match token with
    | .colon => .ok (.more (.value false) (.field fields key :: stack))
    | _ => .error .malformed
  | .separator => separator stack token

end Reading

/-! ## §3  Values and documents -/

/-- Reads on until the value is complete; the tokens behind it are handed back. -/
def readOn (limit : Nat) (await : Await) (stack : List Frame) :
    List Token → Except Fault (Value × List Token)
  | [] => .error .truncated
  | token :: rest =>
    match Reading.step limit await stack token with
    | .error fault => .error fault
    | .ok (.done v) => .ok (v, rest)
    | .ok (.more await stack) => readOn limit await stack rest

def readValue (limit : Nat) (text : List Token) : Except Fault (Value × List Token) :=
  readOn limit (.value false) [] text

/-- How many containers may be open at once. -/
def depthLimit : Nat := 127

def Value.ofText (limit : Nat) (text : String) : Except Fault Value :=
  match readValue limit (tokens text) with
  | .error fault => .error fault
  | .ok (v, []) => .ok v
  | .ok (_, _ :: _) => .error .malformed

end Coproduct.Json
