import Descent.Payload.Basic

/-! Functions that grammars apply to payloads. -/

namespace Descent.Payload

mutual

/-- Puts the text of nested lists in front of `gathered`, last character first. -/
def gather (gathered : Text) : Payload → Except Fault Text
  | text t => .ok (t.reverse ++ gathered)
  | list items => gatherAll gathered items
  | _ => .error .wrongKind

def gatherAll (gathered : Text) : List Payload → Except Fault Text
  | [] => .ok gathered
  | item :: items => do gatherAll (← gather gathered item) items

end

def flatten (payload : Payload) : Except Fault Text := (gather [] payload).map List.reverse

def joined (payload : Payload) : Except Fault Payload := (flatten payload).map text

def first : Payload → Except Fault Payload
  | list (item :: _) => .ok item
  | text (c :: _) => .ok (text [c])
  | list [] => .error .noElement
  | text [] => .error .noElement
  | _ => .error .wrongKind

def text? : Payload → Option Text
  | text t => some t
  | _ => none

/-- A text counts as the list of its characters. -/
def joinWith (separator : Text) : Payload → Except Fault Payload
  | list items =>
    match items.mapM text? with
    | some texts => .ok (text (Text.join separator texts))
    | none => .error .wrongKind
  | text t => .ok (text (Text.join separator (t.map fun c => [c])))
  | _ => .error .wrongKind

def length : Payload → Except Fault Payload
  | list items => .ok (integer items.length)
  | text t => .ok (integer t.length)
  | _ => .error .wrongKind

def wrap (payload : Payload) : Except Fault Payload := .ok (list [payload])

def const (value : Payload) (_ : Payload) : Except Fault Payload := .ok value

def upper : Payload → Except Fault Payload
  | text t => .ok (text (t.map CodePoint.asciiUpper))
  | _ => .error .wrongKind

/-- The payload and the list after it as one list; without a payload, the list alone. -/
def prependFirst : Payload → Except Fault Payload
  | list [head, list tail] => .ok (list (head :: tail))
  | list [_, _] => .error .wrongKind
  | list [] => .error .noElement
  | list (item :: _) => .ok item
  | _ => .error .wrongKind

def items? : Payload → Option (List Payload)
  | list items => some items
  | _ => none

def concat : Payload → Except Fault Payload
  | list groups =>
    match groups.mapM items? with
    | some lists => .ok (list lists.flatten)
    | none => .error .wrongKind
  | _ => .error .wrongKind

end Descent.Payload
