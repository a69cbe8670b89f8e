import Descent.Payload.Basic
import Descent.Double.Shortest
import Descent.Text.Quoted

/-! Payloads as text: a text alone stands for itself, and inside other values it is quoted. -/

namespace Descent

namespace Payload

mutual

def render : Payload → Text
  | text t => Text.quoted t
  | integer n => Text.ofInt n
  | double x => x.write
  | boolean true => "True"
  | boolean false => "False"
  | null => "None"
  | list items => Text.concat ["[", Text.join ", " (renderAll items), "]"]

def renderAll : List Payload → List Text
  | [] => []
  | item :: items => render item :: renderAll items

end

def toText : Payload → Text
  | text t => t
  | payload => payload.render

end Payload

def Maybe.render (m : Maybe) : Text :=
  if m.present then Text.concat ["just(", m.value.render, ")"] else "Nothing"

end Descent
