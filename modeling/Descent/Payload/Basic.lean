import Descent.Double.Basic
import Descent.Fault

/-! What a match stands for, and values that may be absent. -/

namespace Descent

inductive Payload where
  | text (t : Text)
  | integer (n : Int)
  | double (x : Double)
  | boolean (b : Bool)
  | null
  | list (items : List Payload)
  deriving Inhabited

namespace Payload

/-- Induction in which something may be assumed of each item of a list. -/
@[elab_as_elim, induction_eliminator] theorem induction {motive : Payload → Prop}
    (text : ∀ t, motive (.text t)) (integer : ∀ n, motive (.integer n))
    (double : ∀ x, motive (.double x)) (boolean : ∀ b, motive (.boolean b)) (null : motive .null)
    (list : ∀ items, (∀ item ∈ items, motive item) → motive (.list items)) (payload : Payload) :
    motive payload :=
  @Payload.rec motive (fun items => ∀ item ∈ items, motive item) text integer double boolean null
    list (fun _ member => absurd member List.not_mem_nil)
    (fun _ _ first rest => List.forall_mem_cons.mpr ⟨first, rest⟩) payload

def whole? : Payload → Option Int
  | integer n => some n
  | boolean b => some (if b then 1 else 0)
  | double x => x.toInt?
  | _ => none

def sameNumber (x y : Payload) : Bool :=
  match x.whole?, y.whole? with
  | some m, some n => m == n
  | _, _ => false

mutual

def same : Payload → Payload → Bool
  | text s, text t => s == t
  | null, null => true
  | list xs, list ys => sameAll xs ys
  | double x, double y => x.same y
  | x, y => sameNumber x y

def sameAll : List Payload → List Payload → Bool
  | [], [] => true
  | x :: xs, y :: ys => same x y && sameAll xs ys
  | _, _ => false

end

end Payload

/-- An absent value that was made by hand may still hold something. -/
structure Maybe where
  present : Bool
  value : Payload := .null

namespace Maybe

def nothing : Maybe := { present := false }

def just (value : Payload) : Maybe := { present := true, value }

def ofOption : Option Payload → Maybe
  | some value => just value
  | none => nothing

def toList (m : Maybe) : List Payload := if m.present then [m.value] else []

def map (f : Payload → Except Fault Payload) (m : Maybe) : Except Fault Maybe :=
  if m.present then (f m.value).map just else .ok nothing

def same (a b : Maybe) : Bool := a.present == b.present && a.value.same b.value

end Maybe

end Descent
