import Descent.Text.LowerCase.Table
import Descent.Text.LowerCase.Context

/-! Small letters: the full mapping of a text, where a sigma that ends a word takes its final form. -/

namespace Descent.Text

namespace LowerCase

def sigma : CodePoint := 'Σ'

def dottedCapitalI : CodePoint := 'İ'

def shifted (c : CodePoint) (distance : Int) : CodePoint :=
  (CodePoint.ofNat? (c.value + distance).toNat).getD c

def simple (c : CodePoint) : CodePoint :=
  match runs.find? fun run => c.value ≤ run.last with
  | some run =>
    if run.first ≤ c.value ∧ (c.value - run.first) % run.step = 0 then shifted c run.distance else c
  | none => c

/-- The first code point that is not passed over is a letter with a case. -/
def meetsCased (t : Text) : Bool :=
  match t.dropWhile CodePoint.isCaseIgnorable with
  | c :: _ => c.isCased
  | [] => false

/-- `before` is what stands before the letter, last code point first. -/
def letter (before : Text) (c : CodePoint) (after : Text) : Text :=
  if c = sigma then [if meetsCased before && !meetsCased after then 'ς' else 'σ']
  else if c = dottedCapitalI then ['i', '\u0307']
  else [simple c]

def lowerAfter (before : Text) : Text → Text
  | [] => []
  | c :: after => letter before c after ++ lowerAfter (c :: before) after

end LowerCase

def lower (t : Text) : Text := LowerCase.lowerAfter [] t

end Descent.Text
