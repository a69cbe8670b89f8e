/-! Texts as lists of Unicode code points, surrogates included. -/

namespace Descent

structure CodePoint where
  value : Nat
  value_lt : value < 0x110000
  deriving DecidableEq

namespace CodePoint

def ofNat? (n : Nat) : Option CodePoint :=
  if h : n < 0x110000 then some ⟨n, h⟩ else none

theorem char_toNat_lt (c : Char) : c.toNat < 0x110000 := by
  rcases c.valid with below | ⟨_, above⟩
  · exact Nat.lt_trans below (by decide)
  · exact above

def ofChar (c : Char) : CodePoint := ⟨c.toNat, char_toNat_lt c⟩

instance : Coe Char CodePoint := ⟨ofChar⟩

instance : Inhabited CodePoint := ⟨'\x00'⟩

def toChar? (c : CodePoint) : Option Char :=
  if h : c.value.isValidChar then some (Char.ofNatAux c.value h) else none

def between (c : CodePoint) (first last : Char) : Bool :=
  first.toNat ≤ c.value && c.value ≤ last.toNat

def isDigit (c : CodePoint) : Bool := c.between '0' '9'

def asciiUpper (c : CodePoint) : CodePoint :=
  match c.toChar? with
  | some char => char.toUpper
  | none => c

end CodePoint

abbrev Text := List CodePoint

namespace Text

def ofString (s : String) : Text := s.toList.map CodePoint.ofChar

instance : Coe String Text := ⟨ofString⟩

def chars? (t : Text) : Option (List Char) := t.mapM CodePoint.toChar?

/-- For output: a surrogate, which no encoding can write, becomes the replacement character. -/
def toString (t : Text) : String :=
  String.ofList (t.map fun c => c.toChar?.getD '\uFFFD')

def only? : Text → Option CodePoint
  | [c] => some c
  | _ => none

def concat (pieces : List Text) : Text := pieces.flatten

def join (separator : Text) : List Text → Text
  | [] => []
  | [piece] => piece
  | piece :: pieces => piece ++ separator ++ join separator pieces

def split (mark : CodePoint) : Text → List Text
  | [] => [[]]
  | c :: rest =>
    if c = mark then [] :: split mark rest
    else
      match split mark rest with
      | piece :: pieces => (c :: piece) :: pieces
      | [] => [[c]]

theorem split_of_not_mem {mark : CodePoint} {t : Text} (missing : mark ∉ t) :
    split mark t = [t] := by
  induction t with
  | nil => rfl
  | cons c rest ih =>
      have other := List.ne_of_not_mem_cons missing
      have later := List.not_mem_of_not_mem_cons missing
      rw [split, if_neg (Ne.symm other), ih later]

/-- How many characters a position has before it. A negative one is counted from the end. -/
def preceding (t : Text) (position : Int) : Nat :=
  if position < 0 then (position + t.length).toNat else position.toNat

def slice (t : Text) (first last : Int) : Text :=
  (t.take (t.preceding last)).drop (t.preceding first)

@[simp] theorem preceding_natCast (t : Text) (position : Nat) : t.preceding position = position := by
  rw [preceding, if_neg (by omega), Int.toNat_natCast]

theorem slice_natCast (t : Text) (first last : Nat) :
    t.slice first last = (t.take last).drop first := by
  rw [slice, preceding_natCast, preceding_natCast]

def startsWith (t word : Text) : Bool := word.isPrefixOf t

end Text

end Descent
