import Descent.Grammar.Basic
import Descent.Parser.Combinator

/-! The parsers that grammars stand for. -/

namespace Descent

namespace Grammar

mutual

/-- `rules` gives the parser of each name, and a repetition makes at most `rounds` attempts. -/
def parser (rounds : Nat) (rules : String → Parser) : Grammar → Parser
  | oneOf set => Parser.oneOf set
  | noneOf set => Parser.noneOf set
  | word w => Parser.word w
  | wordIgnoringCase w => Parser.wordIgnoringCase w
  | endOfText => Parser.endOfText
  | sequence parts => Parser.sequence (parsers rounds rules parts)
  | choice deepest parts => Parser.choice deepest (parsers rounds rules parts)
  | both first others => Parser.both (first.parser rounds rules) (parsers rounds rules others)
  | many part => Parser.many rounds (part.parser rounds rules)
  | skip part => Parser.skip (part.parser rounds rules)
  | option default part => Parser.option default (part.parser rounds rules)
  | peek part => Parser.peek (part.parser rounds rules)
  | not part => Parser.not (part.parser rounds rules)
  | map f part => Parser.map f (part.parser rounds rules)
  | rule name => rules name

def parsers (rounds : Nat) (rules : String → Parser) : List Grammar → List Parser
  | [] => []
  | part :: parts => part.parser rounds rules :: parsers rounds rules parts

end

theorem parsers_eq_map (rounds : Nat) (rules : String → Parser) (parts : List Grammar) :
    parsers rounds rules parts = parts.map (parser rounds rules) := by
  induction parts with
  | nil => rfl
  | cons part parts ih => rw [parsers, ih, List.map_cons]

end Grammar

/-- The parser of a name. A reference inside a definition unfolds it once more, and at most `depth`
unfoldings are nested. -/
def Definitions.parser (defs : Definitions) (rounds : Nat) : Nat → String → Parser
  | 0, _ => fun c => { outcome := .exhausted, lent := c }
  | depth + 1, name => fun c =>
    match defs.lookup name with
    | some g => g.parser rounds (Definitions.parser defs rounds depth) c
    | none => { outcome := .raised (.undefined name), lent := c }

namespace Grammar

/-- Every match that counts takes a character, and the last attempt takes none. -/
def roundsFor (c : Cursor) : Nat := c.rest.length + 1

/-- A run that ends never enters a name at a position where it is inside that name already. -/
def depthFor (defs : Definitions) (c : Cursor) : Nat := defs.length * (c.rest.length + 1) + 1

def parse (g : Grammar) (c : Cursor) (defs : Definitions := []) : Reply :=
  let rounds := roundsFor c
  g.parser rounds (defs.parser rounds (depthFor defs c)) c

end Grammar

end Descent
