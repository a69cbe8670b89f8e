import Descent.Payload.Action

/-! Grammars as data. -/

namespace Descent

inductive Grammar where
  | oneOf (set : Text)
  | noneOf (set : Text)
  | word (w : Text)
  | wordIgnoringCase (w : Text)
  | endOfText
  | sequence (parts : List Grammar)
  | choice (deepest : Bool) (parts : List Grammar)
  | both (first : Grammar) (others : List Grammar)
  | many (part : Grammar)
  | skip (part : Grammar)
  | option (default : Maybe) (part : Grammar)
  | peek (part : Grammar)
  | not (part : Grammar)
  | map (f : Payload → Except Fault Payload) (part : Grammar)
  /-- What the definitions hold under a name, looked up when it is run. -/
  | rule (name : String)

namespace Grammar

/-- Induction in which something may be assumed of each part of a list. -/
@[elab_as_elim, induction_eliminator] theorem induction {motive : Grammar → Prop}
    (oneOf : ∀ set, motive (.oneOf set)) (noneOf : ∀ set, motive (.noneOf set))
    (word : ∀ w, motive (.word w)) (wordIgnoringCase : ∀ w, motive (.wordIgnoringCase w))
    (endOfText : motive .endOfText)
    (sequence : ∀ parts, (∀ part ∈ parts, motive part) → motive (.sequence parts))
    (choice : ∀ deepest parts, (∀ part ∈ parts, motive part) → motive (.choice deepest parts))
    (both : ∀ first others, motive first → (∀ part ∈ others, motive part) →
      motive (.both first others))
    (many : ∀ part, motive part → motive (.many part))
    (skip : ∀ part, motive part → motive (.skip part))
    (option : ∀ default part, motive part → motive (.option default part))
    (peek : ∀ part, motive part → motive (.peek part))
    (not : ∀ part, motive part → motive (.not part))
    (map : ∀ f part, motive part → motive (.map f part))
    (rule : ∀ name, motive (.rule name)) (g : Grammar) : motive g :=
  @Grammar.rec motive (fun parts => ∀ part ∈ parts, motive part) oneOf noneOf word
    wordIgnoringCase endOfText sequence choice both many skip option peek not map rule
    (fun _ member => absurd member List.not_mem_nil)
    (fun _ _ first rest => List.forall_mem_cons.mpr ⟨first, rest⟩) g

instance : Coe String Grammar := ⟨fun s => .word (Text.ofString s)⟩

def any : Grammar := .noneOf []

def allOf? : List Grammar → Except Fault Grammar
  | [] => .error .noParser
  | first :: others => .ok (.both first others)

def oneOfTexts (texts : List Text) : Grammar := .oneOf (texts.filterMap Text.only?)

def noneOfTexts (texts : List Text) : Grammar := .noneOf (texts.filterMap Text.only?)

def oneOrMore (part : Grammar) : Grammar :=
  .map Payload.prependFirst (.sequence [part, .many part])

def separatedBy (item separator : Grammar) : Grammar :=
  let more := Grammar.many (.sequence [separator, item])
  .map Payload.prependFirst (.sequence [item, .map Payload.concat more])

def optional (part : Grammar) : Grammar := .option .nothing part

def optionalOr (default : Payload) (part : Grammar) : Grammar := .option (.just default) part

def joined (part : Grammar) : Grammar := .map Payload.joined part

def head (part : Grammar) : Grammar := .map Payload.first part

def firstOf (parts : List Grammar) : Grammar := .choice false parts

end Grammar

abbrev Definitions := List (String × Grammar)

end Descent
