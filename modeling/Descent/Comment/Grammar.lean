import Descent.Grammar.Basic
import Descent.Text.Charset

/-! Documentation comments in code: what they look like, and what is passed over between them. -/

namespace Descent.Comment

open Grammar

def singleQuote : Grammar := "\x27"

def doubleQuote : Grammar := "\x22"

def newline : Grammar := "\n"

def escapedSingleQuote : Grammar := "\x5c\x27"

def escapedDoubleQuote : Grammar := "\x5c\x22"

def star : Grammar := "*"

def slash : Grammar := "/"

def innerStar : Grammar := joined (.sequence [star, .skip (.peek (.not slash))])

def blockStart : Grammar := joined (.sequence [slash, star])

def blockEnd : Grammar := joined (.sequence [star, slash])

def lineStart : Grammar := joined (.sequence [slash, slash])

def documentationStart : Grammar := joined (.sequence [slash, star, star])

def commentStart : Grammar := firstOf [lineStart, blockStart]

def lineComment : Grammar :=
  joined (.sequence
    [lineStart, joined (.many (.not newline)), firstOf [.skip .endOfText, newline]])

def blockComment : Grammar :=
  joined (firstOf
    ["/**/",
      .sequence [blockStart, .skip (.peek (.not star)), .many (.not blockEnd), blockEnd]])

def quotedBy (quote escapedQuote : Grammar) : Grammar :=
  joined (.sequence [quote, joined (.many (firstOf [escapedQuote, .not quote])), quote])

def singleQuoted : Grammar := quotedBy singleQuote escapedSingleQuote

def doubleQuoted : Grammar := quotedBy doubleQuote escapedDoubleQuote

/-- Text without a documentation comment; possibly nothing. -/
def filler : Grammar :=
  joined (.many (firstOf
    [singleQuoted, doubleQuoted, lineComment, blockComment, .not commentStart]))

def banner : Grammar :=
  .sequence [.many (.oneOf Charset.blank), .sequence [innerStar, optional " "]]

def documentationLine : Grammar :=
  head (.sequence
    [optional (.skip banner),
      firstOf
        [joined (.sequence
            [oneOrMore (.not (firstOf [newline, blockEnd])),
              firstOf [newline, .skip (.peek blockEnd)]]),
          newline]])

def documentationComment : Grammar :=
  head (.sequence
    [.skip documentationStart, .skip (optional " "), joined (.many documentationLine),
      .skip blockEnd])

/-- The only item of a list, or an empty list. -/
def onlyItem : Payload → Except Fault Payload
  | .list [item] => .ok item
  | .list _ => .ok (.list [])
  | _ => .error .wrongKind

def documentationComments : Grammar :=
  .map onlyItem (.sequence
    [.skip (optional filler), optional (separatedBy documentationComment (.skip filler)),
      .skip (optional filler)])

def document : Grammar := head (.sequence [documentationComments, .endOfText])

end Descent.Comment
