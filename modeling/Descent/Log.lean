import Descent.Text.Basic

/-! Records of what a run did. -/

namespace Descent.Log

inductive Source where
  | engine
  | extraction
  | command
  deriving DecidableEq

inductive Level where
  | debug
  | warning
  deriving DecidableEq

namespace Level

def rank : Level → Nat
  | debug => 10
  | warning => 30

end Level

structure Record where
  source : Source
  level : Level
  message : Text
  deriving DecidableEq

def debug (source : Source) (message : Text) : Record := { source, level := .debug, message }

def atLeast (level : Level) (records : List Record) : List Record :=
  records.filter fun record => level.rank ≤ record.level.rank

end Descent.Log
