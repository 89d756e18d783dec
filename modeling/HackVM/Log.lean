import HackVM.Text.Blank
import HackVM.Text.Case
import HackVM.Text.Decimal
import HackVM.Text.Quoted

/-!
# Log records

A log record is written on one line as `level=… msg=…` and its attributes as `key=value`. Texts
stand for themselves where they cannot be mistaken, and are quoted where they can. A log keeps the
records at or above its level.
-/

namespace HackVM

/-- The levels of a log, the least important first. -/
inductive LogLevel
  | debug
  | info
  | warn
  | error
  deriving DecidableEq, Repr

namespace LogLevel

/-- All levels. -/
def all : List LogLevel := [debug, info, warn, error]

/-- The name of a level. -/
def name : LogLevel → Text
  | debug => utf8 "debug"
  | info => utf8 "info"
  | warn => utf8 "warn"
  | error => utf8 "error"

/-- The name of a level as it stands in a log. -/
def tag : LogLevel → Text
  | debug => utf8 "DEBUG"
  | info => utf8 "INFO"
  | warn => utf8 "WARN"
  | error => utf8 "ERROR"

/-- How important a level is. -/
def severity : LogLevel → Int
  | debug => -4
  | info => 0
  | warn => 4
  | error => 8

/-- The level of a name, letter case left aside. -/
def ofName? (t : Text) : Option LogLevel := all.find? fun l => l.name == t.lower

end LogLevel

/-- The message about a name that is no level. -/
def invalidLevelMessage (t : Text) : Text := utf8 "invalid log level: " ++ t

/-- The value of an attribute. -/
inductive LogValue
  | text (t : Text)
  | int (n : Int)
  | bool (b : Bool)
  deriving DecidableEq, Repr

/-- A log record. -/
structure LogRecord where
  level : LogLevel
  message : Text
  attributes : List (Text × LogValue) := []
  deriving DecidableEq, Repr

/-- Does a text with this rune need quotes in a log? -/
def Rune.needsQuotes : Rune → Bool
  | .stray _ => true
  | .scalar c =>
    let n := c.toNat
    if n < 0x80 then n ≤ 0x20 || c == '=' || c == '"'
    else n == 0xFFFD || isBlankCode n || !isPrintableCode n

/-- A text in a log. -/
def logText (t : Text) : Text := if t = [] ∨ t.runes.any Rune.needsQuotes then t.quoted else t

/-- A value in a log. -/
def LogValue.render : LogValue → Text
  | text t => logText t
  | int n => Text.ofInt n
  | bool true => utf8 "true"
  | bool false => utf8 "false"

namespace LogRecord

/-- The line of a record. -/
def render (r : LogRecord) : Text :=
  utf8 "level=" ++ r.level.tag ++ utf8 " msg=" ++ logText r.message ++
    r.attributes.flatMap fun (key, value) => utf8 " " ++ logText key ++ utf8 "=" ++ value.render

/-- The lines of a log of the given level. -/
def renderAll (level : LogLevel) (rs : List LogRecord) : List Text :=
  (rs.filter fun r => level.severity ≤ r.level.severity).map render

end LogRecord

end HackVM
