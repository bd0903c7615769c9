/-!
# Log lines

What the library reports on the way is data: entries of a level and a text, in order. Some texts, of errors
too, tell numbers in hexadecimal: `Hex.digits` has no leading zero, `Hex.padded` fills up to a width,
`Hex.marked` puts `0x` in front. The digits are lower case.
-/

namespace BootLogo

/-- How grave a log entry is. -/
inductive Log.Level where
  | error
  | warn
  | info
  | debug
  | trace
  deriving DecidableEq

/-- One log line. -/
structure Log.Entry where
  level : Log.Level
  text : String
  deriving DecidableEq

/-- Log entries in the order they were made. -/
abbrev Log := List Log.Entry

namespace Log

/-- Gravest first. -/
def Level.rank : Level → Nat
  | .error => 0
  | .warn => 1
  | .info => 2
  | .debug => 3
  | .trace => 4

def Level.name : Level → String
  | .error => "ERROR"
  | .warn => "WARN"
  | .info => "INFO"
  | .debug => "DEBUG"
  | .trace => "TRACE"

def Entry.line (entry : Entry) : String := entry.level.name ++ " " ++ entry.text

def Entry.warn (text : String) : Entry := ⟨.warn, text⟩

def Entry.info (text : String) : Entry := ⟨.info, text⟩

def Entry.debug (text : String) : Entry := ⟨.debug, text⟩

def Entry.trace (text : String) : Entry := ⟨.trace, text⟩

/-- The lines of `log` that are at least as grave as `threshold`. -/
def lines (log : Log) (threshold : Level) : List String :=
  (log.filter fun entry => entry.level.rank ≤ threshold.rank).map Entry.line

end Log

namespace Hex

/-- The hexadecimal digits of `value`, without leading zeros. -/
def digits (value : Nat) : String := String.ofList (Nat.toDigits 16 value)

/-- The hexadecimal digits of `value`, filled with zeros up to `width`. -/
def padded (width value : Nat) : String :=
  let ds := Nat.toDigits 16 value
  String.ofList (List.replicate (width - ds.length) '0' ++ ds)

/-- `0x` and the digits of `value`. -/
def marked (value : Nat) : String := "0x" ++ digits value

/-- `0x` and the eight digits of a 32-bit `value`. -/
def markedWord (value : Nat) : String := "0x" ++ padded 8 value

end Hex

end BootLogo
