import StopAlign.Fault

/-!
# Journal — what a run reports while it works

- `Level`, `Level.rank` : the four levels of a line
- `Line`                : a level and a text
- `Threshold`           : the least level that is shown, by name or by rank
- `Threshold.rank`      : the least rank that is shown
- `shownLines`          : the lines at or above a rank
-/

namespace StopAlign

inductive Level
  | debug
  | info
  | warning
  | error
  deriving DecidableEq, Repr

namespace Level

def name : Level → String
  | .debug => "DEBUG"
  | .info => "INFO"
  | .warning => "WARNING"
  | .error => "ERROR"

/-- Higher ranks are more serious. -/
def rank : Level → Int
  | .debug => 10
  | .info => 20
  | .warning => 30
  | .error => 40

end Level

structure Line where
  level : Level
  text : String
  deriving DecidableEq, Repr

namespace Line

def debug (text : String) : Line := ⟨.debug, text⟩

def info (text : String) : Line := ⟨.info, text⟩

def warning (text : String) : Line := ⟨.warning, text⟩

def error (text : String) : Line := ⟨.error, text⟩

/-- The line as it is shown: level, two spaces, text. -/
def shown (line : Line) : String := line.level.name ++ "  " ++ line.text

end Line

/-! ## Thresholds -/

inductive Threshold
  | named (name : String)
  | ranked (rank : Int)
  | real (rank : Float)

/-- The capitals of a character that are ASCII, or the character itself. -/
def capitals (c : Char) : List Char :=
  match c with
  | 'ß' => ['S', 'S']
  | 'ı' => ['I']
  | 'ſ' => ['S']
  | 'ﬀ' => ['F', 'F']
  | 'ﬁ' => ['F', 'I']
  | 'ﬂ' => ['F', 'L']
  | 'ﬃ' => ['F', 'F', 'I']
  | 'ﬄ' => ['F', 'F', 'L']
  | 'ﬅ' | 'ﬆ' => ['S', 'T']
  | c => [c.toUpper]

/-- The rank for the name of a level, in any case. An unknown name counts as info; two names stand
for values that are no levels. -/
def rankOf (name : String) : Except Fault Int :=
  match String.ofList (name.toList.flatMap capitals) with
  | "NOTSET" => return 0
  | "DEBUG" => return 10
  | "WARNING" | "WARN" => return 30
  | "ERROR" => return 40
  | "CRITICAL" | "FATAL" => return 50
  | "BASIC_FORMAT" => throw (.unknownLevel "%(levelname)s:%(name)s:%(message)s")
  | "_STYLES" =>
    throw (.levelKind ("\x7b'%': (<class 'logging.PercentStyle'>, "
      ++ "'%(levelname)s:%(name)s:%(message)s'), "
      ++ "'\x7b': (<class 'logging.StrFormatStyle'>, "
      ++ "'\x7blevelname\x7d:\x7bname\x7d:\x7bmessage\x7d'), "
      ++ "'$': (<class 'logging.StringTemplateStyle'>, "
      ++ "'$\x7blevelname\x7d:$\x7bname\x7d:$\x7bmessage\x7d')\x7d"))
  | _ => return 20

def Threshold.rank : Threshold → Except Fault Int
  | .named name => rankOf name
  | .ranked rank => return rank
  | .real rank => throw (.levelKind (Number.writeReal rank))

def shownLines (least : Int) (lines : List Line) : List Line :=
  lines.filter fun line => least ≤ line.level.rank

end StopAlign
