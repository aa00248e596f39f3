/-
  FieldForest.Settings.Basic — the settings of a run and where they come from.

  There are two settings: how deep declarations may nest, and which messages are logged. Each
  is taken from what is given directly, else from the environment, else from a file of
  bindings, else it has a default. The depth lies between 1 and the deepest ever accepted.
  Whoever asks can be told which lines of the file of bindings cannot be read.
-/
import FieldForest.Declaration.Checked
import FieldForest.Nesting
import FieldForest.Number.Integer
import FieldForest.Settings.Bindings
import FieldForest.Text.Case

namespace FieldForest

inductive LogLevel where
  | critical
  | error
  | warning
  | info
  | debug
deriving DecidableEq

def LogLevel.name : LogLevel → Text
  | .critical => "CRITICAL"
  | .error => "ERROR"
  | .warning => "WARNING"
  | .info => "INFO"
  | .debug => "DEBUG"

/-- The settings; a depth that is set from outside is taken as it is. -/
structure Settings where
  depth : Int
  logLevel : LogLevel

/-- What is wrong with the value of a setting. -/
inductive SettingProblem where
  | notANumber
  | tooManyDigits
  | notInteger
  | notWhole
  | notFinite
  | loneSurrogate
  | tooSmall
  | tooLarge
  | unknownLevel
deriving DecidableEq

inductive SettingName where
  | depth
  | logLevel
deriving DecidableEq

def SettingName.key : SettingName → Text
  | .depth => "max_nesting_depth"
  | .logLevel => "log_level"

structure SettingFault where
  setting : SettingName
  problem : SettingProblem

namespace Settings

/-! ## Values of settings -/

/-- The number that a value is taken for. -/
def wholeNumber : Value → Except SettingProblem Int
  | .int n => .ok n
  | .bool b => .ok (if b then 1 else 0)
  | .float x =>
    match x.units? with
    | none => .error .notFinite
    | some _ =>
      match x.whole? with
      | none => .error .notWhole
      | some n => if n.natAbs < Nat.pow 2 63 then .ok n else .error .tooManyDigits
  | .text t =>
    if t.hasLoneSurrogate then .error .loneSurrogate
    else match Integer.ofText t with
      | .ok n => .ok n
      | .error .notANumber => .error .notANumber
      | .error .tooLong => .error .tooManyDigits
  | _ => .error .notInteger

/-- The depth that a value sets. -/
def depthOf (v : Value) : Except SettingProblem Int := do
  let n ← wholeNumber v
  if n < 1 then .error .tooSmall
  else if (Nesting.most : Int) < n then .error .tooLarge
  else .ok n

/-- A letter in upper case. Of the letters beyond ASCII only the dotless i has an upper case
    that occurs in the name of a level. -/
def upper : CodePoint → CodePoint
  | .char 'ı' => .char 'I'
  | .char c => .char c.toUpper
  | c => c

def levels : List LogLevel := [.critical, .error, .warning, .info, .debug]

/-- The level that a value names, in any case. -/
def logLevelOf : Value → Except SettingProblem LogLevel
  | .text t =>
    if t.hasLoneSurrogate then .error .loneSurrogate
    else match levels.find? (·.name == t.map upper) with
      | some level => .ok level
      | none => .error .unknownLevel
  | _ => .error .unknownLevel

/-! ## Where settings come from -/

/-- The name of a setting in the environment, in lower case. -/
def variableName (s : SettingName) : Text := "param_schema_" ++ s.key

/-- What stands outside: variables, and the text of the file of bindings if there is one. -/
structure Surroundings where
  environment : List (Text × Text)
  bindings : Option Text

/-- What is told about the file of bindings: a line for each line of it that cannot be read. -/
def Surroundings.notices (s : Surroundings) : Text :=
  ((s.bindings.map Bindings.unreadableLines).getD []).flatMap fun line =>
    "python-dotenv could not parse statement starting at line " ++ Text.ofNat line ++ "\n"

/-- The text that a setting has from outside: from the last variable of its name in any case,
    else from the last binding. -/
def fromOutside? (s : Surroundings) (name : SettingName) : Option Text :=
  match s.environment.reverse.find? (·.1.lower == variableName name) with
  | some (_, value) => some value
  | none => do
    let bound := Bindings.read s.environment (← s.bindings)
    (bound.reverse.find? (·.1.lower == variableName name)).bind (·.2)

/-- The value that is given to a setting: under its own name, else under the first name that is
    the same but for case. -/
def givenTo? (given : List (Text × Value)) (name : SettingName) : Option Value :=
  ((given.find? (·.1 == name.key)).or (given.find? (·.1.lower == name.key))).map (·.2)

/-- The value of a setting, from what is given directly or else from outside. -/
def value? (given : List (Text × Value)) (s : Surroundings) (name : SettingName) : Option Value :=
  (givenTo? given name).or ((fromOutside? s name).map .text)

/-- The settings in force, or everything that is wrong with them. -/
def load (given : List (Text × Value)) (s : Surroundings) : Except (List SettingFault) Settings :=
  let depth : Except SettingProblem Int := match value? given s .depth with
    | some v => depthOf v
    | none => .ok Nesting.usual
  let level : Except SettingProblem LogLevel := match value? given s .logLevel with
    | some v => logLevelOf v
    | none => .ok .warning
  match depth, level with
  | .ok depth, .ok level => .ok ⟨depth, level⟩
  | .error p, .ok _ => .error [⟨.depth, p⟩]
  | .ok _, .error q => .error [⟨.logLevel, q⟩]
  | .error p, .error q => .error [⟨.depth, p⟩, ⟨.logLevel, q⟩]

/-- The settings with another depth, if one is given. -/
def withDepth (s : Settings) : Option Int → Settings
  | some depth => { s with depth }
  | none => s

def display (s : Settings) : Text :=
  "Config(max_nesting_depth=" ++ Text.ofInt s.depth ++ ", log_level=" ++ s.logLevel.name.quoted ++ ")"

end Settings

end FieldForest
