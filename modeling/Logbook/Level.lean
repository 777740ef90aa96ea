import Logbook.Text.Blank
import Logbook.Text.Number
import Logbook.Json.Decode

/-!
# Severity levels

The eight levels of severity of a log event, from emergency, the most severe
one with the value zero, to debug. A level passes a threshold that is at most
as severe. `Level.read` reads a level from its value, from its name or from its
short name, and `Level.name_injective` says that names tell levels apart.
-/

namespace Logbook

/-- How severe an event is. -/
inductive Level where
  | emergency
  | alert
  | critical
  | error
  | warning
  | notice
  | info
  | debug
  deriving DecidableEq, Repr, Inhabited

namespace Level

/-- Every level, the most severe first. -/
def all : List Level := [emergency, alert, critical, error, warning, notice, info, debug]

/-- The level of an event that names none. -/
def standard : Level := info

/-- The place of a level on the scale from zero to seven. -/
def value : Level → Nat
  | emergency => 0
  | alert => 1
  | critical => 2
  | error => 3
  | warning => 4
  | notice => 5
  | info => 6
  | debug => 7

/-- The level at a place of the scale. -/
def ofValue? (n : Nat) : Option Level := all[n]?

/-- The level is at least as severe as the threshold. -/
def passes (level threshold : Level) : Bool := level.value ≤ threshold.value

/-- The less severe of two levels. -/
def max (a b : Level) : Level := if a.value ≤ b.value then b else a

def name : Level → String
  | emergency => "Emergency"
  | alert => "Alert"
  | critical => "Critical"
  | error => "Error"
  | warning => "Warning"
  | notice => "Notice"
  | info => "Info"
  | debug => "Debug"

/-- The name in capitals. -/
def upperName : Level → String
  | emergency => "EMERGENCY"
  | alert => "ALERT"
  | critical => "CRITICAL"
  | error => "ERROR"
  | warning => "WARNING"
  | notice => "NOTICE"
  | info => "INFO"
  | debug => "DEBUG"

/-- The name in small letters. -/
def lowerName : Level → String
  | emergency => "emergency"
  | alert => "alert"
  | critical => "critical"
  | error => "error"
  | warning => "warning"
  | notice => "notice"
  | info => "info"
  | debug => "debug"

/-- The name in three letters. -/
def shortName : Level → String
  | emergency => "Emg"
  | alert => "Alr"
  | critical => "Crt"
  | error => "Err"
  | warning => "Wrn"
  | notice => "Ntc"
  | info => "Inf"
  | debug => "Dbg"

/-- The name in three capitals. -/
def shortUpperName : Level → String
  | emergency => "EMG"
  | alert => "ALR"
  | critical => "CRT"
  | error => "ERR"
  | warning => "WRN"
  | notice => "NTC"
  | info => "INF"
  | debug => "DBG"

/-- Why a text is no level. -/
structure ReadError where
  input : String
  deriving DecidableEq, Repr

def ReadError.message (e : ReadError) : String := "unrecognised log level '" ++ e.input ++ "'"

/-- The two texts are equal up to the case of ASCII letters. -/
def sameLetters (cs ds : List Char) : Bool := cs.map Char.toLower == ds.map Char.toLower

/-- The level that a text names: by its value, its name or its short name, with
    blanks around it, in any case of letters. A number of at most eight bits is
    always taken as a value. -/
def read (input : String) : Except ReadError Level :=
  let trimmed := Text.trim input.toList
  let found :=
    match Text.readUnsigned? 256 trimmed with
    | some n => ofValue? n
    | none => all.find? fun level =>
        sameLetters trimmed level.name.toList || sameLetters trimmed level.shortName.toList
  match found with
  | some level => .ok level
  | none => .error ⟨input⟩

/-- The level that a JSON text names. -/
def ofJsonText (s : String) : Except Json.ReadError Level :=
  match read s with
  | .ok level => .ok level
  | .error e => .error (.unsuitable e.message)

/-- The reader of a level in JSON, where it is a text. -/
def jsonReader : Json.Reader Level := fun cs => do
  let (s, rest) ← Json.textReader "a string" cs
  let level ← ofJsonText s
  .ok (level, rest)

def toJson (level : Level) : Json := .text level.lowerName

/-- The level in a whole JSON text. -/
def readJson (s : String) : Except Json.ReadError Level := Json.readAll jsonReader s.toList

@[simp] theorem ofValue?_value (level : Level) : ofValue? level.value = some level := by
  cases level <;> rfl

theorem value_lt (level : Level) : level.value < 8 := by cases level <;> decide

theorem value_injective {a b : Level} (h : a.value = b.value) : a = b := by
  have := ofValue?_value a
  rw [h, ofValue?_value] at this
  exact (Option.some.inj this).symm

theorem passes_iff {level threshold : Level} :
    level.passes threshold = true ↔ level.value ≤ threshold.value := by
  simp [passes]

theorem mem_all (level : Level) : level ∈ all := by cases level <;> decide

/-- Names tell levels apart. -/
theorem name_injective {a b : Level} (h : a.name = b.name) : a = b := by
  revert h
  cases a <;> cases b <;> decide

end Level

end Logbook
