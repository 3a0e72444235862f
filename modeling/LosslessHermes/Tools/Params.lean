import LosslessHermes.Library.Json
import LosslessHermes.Library.Text
import LosslessHermes.Store.Records

/-!
# The parameters of a tool call

A handler reads its arguments from the JSON object that a provider sends, of any shape, and
returns a text. An argument of a wrong type is an error that the handler raises. What Python
makes of letters beyond ASCII, of floats and of times is given by `Python`.
-/

namespace LosslessHermes.Tools

/-- A float, cut to its integer part. -/
inductive Number
  | whole (n : Int)
  | infinite (negative : Bool)
  | nan
  deriving DecidableEq, Repr

structure Python where
  lower : String → String
  casefold : String → String
  /-- `float`, of a number or of a text, or the error that it raises. -/
  float : Json → Except String Number
  /-- `float` of the text of a float literal. -/
  canonical : FloatText → FloatText
  timestampText : Timestamp → String
  /-- A stored time in the timezone of the context. -/
  formatDisplayTime : String → String

def toolResult (payload : Json) : String :=
  payload.dumps

/-- `str(raw)`, where `raw` is a scalar. -/
def scalarText : Json → Option String
  | .str s => some s
  | .int n => some (String.ofList (JsonText.intText n))
  | .bool b => some (if b then "True" else "False")
  | .float x =>
      some (if x.text = "NaN" then "nan" else if x.text = "Infinity" then "inf"
        else if x.text = "-Infinity" then "-inf" else x.text)
  | _ => none

/-- A text that strips to nothing counts as absent. -/
def readStringParam (params : List (String × Json)) (key : String) :
    Except String (Option String) :=
  match Json.get? params key with
  | none | some .null => .ok none
  | some raw =>
      match scalarText raw with
      | none => .error ("`" ++ key ++ "` must be a string.")
      | some text => .ok (if Text.strip text = "" then none else some (Text.strip text))

def clamp (minimum maximum : Int) : Number → Number
  | .whole n => .whole (if n < minimum then minimum else if maximum < n then maximum else n)
  | .infinite negative => .whole (if negative then minimum else maximum)
  | .nan => .nan

def readNumberParam (py : Python) (params : List (String × Json)) (key : String)
    (minimum maximum default : Int) : Except String Number :=
  match Json.get? params key with
  | none | some .null => .ok (.whole default)
  | some (.str s) =>
      if Text.strip s = "" then .ok (.whole default)
      else
        match py.float (.str (Text.strip s)) with
        | .ok value => .ok (clamp minimum maximum value)
        | .error _ => .error ("`" ++ key ++ "` must be a number.")
  | some (.int n) => (py.float (.int n)).map (clamp minimum maximum)
  | some (.float x) => (py.float (.float x)).map (clamp minimum maximum)
  | some _ => .error ("`" ++ key ++ "` must be a number.")

/-- `int(value)`, where the value is not negative. -/
def intOf : Number → Except String Nat
  | .whole n => .ok n.toNat
  | .infinite _ => .error "cannot convert float infinity to integer"
  | .nan => .error "cannot convert float NaN to integer"

/-- An explicit key wins over that of the session. -/
def effectiveSessionKey (args : List (String × Json)) (sessionKey : Option String) :
    Except String (Option String) :=
  (readStringParam args "sessionKey").map fun
    | some key => some key
    | none =>
        match sessionKey with
        | some key => if Text.strip key = "" then none else some (Text.strip key)
        | none => none

end LosslessHermes.Tools
