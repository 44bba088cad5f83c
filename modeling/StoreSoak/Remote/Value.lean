import StoreSoak.Remote.Failure
import StoreSoak.Text.Basic
import StoreSoak.Text.Utf8

/-!
What a remote store replies.

* `Value.error?` is the first error in a reply, also inside an array; a reply with an error in it is
  that error.
* `Value.text?` and `Value.truth?` read a reply as an optional text and as a truth value; `debug` is
  its form in diagnostics.
-/

namespace StoreSoak.Remote

/-- A reply of the server. -/
inductive Value where
  | nil
  | int (i : Int)
  | bulk (bytes : List UInt8)
  | status (s : String)
  | array (items : List Value)
  | error (s : String)
  deriving Inhabited

namespace Value

mutual

/-- The first error in a reply. -/
def error? : Value → Option String
  | .error s => some s
  | .array items => errorIn? items
  | _ => none

/-- The first error in a row of replies. -/
def errorIn? : List Value → Option String
  | [] => none
  | v :: rest =>
    match error? v with
    | some s => some s
    | none => errorIn? rest

end

/-- A reply of bytes in diagnostics: as text where it is text. -/
def debugBytes (bytes : List UInt8) : String :=
  match Text.ofUtf8 bytes with
  | .ok s => "bulk-string('" ++ Text.quote s ++ "')"
  | .error _ =>
    "binary-data([" ++ String.intercalate ", " (bytes.map fun b => toString b.toNat) ++ "])"

mutual

/-- A reply in diagnostics. -/
def debug : Value → String
  | .nil => "nil"
  | .int i => "int(" ++ String.ofList (Text.integer i) ++ ")"
  | .bulk bytes => debugBytes bytes
  | .status s => if s = "OK" then "ok" else "simple-string(" ++ Text.quote s ++ ")"
  | .array items => "array([" ++ String.intercalate ", " (debugList items) ++ "])"
  | .error s => "Err(" ++ Text.quote s ++ ")"

/-- A row of replies in diagnostics. -/
def debugList : List Value → List String
  | [] => []
  | v :: rest => debug v :: debugList rest

end

/-- The failure to read a reply. -/
def incompatible (v : Value) (reason : String) : Failure :=
  .described .type "Response was of incompatible type"
    (some (Text.quote reason ++ " (response was " ++ v.debug ++ ")"))

/-- A reply as a text that may be missing. -/
def text? : Value → Except Failure (Option String)
  | .nil => .ok none
  | .int i => .ok (some (String.ofList (Text.integer i)))
  | .bulk bytes =>
    match Text.ofUtf8 bytes with
    | .ok s => .ok (some s)
    | .error _ => .error (.described .type "Cannot convert from UTF-8" none)
  | .status s => .ok (some s)
  | v => .error (v.incompatible "Response type not string compatible.")

/-- A reply as a truth value. -/
def truth? : Value → Except Failure Bool
  | .nil => .ok false
  | .int i => .ok (i ≠ 0)
  | .status s =>
    if s = "OK" || s = "1" then .ok true
    else if s = "0" then .ok false
    else .error (incompatible (.status s) "Response status not valid boolean")
  | .bulk bytes =>
    if bytes = [49] then .ok true
    else if bytes = [48] then .ok false
    else .error (incompatible (.bulk bytes) "Response type not bool compatible.")
  | v => .error (v.incompatible "Response type not bool compatible.")

end Value

end StoreSoak.Remote
