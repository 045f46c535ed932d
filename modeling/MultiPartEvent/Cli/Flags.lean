import MultiPartEvent.Cli.Options
import MultiPartEvent.Indexer.Paging
import MultiPartEvent.Js.JsonReader
import MultiPartEvent.Js.Numbers
import MultiPartEvent.Reader.Packages

/-!
# Flags and environment variables

`Options` reads the flags of a parsed command line.  A flag of which the tool knows an environment
variable falls back to it; a blank variable counts as unset.  On top of it stand the values both
command lines share: integers in a range, 32-byte values, the network and the URLs.

What `new URL(text)` finds in a text is a parameter.
-/

namespace MultiPartEvent

/-- The command line, the environment, and the variable backing each flag. -/
structure Options where
  parsed : ParsedArgs
  env : JsString → Option JsString
  envForFlag : JsString → Option JsString

/-- A usage error. -/
def usage {α : Type} (message : JsString) : Except UsageError α := .error ⟨message⟩

namespace Options

variable (options : Options) (name : JsString)

/-- A flag's value from the command line only. -/
def flag : Option JsString :=
  match options.parsed.flags.get? name with
  | some (.text value) => some value
  | some .on | none => none

/-- A string flag or its environment variable. -/
def string : Option JsString :=
  match options.flag name with
  | some value => some value
  | none =>
    match (options.envForFlag name).bind options.env with
    | some fromEnv => if trimText fromEnv = [] then none else some (trimText fromEnv)
    | none => none

/-- A required string flag. -/
def required (what : JsString) : Except UsageError JsString :=
  match options.string name with
  | some value => .ok value
  | none => usage (what ++ js " is required: pass --" ++ name ++
      ((options.envForFlag name).map fun variableName => js " or set " ++ variableName).getD [])

/-- A switch. -/
def has : Bool := options.parsed.flags.get? name = some .on

/-- The value of decimal digits with a sign, or none: `/^[+-]?\d+$/u`. -/
def decimalInteger? (text : JsString) : Option ℤ :=
  if isDigits text then some (digitsNumber text)
  else if text.head? = some (charUnit '+') ∧ isDigits text.tail then some (digitsNumber text.tail)
  else if text.head? = some (charUnit '-') ∧ isDigits text.tail then some (-digitsNumber text.tail)
  else none

/-- An integer flag from `min` to `max`, with a default. -/
def integer (fallback max : JsNumber) (min : ℤ) : Except UsageError JsNumber :=
  match options.string name with
  | none => .ok fallback
  | some text =>
    match decimalInteger? (trimText text) with
    | some value =>
      if value.natAbs ≤ maxSafeInteger ∧ min ≤ value ∧ max.exceededBy value = false then
        .ok (.int value)
      else usage (js "--" ++ name ++ js " must be an integer from " ++ integerText min ++
        js " to " ++ max.text)
    | none => usage (js "--" ++ name ++ js " must be an integer from " ++ integerText min ++
        js " to " ++ max.text)

end Options

/-! ### Networks and URLs -/

/-- Public endpoints of a known network. -/
structure NetworkEndpoints where
  indexer : JsString
  indexerWs : JsString
  node : JsString

/-- Known public networks and their endpoints. -/
def networkDefaults (network : JsString) : Option NetworkEndpoints :=
  if network = js "stagenet" then
    some {
      indexer := js "https://indexer.stagenet.shielded.tools/api/v4/graphql"
      indexerWs := js "wss://indexer.stagenet.shielded.tools/api/v4/graphql/ws"
      node := js "https://rpc.stagenet.shielded.tools" }
  else none

/-- The network id. -/
def networkOf (options : Options) : JsString :=
  (options.string (js "network")).getD (js "stagenet")

/-- What the tools read of a URL. -/
structure Url where
  protocol : JsString
  hostname : JsString

/-- `new URL(text)`, if the text is one. -/
abbrev UrlParser := JsString → Option Url

/-- Check that a flag's value is an http(s) URL. -/
def httpUrl (parseUrl : UrlParser) (value flag : JsString) : Except UsageError JsString :=
  match parseUrl value with
  | none => usage (js "--" ++ flag ++ js " is not a URL")
  | some url =>
    if url.protocol ≠ js "http:" ∧ url.protocol ≠ js "https:" then
      usage (js "--" ++ flag ++ js " must be an http(s) URL")
    else .ok value

/-- The indexer URL: `--indexer`, or the network's public indexer. -/
def indexerUrlOf (parseUrl : UrlParser) (options : Options) (network : JsString) :
    Except UsageError JsString :=
  match (options.string (js "indexer")).or ((networkDefaults network).map NetworkEndpoints.indexer)
  with
  | none => usage (js "network '" ++ network ++ js "' has no default indexer; pass --indexer")
  | some url => httpUrl parseUrl url (js "indexer")

/-- A 32-byte value as 64 lowercase hex characters (an optional `0x` is dropped). -/
def hex32 (value flag : JsString) : Except UsageError JsString :=
  let hex := (dropHexPrefix value).map asciiLower
  if isAddress hex = true then .ok hex
  else usage (js "--" ++ flag ++ js " must be 64 hex characters")

end MultiPartEvent
