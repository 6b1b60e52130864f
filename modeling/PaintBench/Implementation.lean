import PaintBench.Json.Decode

/-!
# Implementations

An implementation is one version of the table app, written with one web framework and
served below the root of a local server. Its full name tells it from the others in
reports and in the names of result files.
-/

namespace PaintBench

/-- An implementation of the table app. -/
structure Implementation where
  name : String
  /-- the directory below the server root that holds the start page -/
  uri : String
  /-- whether rows keep their nodes when the data changes -/
  keyed : Bool
  version : Option String
  useShadowRoot : Bool
  /-- the element whose shadow root holds the app when `useShadowRoot` is set -/
  shadowRootHost : String
deriving DecidableEq, Repr

namespace Implementation

/-- The host of the shadow root where none is named. -/
def defaultShadowRootHost : String := "main-element"

/-- An implementation outside any shadow root. -/
def plain (name uri : String) (keyed : Bool) (version : Option String) : Implementation :=
  ⟨name, uri, keyed, version, false, defaultShadowRootHost⟩

/-- The name with the version and the keyed flag. -/
def fullName (i : Implementation) : String :=
  i.name ++ ((i.version.map ("-v" ++ ·)).getD "") ++ "-" ++
    (if i.keyed then "keyed" else "non-keyed")

/-- The fields of an implementation in their order. -/
def fields : List String :=
  ["name", "uri", "keyed", "version", "use_shadow_root", "shadow_root_host"]

/-- Read an implementation. -/
def decode (j : Json) : Option Implementation := do
  let r ← Json.Record.of? fields j
  let name ← r.required "name" Json.Decode.text
  let uri ← r.required "uri" Json.Decode.text
  let keyed ← r.required "keyed" Json.Decode.truth
  let version ← r.optionalOrMissing "version" Json.Decode.text
  let useShadowRoot ← r.withDefault "use_shadow_root" Json.Decode.truth false
  let shadowRootHost ←
    r.withDefault "shadow_root_host" Json.Decode.text defaultShadowRootHost
  some { name, uri, keyed, version, useShadowRoot, shadowRootHost }

/-- Write an implementation. -/
def encode (i : Implementation) : Json :=
  .obj [
    ("name", .str i.name),
    ("uri", .str i.uri),
    ("keyed", .bool i.keyed),
    ("version", .ofOption .str i.version),
    ("use_shadow_root", .bool i.useShadowRoot),
    ("shadow_root_host", .str i.shadowRootHost)]

end Implementation

/-- The name of the result file of a full name and a result kind. -/
def resultFileName (fullName resultKind : String) : String :=
  fullName ++ "_" ++ resultKind ++ ".json"

end PaintBench
