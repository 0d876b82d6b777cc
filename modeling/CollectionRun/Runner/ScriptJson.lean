import CollectionRun.Json.Value
import CollectionRun.Json.StringLiteral
import CollectionRun.Runner.Basic

/-! A script that refuses to start gives its reason as `launch_error`. Any other has lists of
chunks under `stdout` and `stderr`, none by default, and a number under `exit`, by default zero.
-/

namespace CollectionRun

namespace Json.Value

def member? (v : Value) (name : String) : Option Value :=
  match v with
  | .object members => OrderedMap.findIn name members
  | _ => none

def asString? : Value → Option String
  | .string s => some s
  | _ => none

def asInt? : Value → Option Int
  | .integer n => some n
  | _ => none

def asArray : Value → List Value
  | .array items => items
  | _ => []

def items (v : Value) (name : String) : List Value := ((v.member? name).map asArray).getD []

def hexOctets : List Char → List UInt8
  | a :: b :: rest =>
    UInt8.ofNat ((StringLiteral.hexValue? a).getD 0 * 16 + (StringLiteral.hexValue? b).getD 0) ::
      hexOctets rest
  | _ => []

def octets (v : Value) : List UInt8 :=
  match v with
  | .string s => Text.Utf8.octetsOf s
  | v => hexOctets (((v.member? "hex").bind asString?).getD "").toList

end Json.Value

namespace Chunk

open Json

def ofJson (v : Value) : Chunk :=
  match (v.member? "fail").bind Value.asString?, (v.member? "repeat").bind Value.asString? with
  | some text, _ => .fault text
  | none, some text =>
    let times := ((v.member? "times").bind Value.asInt?).getD 0
    .octets (List.replicate times.toNat (Text.Utf8.octetsOf text)).flatten
  | none, none => .octets v.octets

def isEmpty : Chunk → Bool
  | .octets bs => bs.isEmpty
  | .fault _ => false

end Chunk

namespace Script

open Json

def chunks (v : Value) (stream : String) : List Chunk :=
  ((v.items stream).map Chunk.ofJson).filter (!·.isEmpty)

def ofJson (v : Value) : Script :=
  match (v.member? "launch_error").bind Value.asString? with
  | some text => .refuses text
  | none =>
    .plays (chunks v "stdout") (chunks v "stderr") (((v.member? "exit").bind Value.asInt?).getD 0)

end Script

end CollectionRun
