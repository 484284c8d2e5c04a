import XivelyClient.Mqtt.DataHelpers

/-! What the library keeps about the connection of a context (`xi_connection_data_t`), with every
allocation succeeding. -/
namespace XivelyClient

inductive ConnectionState
  | uninitialized | opening | opened | closing | closed | openFailed
  deriving DecidableEq, Repr

/-- What the caller of a connect function asks for. -/
structure ConnectionRequest where
  host : Option (List UInt8) := none
  port : UInt16 := 0
  username : Option (List UInt8) := none
  password : Option (List UInt8) := none
  connectionTimeout : UInt16 := 0
  keepaliveTimeout : UInt16 := 0
  sessionType : SessionType := .clean
  willTopic : Option (List UInt8) := none
  willMessage : Option (List UInt8) := none
  willQos : Nat := 0
  willRetain : Nat := 0
  deriving DecidableEq, Repr

structure ConnectionData extends ConnectionRequest where
  connectionState : ConnectionState := .uninitialized
  deriving DecidableEq, Repr

namespace ConnectionData

def allocLastwill (request : ConnectionRequest) : ConnectionData := {toConnectionRequest := request}

/-- A string that is not given is kept. The stored one is compared with the given one by `strcmp`, which
has no answer where nothing is stored. -/
def updateString (stored given : Option (List UInt8)) : Option (Option (List UInt8)) :=
  match given,stored with
  | none,stored => some stored
  | some _,none => none
  | some given,some _ => some (some given)

def updateLastwill (data : ConnectionData) (request : ConnectionRequest) : Option ConnectionData := do
  let host ← updateString data.host request.host
  let username ← updateString data.username request.username
  let password ← updateString data.password request.password
  let willTopic ← updateString data.willTopic request.willTopic
  let willMessage ← updateString data.willMessage request.willMessage
  return {
    request with
    host := host
    username := username
    password := password
    willTopic := willTopic
    willMessage := willMessage
    connectionState := data.connectionState}

end ConnectionData

end XivelyClient
